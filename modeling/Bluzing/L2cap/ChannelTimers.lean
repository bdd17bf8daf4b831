import Bluzing.L2cap.ChannelRuns

/-! A channel that is connecting, configuring or disconnecting has its RTX timer pending. -/
namespace Bluzing.L2cap

def ChannelState.waits : ChannelState → Bool
  | .free | .opened => false
  | .waitConnectRsp | .config | .waitDisconnectRsp => true

def Manager.TimersArmed (m : Manager) : Prop :=
  ∀ s, (m.channels s).state.waits = true → s ∈ m.timers.timers

def ConfiguredEarly (link : Link) (w : World) (input : Input) : Prop :=
  ∃ s, configuredBy link w input = some s ∧ (w.chan s).inboundConfigDone = false

variable {link : Link} {send : Send} {w : World} {input : Input} {m m' : Manager} {s : Slot}

lemma Sets.armed {c : Channel} {pending : Prop} (hs : Sets m m' s c pending)
    (ha : m.TimersArmed) (hc : c.state.waits = true → pending) : m'.TimersArmed := by
  intro j hj
  rw [hs.timers]
  rw [hs.channels] at hj
  by_cases h : j = s
  · subst h
    rw [Function.update_self] at hj
    simpa using hc hj
  · rw [Function.update_of_ne h] at hj
    simpa [h] using ha j hj

lemma Moves.armed (h : Moves link w input m) (ha : w.mgr.TimersArmed)
    (hn : ¬ ConfiguredEarly link w input) : m.TimersArmed := by
  cases h with
  | idle hc ht _ =>
    intro s hs
    rw [ht]
    exact ha s (by rwa [hc] at hs)
  | connects s _ _ hs _ | configures s _ _ _ _ _ _ _ hs _ | disconnects s _ _ _ hs _ =>
    exact hs.armed ha fun _ => trivial
  | refused s c _ hfree _ hs _ =>
    exact hs.armed ha fun hc => by simp [hfree, ChannelState.waits] at hc
  | registers s _ _ _ hs | closes s _ hs => exact hs.armed ha nofun
  | acceptsRequest s _ _ _ _ hst hs _ =>
    have hconfig : (w.chan s).state.waits = true := by rw [hst]; rfl
    exact hs.armed ha fun _ => ha s hconfig
  | acceptsResponse s _ _ _ _ _ _ hi hs _ =>
    have hin : (w.chan s).inboundConfigDone = true := by
      by_contra hin
      exact hn ⟨s, hi, by simpa using hin⟩
    refine hs.armed ha fun hc => ?_
    simp [hin, ChannelState.waits] at hc

lemma apply_armed (hq : Quiet send) (ha : w.mgr.TimersArmed)
    (hn : ¬ ConfiguredEarly link w input) : (apply link send w input).mgr.TimersArmed := by
  refine apply_keeps hq (fun w input m h ha hn => h.armed ha hn) (fun w nowUs => ?_) ha hn
  rintro ⟨s, hs, -⟩
  cases hs

lemma apply_early (send : Send) (hs : configuredBy link w input = some s)
    (hin : (w.chan s).inboundConfigDone = false) :
    ((apply link send w input).chan s).state = .config ∧
      ¬ (apply link send w input).timerPending s := by
  unfold configuredBy at hs
  split at hs
  · cases hs
  next hdr data hcmd =>
  split at hs
  next hcode =>
    obtain ⟨ra, nowUs, happly⟩ := apply_command send hcmd
    obtain ⟨hfind, hguard⟩ := Option.filter_eq_some_iff.mp hs
    obtain ⟨hstate, hresult⟩ := of_decide_eq_true hguard
    obtain ⟨rsp, hparse, hresult⟩ : ∃ rsp, sigParseConfigureResponse data = .ok rsp ∧
        rsp.result = configResultSuccess := by
      cases hp : sigParseConfigureResponse data with
      | error => simp [hp, Except.toOption] at hresult
      | ok rsp => exact ⟨rsp, rfl, by simpa [hp, Except.toOption] using hresult⟩
    have hfind' : findChannelByIdentifier (w.received ra) hdr.identifier = some s := hfind
    rw [happly, dispatchCommand_configureResponse _ _ _ _ _ hcode]
    simp [handleConfigureResponse, hfind', hstate, hparse, hresult, hin, World.timerPending]
  · cases hs

/-- In every run: all states have the timers armed exactly when no Configure Request of the manager
is accepted before the peer's own has been. -/
theorem run_timersArmed_iff (link : Link) (port : ℕ → Bool) (inputs : List Input) :
    (∀ done rest, done ++ rest = inputs → (run link port done).mgr.TimersArmed) ↔
      ∀ done input rest, done ++ input :: rest = inputs →
        ¬ ConfiguredEarly link (run link port done) input := by
  refine foldl_invariant_iff (I := fun w : World => w.mgr.TimersArmed) ?_ ?_ ?_ inputs
  · intro s hs
    cases hs
  · exact fun w input ha hn => apply_armed (answerWith_quiet port) ha hn
  · rintro w input ⟨s, hs, hin⟩ ha
    obtain ⟨hstate, hpending⟩ := apply_early (answerWith port) hs hin
    refine hpending (ha s ?_)
    rw [show ((apply link (answerWith port) w input).mgr.channels s).state = .config from hstate]
    rfl

/-! A classic link whose peer accepts the connection and the Configure Request, and never
sends a Configure Request of its own. -/

def classicLink : Link := .init 0x0001 0x0001 512

def silentPeer : List Input :=
  [.open 0x0011 0 true 0,
    .onAcl 0x02 [12, 0, 0x01, 0, 0x03, 1, 8, 0, 0x50, 0, 0x40, 0, 0, 0, 0, 0] 1,
    .onAcl 0x02 [10, 0, 0x01, 0, 0x05, 2, 6, 0, 0x40, 0, 0, 0, 0, 0] 2]

/-- The channel waits in CONFIG with no timer, and no tick ever closes it. -/
theorem silentPeer_stalls :
    let w := run classicLink (fun _ => true) silentPeer
    (w.chan 0).state = .config ∧ ¬ w.timerPending 0 ∧
      ∀ nowUs, channelManagerTick w nowUs = w := by
  refine ⟨by decide +kernel, by decide +kernel, fun nowUs => ?_⟩
  rfl

end Bluzing.L2cap
