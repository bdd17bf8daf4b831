import Bluzing.Lib.History
import Bluzing.Manager.Manager

/-! The transport's `open` and `close` over any sequence of calls of the manager: which calls leave
the transport open behind an error, or close it when it is not open. -/
namespace Bluzing.Manager
open Controller (Ctrl Cmdq Host controllerStart cmdqSubmit)

def isOpen : List Event → Bool
  | [] => false
  | .opened true :: _ => true
  | .closed :: _ => false
  | .opened false :: h | .receiveStarted _ :: h | .receiveStopped :: h | .startReturned _ :: h =>
      isOpen h

def opens (h : List Event) : ℕ := h.count (.opened true)

def closes (h : List Event) : ℕ := h.count .closed

def Fitting (e : Event) (older : List Event) : Prop :=
  match e with
  | .closed | .receiveStopped => isOpen older = true
  | .startReturned status =>
      status ≠ .ok → isOpen older = false ∧ opens older = closes older
  | .opened _ | .receiveStarted _ => True

def Balanced (w : World) : Prop := Always Fitting w.history

def failsToStart (env : Env) (depth : ℕ) (w : World) (nowUs : ℕ) : Prop :=
  (controllerStart (send env depth) env.fuel w.controller nowUs).1.host.state = .error

def Unbalances (env : Env) (depth : ℕ) (w : World) : Input → Prop
  | .start openOk receiveOk nowUs =>
      isOpen w.history = true ∨
        (w.state = .stopped ∧ openOk = true ∧ receiveOk = true ∧ failsToStart env depth w nowUs)
  | .stop => w.state = .error ∧ isOpen w.history = false
  | .tick _ | .receive _ => False

variable {env : Env} {depth : ℕ} {w : World}

structure Consistent (w : World) : Prop where
  stopped : w.state = .stopped → isOpen w.history = false ∧
    w.controller.host.state = .uninitialized ∧ w.controller.q = Cmdq.init
  running : w.state = .running → isOpen w.history = true
  settled : w.state ≠ .starting

def Counted (h : List Event) : Prop := opens h = closes h + (isOpen h).toNat

lemma controllerStart_ok {c : Ctrl} (hstate : c.host.state = .uninitialized)
    (hq : c.q = Cmdq.init) (send : Controller.Send Controller.OnComplete Host) (fuel nowUs : ℕ) :
    (controllerStart send fuel c nowUs).2 = .ok := by
  have hsubmit : (cmdqSubmit c Controller.opcodeReset none 0 0
      (some Controller.OnComplete.onResetComplete)).2 = .ok := by
    unfold cmdqSubmit
    rw [hq]
    rfl
  unfold controllerStart
  rw [if_neg (not_not_intro hstate)]
  rw [if_neg (not_not_intro hsubmit)]

inductive Started (env : Env) (depth : ℕ) (w : World) (openOk receiveOk : Bool) (nowUs : ℕ) :
    World → Prop where
  | refused (busy : w.state ≠ .stopped) : Started env depth w openOk receiveOk nowUs
      (w.emit (.startReturned .invalidArgument))
  | unopened (stopped : w.state = .stopped) (fails : openOk = false) :
      Started env depth w openOk receiveOk nowUs
        ⟨w.controller, .error, .startReturned .io :: .opened false :: w.history⟩
  | deaf (stopped : w.state = .stopped) (fails : receiveOk = false) :
      Started env depth w openOk receiveOk nowUs ⟨w.controller, .error,
        .startReturned .io :: .closed :: .receiveStarted false :: .opened true :: w.history⟩
  | failed (c : Ctrl) (stopped : w.state = .stopped) (opens : openOk = true)
      (receives : receiveOk = true) (fails : failsToStart env depth w nowUs) :
      Started env depth w openOk receiveOk nowUs
        ⟨c, .error, .startReturned .io :: .receiveStarted true :: .opened true :: w.history⟩
  | running (c : Ctrl) (stopped : w.state = .stopped) (works : ¬ failsToStart env depth w nowUs) :
      Started env depth w openOk receiveOk nowUs
        ⟨c, .running, .startReturned .ok :: .receiveStarted true :: .opened true :: w.history⟩

lemma start_stopped {nowUs : ℕ} (hstopped : w.state = .stopped)
    (hok : (controllerStart (send env depth) env.fuel w.controller nowUs).2 = .ok) :
    start env depth w true true nowUs =
      let c := (controllerStart (send env depth) env.fuel w.controller nowUs).1
      let history := .receiveStarted true :: .opened true :: w.history
      if c.host.state = .error then (⟨c, .error, history⟩, .io)
      else (⟨c, .running, history⟩, .ok) := by
  unfold start
  rw [if_neg (not_not_intro hstopped)]
  exact if_neg (not_not_intro hok)

lemma managerStart_started (env : Env) (depth : ℕ) (h : Consistent w) (openOk receiveOk : Bool)
    (nowUs : ℕ) :
    Started env depth w openOk receiveOk nowUs
      (managerStart env depth w openOk receiveOk nowUs) := by
  unfold managerStart
  by_cases hstopped : w.state = .stopped
  · obtain ⟨-, hstate, hq⟩ := h.stopped hstopped
    cases openOk with
    | false =>
      rw [start, if_neg (not_not_intro hstopped)]
      exact .unopened hstopped rfl
    | true =>
      cases receiveOk with
      | false =>
        rw [start, if_neg (not_not_intro hstopped)]
        exact .deaf hstopped rfl
      | true =>
        rw [start_stopped hstopped (controllerStart_ok hstate hq _ _ _)]
        dsimp only
        split
        next hfails => exact .failed _ hstopped rfl rfl hfails
        next hworks => exact .running _ hstopped hworks
  · rw [start, if_pos hstopped]
    exact .refused hstopped

lemma managerTick_cases (env : Env) (depth : ℕ) (w : World) (nowUs : ℕ) :
    managerTick env depth w nowUs = w ∨
      (w.state = .running ∧ ∃ c state, managerTick env depth w nowUs = ⟨c, state, w.history⟩ ∧
        (state = .running ∨ state = .error)) := by
  unfold managerTick
  by_cases hrunning : w.state = .running
  · rw [if_neg (not_not_intro hrunning)]
    refine .inr ⟨hrunning, ?_⟩
    dsimp only
    split
    · exact ⟨_, .error, rfl, .inr rfl⟩
    · exact ⟨_, w.state, rfl, .inl hrunning⟩
  · exact .inl (if_pos hrunning)

lemma Consistent.init : Consistent managerInit :=
  ⟨fun _ => ⟨rfl, rfl, rfl⟩, nofun, nofun⟩

lemma Consistent.apply (h : Consistent w) (input : Input) :
    Consistent (apply env depth w input) := by
  cases input with
  | start openOk receiveOk nowUs =>
    have hstarted := managerStart_started env depth h openOk receiveOk nowUs
    rw [Manager.apply]
    generalize managerStart env depth w openOk receiveOk nowUs = w' at hstarted
    cases hstarted with
    | refused busy => exact ⟨fun hstopped => absurd hstopped busy, h.running, h.settled⟩
    | unopened | deaf | failed => exact ⟨nofun, nofun, nofun⟩
    | running c stopped works => exact ⟨nofun, fun _ => rfl, nofun⟩
  | tick nowUs =>
    rw [Manager.apply]
    obtain hsame | ⟨hrunning, c, state, htick, rfl | rfl⟩ := managerTick_cases env depth w nowUs
    · rw [hsame]
      exact h
    · rw [htick]
      exact ⟨nofun, fun _ => h.running hrunning, nofun⟩
    · rw [htick]
      exact ⟨nofun, nofun, nofun⟩
  | stop =>
    rw [Manager.apply, managerStop]
    split
    · exact h
    · exact ⟨fun _ => ⟨rfl, rfl, rfl⟩, nofun, nofun⟩
  | receive data =>
    rw [Manager.apply, managerReceive]
    split
    · exact h
    next hlistens =>
      refine ⟨fun hstopped => ?_, h.running, h.settled⟩
      exact absurd (.inl hstopped) hlistens

lemma Counted.closed {h : List Event} (hc : Counted h) (hclosed : isOpen h = false) :
    opens h = closes h := by
  unfold Counted at hc
  rw [hclosed] at hc
  exact hc

lemma Counted.opened {h : List Event} (hc : Counted h) (hopen : isOpen h = true) :
    opens h = closes h + 1 := by
  unfold Counted at hc
  rw [hopen] at hc
  exact hc

lemma Balanced.apply (h : Consistent w) (hb : Balanced w) (hc : Counted w.history) {input : Input}
    (hfair : ¬ Unbalances env depth w input) :
    Balanced (apply env depth w input) ∧ Counted (Manager.apply env depth w input).history := by
  cases input with
  | start openOk receiveOk nowUs =>
    have hclosed := Bool.eq_false_iff.mpr fun hopen => hfair (.inl hopen)
    have hcount := hc.closed hclosed
    have hstarted := managerStart_started env depth h openOk receiveOk nowUs
    rw [Manager.apply]
    generalize managerStart env depth w openOk receiveOk nowUs = w' at hstarted
    cases hstarted with
    | refused busy =>
      refine ⟨hb.cons fun _ => ⟨hclosed, hcount⟩, ?_⟩
      simpa [World.emit, Counted, opens, closes, isOpen] using hc
    | unopened stopped fails =>
      have hopened : Always Fitting (.opened false :: w.history) := hb.cons trivial
      refine ⟨hopened.cons fun _ => ⟨hclosed, ?_⟩, ?_⟩
      · simpa [opens, closes] using hcount
      · simpa [Counted, opens, closes, isOpen] using hc
    | deaf stopped fails =>
      have hopened : Always Fitting (.receiveStarted false :: .opened true :: w.history) :=
        (hb.cons trivial).cons trivial
      have hshut : Always Fitting
          (.closed :: .receiveStarted false :: .opened true :: w.history) := hopened.cons rfl
      refine ⟨hshut.cons fun _ => ⟨rfl, ?_⟩, ?_⟩
      · simpa [opens, closes] using hcount
      · simpa [Counted, opens, closes, isOpen] using hcount
    | failed c stopped opens receives fails =>
      exact absurd (.inr ⟨stopped, opens, receives, fails⟩) hfair
    | running c stopped works =>
      refine ⟨((hb.cons trivial).cons trivial).cons fun hnot => absurd rfl hnot, ?_⟩
      simpa [Counted, opens, closes, isOpen] using hcount
  | tick nowUs =>
    rw [Manager.apply]
    obtain hsame | ⟨-, c, state, htick, -⟩ := managerTick_cases env depth w nowUs
    · rw [hsame]
      exact ⟨hb, hc⟩
    · rw [htick]
      exact ⟨hb, hc⟩
  | stop =>
    rw [Manager.apply, managerStop]
    split
    · exact ⟨hb, hc⟩
    next hactive =>
      have hopen : isOpen w.history = true := by
        cases hstate : w.state with
        | stopped => exact absurd hstate hactive
        | starting => exact absurd hstate h.settled
        | running => exact h.running hstate
        | error => exact Bool.not_eq_false _ ▸ fun hclosed => hfair ⟨hstate, hclosed⟩
      have hdeaf : Always Fitting (.receiveStopped :: w.history) := hb.cons hopen
      refine ⟨hdeaf.cons hopen, ?_⟩
      simpa [World.emit, Counted, opens, closes, isOpen] using hc.opened hopen
  | receive data =>
    rw [Manager.apply, managerReceive]
    split
    · exact ⟨hb, hc⟩
    · exact ⟨hb, hc⟩

lemma Unbalances.not_balanced (h : Consistent w) {input : Input}
    (hunfair : Unbalances env depth w input) : ¬ Balanced (apply env depth w input) := by
  cases input with
  | start openOk receiveOk nowUs =>
    intro hb
    have hfresh (hstopped : w.state = .stopped) := Bool.eq_false_iff.mp (h.stopped hstopped).1
    have hstarted := managerStart_started env depth h openOk receiveOk nowUs
    rw [Manager.apply] at hb
    generalize managerStart env depth w openOk receiveOk nowUs = w' at hstarted hb
    cases hstarted with
    | refused busy =>
      obtain hopen | ⟨hstopped, -⟩ := hunfair
      · obtain ⟨hclosed, -⟩ : isOpen w.history = false ∧ _ := hb.head (by decide)
        exact absurd (hopen.symm.trans hclosed) (by decide)
      · exact busy hstopped
    | unopened stopped fails =>
      obtain hopen | ⟨-, hopens, -⟩ := hunfair
      · exact hfresh stopped hopen
      · cases fails.symm.trans hopens
    | deaf stopped fails =>
      obtain hopen | ⟨-, -, hreceives, -⟩ := hunfair
      · exact hfresh stopped hopen
      · cases fails.symm.trans hreceives
    | failed c stopped opens receives fails =>
      cases (hb.head (by decide)).1
    | running c stopped works =>
      obtain hopen | ⟨-, -, -, hfails⟩ := hunfair
      · exact hfresh stopped hopen
      · exact works hfails
  | tick | receive => exact hunfair.elim
  | stop =>
    intro hb
    obtain ⟨hstate, hclosed⟩ := hunfair
    rw [Manager.apply, managerStop, if_neg (by rw [hstate]; decide)] at hb
    have hdeaf := hb.tail.head
    exact absurd (hclosed.symm.trans hdeaf) (by decide)

/-- The transport stays balanced along a run exactly if no start finds it open or fails in bring-up,
and no stop follows a start that could not open it or receive from it. -/
theorem run_balanced_iff (env : Env) (depth : ℕ) (inputs : List Input) :
    (∀ done rest, done ++ rest = inputs → Balanced (run env depth done)) ↔
      ∀ done input rest, done ++ input :: rest = inputs →
        ¬ Unbalances env depth (run env depth done) input := by
  constructor
  · exact foldl_good_of_along fun done input hunfair =>
      hunfair.not_balanced (foldl_invariant (fun _ input h => h.apply input) done .init)
  · intro hfair done rest hdone
    have hrun : Consistent (run env depth done) ∧ Balanced (run env depth done) ∧
        Counted (run env depth done).history := by
      apply foldl_invariant_along (I := fun w => Consistent w ∧ Balanced w ∧ Counted w.history)
        ⟨.init, always_nil, rfl⟩ _ hfair done rest hdone
      rintro w input - ⟨h, hb, hc⟩ hfair
      exact ⟨h.apply input, hb.apply h hc hfair⟩
    exact hrun.2.1

def mute : Env := ⟨fun _ => ([], false), false, 4⟩

theorem mute_unbalanced :
    (run mute 0 [.start true true 0]).history =
        [.startReturned .io, .receiveStarted true, .opened true] ∧
      ¬ Balanced (run mute 0 [.start true true 0]) ∧
      (run mute 0 [.start false true 0, .stop]).history =
        [.closed, .receiveStopped, .startReturned .io, .opened false] ∧
      ¬ Balanced (run mute 0 [.start false true 0, .stop]) := by
  have hleft : (run mute 0 [.start true true 0]).history =
      [.startReturned .io, .receiveStarted true, .opened true] := by decide +kernel
  have hclosed : (run mute 0 [.start false true 0, .stop]).history =
      [.closed, .receiveStopped, .startReturned .io, .opened false] := by decide +kernel
  refine ⟨hleft, fun hb => ?_, hclosed, fun hb => ?_⟩
  · cases (hb.head (by decide)).1
  · cases hb.head

end Bluzing.Manager
