import Bluzing.L2cap.ChannelHandshake

/-! Fixed channels share the slots and the lookups with the others, and only the local close asks
whether a channel is fixed: a Disconnection Request for its CID closes a fixed channel, and so does
a Command Reject with the identifier 0, which a channel has that awaits nothing. -/
namespace Bluzing.L2cap

def PeerCloses (link : Link) (w : World) (input : Input) (s : Slot) : Prop :=
  ∃ hdr data, commandOf link w input = some (hdr, data) ∧
    ((hdr.code = sigDisconnectionRequest ∧ ∃ req, sigParseDisconnection data = .ok req ∧
        findChannelByLocalCid w req.destinationCid = some s) ∨
      (hdr.code = sigCommandReject ∧ findChannelByIdentifier w hdr.identifier = some s))

variable {link : Link} {send : Send} {w : World} {input : Input} {s : Slot}

lemma ClosedBy.peerCloses (h : ClosedBy link w input s) (hopen : (w.chan s).state = .opened)
    (htimer : ¬ w.timerPending s) (hlocal : ∀ nowUs, input ≠ .close (w.chan s).localCid nowUs) :
    PeerCloses link w input s := by
  cases h with
  | refused _ _ _ hst | configFailed _ _ _ hst | acknowledged _ _ _ hst =>
    cases hopen.symm.trans hst
  | peer hcmd hcode hparse hfind => exact ⟨_, _, hcmd, .inl ⟨hcode, _, hparse, hfind⟩⟩
  | rejected hcmd hcode hfind => exact ⟨_, _, hcmd, .inr ⟨hcode, hfind⟩⟩
  | locally hi hfind =>
    rw [← (findChannelByLocalCid_some hfind).2] at hi
    exact absurd hi (hlocal _)
  | expired _ h => exact absurd h htimer

lemma Moves.fixed_kept {w' : World} (h : Moves link w input w'.mgr)
    (hfixed : (w.chan s).isFixed = true) (hopen : (w.chan s).state = .opened)
    (htimer : ¬ w.timerPending s) (hlocal : ∀ nowUs, input ≠ .close (w.chan s).localCid nowUs)
    (hn : ¬ PeerCloses link w input s) : w'.chan s = w.chan s := by
  -- The slot that a step assigns is in another state.
  have hother {t : Slot} (hne : (w.chan t).state ≠ .opened) : s ≠ t := by
    rintro rfl
    exact hne hopen
  cases h with
  | idle hc _ _ => exact congrFun hc s
  | connects t _ hf hs | refused t _ _ _ hf hs | registers t _ hf _ hs =>
    exact hs.chan_of_ne (hother (by simp [findFreeChannel_some hf]))
  | configures t _ _ _ hst _ _ _ hs | acceptsRequest t _ _ _ _ hst hs
  | acceptsResponse t _ _ _ hst _ _ _ hs => exact hs.chan_of_ne (hother (by simp [hst]))
  | closes t hi hs _ =>
    refine hs.chan_of_ne ?_
    rintro rfl
    exact hn (hi.peerCloses hopen htimer hlocal)
  | disconnects t _ _ hst hs _ =>
    refine hs.chan_of_ne ?_
    rintro rfl
    exact absurd (hfixed.symm.trans hst.2) nofun

lemma tick_kept (htimer : ¬ w.timerPending s) (nowUs : ℕ) :
    (channelManagerTick w nowUs).chan s = w.chan s := by
  refine (tick_invariant (I := fun w' => w'.chan s = w.chan s ∧ ¬ w'.timerPending s)
    (fun w₁ w₂ hround h => ?_) ⟨rfl, htimer⟩).1
  obtain ⟨t, hpending, hs, -⟩ := tickRound_closes hround
  have hne : s ≠ t := by
    rintro rfl
    exact h.2 hpending
  refine ⟨(hs.chan_of_ne hne).trans h.1, fun hp => h.2 ?_⟩
  rwa [World.timerPending, hs.timers, if_neg hne] at hp

/-- In every run, after a fixed channel has been registered and until the local side closes its CID:
the channel stays open, with the same callback, exactly when the peer sends no Disconnection Request
and no Command Reject that names it. -/
theorem fixedChannel_stays_open_iff (link : Link) (port : ℕ → Bool) (before rest : List Input)
    (s : Slot) (hfixed : ((run link port before).chan s).isFixed = true)
    (hopen : ((run link port before).chan s).state = .opened)
    (hlocal : ∀ nowUs, Input.close ((run link port before).chan s).localCid nowUs ∉ rest) :
    (∀ done more, done ++ more = rest →
      (run link port (before ++ done)).chan s = (run link port before).chan s) ↔
    ∀ done input more, done ++ input :: more = rest →
      ¬ PeerCloses link (run link port (before ++ done)) input s := by
  constructor
  · rintro hstays done input more hrest ⟨hdr, data, hcmd, hcloses⟩
    have hkept := hstays (done ++ [input]) more (by simpa using hrest)
    have hfree := apply_peerCloses (answerWith port) hcmd hcloses
    rw [← run_concat, List.append_assoc, hkept, hopen] at hfree
    cases hfree
  · intro hgood done
    induction done using List.reverseRecOn with
    | nil => intro _ _; rw [List.append_nil]
    | append_singleton done input ih =>
      intro more hrest
      have hrest : done ++ input :: more = rest := by simpa using hrest
      have hkept := ih _ hrest
      have hopen' : ((run link port (before ++ done)).chan s).state = .opened := by
        rw [hkept, hopen]
      have htimer : ¬ (run link port (before ++ done)).timerPending s := by
        rw [(run_tracked link port (before ++ done) s).timer]
        simp [Channel.Awaits, hopen']
      rw [← List.append_assoc, run_concat, ← hkept]
      by_cases hi : ∃ nowUs, input = .tick nowUs
      · obtain ⟨nowUs, rfl⟩ := hi
        exact tick_kept htimer nowUs
      · have hmoves : Moves link (run link port (before ++ done)) input _ :=
          apply_moves (answerWith_quiet port) _ fun nowUs h => hi ⟨nowUs, h⟩
        refine hmoves.fixed_kept (by rw [hkept, hfixed]) hopen' htimer (fun nowUs h => ?_)
          (hgood done input more hrest)
        rw [hkept] at h
        exact hlocal nowUs (hrest ▸ h ▸ by simp)

/-! The attribute channel of an LE link, and a peer that disconnects it. -/

def attributeChannel : List Input := [.openFixed 0x0004 true]

theorem attributeChannel_stays_open :
    (∀ done more, done ++ more = [Input.onAcl 0x02 [1, 0, 0x04, 0, 0x0B] 1] →
      (run (.init 1 5 512) (fun _ => true) (attributeChannel ++ done)).chan 0 =
        (run (.init 1 5 512) (fun _ => true) attributeChannel).chan 0) ↔
    ∀ done input more, done ++ input :: more = [Input.onAcl 0x02 [1, 0, 0x04, 0, 0x0B] 1] →
      ¬ PeerCloses (.init 1 5 512)
        (run (.init 1 5 512) (fun _ => true) (attributeChannel ++ done)) input 0 :=
  fixedChannel_stays_open_iff (.init 1 5 512) (fun _ => true) attributeChannel
    [.onAcl 0x02 [1, 0, 0x04, 0, 0x0B] 1] 0 (by decide +kernel) (by decide +kernel) (by simp)

theorem attributeChannel_disconnected :
    ((run (.init 1 5 512) (fun _ => true) attributeChannel).chan 0).isFixed = true ∧
    ((run (.init 1 5 512) (fun _ => true) attributeChannel).chan 0).state = .opened ∧
    ((run (.init 1 5 512) (fun _ => true) (attributeChannel ++
      [.onAcl 0x02 [8, 0, 0x05, 0, 0x06, 9, 4, 0, 0x04, 0, 0x04, 0] 1])).chan 0).state = .free ∧
    ((run (.init 1 5 512) (fun _ => true) (attributeChannel ++
      [.onAcl 0x02 [6, 0, 0x05, 0, 0x01, 0, 2, 0, 0, 0] 1])).chan 0).state = .free := by
  decide +kernel

end Bluzing.L2cap
