import Bluzing.L2cap.Reentrancy

/-! What a call of the manager cannot do to a slot, whatever the transport delivers from inside
`send_acl`: as long as the slot is not claimed again it keeps its local CID, it is not taken if it
was free, and OPENED is fired under its CID only if it was taken. -/
namespace Bluzing.L2cap
open List

structure FollowsBy (s : Slot) (newer : List Event) (w w' : World) : Prop where
  history : w'.history = newer ++ w.history
  localCid : .claimed s ∉ newer → (w'.chan s).localCid = (w.chan s).localCid
  taken : .claimed s ∉ newer → (w'.chan s).state ≠ .free → (w.chan s).state ≠ .free
  opened : ∀ later cid earlier, newer = later ++ .fired s cid .opened :: earlier →
    .claimed s ∉ earlier → (w.chan s).state ≠ .free ∧ cid = (w.chan s).localCid

def Follows (s : Slot) (w w' : World) : Prop := ∃ newer, FollowsBy s newer w w'

lemma World.update_chan_of_ne {s i : Slot} (hs : s ≠ i) (w : World) (f : Channel → Channel) :
    (w.update i f).chan s = w.chan s :=
  Function.update_of_ne hs ..

namespace Follows
variable {s i : Slot} {w w' w'' : World} {e : Event} {f : Channel → Channel}

lemma quiet (hchan : w'.chan s = w.chan s) (hhistory : w'.history = w.history) :
    Follows s w w' := by
  refine ⟨[], hhistory, fun _ => by rw [hchan], fun _ h => by rwa [← hchan], ?_⟩
  intro later cid earlier h
  exact absurd h (by simp)

lemma refl (w : World) : Follows s w w := quiet rfl rfl

lemma trans (h₁ : Follows s w w') (h₂ : Follows s w' w'') : Follows s w w'' := by
  obtain ⟨newer₁, h₁⟩ := h₁
  obtain ⟨newer₂, h₂⟩ := h₂
  refine ⟨newer₂ ++ newer₁, ?_, fun hnew => ?_, fun hnew htaken => ?_, ?_⟩
  · rw [h₂.history, h₁.history, append_assoc]
  · rw [mem_append, not_or] at hnew
    exact (h₂.localCid hnew.1).trans (h₁.localCid hnew.2)
  · rw [mem_append, not_or] at hnew
    exact h₁.taken hnew.2 (h₂.taken hnew.1 htaken)
  · intro later cid earlier hsplit hnew
    -- The event is one of the later step's, with all of the earlier step before it, or not.
    rcases append_eq_append_iff.mp hsplit with ⟨middle, rfl, hearly⟩ | ⟨middle, hlate, hrest⟩
    · exact h₁.opened middle cid earlier hearly hnew
    · cases middle with
      | nil =>
        rw [nil_append] at hrest
        exact h₁.opened [] cid earlier hrest.symm hnew
      | cons e middle =>
        rw [cons_append] at hrest
        obtain ⟨rfl, rfl⟩ := cons.inj hrest
        rw [mem_append, not_or] at hnew
        obtain ⟨htaken, rfl⟩ := h₂.opened later cid middle hlate hnew.1
        exact ⟨h₁.taken hnew.2 htaken, h₁.localCid hnew.2⟩

lemma by_history {newer : List Event} (h : Follows s w w')
    (hw' : w'.history = newer ++ w.history) : FollowsBy s newer w w' := by
  obtain ⟨newer', h⟩ := h
  have hnewer : newer' = newer := append_cancel_right (h.history.symm.trans hw')
  exact hnewer ▸ h

lemma ne_singleton (he : ∀ cid, e ≠ .fired s cid .opened) {later earlier : List Event}
    {cid : UInt16} : [e] ≠ later ++ .fired s cid .opened :: earlier := by
  intro hsplit
  have hmem : .fired s cid .opened ∈ [e] := by
    rw [hsplit]
    exact mem_append_right _ mem_cons_self
  exact he cid (mem_singleton.mp hmem).symm

lemma emit (w : World) (he : ∀ cid, e ≠ .fired s cid .opened) : Follows s w (w.emit e) :=
  ⟨[e], rfl, fun _ => rfl, fun _ => id, fun _ _ _ hsplit => absurd hsplit (ne_singleton he)⟩

lemma assign (w : World) (i : Slot) (hcid : (f (w.chan i)).localCid = (w.chan i).localCid)
    (hstate : (f (w.chan i)).state ≠ .free → (w.chan i).state ≠ .free) :
    Follows s w (w.update i f) := by
  refine ⟨[], rfl, fun _ => ?_, fun _ => ?_, fun later cid earlier h => absurd h (by simp)⟩
  · by_cases hs : s = i
    · rw [hs, World.update_chan, hcid]
    · rw [World.update_chan_of_ne hs]
  · by_cases hs : s = i
    · rw [hs, World.update_chan]
      exact hstate
    · rw [World.update_chan_of_ne hs]
      exact id

lemma claim (w : World) (i : Slot) : Follows s w ((w.emit (.claimed i)).update i f) := by
  have hother (hnew : .claimed s ∉ [Event.claimed i]) :
      ((w.emit (.claimed i)).update i f).chan s = w.chan s :=
    World.update_chan_of_ne (fun hs => hnew (hs ▸ mem_singleton_self _)) ..
  refine ⟨[.claimed i], rfl, fun hnew => ?_, fun hnew => ?_, fun _ _ _ hsplit => ?_⟩
  · rw [hother hnew]
  · rw [hother hnew]
    exact id
  · exact absurd hsplit (ne_singleton (e := .claimed i) nofun)

lemma fires (w : World) (i : Slot) {event : ChannelEvent} (he : event ≠ .opened) :
    Follows s w (fireEvent w i event) := by
  unfold fireEvent
  split
  · refine emit w fun cid hfired => ?_
    cases hfired
    exact he rfl
  · exact refl w

lemma release (w : World) (i : Slot) : Follows s w (w.release i) := by
  unfold World.release
  split
  · exact refl w
  · exact emit w nofun

/-! From a world `w` in which something was known of the slot. -/

lemma cancelTimer (h : Follows s w w') (i : Slot) : Follows s w (w'.cancelTimer i) :=
  h.trans (quiet rfl rfl)

lemma addTimer (h : Follows s w w') (i : Slot) (nowUs : ℕ) : Follows s w (w'.addTimer i nowUs) :=
  h.trans (quiet rfl rfl)

lemma update (h : Follows s w w') (i : Slot)
    (hcid : (f (w'.chan i)).localCid = (w'.chan i).localCid)
    (hstate : (f (w'.chan i)).state ≠ .free → (w'.chan i).state ≠ .free) :
    Follows s w (w'.update i f) :=
  h.trans (assign w' i hcid hstate)

lemma touch (h : Follows s w w') (hlive : (w.chan i).state ≠ .free)
    (hcid : (f (w'.chan i)).localCid = (w'.chan i).localCid) : Follows s w (w'.update i f) := by
  obtain ⟨newer, h⟩ := h
  refine ⟨newer, h.history, fun hnew => ?_, fun hnew => ?_, h.opened⟩
  · by_cases hs : s = i
    · subst hs
      rw [World.update_chan, hcid]
      exact h.localCid hnew
    · rw [World.update_chan_of_ne hs]
      exact h.localCid hnew
  · by_cases hs : s = i
    · subst hs
      exact fun _ => hlive
    · rw [World.update_chan_of_ne hs]
      exact h.taken hnew

lemma opens (h : Follows s w w') (hlive : (w.chan i).state ≠ .free) :
    Follows s w (fireEvent w' i .opened) := by
  unfold fireEvent
  split
  swap
  · exact h
  obtain ⟨newer, h⟩ := h
  refine ⟨.fired i (w'.chan i).localCid .opened :: newer, congrArg (cons _) h.history,
    fun hnew => ?_, fun hnew => ?_, fun later cid earlier hsplit hnew => ?_⟩
  · exact h.localCid fun hm => hnew (mem_cons_of_mem _ hm)
  · exact h.taken fun hm => hnew (mem_cons_of_mem _ hm)
  · cases later with
    | nil =>
      obtain ⟨hfired, rfl⟩ := cons.inj hsplit
      cases hfired
      exact ⟨hlive, h.localCid hnew⟩
    | cons _ later =>
      obtain ⟨-, hsplit⟩ := cons.inj hsplit
      exact h.opened later cid earlier hsplit hnew

lemma finishClose (h : Follows s w w') (i : Slot) (reason : CloseReason) :
    Follows s w (finishClose w' i reason) := by
  have hcancel : Follows s w (if w'.timerPending i then w'.cancelTimer i else w') := by
    split
    · exact h.cancelTimer i
    · exact h
  refine trans ?_ (fires _ i nofun)
  exact (hcancel.trans (release _ i)).update i rfl fun hfree => absurd rfl hfree

section

variable {link : Link} {send : Send} (hs : ∀ w acl, Follows s w (send w acl).1)
include hs

lemma sendFragments (h : Follows s w w') (frags : List (Bool × Bytes)) :
    Follows s w (sendFragments link send w' frags).1 := by
  induction frags generalizing w' with
  | nil => exact h
  | cons c frags ih =>
    unfold L2cap.sendFragments
    split
    · exact h
    next wr _ =>
      have hsent := (h.trans (emit w' (e := .sent wr.data) nofun)).trans (hs _ wr.data)
      dsimp only
      split
      · exact ih hsent
      · exact hsent

lemma sendCommand (h : Follows s w w') (encoded : Except Status Writer) :
    Follows s w (sendCommand link send w' encoded).1 := by
  unfold L2cap.sendCommand
  split
  · exact h
  unfold sendL2capPdu
  split
  · exact h
  split
  · exact h
  · exact sendFragments hs h _

variable {data : Bytes} {nowUs : ℕ}

lemma startOurConfigureRequest (h : Follows s w w') (i : Slot) :
    Follows s w (startOurConfigureRequest link send w' i nowUs) := by
  have hid : Follows s w (allocIdentifier w').2 := h.trans (quiet rfl rfl)
  have hpending : Follows s w ((allocIdentifier w').2.update i fun c =>
      { c with pendingIdentifier := (allocIdentifier w').1 }) :=
    hid.update i rfl id
  exact sendCommand hs (hpending.addTimer i nowUs) _

lemma handleConnectionResponse (w : World) (identifier : UInt8) :
    Follows s w (handleConnectionResponse link send w identifier data nowUs) := by
  unfold L2cap.handleConnectionResponse
  split
  · exact refl w
  next i hfind =>
  split
  · exact refl w
  split
  · exact refl w
  next rsp _ =>
  split
  · exact refl w
  have hcancel := (refl (s := s) w).cancelTimer i
  split
  · exact hcancel.finishClose i _
  · have hconfig : Follows s w ((w.cancelTimer i).update i fun c =>
        { c with remoteCid := rsp.destinationCid, state := .config }) :=
      hcancel.touch (findChannelByIdentifier_state hfind) rfl
    exact startOurConfigureRequest hs hconfig i

lemma handleConfigureRequest (w : World) (identifier : UInt8) :
    Follows s w (handleConfigureRequest link send w identifier data) := by
  unfold L2cap.handleConfigureRequest
  split
  · exact refl w
  next req _ =>
  split
  · exact refl w
  next i hfind =>
  have hlive := findChannelByLocalCid_state hfind
  split
  · exact refl w
  have hmtu : Follows s w (w.update i fun c => { c with remoteMtu := req.mtu.getD c.remoteMtu }) :=
    assign w i rfl id
  have hsent : Follows s w (L2cap.sendCommand link send (w.update i fun c =>
      { c with remoteMtu := req.mtu.getD c.remoteMtu }) (sigEncodeConfigureResponse
        (.init (sigHeaderLen + 10)) identifier ((w.update i fun c =>
          { c with remoteMtu := req.mtu.getD c.remoteMtu }).chan i).localCid 0
        configResultSuccess 0)).1 :=
    sendCommand hs hmtu _
  dsimp only
  split
  · refine opens (touch (touch hsent hlive ?_) hlive ?_) hlive
    · rfl
    · rfl
  · exact touch hsent hlive rfl

omit hs in
lemma handleConfigureResponse (w : World) (identifier : UInt8) :
    Follows s w (handleConfigureResponse w identifier data) := by
  unfold L2cap.handleConfigureResponse
  split
  · exact refl w
  next i hfind =>
  have hlive := findChannelByIdentifier_state hfind
  split
  · exact refl w
  split
  · exact refl w
  have hanswered : Follows s w ((w.cancelTimer i).update i fun c =>
      { c with pendingIdentifier := 0 }) := ((refl w).cancelTimer i).update i rfl id
  dsimp only
  split
  · exact hanswered.finishClose i _
  split
  · refine opens (touch (touch hanswered hlive ?_) hlive ?_) hlive
    · rfl
    · rfl
  · exact touch hanswered hlive rfl

lemma dispatchCommand (w : World) (hdr : SigHeader) :
    Follows s w (dispatchCommand link send w hdr data nowUs) := by
  unfold L2cap.dispatchCommand
  split
  · exact handleConnectionResponse hs w _
  split
  · exact handleConfigureRequest hs w _
  split
  · exact handleConfigureResponse w _
  split
  · unfold handleDisconnectionRequest
    split
    · exact refl w
    split
    · exact refl w
    next i _ => exact (sendCommand hs (refl w) _).finishClose i _
  split
  · unfold handleDisconnectionResponse
    split
    · exact refl w
    next i _ =>
    split
    · exact refl w
    split
    · exact refl w
    · exact (refl w).finishClose i _
  split
  · unfold handleCommandReject
    split
    · exact refl w
    next i _ => exact (refl w).finishClose i _
  · exact refl w

lemma openTail {i : Slot} (psm localMtu : UInt16) (onEvent : Bool)
    (hfind : findFreeChannel w = some i) :
    Follows s (allocChannel w i psm localMtu onEvent nowUs)
      (channelManagerOpen link send w psm localMtu onEvent nowUs).1 := by
  have hsent : Follows s (allocChannel w i psm localMtu onEvent nowUs)
      (sendConnectionRequest link send (allocChannel w i psm localMtu onEvent nowUs) i).1 :=
    sendCommand hs (refl _) _
  unfold channelManagerOpen
  rw [hfind]
  dsimp only
  generalize L2cap.allocChannel w i psm localMtu onEvent nowUs = w₁ at hsent ⊢
  generalize sendConnectionRequest link send w₁ i = r at hsent ⊢
  split
  · have hgone := (hsent.cancelTimer i).trans (release _ i)
    dsimp only
    exact hgone.update i rfl fun hfree => absurd rfl hfree
  · exact hsent

omit hs in
lemma allocChannel (w : World) (i : Slot) (psm localMtu : UInt16) (onEvent : Bool) :
    Follows s w (allocChannel w i psm localMtu onEvent nowUs) := by
  have hcounters : Follows s w (allocIdentifier (allocLocalCid w).2).2 := quiet rfl rfl
  exact (hcounters.trans (claim _ i)).addTimer i nowUs

omit hs in
lemma tickRound (h : tickRound w nowUs = some w') : Follows s w w' := by
  unfold L2cap.tickRound at h
  split at h
  · cases h
  next i timers _ =>
    cases h
    have hpopped : Follows s w (w.modify fun m => { m with timers }) := quiet rfl rfl
    exact hpopped.finishClose i _

omit hs in
lemma tickRounds (rounds : ℕ) (w : World) : Follows s w (tickRounds rounds w nowUs) := by
  induction rounds generalizing w with
  | zero => exact refl w
  | succ rounds ih =>
    unfold L2cap.tickRounds
    split
    · exact refl w
    next w' h => exact (tickRound h).trans (ih w')

lemma onAcl (w : World) (pbFlag : UInt8) :
    Follows s w (channelManagerOnAcl link send w pbFlag data nowUs) := by
  have hreceived : Follows s w (w.received (receiveFragment w.mgr.reassembler pbFlag data).1) :=
    quiet rfl rfl
  unfold channelManagerOnAcl
  dsimp only
  split
  · exact hreceived
  unfold routePdu
  split
  · unfold processSignalingPdu
    split
    · exact hreceived
    · exact hreceived.trans (dispatchCommand hs _ _)
  split
  · exact hreceived
  next i _ =>
  split
  · exact hreceived.trans (fires _ i nofun)
  · exact hreceived

lemma close (w : World) (localCid : UInt16) :
    Follows s w (channelManagerClose link send w localCid nowUs) := by
  unfold channelManagerClose
  split
  · exact refl w
  next i hfind =>
  split
  · have hid : Follows s w (allocIdentifier w).2 := quiet rfl rfl
    have hasks : Follows s w ((allocIdentifier w).2.update i fun c =>
        { c with pendingIdentifier := (allocIdentifier w).1, state := .waitDisconnectRsp }) :=
      hid.touch (findChannelByLocalCid_state hfind) rfl
    exact sendCommand hs (hasks.addTimer i nowUs) _
  · exact (refl w).finishClose i _

lemma apply (w : World) (input : Input) : Follows s w (apply link send w input) := by
  cases input with
  | «open» psm localMtu onEvent nowUs =>
    simp only [L2cap.apply]
    cases hfind : findFreeChannel w with
    | none =>
      rw [channelManagerOpen, hfind]
      exact refl w
    | some i =>
      exact (allocChannel w i psm localMtu onEvent).trans (openTail hs psm localMtu onEvent hfind)
  | openFixed cid onEvent =>
    simp only [L2cap.apply]
    unfold channelManagerOpenFixed
    split
    · exact refl w
    split
    · exact refl w
    next i _ =>
      refine trans (claim w i) (opens (refl _) ?_)
      rw [World.update_chan]
      simp [fixedChannel]
  | close localCid nowUs => exact close hs w localCid
  | send localCid data =>
    simp only [L2cap.apply]
    unfold channelManagerSend
    split
    · exact refl w
    split
    · exact refl w
    split
    · exact refl w
    split
    · exact refl w
    · exact sendFragments hs (refl w) _
  | onAcl pbFlag data nowUs => exact onAcl hs w pbFlag
  | tick nowUs => exact tickRounds _ w
  | tickRound nowUs =>
    simp only [L2cap.apply]
    cases hround : L2cap.tickRound w nowUs with
    | none => exact refl w
    | some w' => exact tickRound hround

end

lemma port (s : Slot) (link : Link) (env : Environment) (depth : ℕ) (w : World)
    (acl : Bytes) : Follows s w ((component link env).port depth w acl).1 :=
  Reentrant.port_rel (C := component link env) refl trans (fun _ => quiet rfl rfl)
    (fun _ hs w input => apply hs w input) depth w acl

end Follows

end Bluzing.L2cap
