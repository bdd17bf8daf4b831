import Bluzing.L2cap.Continuity
import Bluzing.Sdp.Client

/-! The SDP client on a channel manager whose transport may call back from inside `send_acl`. -/
namespace Bluzing.Sdp
open List
open L2cap (Slot Link Environment channelManagerOpen allocLocalCid allocChannel findFreeChannel)

def sdpPsm : UInt16 := 0x0001

def isClaim : L2cap.Event → Bool
  | .claimed _ => true
  | _ => false

def claims (h : List L2cap.Event) : ℕ := h.countP isClaim

def channelNo (s : Slot) : List L2cap.Event → ℕ
  | [] => 0
  | e :: older => if e = .claimed s then claims (e :: older) else channelNo s older

structure Report where
  held : UInt16
  opened : UInt16
  deriving DecidableEq

structure Joint where
  manager : L2cap.World
  sdp : World
  channels : List ℕ
  reports : List Report

def Joint.init : Joint := ⟨.init, .init, [], []⟩

variable (port : ℕ → Bool)

def hear (j : Joint) (e : L2cap.Event) (older : List L2cap.Event) : Joint :=
  match e with
  | .fired s cid event =>
      if channelNo s older ∈ j.channels then
        match event with
        | .opened =>
            { j with
              sdp := onOpened j.sdp
              reports :=
                if j.sdp.client.onConnect then ⟨j.sdp.client.localCid, cid⟩ :: j.reports
                else j.reports }
        | .closed _ => { j with sdp := onClosed j.sdp }
        | .data payload _ => { j with sdp := apply port j.sdp (.data payload) }
      else j
  | _ => j

def hearAll (j : Joint) : List L2cap.Event → List L2cap.Event → Joint
  | [], _ => j
  | e :: newer, older => hear port (hearAll j newer older) e (newer ++ older)

def Joint.heed (j : Joint) (w : L2cap.World) : Joint :=
  { hearAll port j (w.history.take (w.history.length - j.manager.history.length))
      j.manager.history with manager := w }

variable (link : Link) (env : Environment) (depth : ℕ)

abbrev transport : L2cap.Send := (L2cap.component link env).port depth

def Joint.connecting (j : Joint) (onConnect : Bool) : Joint :=
  { j with
    sdp := j.sdp.modify fun c => { c with onConnect }
    channels :=
      if (findFreeChannel j.manager).isSome then
        (claims j.manager.history + 1) :: j.channels
      else j.channels }

def Joint.connect (j : Joint) (onConnect : Bool) (nowUs : ℕ) : Joint :=
  let r := channelManagerOpen link (transport link env depth) j.manager sdpPsm 0 true nowUs
  let j := (j.connecting onConnect).heed port r.1
  match r.2 with
  | .error _ => j
  | .ok localCid => { j with sdp := j.sdp.modify fun c => { c with localCid } }

def Joint.disconnect (j : Joint) (nowUs : ℕ) : Joint :=
  let j :=
    if j.sdp.client.channelReady then
      { j with sdp := j.sdp.emit (.closing j.sdp.client.localCid) }.heed port
        (L2cap.channelManagerClose link (transport link env depth) j.manager j.sdp.client.localCid
          nowUs)
    else j
  { j with sdp := j.sdp.modify fun c => { c with channelReady := false } }

inductive JointInput where
  | connect (onConnect : Bool) (nowUs : ℕ)
  | disconnect (nowUs : ℕ)
  | search (serviceSearchPattern : Bytes) (maxRecordCount : UInt16) (onComplete : Bool)
  | getAttributes (serviceRecordHandle : UInt32) (maxAttributeByteCount : UInt16)
      (attributeIdList : Bytes) (onComplete : Bool)
  | manager (input : L2cap.Input)

def applyJoint (j : Joint) : JointInput → Joint
  | .connect onConnect nowUs => j.connect port link env depth onConnect nowUs
  | .disconnect nowUs => j.disconnect port link env depth nowUs
  | .search pattern count onComplete =>
      { j with sdp := apply port j.sdp (.search pattern count onComplete) }
  | .getAttributes handle count ids onComplete =>
      { j with sdp := apply port j.sdp (.getAttributes handle count ids onComplete) }
  | .manager input => j.heed port (L2cap.apply link (transport link env depth) j.manager input)

def runJoint (inputs : List JointInput) : Joint :=
  inputs.foldl (applyJoint port link env depth) .init

def Joint.Unconnected (j : Joint) : Prop :=
  ∀ s, (j.manager.chan s).state ≠ .free → channelNo s j.manager.history ∉ j.channels

def Overlaps (j : Joint) : JointInput → Prop
  | .connect _ _ => ¬ j.Unconnected
  | _ => False

def HeardEarly (j : Joint) : JointInput → Prop
  | .connect onConnect nowUs =>
      (j.connect port link env depth onConnect nowUs).reports ≠ j.reports ∧
        j.sdp.client.localCid ≠ (allocLocalCid j.manager).1
  | _ => False

section

variable {port : ℕ → Bool} (w : World)

lemma complete_localCid (completion : Completion) :
    (complete w completion).client.localCid = w.client.localCid := by
  unfold complete
  dsimp only
  split <;> rfl

@[simp] lemma fail_localCid (result : Result) :
    (fail w result).client.localCid = w.client.localCid :=
  complete_localCid w _

lemma issueRequest_localCid : (issueRequest port w).client.localCid = w.client.localCid := by
  unfold issueRequest
  dsimp only
  split
  · rw [fail_localCid]
    rfl
  split
  · rfl
  · rw [fail_localCid]
    rfl

lemma finishRound_localCid : (finishRound port w).client.localCid = w.client.localCid := by
  unfold finishRound succeed
  split
  · exact issueRequest_localCid w
  split
  · exact complete_localCid w _
  split
  · rw [complete_localCid]
    rfl
  · exact fail_localCid w _

@[simp] lemma handleSearchResponse_localCid (params : Bytes) :
    (handleSearchResponse port w params).client.localCid = w.client.localCid := by
  unfold handleSearchResponse
  split
  · exact fail_localCid w _
  dsimp only
  split
  · rw [fail_localCid]
    rfl
  · rw [finishRound_localCid]
    rfl

@[simp] lemma handleAttributeResponse_localCid (params : Bytes) :
    (handleAttributeResponse port w params).client.localCid = w.client.localCid := by
  unfold handleAttributeResponse
  split
  · exact fail_localCid w _
  split
  · split
    · exact fail_localCid w _
    split
    · rw [fail_localCid]
      rfl
    · rw [finishRound_localCid]
      rfl
  · exact fail_localCid w _

lemma handleResponse_localCid (data : Bytes) :
    (handleResponse port w data).client.localCid = w.client.localCid := by
  unfold handleResponse
  repeat' split
  all_goals simp

lemma reportConnect_localCid (success : Bool) :
    (reportConnect w success).client.localCid = w.client.localCid := by
  unfold reportConnect
  split <;> rfl

lemma onClosed_localCid : (onClosed w).client.localCid = w.client.localCid := by
  have hreported :=
    reportConnect_localCid (w.modify fun c => { c with channelReady := false }) false
  unfold onClosed
  dsimp only
  split
  · rw [fail_localCid, hreported]
    rfl
  · exact hreported

lemma search_localCid (pattern : Bytes) (count : UInt16) (onComplete : Bool) :
    (search port w pattern count onComplete).1.client.localCid = w.client.localCid := by
  unfold search
  split
  · rfl
  split
  · rfl
  · exact issueRequest_localCid _

lemma getAttributes_localCid (handle : UInt32) (count : UInt16) (ids : Bytes)
    (onComplete : Bool) :
    (getAttributes port w handle count ids onComplete).1.client.localCid = w.client.localCid := by
  unfold getAttributes
  split
  · rfl
  split
  · rfl
  · exact issueRequest_localCid _

end

variable {s : Slot} {newer older : List L2cap.Event}

lemma claims_append (newer older : List L2cap.Event) :
    claims (newer ++ older) = claims newer + claims older :=
  countP_append

lemma channelNo_le (s : Slot) (h : List L2cap.Event) : channelNo s h ≤ claims h := by
  induction h with
  | nil => exact Nat.le_refl 0
  | cons e older ih =>
    rw [channelNo]
    split
    · exact Nat.le_refl _
    · exact ih.trans (sublist_cons_self e older |>.countP_le)

lemma channelNo_of_unclaimed (h : .claimed s ∉ newer) (older : List L2cap.Event) :
    channelNo s (newer ++ older) = channelNo s older := by
  induction newer with
  | nil => rfl
  | cons e newer ih =>
    rw [mem_cons, not_or] at h
    rw [cons_append, channelNo, if_neg (Ne.symm h.1), ih h.2]

lemma lt_channelNo (h : .claimed s ∈ newer) (older : List L2cap.Event) :
    claims older < channelNo s (newer ++ older) := by
  induction newer with
  | nil => cases h
  | cons e newer ih =>
    rw [cons_append, channelNo]
    split
    next he =>
      subst he
      rw [← cons_append, claims_append]
      exact Nat.lt_add_of_pos_left (countP_pos_iff.mpr ⟨_, mem_cons_self, rfl⟩)
    next he => exact ih ((mem_cons.mp h).resolve_left (Ne.symm he))

lemma channelNo_earlier {channels : List ℕ} (hnumbers : ∀ n ∈ channels, n ≤ claims older)
    (h : channelNo s (newer ++ older) ∈ channels) :
    .claimed s ∉ newer ∧ channelNo s older ∈ channels := by
  have hnew := fun hclaimed =>
    Nat.not_le_of_lt (lt_channelNo hclaimed older) (hnumbers _ h)
  rw [channelNo_of_unclaimed hnew] at h
  exact ⟨hnew, h⟩

structure Tracks (channels : List ℕ) (cid : UInt16) (w : L2cap.World) : Prop where
  numbers : ∀ n ∈ channels, n ≤ claims w.history
  localCid : ∀ s, (w.chan s).state ≠ .free → channelNo s w.history ∈ channels →
    (w.chan s).localCid = cid

namespace Tracks
variable {channels : List ℕ} {cid : UInt16} {w w' : L2cap.World} {s : Slot}
  {newer later earlier : List L2cap.Event}

lemma still (hnumbers : ∀ n ∈ channels, n ≤ claims w.history)
    (h : L2cap.FollowsBy s newer w w') (hlive : (w'.chan s).state ≠ .free)
    (hmem : channelNo s w'.history ∈ channels) :
    (w.chan s).state ≠ .free ∧ channelNo s w.history ∈ channels ∧
      (w'.chan s).localCid = (w.chan s).localCid := by
  rw [h.history] at hmem
  obtain ⟨hnew, hmem⟩ := channelNo_earlier hnumbers hmem
  exact ⟨h.taken hnew hlive, hmem, h.localCid hnew⟩

lemma numbers_follows (hnumbers : ∀ n ∈ channels, n ≤ claims w.history)
    (h : L2cap.Follows s w w') : ∀ n ∈ channels, n ≤ claims w'.history := by
  obtain ⟨newer, h⟩ := h
  intro n hn
  rw [h.history, claims_append]
  exact Nat.le_add_left_of_le (hnumbers n hn)

lemma follows (ht : Tracks channels cid w) (h : ∀ s, L2cap.Follows s w w') :
    Tracks channels cid w' := by
  refine ⟨numbers_follows ht.numbers (h 0), fun s hlive hmem => ?_⟩
  obtain ⟨newer, hs⟩ := h s
  obtain ⟨hlive, hmem, hcid⟩ := still ht.numbers hs hlive hmem
  rw [hcid]
  exact ht.localCid s hlive hmem

lemma opened {fired : UInt16} (ht : Tracks channels cid w) (h : L2cap.FollowsBy s newer w w')
    (hsplit : newer = later ++ .fired s fired .opened :: earlier)
    (hmem : channelNo s (earlier ++ w.history) ∈ channels) : fired = cid := by
  obtain ⟨hnew, hmem⟩ := channelNo_earlier ht.numbers hmem
  obtain ⟨hlive, rfl⟩ := h.opened later fired earlier hsplit hnew
  exact ht.localCid s hlive hmem

end Tracks

def Adds (P : Report → Prop) (old new : List Report) : Prop :=
  ∃ extra, new = extra ++ old ∧ ∀ r ∈ extra, P r

lemma Adds.refl (P : Report → Prop) (old : List Report) : Adds P old old :=
  ⟨[], rfl, fun _ hr => (nomatch hr)⟩

lemma Adds.mono {P Q : Report → Prop} {old new : List Report} (h : Adds P old new)
    (hPQ : ∀ r, P r → Q r) : Adds Q old new := by
  obtain ⟨extra, hnew, hP⟩ := h
  exact ⟨extra, hnew, fun r hr => hPQ r (hP r hr)⟩

lemma Adds.cons {P : Report → Prop} {old new : List Report} {r : Report} (h : Adds P old new)
    (hr : P r) : Adds P old (r :: new) := by
  obtain ⟨extra, rfl, hP⟩ := h
  exact ⟨r :: extra, rfl, forall_mem_cons.mpr ⟨hr, hP⟩⟩

structure HeardBy (newer older : List L2cap.Event) (j j' : Joint) : Prop where
  channels : j'.channels = j.channels
  localCid : j'.sdp.client.localCid = j.sdp.client.localCid
  reports : Adds (fun r => r.held = j.sdp.client.localCid ∧ ∃ s later earlier,
    newer = later ++ .fired s r.opened .opened :: earlier ∧
      channelNo s (earlier ++ older) ∈ j.channels) j.reports j'.reports

section

variable {port : ℕ → Bool} {j j' : Joint} {newer older : List L2cap.Event} {e : L2cap.Event}

lemma HeardBy.weaken (h : HeardBy newer older j j') (e : L2cap.Event) :
    HeardBy (e :: newer) older j j' := by
  refine ⟨h.channels, h.localCid, h.reports.mono fun r hr => ?_⟩
  obtain ⟨hheld, s, later, earlier, rfl, hmem⟩ := hr
  exact ⟨hheld, s, e :: later, earlier, rfl, hmem⟩

lemma HeardBy.hear (h : HeardBy newer older j j') (e : L2cap.Event) :
    HeardBy (e :: newer) older j (hear port j' e (newer ++ older)) := by
  unfold Sdp.hear
  split
  · split
    next s cid event hmem =>
      rw [h.channels] at hmem
      split
      · refine ⟨h.channels, (reportConnect_localCid _ _).trans h.localCid, ?_⟩
        split
        · refine (h.weaken _).reports.cons ⟨h.localCid, s, [], newer, rfl, hmem⟩
        · exact (h.weaken _).reports
      · exact ⟨h.channels, (onClosed_localCid _).trans h.localCid, (h.weaken _).reports⟩
      · refine ⟨h.channels, Eq.trans ?_ h.localCid, (h.weaken _).reports⟩
        exact handleResponse_localCid _ _
    · exact h.weaken _
  · exact h.weaken _

lemma hearAll_heard (port : ℕ → Bool) (j : Joint) (newer older : List L2cap.Event) :
    HeardBy newer older j (hearAll port j newer older) := by
  induction newer with
  | nil => exact ⟨rfl, rfl, Adds.refl _ _⟩
  | cons e newer ih => exact ih.hear e

lemma HeardBy.of_claim {i : Slot} (h : HeardBy (newer ++ [.claimed i]) older j j') :
    HeardBy newer (.claimed i :: older) j j' := by
  refine ⟨h.channels, h.localCid, h.reports.mono fun r hr => ?_⟩
  obtain ⟨hheld, s, later, earlier, hsplit, hmem⟩ := hr
  refine ⟨hheld, s, later, ?_⟩
  obtain rfl | ⟨earlier, last, rfl⟩ := eq_nil_or_concat earlier
  · have hlast := (append_inj' hsplit rfl).2
    cases hlast
  · rw [concat_eq_append, ← cons_append, ← append_assoc] at hsplit
    obtain ⟨hnewer, hlast⟩ := append_inj' hsplit rfl
    cases hlast
    refine ⟨earlier, hnewer, ?_⟩
    rwa [concat_eq_append, append_assoc] at hmem

lemma heed_heard (port : ℕ → Bool) {w : L2cap.World}
    (hw : w.history = newer ++ j.manager.history) :
    HeardBy newer j.manager.history j (j.heed port w) := by
  have hnewer : w.history.take (w.history.length - j.manager.history.length) = newer := by
    rw [hw, length_append, Nat.add_sub_cancel, take_left]
  have hheard := hearAll_heard port j newer j.manager.history
  unfold Joint.heed
  rw [hnewer]
  exact ⟨hheard.channels, hheard.localCid, hheard.reports⟩

lemma HeardBy.tracks {cid : UInt16} {w w' : L2cap.World} (h : HeardBy newer w.history j j')
    (hw' : w'.history = newer ++ w.history) (hfollows : ∀ s, L2cap.Follows s w w')
    (ht : Tracks j.channels cid w) :
    Tracks j'.channels cid w' ∧
      Adds (fun r => r = ⟨j.sdp.client.localCid, cid⟩) j.reports j'.reports := by
  refine ⟨h.channels ▸ ht.follows hfollows, h.reports.mono ?_⟩
  rintro ⟨held, opened⟩ ⟨rfl, s, later, earlier, hsplit, hmem⟩
  have hopened : opened = cid := ht.opened ((hfollows s).by_history hw') hsplit hmem
  rw [hopened]

end

def Joint.Joined (j : Joint) : Prop := Tracks j.channels j.sdp.client.localCid j.manager

variable {j : Joint} {i : Slot} {nowUs : ℕ}

lemma Joint.Unconnected.claimed {s : Slot} (hj : j.Unconnected)
    (hlive : ((allocChannel j.manager i sdpPsm 0 true nowUs).chan s).state ≠ .free)
    (hmem : channelNo s (.claimed i :: j.manager.history) ∈
      (claims j.manager.history + 1) :: j.channels) : s = i := by
  by_contra hs
  have hnew : .claimed s ∉ [L2cap.Event.claimed i] := by simpa using hs
  have hother : channelNo s (.claimed i :: j.manager.history) = channelNo s j.manager.history :=
    channelNo_of_unclaimed hnew _
  rw [hother, mem_cons] at hmem
  have hle := channelNo_le s j.manager.history
  have hchan : (allocChannel j.manager i sdpPsm 0 true nowUs).chan s = j.manager.chan s :=
    Function.update_of_ne hs ..
  rw [hchan] at hlive
  exact hj s hlive (hmem.resolve_left (by omega))

lemma Joint.Joined.claimed (h : j.Joined) (hj : j.Unconnected) (i : Slot) (nowUs : ℕ) :
    Tracks ((claims j.manager.history + 1) :: j.channels) (allocLocalCid j.manager).1
      (allocChannel j.manager i sdpPsm 0 true nowUs) := by
  have hclaims : claims (allocChannel j.manager i sdpPsm 0 true nowUs).history =
      claims j.manager.history + 1 :=
    countP_cons_of_pos rfl
  refine ⟨fun n hn => ?_, fun s hlive hmem => ?_⟩
  · rw [hclaims]
    rcases mem_cons.mp hn with rfl | hn
    · exact Nat.le_refl _
    · exact Nat.le_succ_of_le (h.numbers n hn)
  · have hchan : (allocChannel j.manager i sdpPsm 0 true nowUs).chan i =
        L2cap.connecting sdpPsm 0 (allocLocalCid j.manager).1
          (L2cap.allocIdentifier (allocLocalCid j.manager).2).1 true :=
      Function.update_self ..
    rw [hj.claimed hlive hmem, hchan]
    rfl

lemma open_error {link : Link} {send : L2cap.Send} {w : L2cap.World} {st : Status}
    (hfind : findFreeChannel w = some i)
    (h : (channelManagerOpen link send w sdpPsm 0 true nowUs).2 = .error st) :
    ((channelManagerOpen link send w sdpPsm 0 true nowUs).1.chan i).state = .free := by
  unfold channelManagerOpen at h ⊢
  rw [hfind] at h ⊢
  dsimp only at h ⊢
  split at h
  next hsent =>
    rw [if_pos hsent, L2cap.World.update_chan]
  · cases h

lemma open_ok {link : Link} {send : L2cap.Send} {w : L2cap.World} {localCid : UInt16}
    (h : (channelManagerOpen link send w sdpPsm 0 true nowUs).2 = .ok localCid) :
    localCid = (allocLocalCid w).1 := by
  unfold channelManagerOpen at h
  split at h
  · cases h
  dsimp only at h
  split at h
  · cases h
  · cases h
    rfl

lemma Joint.Joined.connect_full (h : j.Joined) (onConnect : Bool)
    (hfind : findFreeChannel j.manager = none) :
    (j.connect port link env depth onConnect nowUs).Joined ∧
      (j.connect port link env depth onConnect nowUs).reports = j.reports := by
  have hopen : channelManagerOpen link (transport link env depth) j.manager sdpPsm 0 true
      nowUs = (j.manager, .error .noResources) := by
    rw [channelManagerOpen, hfind]
  have hchannels : (j.connecting onConnect).channels = j.channels := by
    rw [Joint.connecting, hfind]
    rfl
  have hheed : (j.connecting onConnect).heed port j.manager = j.connecting onConnect := by
    rw [Joint.heed, show (j.connecting onConnect).manager = j.manager from rfl, Nat.sub_self]
    rfl
  rw [Joint.connect, hopen, hheed]
  refine ⟨?_, rfl⟩
  dsimp only [Joint.Joined]
  rw [hchannels]
  exact h

lemma Joint.Joined.connect_claimed (h : j.Joined) (hj : j.Unconnected) (onConnect : Bool)
    (nowUs : ℕ) (hfind : findFreeChannel j.manager = some i) :
    (j.connect port link env depth onConnect nowUs).Joined ∧
      Adds (fun r => r = ⟨j.sdp.client.localCid, (allocLocalCid j.manager).1⟩) j.reports
        (j.connect port link env depth onConnect nowUs).reports := by
  have hfollows (s : Slot) : L2cap.Follows s (allocChannel j.manager i sdpPsm 0 true nowUs)
      (channelManagerOpen link (transport link env depth) j.manager sdpPsm 0 true nowUs).1 :=
    L2cap.Follows.openTail (L2cap.Follows.port s link env depth) sdpPsm 0 true hfind
  obtain ⟨newer, h₀⟩ := hfollows 0
  have hw := h₀.history
  have hheard : HeardBy newer (.claimed i :: j.manager.history) (j.connecting onConnect)
      ((j.connecting onConnect).heed port (channelManagerOpen link
        (transport link env depth) j.manager sdpPsm 0 true nowUs).1) := by
    have hw' : (channelManagerOpen link (transport link env depth) j.manager sdpPsm 0 true
        nowUs).1.history = (newer ++ [.claimed i]) ++ (j.connecting onConnect).manager.history := by
      rw [hw, append_assoc]
      rfl
    exact (heed_heard port hw').of_claim
  have hchannels : (j.connecting onConnect).channels =
      (claims j.manager.history + 1) :: j.channels := by
    rw [Joint.connecting, hfind]
    rfl
  have hclaimed := h.claimed hj i nowUs
  obtain ⟨ht, hreports⟩ := hheard.tracks hw hfollows (hchannels ▸ hclaimed)
  unfold Joint.connect
  dsimp only
  split
  next st hr =>
    -- The slot that was claimed is free again, and there is no other.
    refine ⟨⟨ht.numbers, fun s hlive hmem => ?_⟩, hreports⟩
    have hs : s = i := by
      obtain ⟨hlive, hmem, -⟩ :=
        Tracks.still hclaimed.numbers ((hfollows s).by_history hw) hlive
          (hchannels ▸ hheard.channels ▸ hmem)
      exact hj.claimed hlive hmem
    rw [hs] at hlive
    exact absurd (open_error hfind hr) hlive
  next localCid hr =>
    rw [open_ok hr]
    exact ⟨ht, hreports⟩

lemma Joint.Joined.connect (h : j.Joined) (hj : j.Unconnected) (onConnect : Bool) (nowUs : ℕ) :
    (j.connect port link env depth onConnect nowUs).Joined ∧
      Adds (fun r => r = ⟨j.sdp.client.localCid, (allocLocalCid j.manager).1⟩) j.reports
        (j.connect port link env depth onConnect nowUs).reports := by
  cases hfind : findFreeChannel j.manager with
  | none =>
    obtain ⟨hjoined, hreports⟩ := h.connect_full port link env depth onConnect hfind
    exact ⟨hjoined, hreports ▸ Adds.refl _ _⟩
  | some i => exact h.connect_claimed port link env depth hj onConnect nowUs hfind

def Report.Right (r : Report) : Prop := r.held = r.opened

lemma Joint.Joined.heed {w : L2cap.World} (h : j.Joined) (hw : ∀ s, L2cap.Follows s j.manager w) :
    (j.heed port w).Joined ∧ Adds Report.Right j.reports (j.heed port w).reports := by
  obtain ⟨newer, h₀⟩ := hw 0
  have hheard := heed_heard port h₀.history
  obtain ⟨ht, hreports⟩ := hheard.tracks h₀.history hw h
  refine ⟨?_, hreports.mono fun r hr => ?_⟩
  · dsimp only [Joint.Joined]
    rw [hheard.localCid]
    exact ht
  · rw [hr]
    rfl

lemma Joint.Joined.disconnect (h : j.Joined) (nowUs : ℕ) :
    (j.disconnect port link env depth nowUs).Joined ∧
      Adds Report.Right j.reports (j.disconnect port link env depth nowUs).reports := by
  unfold Joint.disconnect
  split
  · exact heed (j := { j with sdp := j.sdp.emit (.closing j.sdp.client.localCid) }) port h fun s =>
      L2cap.Follows.close (L2cap.Follows.port s link env depth) j.manager j.sdp.client.localCid
  · exact ⟨h, Adds.refl _ _⟩

lemma Joint.Joined.operates {w : World} (h : j.Joined)
    (hw : w.client.localCid = j.sdp.client.localCid) : Joint.Joined { j with sdp := w } := by
  dsimp only [Joint.Joined]
  rw [hw]
  exact h

lemma Joint.Joined.applyJoint (h : j.Joined) (input : JointInput) (hinput : ¬ Overlaps j input) :
    (applyJoint port link env depth j input).Joined ∧
      Adds (fun r => r.Right ∨ HeardEarly port link env depth j input) j.reports
        (applyJoint port link env depth j input).reports := by
  cases input with
  | connect onConnect nowUs =>
    obtain ⟨hjoined, extra, hreports, hextra⟩ :=
      h.connect port link env depth (not_not.mp hinput) onConnect nowUs
    refine ⟨hjoined, extra, hreports, fun r hr => or_iff_not_imp_left.mpr fun hwrong => ?_⟩
    rw [hextra r hr] at hwrong
    refine ⟨fun hsame => ?_, hwrong⟩
    have hnone : extra = [] := append_left_eq_self.mp (hreports.symm.trans hsame)
    rw [hnone] at hr
    cases hr
  | disconnect nowUs =>
    obtain ⟨hjoined, hreports⟩ := h.disconnect port link env depth nowUs
    exact ⟨hjoined, hreports.mono fun _ => .inl⟩
  | search pattern count onComplete =>
    exact ⟨h.operates (search_localCid _ pattern count onComplete), Adds.refl _ _⟩
  | getAttributes handle count ids onComplete =>
    exact ⟨h.operates (getAttributes_localCid _ handle count ids onComplete), Adds.refl _ _⟩
  | manager input =>
    obtain ⟨hjoined, hreports⟩ := h.heed port fun s =>
      L2cap.Follows.apply (L2cap.Follows.port s link env depth) j.manager input
    exact ⟨hjoined, hreports.mono fun _ => .inl⟩

lemma Joint.Joined.applyJoint_right {input : JointInput} (h : j.Joined)
    (hright : ∀ r ∈ j.reports, r.Right)
    (hinput : ¬ (Overlaps j input ∨ HeardEarly port link env depth j input)) :
    (Sdp.applyJoint port link env depth j input).Joined ∧
      ∀ r ∈ (Sdp.applyJoint port link env depth j input).reports, r.Right := by
  obtain ⟨halone, hgood⟩ := not_or.mp hinput
  obtain ⟨hjoined, extra, hreports, hextra⟩ := h.applyJoint port link env depth input halone
  refine ⟨hjoined, fun r hr => ?_⟩
  rw [hreports, mem_append] at hr
  rcases hr with hr | hr
  · exact (hextra r hr).resolve_right hgood
  · exact hright r hr

lemma Joint.Joined.heardEarly {input : JointInput} (h : j.Joined) (hinput : ¬ Overlaps j input)
    (hearly : HeardEarly port link env depth j input) :
    ∃ r ∈ (Sdp.applyJoint port link env depth j input).reports, ¬ r.Right := by
  cases input with
  | connect onConnect nowUs =>
    obtain ⟨hreported, hwrong⟩ := hearly
    obtain ⟨-, extra, hreports, hextra⟩ :=
      h.connect port link env depth (not_not.mp hinput) onConnect nowUs
    cases extra with
    | nil => exact absurd hreports hreported
    | cons r extra =>
      refine ⟨r, hreports ▸ mem_cons_self, ?_⟩
      rw [hextra r mem_cons_self]
      exact hwrong
  | disconnect | search | getAttributes | manager => cases hearly

lemma heed_reports {r : Report} {j : Joint} (hr : r ∈ j.reports) (w : L2cap.World) :
    r ∈ (j.heed port w).reports := by
  obtain ⟨extra, hreports, -⟩ := (hearAll_heard port j
    (w.history.take (w.history.length - j.manager.history.length)) j.manager.history).reports
  have hreports : (j.heed port w).reports = extra ++ j.reports := hreports
  rw [hreports]
  exact mem_append_right extra hr

lemma applyJoint_reports {r : Report} (j : Joint) (input : JointInput) (hr : r ∈ j.reports) :
    r ∈ (applyJoint port link env depth j input).reports := by
  cases input with
  | connect onConnect nowUs =>
    have hheed := heed_reports port (j := j.connecting onConnect) hr
    dsimp only [applyJoint, Joint.connect]
    split
    · exact hheed _
    · exact hheed _
  | disconnect nowUs =>
    dsimp only [applyJoint, Joint.disconnect]
    split
    · exact heed_reports port (by exact hr) _
    · exact hr
  | search | getAttributes => exact hr
  | manager input => exact heed_reports port hr _

/-- In every run in which the application connects a client that has no live channel: whenever
`on_connect` is called with `true` the client holds the CID of the channel that has been opened,
exactly if no connect has it called before it returns for a client that holds another CID than the
one that the channel is given. -/
theorem runJoint_reports_iff (inputs : List JointInput)
    (halone : ∀ before input after, before ++ input :: after = inputs →
      ¬ Overlaps (runJoint port link env depth before) input) :
    (∀ r ∈ (runJoint port link env depth inputs).reports, r.held = r.opened) ↔
      ∀ before input after, before ++ input :: after = inputs →
        ¬ HeardEarly port link env depth (runJoint port link env depth before) input := by
  have hinit : Joint.init.Joined := ⟨fun _ hn => (nomatch hn), fun _ _ hmem => (nomatch hmem)⟩
  have hjoined := foldl_invariant_along (f := applyJoint port link env depth) hinit
    (fun j input _ h hinput => (h.applyJoint port link env depth input hinput).1) halone
  constructor
  · intro hright before input after hsplit hearly
    obtain ⟨r, hr, hwrong⟩ :=
      (hjoined before _ hsplit).heardEarly port link env depth (halone _ _ _ hsplit) hearly
    refine hwrong (hright r ?_)
    rw [runJoint, ← hsplit, foldl_append]
    exact foldl_invariant (I := fun j : Joint => r ∈ j.reports)
      (applyJoint_reports port link env depth) after hr
  · intro hgood
    have hkeeps (j : Joint) (input : JointInput) (_ : input ∈ inputs)
        (h : j.Joined ∧ ∀ r ∈ j.reports, r.Right)
        (hinput : ¬ (Overlaps j input ∨ HeardEarly port link env depth j input)) :=
      h.1.applyJoint_right port link env depth h.2 hinput
    have hgood (before : List JointInput) (input : JointInput) (after : List JointInput)
        (hsplit : before ++ input :: after = inputs) :=
      not_or.mpr ⟨halone before input after hsplit, hgood before input after hsplit⟩
    exact (foldl_invariant_along ⟨hinit, fun _ hr => (nomatch hr)⟩ hkeeps hgood inputs []
      (append_nil inputs)).2

/-! A peer that accepts the connection and our Configure Request, and sends a Configure Request of
its own. -/

def connectionResponse : L2cap.Input :=
  .onAcl 0x02 [12, 0, 0x01, 0, 0x03, 1, 8, 0, 0x50, 0, 0x40, 0, 0, 0, 0, 0] 1

def configureResponse : L2cap.Input :=
  .onAcl 0x02 [10, 0, 0x01, 0, 0x05, 2, 6, 0, 0x40, 0, 0, 0, 0, 0] 2

def handshake : List L2cap.Input :=
  [connectionResponse, configureResponse, L2cap.configureRequest]

def patientPeer : Environment := fun _ => (true, [])

theorem patientPeer_reports_right :
    let j := runJoint (fun _ => true) L2cap.classicLink patientPeer 0
      (.connect true 0 :: handshake.map .manager)
    j.reports = [⟨0x40, 0x40⟩] ∧ ∀ r ∈ j.reports, r.held = r.opened := by
  have hfirst {before : List JointInput} {input : JointInput} {after : List JointInput}
      (hsplit : before ++ input :: after = .connect true 0 :: handshake.map .manager) :
      (before = [] ∧ input = .connect true 0) ∨ ∃ i, input = .manager i := by
    cases before with
    | nil =>
      cases hsplit
      exact .inl ⟨rfl, rfl⟩
    | cons _ before =>
      have hmem : input ∈ handshake.map .manager := by
        rw [← (cons.inj hsplit).2]
        exact mem_append_right _ mem_cons_self
      obtain ⟨i, -, rfl⟩ := mem_map.mp hmem
      exact .inr ⟨i, rfl⟩
  refine ⟨by decide +kernel, (runJoint_reports_iff _ _ _ _ _ ?_).mpr ?_⟩
  · intro before input after hsplit hoverlaps
    obtain ⟨rfl, rfl⟩ | ⟨i, rfl⟩ := hfirst hsplit
    · exact hoverlaps fun s hlive => absurd rfl hlive
    · exact hoverlaps
  · intro before input after hsplit hearly
    obtain ⟨rfl, rfl⟩ | ⟨i, rfl⟩ := hfirst hsplit
    · exact hearly.1 (by decide +kernel)
    · exact hearly

def promptPeer : Environment := fun w =>
  match w.history with
  | .sent acl :: _ =>
      (true,
        if acl.getD 8 0 = L2cap.sigConnectionRequest then [connectionResponse]
        else if acl.getD 8 0 = L2cap.sigConfigureRequest then
          [configureResponse, L2cap.configureRequest]
        else [])
  | _ => (true, [])

/-- `on_connect` is called with `true` while the client holds the CID 0. -/
theorem promptPeer_reports_stale :
    let j := runJoint (fun _ => true) L2cap.classicLink promptPeer 2 [.connect true 0]
    j.reports = [⟨0, 0x40⟩] ∧ (j.manager.chan 0).state = .opened ∧
      (j.manager.chan 0).localCid = 0x40 ∧ L2cap.findChannelByLocalCid j.manager 0 = none := by
  decide +kernel

end Bluzing.Sdp
