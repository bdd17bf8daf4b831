import Bluzing.Gatt.Requests
import Bluzing.Lib.Reentrant

/-! The cursor of a discovery. -/
namespace Bluzing.Gatt
open List

def IsDiscoveryRequest (opcode : UInt8) : Prop :=
  opcode = opcodeReadByGroupTypeRequest ∨ opcode = opcodeReadByTypeRequest ∨
    opcode = opcodeFindInformationRequest

instance (opcode : UInt8) : Decidable (IsDiscoveryRequest opcode) :=
  inferInstanceAs (Decidable (_ ∨ _ ∨ _))

def discoveryRange : Bytes → Option (UInt16 × UInt16)
  | opcode :: b0 :: b1 :: b2 :: b3 :: _ =>
      if IsDiscoveryRequest opcode then some (readLe16 b0 b1, readLe16 b2 b3) else none
  | _ => none

def ranges (history : List Event) : List (UInt16 × UInt16) := requestsSince discoveryRange history

def Advancing (ranges : List (UInt16 × UInt16)) : Prop :=
  ranges.IsChain fun new old => old.1 < new.1 ∧ new.1 ≤ new.2

lemma discoveryRange_other {opcode : UInt8} (hop : ¬ IsDiscoveryRequest opcode)
    (params : Bytes) : discoveryRange (opcode :: params) = none := by
  unfold discoveryRange
  split
  next heq =>
    obtain ⟨rfl, -⟩ := cons.inj heq
    exact if_neg hop
  · rfl

lemma discoveryRange_requestPdu (c : Client) :
    discoveryRange (requestPdu c) =
      if c.op.isDiscovery then some (c.pendingHandle, c.discoverRangeEnd) else none := by
  have hrange {opcode : UInt8} (hop : IsDiscoveryRequest opcode) (tail : Bytes) :
      discoveryRange (opcode :: (writeLe16 c.pendingHandle ++ writeLe16 c.discoverRangeEnd ++
        tail)) = some (c.pendingHandle, c.discoverRangeEnd) := by
    refine (if_pos hop).trans ?_
    rw [readLe16_writeLe16, readLe16_writeLe16]
  unfold requestPdu
  cases c.op with
  | mtu | write => exact discoveryRange_other (by decide) _
  | discoverServices | discoverCharacteristics => exact hrange (by decide) _
  | discoverDescriptors => exact hrange (by decide) []
  | read =>
    dsimp only
    split <;> exact discoveryRange_other (by decide) _

variable {c : Client}

lemma discoveryRange_mtu (h : c.op = .mtu) : discoveryRange (requestPdu c) = none := by
  rw [discoveryRange_requestPdu, h]
  rfl

def Follows (o : Option Operation) (ranges : List (UInt16 × UInt16)) : Prop :=
  ∀ operation, o = some operation → operation.op.isDiscovery = true →
    ranges.head? = some (operation.pendingHandle, operation.discoverRangeEnd) ∧
      (operation.op = .discoverServices → operation.discoverRangeEnd = 0xFFFF)

lemma follows_request {ranges : List (UInt16 × UInt16)}
    (hend : c.op = .discoverServices → c.discoverRangeEnd = 0xFFFF) :
    Follows (some c.asOperation) ((discoveryRange (requestPdu c)).toList ++ ranges) := by
  rintro operation ⟨⟩ hdiscovery
  have hop : c.op.isDiscovery = true := hdiscovery
  refine ⟨?_, hend⟩
  rw [discoveryRange_requestPdu, if_pos hop]
  rfl

variable {port : ℕ → Bool} {w : World} {input : Input}

lemma Input.setup_rangeEnd {setup : Client → Client} {onComplete : Bool} {nowUs : ℕ}
    (h : input.setup = some (setup, onComplete, nowUs)) (c : Client) :
    (setup c).op = .discoverServices → (setup c).discoverRangeEnd = 0xFFFF := by
  cases Input.setup_begins h with
  | services => exact fun _ => rfl
  | characteristics | descriptors | read | write => nofun

lemma Continues.rangeEnd {c' : Client} {opcode : UInt8} {params : Bytes}
    (h : Continues c opcode params c') :
    c'.op = c.op ∧ c'.discoverRangeEnd = c.discoverRangeEnd := by
  cases h <;> exact ⟨rfl, rfl⟩

lemma discoveryOf_isDiscovery {op : Op} {d : Discovery} (hd : discoveryOf op = some d) :
    op.isDiscovery = true := by
  unfold discoveryOf at hd
  split at hd <;> first | rfl | cases hd

lemma Follows.rangeEnd {ranges : List (UInt16 × UInt16)} {c : Client}
    (h : Follows c.operation ranges) (hbusy : c.busy = true)
    (hop : c.op = .discoverServices) : c.discoverRangeEnd = 0xFFFF := by
  have hoperation := Client.operation_busy hbusy (by rw [hop]; decide)
  refine (h _ hoperation ?_).2 hop
  change c.op.isDiscovery = true
  rw [hop]
  rfl

lemma Follows.head {ranges : List (UInt16 × UInt16)} {c : Client}
    (h : Follows c.operation ranges) (hbusy : c.busy = true) (hop : c.op.isDiscovery = true) :
    ranges.head? = some (c.pendingHandle, c.discoverRangeEnd) := by
  have hoperation := Client.operation_busy hbusy fun hmtu => by rw [hmtu] at hop; cases hop
  exact (h _ hoperation hop).1

lemma apply_follows (h : Follows w.client.operation (ranges w.history)) :
    Follows (apply port w input).client.operation (ranges (apply port w input).history) := by
  refine apply_requests (fun _ _ _ => nofun) (fun c => discoveryRange_mtu) h ?_ ?_
  · intro setup onComplete nowUs hsetup
    have hfirst := @follows_request (setup w.client) [] (Input.setup_rangeEnd hsetup w.client)
    rwa [append_nil] at hfirst
  · intro opcode params nowUs c _ _ _ hbusy hcontinues
    refine follows_request fun hservices => ?_
    obtain ⟨hop, hend⟩ := hcontinues.rangeEnd
    rw [hend]
    exact h.rangeEnd hbusy (hop.symm.trans hservices)

lemma run_follows (port : ℕ → Bool) (inputs : List Input) :
    Follows (run port inputs).client.operation (ranges (run port inputs).history) :=
  foldl_invariant (I := fun w : World => Follows w.client.operation (ranges w.history))
    (fun _ _ => apply_follows) inputs nofun

lemma lt_rangeEnd_of_more {op : Op} {d : Discovery} {last rangeEnd : UInt16}
    (hd : discoveryOf op = some d) (hmore : d.done last rangeEnd = false)
    (hservices : op = .discoverServices → rangeEnd = 0xFFFF) : last < rangeEnd := by
  unfold discoveryOf at hd
  split at hd
  · cases hd
    have hne := of_decide_eq_false hmore
    rw [hservices rfl]
    exact UInt16.lt_of_le_of_ne (UInt16.le_iff_toNat_le.mpr (Nat.le_of_lt_succ last.toNat_lt)) hne
  · cases hd
    exact UInt16.not_le.mp (of_decide_eq_false hmore)
  · cases hd
    rw [descriptorsDiscovery, Bool.or_eq_false_iff] at hmore
    exact UInt16.not_le.mp (of_decide_eq_false hmore.1)
  · cases hd
  · cases hd
  · cases hd

lemma toNat_succ_of_lt {last rangeEnd : UInt16} (h : last < rangeEnd) :
    (last + 1).toNat = last.toNat + 1 := by
  have hlt := UInt16.lt_iff_toNat_lt.mp h
  have hend := rangeEnd.toNat_lt
  exact Nat.mod_eq_of_lt (by simpa using Nat.lt_of_le_of_lt hlt hend)

def Regresses (w : World) : Input → Prop
  | .data (opcode :: params) _ =>
      w.channelOpen = true ∧ w.client.onConnect = false ∧ w.client.busy = true ∧
        ∃ d entries entry, discoveryOf w.client.op = some d ∧ opcode = d.opcode ∧
          d.entries params = some entries ∧ (collect d.full w.client.found entries).2 = false ∧
          entries.getLast? = some entry ∧
          d.done entry.last w.client.discoverRangeEnd = false ∧ entry.last < w.client.pendingHandle
  | _ => False

def Input.StartsAtOne : Input → Prop
  | .discoverCharacteristics startHandle _ _ _ => startHandle ≠ 0
  | _ => True

lemma Input.setup_pendingHandle {setup : Client → Client} {onComplete : Bool} {nowUs : ℕ}
    (h : input.setup = some (setup, onComplete, nowUs)) (hstarts : input.StartsAtOne) (c : Client)
    (hop : (setup c).op.isDiscovery = true) : (setup c).pendingHandle ≠ 0 := by
  cases Input.setup_begins h with
  | services => exact (by decide : (1 : UInt16) ≠ 0)
  | characteristics => exact hstarts
  | descriptors _ _ hstart => exact hstart
  | read | write => cases hop

structure Ascends (positive : Prop) (o : Option Operation) (ranges : List (UInt16 × UInt16)) :
    Prop where
  follows : Follows o ranges
  advancing : Advancing ranges
  few : positive → ∀ range ∈ ranges.head?, ranges.length ≤ range.1.toNat

variable {positive : Prop}

lemma apply_ascends (h : Ascends positive w.client.operation (ranges w.history))
    (hforward : ¬ Regresses w input) (hstarts : positive → input.StartsAtOne) :
    Ascends positive (apply port w input).client.operation
      (ranges (apply port w input).history) := by
  have hfollows := @apply_follows port w input h.follows
  have hrest : Advancing (ranges (apply port w input).history) ∧
      (positive → ∀ range ∈ (ranges (apply port w input).history).head?,
        (ranges (apply port w input).history).length ≤ range.1.toNat) := by
    refine apply_requests (R := fun _ ranges => Advancing ranges ∧
        (positive → ∀ range ∈ ranges.head?, ranges.length ≤ range.1.toNat))
      (fun _ _ => id) (fun c => discoveryRange_mtu) ⟨h.advancing, h.few⟩ ?_ ?_
    · intro setup onComplete nowUs hsetup
      rw [discoveryRange_requestPdu]
      split
      next hop =>
        refine ⟨isChain_singleton _, fun hpositive range hrange => ?_⟩
        obtain rfl : _ = range := Option.some.inj hrange
        have hne := Input.setup_pendingHandle hsetup (hstarts hpositive) w.client hop
        exact Nat.pos_of_ne_zero fun hzero => hne (UInt16.toNat_inj.mp hzero)
      · exact ⟨isChain_nil, fun _ => nofun⟩
    · intro opcode params nowUs c hinput hopen hconnect hbusy hcontinues
      rw [discoveryRange_requestPdu]
      cases hcontinues with
      | read hop =>
        rw [hop]
        exact ⟨h.advancing, h.few⟩
      | @discovery d entries entry hd hopcode hentries hroom hlast hmore =>
        have hdiscovery := discoveryOf_isDiscovery hd
        have hhead := h.follows.head hbusy hdiscovery
        have hlt := lt_rangeEnd_of_more hd hmore (h.follows.rangeEnd hbusy)
        have hle := UInt16.not_lt.mp fun hback =>
          hforward (hinput ▸ ⟨hopen, hconnect, hbusy, d, entries, entry, hd, hopcode, hentries,
            hroom, hlast, hmore, hback⟩)
        have hsucc := toNat_succ_of_lt hlt
        rw [if_pos hdiscovery]
        constructor
        · refine isChain_cons.mpr ⟨fun range hrange => ?_, h.advancing⟩
          obtain rfl : _ = range := Option.some.inj (hhead.symm.trans hrange)
          rw [UInt16.lt_iff_toNat_lt, UInt16.le_iff_toNat_le, hsucc]
          exact ⟨Nat.lt_succ_of_le hle, hlt⟩
        · intro hpositive range hrange
          obtain rfl : _ = range := Option.some.inj hrange
          have hfew := h.few hpositive _ hhead
          rw [hsucc]
          exact Nat.succ_le_succ (Nat.le_trans hfew hle)
  exact ⟨hfollows, hrest.1, hrest.2⟩

lemma Regresses.not_advancing (h : Regresses w input)
    (hfollows : Follows w.client.operation (ranges w.history)) :
    ¬ Advancing (ranges (apply port w input).history) := by
  unfold Regresses at h
  split at h
  next opcode params nowUs =>
    obtain ⟨hopen, hconnect, hbusy, d, entries, entry, hd, rfl, hentries, hroom, hlast, hmore,
      hback⟩ := h
    have hdiscovery := discoveryOf_isDiscovery hd
    have hhead := hfollows.head hbusy hdiscovery
    have hsucc := toNat_succ_of_lt hback
    have hresponse := @handleDiscoverResponse_entries port (arrived w nowUs) d params entries entry
      hentries hroom hlast nowUs
    have hmore' : ¬ d.done entry.last (arrived w nowUs).client.discoverRangeEnd = true :=
      Bool.eq_false_iff.mp hmore
    rw [← apply_discovery hopen hconnect hbusy hd, if_neg hmore'] at hresponse
    have hranges : ranges (apply port w (.data (d.opcode :: params) nowUs)).history =
        (entry.last + 1, w.client.discoverRangeEnd) :: ranges w.history := by
      rw [hresponse, ranges, (issueCurrentRequest_requests discoveryRange nowUs).2,
        discoveryRange_requestPdu]
      exact congrArg (Option.toList · ++ ranges w.history) (if_pos hdiscovery)
    rw [hranges]
    intro hadvancing
    have hlt : w.client.pendingHandle < entry.last + 1 :=
      ((isChain_cons.mp hadvancing).1 _ hhead).1
    rw [UInt16.lt_iff_toNat_lt] at hlt hback
    omega
  · exact h.elim

/-- In every run: the cursors of the discoveries advance, within their ranges, exactly as long as no
response goes back. -/
theorem run_advancing_iff (port : ℕ → Bool) (inputs : List Input) :
    ((∀ done rest, done ++ rest = inputs → Advancing (ranges (run port done).history)) ↔
      ∀ done input rest, done ++ input :: rest = inputs → ¬ Regresses (run port done) input) ∧
    ((∀ done input rest, done ++ input :: rest = inputs → ¬ Regresses (run port done) input) →
      (∀ input ∈ inputs, input.StartsAtOne) →
      ∀ done rest, done ++ rest = inputs → (ranges (run port done).history).length ≤ 65535) := by
  have hascends (positive : Prop) (hstarts : positive → ∀ input ∈ inputs, input.StartsAtOne)
      (hforward : ∀ done input rest, done ++ input :: rest = inputs →
        ¬ Regresses (run port done) input) (done rest : List Input)
      (hinputs : done ++ rest = inputs) :
      Ascends positive (run port done).client.operation (ranges (run port done).history) := by
    have hkeeps (w : World) (input : Input) (hmem : input ∈ inputs)
        (h : Ascends positive w.client.operation (ranges w.history)) (hok : ¬ Regresses w input) :
        Ascends positive (apply port w input).client.operation
          (ranges (apply port w input).history) :=
      apply_ascends h hok fun hpositive => hstarts hpositive input hmem
    have hinit : Ascends positive World.init.client.operation (ranges World.init.history) :=
      ⟨nofun, isChain_nil, fun _ => nofun⟩
    exact foldl_invariant_along
      (I := fun w : World => Ascends positive w.client.operation (ranges w.history)) hinit hkeeps
      hforward done rest hinputs
  refine ⟨⟨?_, ?_⟩, ?_⟩
  · exact foldl_good_of_along (P := fun w : World => Advancing (ranges w.history))
      fun done input hback => hback.not_advancing (run_follows port done)
  · intro hforward done rest hinputs
    exact (hascends False nofun hforward done rest hinputs).advancing
  · intro hforward hstarts done rest hinputs
    have hfew := (hascends True (fun _ => hstarts) hforward done rest hinputs).few trivial
    cases hrange : (ranges (run port done).history).head? with
    | none =>
      rw [head?_eq_none_iff.mp hrange]
      exact Nat.zero_le _
    | some range => exact Nat.le_trans (hfew range hrange) (Nat.le_of_lt_succ range.1.toNat_lt)

/-! A server that has one 128-bit service, whose group ends at handle 0 each time. -/

def endlessParams : Bytes := [20, 1, 0, 0, 0] ++ replicate 16 0xAA

def endlessService : Input := .data (opcodeReadByGroupTypeResponse :: endlessParams) 3

def endlessDiscovery (n : ℕ) : List Input :=
  [.connect true true 0, .data [opcodeExchangeMtuResponse, 23, 0] 1, .discoverServices true 2] ++
    replicate n endlessService

def endlessWorld (deadline now requests : ℕ) (history : List Event) : World :=
  ⟨⟨true, 23, false, false, true, .discoverServices, 0, deadline, now, 1, 0xFFFF, [], .empty,
    some 0⟩, true, requests, 1, history⟩

lemma endlessWorld_step (deadline now requests : ℕ) (history : List Event) :
    apply (fun _ => true) (endlessWorld deadline now requests history) endlessService =
      endlessWorld (requestDeadline 3) 3 (requests + 1)
        (.requested (requestPdu (endlessWorld deadline now requests history).client) true ::
          history) := by
  have hentries : servicesDiscovery.entries endlessParams = some [⟨0, none⟩] := by decide +kernel
  have hresponse : handleDiscoverResponse (fun _ => true) servicesDiscovery
      (arrived (endlessWorld deadline now requests history) 3) opcodeReadByGroupTypeResponse
      endlessParams 3 =
        issueCurrentRequest (fun _ => true) (endlessWorld deadline 3 requests history) 3 := by
    refine (handleDiscoverResponse_entries hentries rfl rfl 3).trans (if_neg ?_)
    exact Bool.eq_false_iff.mp rfl
  have hsent := @issueCurrentRequest_taken (fun _ => true)
    (endlessWorld deadline 3 requests history) rfl rfl (show 7 ≤ 512 by decide) 3
  have happly := @apply_discovery (fun _ => true) (endlessWorld deadline now requests history)
    servicesDiscovery rfl rfl rfl rfl endlessParams 3
  exact happly.trans (hresponse.trans hsent)

lemma endlessWorld_ranges (n deadline now requests : ℕ) (history : List Event) :
    (ranges ((replicate n endlessService).foldl (apply fun _ => true)
      (endlessWorld deadline now requests history)).history).length =
      n + (ranges history).length := by
  induction n generalizing deadline now requests history with
  | zero => exact (Nat.zero_add _).symm
  | succ n ih =>
    rw [replicate_succ, foldl_cons, endlessWorld_step, ih, ranges, requestsSince,
      discoveryRange_requestPdu]
    exact (Nat.add_right_comm n 1 _).symm

/-- Each response makes the client ask for the same range again. -/
theorem endlessDiscovery_repeats :
    ¬ Advancing (ranges (run (fun _ => true) (endlessDiscovery 1)).history) ∧
      ∀ n, (ranges (run (fun _ => true) (endlessDiscovery n)).history).length = n + 1 := by
  refine ⟨by unfold Advancing; decide +kernel, fun n => ?_⟩
  exact endlessWorld_ranges n 30000002 1 2 _

end Bluzing.Gatt
