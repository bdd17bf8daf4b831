import Bluzing.Gatt.Discovery

/-! Reads against an honest server. -/
namespace Bluzing.Gatt
open List

inductive ReadQuery where
  | read
  | blob (offset : ℕ)

namespace ReadQuery

def offset : ReadQuery → ℕ
  | .read => 0
  | .blob offset => offset

def pdu (handle : UInt16) : ReadQuery → Bytes
  | .read => [opcodeReadRequest] ++ writeLe16 handle
  | .blob offset => [opcodeReadBlobRequest] ++ (writeLe16 handle ++ writeLe16 offset.toUInt16)

def responseOpcode : ReadQuery → UInt8
  | .read => opcodeReadResponse
  | .blob _ => opcodeReadBlobResponse

lemma responseOpcode_spec (query : ReadQuery) :
    ¬ IsNotification query.responseOpcode ∧ query.responseOpcode ≠ opcodeErrorResponse := by
  cases query with
  | read => exact (by decide : ¬ IsNotification opcodeReadResponse ∧
      opcodeReadResponse ≠ opcodeErrorResponse)
  | blob => exact (by decide : ¬ IsNotification opcodeReadBlobResponse ∧
      opcodeReadBlobResponse ≠ opcodeErrorResponse)

end ReadQuery

def invalidOffsetReply (handle : UInt16) : Bytes :=
  opcodeErrorResponse :: opcodeReadBlobRequest :: (writeLe16 handle ++ [errorInvalidOffset])

inductive HonestRead (value : Bytes) (mtu : ℕ) : ReadQuery → Bytes → Prop
  | chunk (query : ReadQuery) :
      HonestRead value mtu query
        (query.responseOpcode :: (value.drop query.offset).take (mtu - 1))
  | pastEnd (handle : UInt16) :
      HonestRead value mtu (.blob value.length) (invalidOffsetReply handle)

def queryOf (value : Bytes) : ReadQuery :=
  if value.length = 0 then .read else .blob value.length

lemma queryOf_offset (value : Bytes) : (queryOf value).offset = value.length := by
  unfold queryOf
  split
  next h => exact h.symm
  · rfl

variable {port : ℕ → Bool} {value : Bytes} {handle : UInt16} {n : ℕ} {w : World}

structure Reading (value : Bytes) (handle : UInt16) (n : ℕ) (w : World) : Prop where
  isOpen : w.channelOpen = true
  connected : w.client.onConnect = false
  busy : w.client.busy = true
  op : w.client.op = .read
  callback : w.client.onComplete = some n
  pending : w.client.pendingHandle = handle
  mtu : 23 ≤ w.client.mtu
  asked : lastRequest w.history = (queryOf w.client.value.bytes).pdu handle
  known : w.client.value.bytes <+: value

def HasRead (value : Bytes) (n : ℕ) (history : List Event) (w : World) : Prop :=
  w.client.busy = false ∧ w.history = .completed n ⟨.ok, .read, 0, [], value⟩ :: history

lemma hasRead_complete (hop : w.client.op = .read) (hcallback : w.client.onComplete = some n)
    (hvalue : w.client.value.bytes = value) : HasRead value n w.history (complete w .ok 0) := by
  have hcompletion : completionOf w.client .ok 0 = ⟨.ok, .read, 0, [], value⟩ := by
    unfold completionOf
    rw [hop, hvalue]
    rfl
  unfold complete
  rw [hcallback]
  rw [hcompletion]
  exact ⟨rfl, rfl⟩

lemma requestPdu_read {c : Client} (hop : c.op = .read) :
    requestPdu c = (queryOf c.value.bytes).pdu c.pendingHandle := by
  unfold requestPdu queryOf
  rw [hop]
  dsimp only
  split <;> rfl

lemma requestPdu_read_short {c : Client} (hop : c.op = .read) :
    (requestPdu c).length ≤ maxSendLen := by
  have hseven := (requestPdu_length c).resolve_right fun hwrite => nomatch hop.symm.trans hwrite.1
  exact hseven.trans (by decide)

lemma expectedReadResponse_eq (c : Client) :
    expectedReadResponse c = (queryOf c.value.bytes).responseOpcode := by
  unfold expectedReadResponse queryOf
  split <;> rfl

lemma fullChunk_eq {mtu : UInt16} (h : 23 ≤ mtu) : fullChunk mtu = mtu.toNat - 1 := by
  rw [UInt16.le_iff_toNat_le] at h
  unfold fullChunk
  rw [UInt32.toNat_sub_of_le]
  · simp
  · rw [UInt32.le_iff_toNat_le]
    simp at h ⊢
    omega

lemma Reading.apply (h : Reading value handle n w) (opcode : UInt8)
    (hop : ¬ IsNotification opcode) (params : Bytes) (nowUs : ℕ) :
    apply port w (.data (opcode :: params) nowUs) =
      if opcode = opcodeErrorResponse then handleErrorResponse (arrived w nowUs) params
      else handleReadResponse port (arrived w nowUs) opcode params nowUs := by
  have hread : (arrived w nowUs).client.op = .read := h.op
  rw [apply_response h.isOpen hop, if_neg (Bool.eq_false_iff.mp h.connected), if_pos h.busy,
    dispatchResponse, hread]

lemma append_chunk {known value : Bytes} (h : known <+: value) (size : ℕ) :
    known ++ (value.drop known.length).take size <+: value ∧
      (((value.drop known.length).take size).length ≠ size →
        known ++ (value.drop known.length).take size = value) := by
  have hvalue := prefix_iff_eq_append.mp h
  constructor
  · refine ⟨(value.drop known.length).drop size, ?_⟩
    rw [append_assoc, take_append_drop, hvalue]
  · intro hshort
    rw [length_take] at hshort
    rw [take_of_length_le (by omega), hvalue]

lemma handleReadResponse_chunk (port : ℕ → Bool) (w : World) {params : Bytes}
    (hfits : (w.client.value.bytes ++ params).length ≤ maxValueLen) (nowUs : ℕ) :
    handleReadResponse port w (queryOf w.client.value.bytes).responseOpcode params nowUs =
      if params.length = fullChunk w.client.mtu then
        issueCurrentRequest port (w.modify fun c => { c with value := ⟨_, hfits⟩ }) nowUs
      else complete (w.modify fun c => { c with value := ⟨_, hfits⟩ }) .ok 0 := by
  have hroom : ¬ maxValueLen - w.client.value.bytes.length < params.length := by
    rw [length_append] at hfits
    omega
  have hshort : ¬ 65535 < (w.client.value.bytes ++ params).length :=
    Nat.not_lt.mpr (hfits.trans (by decide))
  unfold handleReadResponse
  rw [if_neg (not_not.mpr (expectedReadResponse_eq w.client).symm), dif_neg hroom]
  exact if_congr Iff.rfl (if_neg hshort) rfl

lemma Reading.chunk (hport : ∀ k, port k = true) (hlen : value.length ≤ maxValueLen)
    (h : Reading value handle n w) (nowUs : ℕ) :
    let w' := Gatt.apply port w (.data ((queryOf w.client.value.bytes).responseOpcode ::
      (value.drop w.client.value.bytes.length).take (w.client.mtu.toNat - 1)) nowUs)
    HasRead value n w.history w' ∨
      Reading value handle n w' ∧ w'.client.mtu = w.client.mtu ∧
        (∃ request, w'.history = .requested request true :: w.history) ∧
        w.client.value.bytes.length < w'.client.value.bytes.length := by
  set params := (value.drop w.client.value.bytes.length).take (w.client.mtu.toNat - 1) with hparams
  obtain ⟨hknown, hwhole⟩ := append_chunk h.known (w.client.mtu.toNat - 1)
  rw [← hparams] at hknown hwhole
  have hfull := fullChunk_eq h.mtu
  have hfits := hknown.length_le.trans hlen
  let v := (arrived w nowUs).modify fun c => { c with value := ⟨_, hfits⟩ }
  have hop : v.client.op = .read := h.op
  obtain ⟨hnotice, herror⟩ := (queryOf w.client.value.bytes).responseOpcode_spec
  intro w'
  have hw' : w' = if params.length = fullChunk w.client.mtu then issueCurrentRequest port v nowUs
      else complete v .ok 0 :=
    (h.apply _ hnotice params nowUs).trans
      ((if_neg herror).trans (handleReadResponse_chunk port (arrived w nowUs) hfits nowUs))
  by_cases hcontinue : params.length = fullChunk w.client.mtu
  · have hpdu : requestPdu v.client = (queryOf v.client.value.bytes).pdu handle := by
      rw [requestPdu_read hop, ← h.pending]
      rfl
    have hsent := @issueCurrentRequest_taken port v (hport _) h.isOpen (requestPdu_read_short hop)
      nowUs
    rw [hw', if_pos hcontinue, hsent]
    refine .inr ⟨⟨h.isOpen, h.connected, h.busy, h.op, h.callback, h.pending, h.mtu, hpdu, hknown⟩,
      rfl, ⟨_, rfl⟩, ?_⟩
    have hmtu : 23 ≤ w.client.mtu.toNat := UInt16.le_iff_toNat_le.mp h.mtu
    change w.client.value.bytes.length < (w.client.value.bytes ++ params).length
    rw [length_append]
    omega
  · rw [hw', if_neg hcontinue]
    rw [hfull] at hcontinue
    exact .inl (hasRead_complete (w := v) h.op h.callback (hwhole hcontinue))

lemma Reading.pastEnd (h : Reading value handle n w)
    (hquery : queryOf w.client.value.bytes = .blob value.length) (errorHandle : UInt16)
    (nowUs : ℕ) :
    HasRead value n w.history
      (Gatt.apply port w (.data (invalidOffsetReply errorHandle) nowUs)) := by
  have hoffset : w.client.value.bytes.length = value.length := by
    rw [← queryOf_offset, hquery]
    rfl
  have hvalue := h.known.eq_of_length hoffset
  have hne : w.client.value.bytes.length ≠ 0 := fun hzero => by
    rw [queryOf, if_pos hzero] at hquery
    cases hquery
  have hresponse : Gatt.apply port w (.data (invalidOffsetReply errorHandle) nowUs) =
      complete (arrived w nowUs) .ok 0 := by
    unfold invalidOffsetReply
    rw [h.apply _ (by decide), if_pos rfl, handleErrorResponse, parseErrorResponse_octets]
    dsimp only
    rw [if_neg (by rw [show (arrived w nowUs).client.op = .read from h.op]; decide)]
    exact if_pos ⟨h.op, hne, rfl, rfl⟩
  rw [hresponse]
  exact hasRead_complete (w := arrived w nowUs) h.op h.callback hvalue

lemma Reading.answer (hport : ∀ k, port k = true) (hlen : value.length ≤ maxValueLen)
    (h : Reading value handle n w) {pdu : Bytes}
    (hhonest : HonestRead value w.client.mtu.toNat (queryOf w.client.value.bytes) pdu)
    (nowUs : ℕ) :
    let w' := Gatt.apply port w (.data pdu nowUs)
    HasRead value n w.history w' ∨
      Reading value handle n w' ∧ w'.client.mtu = w.client.mtu ∧
        (∃ request, w'.history = .requested request true :: w.history) ∧
        w.client.value.bytes.length < w'.client.value.bytes.length := by
  generalize hquery : queryOf w.client.value.bytes = query at hhonest
  cases hhonest with
  | chunk =>
    rw [← hquery, queryOf_offset]
    exact h.chunk hport hlen nowUs
  | pastEnd errorHandle => exact .inl (h.pastEnd hquery errorHandle nowUs)

lemma Reading.converse (hport : ∀ k, port k = true) (hlen : value.length ≤ maxValueLen)
    (missing mtu : ℕ) {reply : ℕ → Bytes → Bytes} {time : ℕ → ℕ}
    (hhonest : ∀ k (query : ReadQuery), query.offset ≤ value.length →
      HonestRead value mtu query (reply k (query.pdu handle)))
    (h : Reading value handle n w) (hmtu : w.client.mtu.toNat = mtu)
    (hmissing : value.length - w.client.value.bytes.length < missing) :
    ∃ (rounds : ℕ) (requests : List Bytes), HasRead value n
      (requests.map (Event.requested · true) ++ w.history)
      (Gatt.converse port reply time rounds w) := by
  induction missing generalizing w reply time with
  | zero => cases hmissing
  | succ missing ih =>
    have hreply : HonestRead value w.client.mtu.toNat (queryOf w.client.value.bytes)
        (reply 0 (lastRequest w.history)) := by
      rw [h.asked, hmtu]
      exact hhonest 0 _ ((queryOf_offset _).trans_le h.known.length_le)
    obtain hdone | ⟨hnext, hkept, ⟨request, hrequest⟩, hmore⟩ :=
      h.answer hport hlen hreply (time 0)
    · exact ⟨1, [], hdone⟩
    · have hbound := hnext.known.length_le
      obtain ⟨rounds, requests, hrun⟩ := @ih _ (fun k => reply (k + 1)) (fun k => time (k + 1))
        (fun k => hhonest (k + 1)) hnext (by rw [hkept, hmtu]) (by omega)
      refine ⟨rounds + 1, requests ++ [request], ?_⟩
      rw [hrequest] at hrun
      rw [map_append, append_assoc]
      exact hrun

lemma Ready.read (hport : ∀ k, port k = true) (h : Ready w) (hmtu : 23 ≤ w.client.mtu)
    (value : Bytes) (handle : UInt16) (nowUs : ℕ) :
    let w' := apply port w (.read handle true nowUs)
    Reading value handle w.operations w' ∧ w'.client.mtu = w.client.mtu ∧
      w'.client.value.bytes = [] ∧
      ∃ request, w'.history = .requested request true :: .accepted w.operations :: w.history := by
  let v := startOperation w (.setValue .read handle .empty) true
  have hfree : ¬ (!w.client.channelReady || w.client.busy) = true := by simp [h.ready, h.idle]
  have hread : apply port w (.read handle true nowUs) = issueCurrentRequest port v nowUs :=
    congrArg Prod.fst (if_neg hfree)
  have hsent := @issueCurrentRequest_taken port v (hport _) h.isOpen (requestPdu_read_short rfl)
    nowUs
  rw [hread, hsent]
  exact ⟨⟨h.isOpen, h.connected, rfl, rfl, rfl, rfl, hmtu, rfl, nil_prefix⟩, rfl, rfl, _, rfl⟩

/-- Every read completes, after some answers of an honest server, with exactly the value. -/
theorem read_complete {port : ℕ → Bool} (hport : ∀ k, port k = true) (value : Bytes)
    (hlen : value.length ≤ maxValueLen) (handle : UInt16) {w : World} (hready : Ready w)
    (hmtu : 23 ≤ w.client.mtu) {reply : ℕ → Bytes → Bytes}
    (hhonest : ∀ k (query : ReadQuery), query.offset ≤ value.length →
      HonestRead value w.client.mtu.toNat query (reply k (query.pdu handle)))
    (time : ℕ → ℕ) (nowUs : ℕ) :
    ∃ (rounds : ℕ) (requests : List Bytes),
      let w' := converse port reply time rounds (apply port w (.read handle true nowUs))
      w'.history = .completed w.operations ⟨.ok, .read, 0, [], value⟩ ::
          (requests.map (Event.requested · true) ++ .accepted w.operations :: w.history) ∧
        w'.client.busy = false := by
  obtain ⟨hreading, hkept, hnone, request, hrequest⟩ := hready.read hport hmtu value handle nowUs
  obtain ⟨rounds, requests, hidle, hhistory⟩ := hreading.converse hport hlen (value.length + 1)
    w.client.mtu.toNat hhonest (by rw [hkept]) (by rw [hnone]; simp)
  refine ⟨rounds, requests ++ [request], ?_, hidle⟩
  rw [map_append, append_assoc]
  rw [hrequest] at hhistory
  exact hhistory

def chunkReply (value : Bytes) (mtu : ℕ) : Bytes → Bytes
  | [_, _, _] => opcodeReadResponse :: value.take (mtu - 1)
  | [_, _, _, b0, b1] =>
      opcodeReadBlobResponse :: (value.drop (readLe16 b0 b1).toNat).take (mtu - 1)
  | _ => []

lemma chunkReply_honest {value : Bytes} (hlen : value.length ≤ maxValueLen) (mtu : ℕ)
    (handle : UInt16) (query : ReadQuery) (h : query.offset ≤ value.length) :
    HonestRead value mtu query (chunkReply value mtu (query.pdu handle)) := by
  cases query with
  | read => exact .chunk .read
  | blob offset =>
    have hoffset : offset.toUInt16.toNat = offset :=
      UInt16.toNat_ofNat_of_lt' (Nat.lt_of_le_of_lt (Nat.le_trans h hlen) (by decide))
    have hreply : chunkReply value mtu ((ReadQuery.blob offset).pdu handle) =
        opcodeReadBlobResponse :: (value.drop offset).take (mtu - 1) := by
      change opcodeReadBlobResponse :: (value.drop (readLe16 offset.toUInt16.toUInt8
        (offset.toUInt16 >>> 8).toUInt8).toNat).take (mtu - 1) = _
      rw [readLe16_writeLe16, hoffset]
    rw [hreply]
    exact .chunk (.blob offset)

theorem read_complete_twoChunks : ∃ (rounds : ℕ) (requests : List Bytes),
    let w' := converse (fun _ => true) (fun _ => chunkReply (replicate 44 7) 23) (· + 3) rounds
      (apply (fun _ => true) connectedWorld (.read 5 true 2))
    w'.history = .completed 0 ⟨.ok, .read, 0, [], replicate 44 7⟩ ::
        (requests.map (Event.requested · true) ++ .accepted 0 :: connectedWorld.history) ∧
      w'.client.busy = false := by
  have hready : Ready connectedWorld := ⟨by decide, by decide, by decide, by decide⟩
  have hlen : (replicate 44 (7 : UInt8)).length ≤ maxValueLen := by decide
  exact read_complete (fun _ => rfl) (replicate 44 7) hlen 5 hready (by decide)
    (fun _ query => chunkReply_honest hlen 23 5 query) (· + 3) 2

end Bluzing.Gatt
