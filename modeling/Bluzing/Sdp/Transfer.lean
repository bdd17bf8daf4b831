import Bluzing.Lib.Reentrant
import Bluzing.Sdp.Client
import Bluzing.Sdp.DataElements

/-! A result that an honest server sends in pieces: the client asks for each piece with the
continuation state of the one before, and completes with the whole. -/
namespace Bluzing.Sdp
open List

def pdu (pduId : UInt8) (transactionId : UInt16) (params : Bytes) : Bytes :=
  [pduId] ++ (writeBe16 transactionId ++ (writeBe16 (UInt16.ofNat params.length) ++ params))

def Continuation.octets (cont : Continuation) : Bytes :=
  cont.data.length.toUInt8 :: cont.data

inductive Query where
  | search (pattern : Filled maxRequestBody) (maxCount : UInt16)
  | attributes (handle : UInt32) (maxBytes : UInt16) (idList : Filled maxRequestBody)
  deriving DecidableEq

def Client.query (c : Client) : Query :=
  match c.op with
  | .search => .search c.searchPattern c.searchMaxCount
  | .attributes => .attributes c.attrHandle c.attrMaxBytes c.attrIdList

structure Round where
  total : UInt16
  body : Bytes
  continuation : Continuation

namespace Query

def op : Query → Op
  | search _ _ => .search
  | attributes _ _ _ => .attributes

def request (transactionId : UInt16) (cont : Continuation) : Query → Bytes
  | search pattern maxCount =>
      pdu pduServiceSearchRequest transactionId
        (pattern.bytes ++ (writeBe16 maxCount ++ cont.octets))
  | attributes handle maxBytes idList =>
      pdu pduServiceAttributeRequest transactionId
        (writeBe32 handle ++ (writeBe16 maxBytes ++ (idList.bytes ++ cont.octets)))

def response (transactionId : UInt16) (round : Round) : Query → Bytes
  | search _ _ =>
      pdu pduServiceSearchResponse transactionId
        (writeBe16 round.total ++ (writeBe16 (UInt16.ofNat (round.body.length / 4)) ++
          (round.body ++ round.continuation.octets)))
  | attributes _ _ _ =>
      pdu pduServiceAttributeResponse transactionId
        (writeBe16 (UInt16.ofNat round.body.length) ++ (round.body ++ round.continuation.octets))

def Divides (body : Bytes) : Query → Prop
  | search _ _ => 4 ∣ body.length
  | attributes _ _ _ => True

def Delivers (assembled data : Bytes) : Query → Prop
  | search _ _ => data = assembled
  | attributes _ _ _ => SequenceEncoding data assembled

def total (last : UInt16) (round : Round) : Query → UInt16
  | search _ _ => round.total
  | attributes _ _ _ => last

def start (port : ℕ → Bool) (w : World) (onComplete : Bool) : Query → World × Status
  | search pattern maxCount => Sdp.search port w pattern.bytes maxCount onComplete
  | attributes handle maxBytes idList =>
      getAttributes port w handle maxBytes idList.bytes onComplete

end Query

lemma parseHeader_rest {r : Reader} {pduId : UInt8} {transactionId paramLen : UInt16}
    {tail : Bytes}
    (h : r.rest = [pduId] ++ (writeBe16 transactionId ++ (writeBe16 paramLen ++ tail))) :
    ∃ r', parseHeader r = .ok (⟨pduId, transactionId, paramLen⟩, r') ∧ r'.rest = tail := by
  obtain ⟨r₁, h₁, hr₁⟩ := reads_u8.accepts trivial h
  obtain ⟨r₂, h₂, hr₂⟩ := reads_be16.accepts trivial hr₁
  obtain ⟨r₃, h₃, hr₃⟩ := reads_be16.accepts trivial hr₂
  refine ⟨r₃, ?_, hr₃⟩
  rw [parseHeader, h₁]
  simp only [bind, Except.bind, h₂, h₃]
  rfl

lemma readContinuation_rest {r : Reader} {cont : Continuation} {tail : Bytes}
    (h : r.rest = cont.octets ++ tail) :
    ∃ r', readContinuation r = .ok (cont, r') ∧ r'.rest = tail := by
  have hfits : cont.data.length ≤ 16 := cont.fits
  have hlen : cont.data.length.toUInt8.toNat = cont.data.length := by
    exact Nat.mod_eq_of_lt (by omega)
  have hfirst := h
  obtain ⟨r₁, h₁, hr₁⟩ := reads_u8.accepts trivial hfirst
  rw [readContinuation, h₁]
  simp only [bind, Except.bind]
  rw [dif_neg (by rw [hlen]; exact Nat.not_lt.mpr hfits)]
  by_cases hzero : cont.data.length.toUInt8 = 0
  · have hempty : cont.data = [] := by
      apply length_eq_zero_iff.mp
      rw [← hlen, hzero]
      rfl
    refine ⟨r₁, ?_, by rw [hr₁, hempty]; rfl⟩
    obtain ⟨data, fits⟩ := cont
    cases hempty
    rfl
  · rw [if_neg hzero]
    obtain ⟨r₂, h₂, hr₂⟩ := (reads_bytes cont.data.length.toUInt8.toNat).accepts
      (v := ⟨cont.data, hlen.symm⟩) trivial hr₁
    refine ⟨r₂, ?_, hr₂⟩
    rw [h₂]
    rfl

lemma parseServiceSearchResponse_eq {total : UInt16} {body : Bytes} {cont : Continuation}
    (hwhole : 4 ∣ body.length) (hfits : body.length ≤ maxResult) :
    parseServiceSearchResponse (writeBe16 total ++ (writeBe16 (UInt16.ofNat (body.length / 4)) ++
        (body ++ cont.octets))) =
      .ok ⟨total, UInt16.ofNat (body.length / 4), body, cont⟩ := by
  have hcount : (UInt16.ofNat (body.length / 4)).toNat * 4 = body.length := by
    have hsmall : body.length ≤ 1024 := hfits
    rw [UInt16.toNat_ofNat', Nat.mod_eq_of_lt (by omega)]
    exact Nat.div_mul_cancel hwhole
  obtain ⟨r₁, h₁, hr₁⟩ := reads_be16.accepts trivial (Reader.rest_init
    (writeBe16 total ++ (writeBe16 (UInt16.ofNat (body.length / 4)) ++ (body ++ cont.octets))))
  obtain ⟨r₂, h₂, hr₂⟩ := reads_be16.accepts trivial hr₁
  obtain ⟨r₃, h₃, hr₃⟩ := Reader.skip_rest hr₂
  rw [← append_nil cont.octets] at hr₃
  obtain ⟨r₄, h₄, -⟩ := readContinuation_rest hr₃
  rw [parseServiceSearchResponse, h₁]
  simp only [bind, Except.bind, h₂, hcount, Reader.peek_rest hr₂, h₃, h₄]
  rfl

variable (cont : Continuation)

lemma writes_continuation :
    Writer.Writes
      (writeContinuation · (if 0 < cont.data.length then some cont else none)) cont.octets := by
  unfold Continuation.octets
  by_cases h : 0 < cont.data.length
  · simp only [if_pos h, writeContinuation, if_neg (Nat.ne_of_gt h)]
    exact (Writer.writes_bytes _).bind (Writer.writes_bytes _)
  · have hempty : cont.data = [] := by
      apply length_eq_zero_iff.mp
      omega
    simp only [writeContinuation, hempty]
    exact Writer.writes_bytes _

lemma continuationLen_eq :
    continuationLen (if 0 < cont.data.length then some cont else none) + 1 =
      cont.octets.length := by
  unfold Continuation.octets continuationLen
  split
  · rfl
  · rw [length_cons]
    simp only [Option.map_none, Option.getD_none]
    omega

lemma writes_pdu {f : Writer → Except Status Writer} {params : Bytes}
    (hf : Writer.Writes f params) (pduId : UInt8) (transactionId : UInt16) :
    Writer.Writes
      (fun w => encodeHeader w pduId transactionId (UInt16.ofNat params.length) >>= f)
      (pdu pduId transactionId params) := by
  have hheader : Writer.Writes (encodeHeader · pduId transactionId (UInt16.ofNat params.length))
      ([pduId] ++ (writeBe16 transactionId ++ writeBe16 (UInt16.ofNat params.length))) :=
    (Writer.writes_bytes _).bind ((Writer.writes_bytes _).bind (Writer.writes_bytes _))
  have hall := hheader.bind hf
  exact hall

lemma length_octets_le : cont.octets.length ≤ 17 := by
  have hfits : cont.data.length ≤ 16 := cont.fits
  rw [Continuation.octets, length_cons]
  omega

lemma length_pdu (pduId : UInt8) (transactionId : UInt16) (params : Bytes) :
    (pdu pduId transactionId params).length = headerLen + params.length := by
  simp only [pdu, writeBe16, headerLen, length_append, length_cons, length_nil]
  omega

lemma writes_request {f : Writer → Except Status Writer} {octets : Bytes}
    (h : Writer.Writes f octets) (hlen : octets.length ≤ requestBufLen) :
    ∃ wr, f (.init requestBufLen) = .ok wr ∧ wr.data = octets := by
  obtain ⟨wr, hencode, -, hdata⟩ := h (.init requestBufLen) (by simpa [Writer.init] using hlen)
  exact ⟨wr, hencode, hdata⟩

lemma encodeRequest_eq (c : Client) (transactionId : UInt16) :
    ∃ wr, encodeRequest c transactionId = .ok wr ∧
      wr.data = c.query.request transactionId c.continuation := by
  have hcont := length_octets_le c.continuation
  have hlen := continuationLen_eq c.continuation
  have hwrite := writes_continuation c.continuation
  unfold encodeRequest Client.query
  cases c.op with
  | search =>
    have hpattern : c.searchPattern.bytes.length ≤ 64 := c.searchPattern.fits
    have hparams : c.searchPattern.bytes.length + 2 + 1 + continuationLen
        (if 0 < c.continuation.data.length then some c.continuation else none) =
          (c.searchPattern.bytes ++ (writeBe16 c.searchMaxCount ++
            c.continuation.octets)).length := by
      simp only [length_append, ← hlen, writeBe16, length_cons, length_nil]
      omega
    have hwrites := writes_pdu ((Writer.writes_bytes c.searchPattern.bytes).bind
      ((Writer.writes_bytes (writeBe16 c.searchMaxCount)).bind hwrite)) pduServiceSearchRequest
      transactionId
    rw [← hparams] at hwrites
    refine writes_request hwrites ?_
    rw [length_pdu, ← hparams]
    simp only [requestBufLen, headerLen, maxRequestBody]
    omega
  | attributes =>
    have hids : c.attrIdList.bytes.length ≤ 64 := c.attrIdList.fits
    have hparams : 4 + 2 + c.attrIdList.bytes.length + 1 + continuationLen
        (if 0 < c.continuation.data.length then some c.continuation else none) =
          (writeBe32 c.attrHandle ++ (writeBe16 c.attrMaxBytes ++ (c.attrIdList.bytes ++
            c.continuation.octets))).length := by
      simp only [length_append, ← hlen, writeBe16, writeBe32, length_cons,
        length_nil]
      omega
    have hwrites := writes_pdu ((Writer.writes_bytes (writeBe32 c.attrHandle)).bind
      ((Writer.writes_bytes (writeBe16 c.attrMaxBytes)).bind
        ((Writer.writes_bytes c.attrIdList.bytes).bind hwrite))) pduServiceAttributeRequest
      transactionId
    rw [← hparams] at hwrites
    refine writes_request hwrites ?_
    rw [length_pdu, ← hparams]
    simp only [requestBufLen, headerLen, maxRequestBody]
    omega

def Event.request? : Event → Option (UInt16 × Bytes)
  | .requested cid pdu _ => some (cid, pdu)
  | .accepted | .received _ | .completed _ | .connected _ | .closing _ => none

def Event.completion? : Event → Option Completion
  | .completed completion => some completion
  | .accepted | .requested _ _ _ | .received _ | .connected _ | .closing _ => none

def requestsOf (history : List Event) : List (UInt16 × Bytes) :=
  history.filterMap Event.request?

def completionsOf (history : List Event) : List Completion := history.filterMap Event.completion?

def lastTransaction (history : List Event) : UInt16 :=
  match (requestsOf history).head? with
  | some (_, _ :: b0 :: b1 :: _) => readBe16 b0 b1
  | _ => 0

variable (port : ℕ → Bool)

def answer (q : Query) (w : World) (round : Round) : World :=
  apply port w (.data (q.response (lastTransaction w.history) round))

def converse (q : Query) (rounds : List Round) (w : World) : World := rounds.foldl (answer port q) w

def receiveAll (pdus : List Bytes) (w : World) : World :=
  pdus.foldl (fun w pdu => apply port w (.data pdu)) w

def Query.requests (q : Query) (cid : UInt16) :
    UInt16 → List Continuation → List (UInt16 × Bytes)
  | _, [] => []
  | transactionId, cont :: conts =>
      (cid, q.request transactionId cont) :: q.requests cid (transactionId + 1) conts

lemma lastTransaction_request (q : Query) (cid transactionId : UInt16) (cont : Continuation)
    (sent : Bool) (h : List Event) :
    lastTransaction (.requested cid (q.request transactionId cont) sent :: h) = transactionId := by
  cases q with
  | search | attributes =>
    exact (readBe16_eq _ _).trans (readLe16_writeLe16 transactionId)

section

variable {port : ℕ → Bool} {q : Query} {w : World} {assembled : Bytes} {round : Round}

structure Waiting (q : Query) (w : World) (assembled : Bytes) : Prop where
  busy : w.client.busy = true
  query : w.client.query = q
  callback : w.client.onComplete = true
  pending : lastTransaction w.history = w.client.pendingTransactionId
  result : w.client.result.bytes = assembled

structure Issued (w w' : World) : Prop where
  client : w'.client = { w.client with
    pendingTransactionId := w.client.nextTransactionId,
    nextTransactionId := w.client.nextTransactionId + 1 }
  history : w'.history = .requested w.client.localCid
    (w.client.query.request w.client.nextTransactionId w.client.continuation) true :: w.history

lemma issueRequest_issued (hport : ∀ k, port k = true) (w : World) :
    Issued w (issueRequest port w) := by
  obtain ⟨wr, hencode, hdata⟩ := encodeRequest_eq { w.client with
    pendingTransactionId := w.client.nextTransactionId,
    nextTransactionId := w.client.nextTransactionId + 1 } w.client.nextTransactionId
  unfold issueRequest
  dsimp only [World.modify]
  rw [hencode]
  dsimp only
  rw [hport, if_pos rfl]
  refine ⟨rfl, ?_⟩
  rw [hdata]
  rfl

lemma handleResponse_pdu {pduId : UInt8} {params : Bytes} (hbusy : w.client.busy = true)
    (hparams : params.length < 2 ^ 16) (hid : pduId ≠ pduErrorResponse) :
    handleResponse port w (pdu pduId w.client.pendingTransactionId params) =
      match w.client.op with
      | .search =>
          if pduId ≠ pduServiceSearchResponse then fail w .errorProtocol
          else handleSearchResponse port w params
      | .attributes =>
          if pduId ≠ pduServiceAttributeResponse then fail w .errorProtocol
          else handleAttributeResponse port w params := by
  obtain ⟨r, hheader, hrest⟩ := parseHeader_rest (Reader.rest_init
    (pdu pduId w.client.pendingTransactionId params))
  rw [← append_nil params] at hrest
  have hlen : (UInt16.ofNat params.length).toNat = params.length := by
    rw [UInt16.toNat_ofNat', Nat.mod_eq_of_lt hparams]
  unfold handleResponse
  rw [hbusy, hheader]
  dsimp only
  rw [if_neg (by decide), if_neg (not_not_intro rfl), hlen, Reader.peek_rest hrest]
  exact if_neg hid

def taken (q : Query) (w : World) (round : Round) (result : Filled maxResult) : World where
  client := { w.client with
    lastTotalCount := q.total w.client.lastTotalCount round, result,
    continuation := round.continuation }
  requests := w.requests
  history := .received (q.response w.client.pendingTransactionId round) :: w.history

lemma appendResult_eq {result : Filled maxResult} {data : Bytes}
    (h : (result.bytes ++ data).length ≤ maxResult) :
    appendResult result data = .ok ⟨result.bytes ++ data, h⟩ := by
  unfold appendResult
  rw [dif_neg]
  rw [length_append] at h
  exact Nat.not_lt.mpr h

lemma handleAttributeResponse_eq
    (hfits : (w.client.result.bytes ++ round.body).length ≤ maxResult) :
    handleAttributeResponse port w (writeBe16 (UInt16.ofNat round.body.length) ++
        (round.body ++ round.continuation.octets)) =
      finishRound port (w.modify fun c => { c with
        result := ⟨w.client.result.bytes ++ round.body, hfits⟩,
        continuation := round.continuation }) := by
  have hsmall : round.body.length ≤ 1024 := by
    rw [length_append] at hfits
    exact Nat.le_trans (Nat.le_add_left _ _) hfits
  have hcount : (UInt16.ofNat round.body.length).toNat = round.body.length := by
    rw [UInt16.toNat_ofNat', Nat.mod_eq_of_lt (by omega)]
  obtain ⟨r₁, h₁, hr₁⟩ := reads_be16.accepts trivial (Reader.rest_init
    (writeBe16 (UInt16.ofNat round.body.length) ++ (round.body ++ round.continuation.octets)))
  obtain ⟨r₂, h₂, hr₂⟩ := Reader.skip_rest hr₁
  rw [← append_nil round.continuation.octets] at hr₂
  obtain ⟨r₃, h₃, -⟩ := readContinuation_rest hr₂
  unfold handleAttributeResponse readContinuationLocal
  rw [h₁]
  simp only [hcount, Reader.peek_rest hr₁, h₂, appendResult_eq hfits, h₃]
  rfl

lemma handleSearchResponse_eq (hwhole : 4 ∣ round.body.length)
    (hfits : (w.client.result.bytes ++ round.body).length ≤ maxResult) :
    handleSearchResponse port w (writeBe16 round.total ++
        (writeBe16 (UInt16.ofNat (round.body.length / 4)) ++
          (round.body ++ round.continuation.octets))) =
      finishRound port (w.modify fun c => { c with
        lastTotalCount := round.total,
        result := ⟨w.client.result.bytes ++ round.body, hfits⟩,
        continuation := round.continuation }) := by
  have hsmall : round.body.length ≤ maxResult := by
    rw [length_append] at hfits
    exact Nat.le_trans (Nat.le_add_left _ _) hfits
  unfold handleSearchResponse
  rw [parseServiceSearchResponse_eq hwhole hsmall]
  dsimp only [World.modify]
  rw [appendResult_eq hfits]

lemma answer_eq (h : Waiting q w assembled) (hdiv : q.Divides round.body)
    (hfits : (assembled ++ round.body).length ≤ maxResult) :
    answer port q w round =
      finishRound port (taken q w round ⟨assembled ++ round.body, hfits⟩) := by
  obtain ⟨hbusy, rfl, -, hpending, rfl⟩ := h
  have hcont := length_octets_le round.continuation
  have hsmall : round.body.length ≤ 1024 := by
    rw [length_append] at hfits
    exact Nat.le_trans (Nat.le_add_left _ _) hfits
  unfold answer
  rw [hpending]
  cases hop : w.client.op with
  | search =>
    have hquery : w.client.query = .search w.client.searchPattern w.client.searchMaxCount := by
      rw [Client.query, hop]
    rw [hquery] at hdiv ⊢
    refine (handleResponse_pdu (w := w.emit (.received _)) hbusy ?_ (by decide)).trans ?_
    · simp only [length_append, writeBe16, length_cons, length_nil]
      omega
    · rw [show (w.emit _).client.op = .search from hop]
      exact handleSearchResponse_eq (w := w.emit (.received _)) hdiv hfits
  | attributes =>
    have hquery : w.client.query =
        .attributes w.client.attrHandle w.client.attrMaxBytes w.client.attrIdList := by
      rw [Client.query, hop]
    rw [hquery]
    refine (handleResponse_pdu (w := w.emit (.received _)) hbusy ?_ (by decide)).trans ?_
    · simp only [length_append, writeBe16, length_cons, length_nil]
      omega
    · rw [show (w.emit _).client.op = .attributes from hop]
      exact handleAttributeResponse_eq (w := w.emit (.received _)) hfits

lemma finishRound_more (h : w.client.continuation.data ≠ []) :
    finishRound port w = issueRequest port w := if_pos (length_pos_iff.mpr h)

lemma finishRound_last (port : ℕ → Bool) (h : w.client.continuation.data = []) {data : Bytes}
    (hdata : w.client.query.Delivers w.client.result.bytes data) :
    ∃ result : Filled maxResult, result.bytes = data ∧
      finishRound port w = succeed (w.modify fun c => { c with result }) := by
  have hround : ¬ 0 < w.client.continuation.data.length := by
    rw [h]
    exact Nat.lt_irrefl 0
  unfold finishRound
  rw [if_neg hround]
  cases hop : w.client.op with
  | search =>
    rw [Client.query, hop] at hdata
    exact ⟨w.client.result, hdata.symm, rfl⟩
  | attributes =>
    rw [Client.query, hop] at hdata
    have hrest : (Reader.init w.client.result.bytes).rest = w.client.result.bytes ++ [] :=
      (append_nil _).symm
    obtain ⟨r, hparse, -⟩ := parseElement_sequence hdata hrest
    dsimp only
    split
    next nested r' hparse' =>
      obtain ⟨hsame, -⟩ := Prod.mk.inj (Except.ok.inj (hparse.symm.trans hparse'))
      exact ⟨_, (Element.sequence.inj hsame).symm, rfl⟩
    next hnot => exact (hnot data r hparse).elim

lemma Waiting.continues (hport : ∀ k, port k = true) (h : Waiting q w assembled)
    (hdiv : q.Divides round.body) (hfits : (assembled ++ round.body).length ≤ maxResult)
    (hmore : round.continuation.data ≠ []) :
    Waiting q (answer port q w round) (assembled ++ round.body) ∧
      (answer port q w round).client = { w.client with
        pendingTransactionId := w.client.nextTransactionId,
        nextTransactionId := w.client.nextTransactionId + 1,
        lastTotalCount := q.total w.client.lastTotalCount round,
        result := ⟨assembled ++ round.body, hfits⟩,
        continuation := round.continuation } ∧
      (answer port q w round).history = .requested w.client.localCid
        (q.request w.client.nextTransactionId round.continuation) true ::
          .received (q.response w.client.pendingTransactionId round) :: w.history := by
  rw [answer_eq h hdiv hfits, finishRound_more hmore]
  obtain ⟨hclient, hhistory⟩ := issueRequest_issued hport
    (taken q w round ⟨assembled ++ round.body, hfits⟩)
  have hquery : (taken q w round ⟨assembled ++ round.body, hfits⟩).client.query = q := h.query
  rw [hquery] at hhistory
  refine ⟨⟨?_, ?_, ?_, ?_, ?_⟩, hclient, hhistory⟩
  · rw [hclient]
    exact h.busy
  · rw [hclient]
    exact h.query
  · rw [hclient]
    exact h.callback
  · rw [hhistory, lastTransaction_request, hclient]
  · rw [hclient]
    rfl

lemma succeed_eq {w : World} (h : w.client.onComplete = true) :
    succeed w = ⟨{ w.client with busy := false }, w.requests,
      .completed ⟨.ok, w.client.op, w.client.result.bytes, w.client.lastTotalCount⟩ ::
        w.history⟩ := by
  exact if_pos h

lemma Waiting.completes (h : Waiting q w assembled) (port : ℕ → Bool)
    (hdiv : q.Divides round.body) (hfits : (assembled ++ round.body).length ≤ maxResult)
    (hlast : round.continuation.data = []) {data : Bytes}
    (hdata : q.Delivers (assembled ++ round.body) data) :
    (answer port q w round).client.busy = false ∧
      (answer port q w round).history =
        .completed ⟨.ok, q.op, data, q.total w.client.lastTotalCount round⟩ ::
          .received (q.response w.client.pendingTransactionId round) :: w.history := by
  have hquery : (taken q w round ⟨assembled ++ round.body, hfits⟩).client.query = q := h.query
  obtain ⟨result, rfl, hfinish⟩ := finishRound_last port
    (w := taken q w round ⟨assembled ++ round.body, hfits⟩) hlast (by rw [hquery]; exact hdata)
  have hop : w.client.op = q.op := by
    rw [← h.query, Client.query]
    cases w.client.op with
    | search | attributes => rfl
  rw [answer_eq h hdiv hfits, hfinish, succeed_eq (by exact h.callback)]
  refine ⟨rfl, ?_⟩
  rw [← hop]
  rfl

lemma receiveAll_idle (pdus : List Bytes) {w : World} (hidle : w.client.busy = false) :
    requestsOf (receiveAll port pdus w).history = requestsOf w.history ∧
      completionsOf (receiveAll port pdus w).history = completionsOf w.history := by
  let I (w' : World) : Prop :=
    w'.client.busy = false ∧ requestsOf w'.history = requestsOf w.history ∧
      completionsOf w'.history = completionsOf w.history
  have hrun : I (receiveAll port pdus w) := by
    refine foldl_invariant (I := I) (fun w' pdu hw' => ?_) pdus ⟨hidle, rfl, rfl⟩
    obtain ⟨hbusy, hrequests, hcompletions⟩ := hw'
    have hnot := congrArg not hbusy
    have hignored : apply port w' (.data pdu) = w'.emit (.received pdu) := if_pos hnot
    rw [hignored]
    exact ⟨hbusy, hrequests, hcompletions⟩
  exact hrun.2

lemma Query.total_total (q : Query) (count : UInt16) (first second : Round) :
    q.total (q.total count first) second = q.total count second := by
  cases q with
  | search | attributes => rfl

lemma Waiting.converse (hport : ∀ k, port k = true) {rounds : List Round} {last : Round}
    (h : Waiting q w assembled) (hmore : ∀ round ∈ rounds, round.continuation.data ≠ [])
    (hlast : last.continuation.data = []) (hdiv : ∀ round ∈ rounds ++ [last], q.Divides round.body)
    (hfits : (assembled ++ (rounds ++ [last]).flatMap Round.body).length ≤ maxResult)
    {data : Bytes}
    (hdata : q.Delivers (assembled ++ (rounds ++ [last]).flatMap Round.body) data) :
    (converse port q (rounds ++ [last]) w).client.busy = false ∧
      requestsOf (converse port q (rounds ++ [last]) w).history =
        (q.requests w.client.localCid w.client.nextTransactionId
          (rounds.map Round.continuation)).reverse ++ requestsOf w.history ∧
      completionsOf (converse port q (rounds ++ [last]) w).history =
        ⟨.ok, q.op, data, q.total w.client.lastTotalCount last⟩ :: completionsOf w.history := by
  induction rounds generalizing w assembled with
  | nil =>
    simp only [nil_append, flatMap_cons, flatMap_nil, append_nil] at hfits hdata
    have hdivLast := hdiv last (mem_singleton_self _)
    obtain ⟨hbusy, hhistory⟩ := h.completes port hdivLast hfits hlast hdata
    refine ⟨hbusy, ?_, ?_⟩
    · exact (congrArg requestsOf hhistory).trans rfl
    · exact (congrArg completionsOf hhistory).trans rfl
  | cons round rounds ih =>
    obtain ⟨hround, hrest⟩ := forall_mem_cons.mp hmore
    obtain ⟨hdivRound, hdivRest⟩ := forall_mem_cons.mp hdiv
    simp only [cons_append, flatMap_cons] at hfits hdata
    rw [← append_assoc] at hfits hdata
    have hfitsRound : (assembled ++ round.body).length ≤ maxResult := by
      rw [length_append] at hfits
      exact Nat.le_trans (Nat.le_add_right _ _) hfits
    obtain ⟨hwaiting, hclient, hhistory⟩ := h.continues hport hdivRound hfitsRound hround
    obtain ⟨hbusy, hrequests, hcompletions⟩ := ih hwaiting hrest hdivRest hfits hdata
    refine ⟨hbusy, ?_, ?_⟩
    · refine hrequests.trans ?_
      rw [hclient, hhistory, map_cons, Query.requests, reverse_cons, append_assoc]
      rfl
    · refine hcompletions.trans ?_
      rw [hclient, hhistory, Query.total_total]
      rfl

structure Started (q : Query) (w w' : World) : Prop where
  waiting : Waiting q w' []
  cid : w'.client.localCid = w.client.localCid
  next : w'.client.nextTransactionId = w.client.nextTransactionId + 1
  total : ∀ last, q.total w'.client.lastTotalCount last = q.total w.client.lastTotalCount last
  history : w'.history = .requested w.client.localCid
    (q.request w.client.nextTransactionId .none) true :: .accepted :: w.history

lemma Query.started (hport : ∀ k, port k = true) (q : Query) {setup : Client → Client}
    (hquery : (startOperation w setup true).client.query = q)
    (hcid : (setup w.client).localCid = w.client.localCid)
    (hnext : (setup w.client).nextTransactionId = w.client.nextTransactionId)
    (htotal : ∀ last, q.total (setup w.client).lastTotalCount last =
      q.total w.client.lastTotalCount last) :
    Started q w (issueRequest port (startOperation w setup true)) := by
  obtain ⟨hclient, hhistory⟩ := issueRequest_issued hport (startOperation w setup true)
  have hlocal : (startOperation w setup true).client.localCid = w.client.localCid := hcid
  have htransaction : (startOperation w setup true).client.nextTransactionId =
    w.client.nextTransactionId := hnext
  rw [hquery, hlocal, htransaction] at hhistory
  refine ⟨⟨?_, ?_, ?_, ?_, ?_⟩, ?_, ?_, ?_, hhistory⟩
  · rw [hclient]
    rfl
  · rw [hclient]
    exact hquery
  · rw [hclient]
    rfl
  · rw [hhistory, lastTransaction_request, hclient]
    exact hnext.symm
  · rw [hclient]
    rfl
  · rw [hclient]
    exact hcid
  · rw [hclient]
    exact congrArg (· + 1) hnext
  · rw [hclient]
    exact htotal

lemma Query.start_started (hport : ∀ k, port k = true) (q : Query)
    (hready : w.client.channelReady = true) (hidle : w.client.busy = false) :
    (q.start port w true).2 = .ok ∧ Started q w (q.start port w true).1 := by
  have hgate : ¬ (!w.client.channelReady || w.client.busy) = true := by
    rw [hready, hidle]
    decide
  cases q with
  | search pattern maxCount =>
    have hlen := Nat.not_lt.mpr pattern.fits
    rw [Query.start, Sdp.search, if_neg hgate, dif_neg hlen]
    exact ⟨rfl, Query.started hport _ rfl rfl rfl fun _ => rfl⟩
  | attributes handle maxBytes idList =>
    have hlen := Nat.not_lt.mpr idList.fits
    rw [Query.start, getAttributes, if_neg hgate, dif_neg hlen]
    exact ⟨rfl, Query.started hport _ rfl rfl rfl fun _ => rfl⟩

end

/-- However an honest server splits the result, the client echoes every continuation state and
completes once, with the nested octets of the sequence or all the handles. -/
theorem transfer_complete {port : ℕ → Bool} (hport : ∀ k, port k = true) (q : Query) {w : World}
    (hready : w.client.channelReady = true) (hidle : w.client.busy = false) (rounds : List Round)
    (last : Round) (hmore : ∀ round ∈ rounds, round.continuation.data ≠ [])
    (hlast : last.continuation.data = []) (hdiv : ∀ round ∈ rounds ++ [last], q.Divides round.body)
    (hfits : ((rounds ++ [last]).flatMap Round.body).length ≤ maxResult) {data : Bytes}
    (hdata : q.Delivers ((rounds ++ [last]).flatMap Round.body) data) :
    let w' := converse port q (rounds ++ [last]) (q.start port w true).1
    (q.start port w true).2 = .ok ∧
      requestsOf w'.history = (q.requests w.client.localCid w.client.nextTransactionId
        (.none :: rounds.map Round.continuation)).reverse ++ requestsOf w.history ∧
      completionsOf w'.history =
        ⟨.ok, q.op, data, q.total w.client.lastTotalCount last⟩ :: completionsOf w.history ∧
      ∀ pdus, requestsOf (receiveAll port pdus w').history = requestsOf w'.history ∧
        completionsOf (receiveAll port pdus w').history = completionsOf w'.history := by
  obtain ⟨hstatus, hstarted⟩ := q.start_started hport hready hidle
  obtain ⟨hbusy, hrequests, hcompletions⟩ :=
    hstarted.waiting.converse hport hmore hlast hdiv hfits hdata
  refine ⟨hstatus, ?_, ?_, fun pdus => receiveAll_idle pdus hbusy⟩
  · rw [hrequests, hstarted.cid, hstarted.next, hstarted.history, Query.requests,
      reverse_cons, append_assoc]
    rfl
  · rw [hcompletions, hstarted.total, hstarted.history]
    rfl

def connectedWorld : World := run (fun _ => true) [.connect true (.ok 0x40), .opened]

def allAttributes : Query :=
  .attributes 0x1234 256 ⟨[0x35, 0x05, 0x0A, 0x00, 0x00, 0xFF, 0xFF], by decide⟩

def firstRound : Round := ⟨0, [0x35, 0x08, 0x09], ⟨[0x01], by decide⟩⟩

def lastRound : Round := ⟨0, [0x00, 0x01, 0x35, 0x03, 0x19, 0x11, 0x01], .none⟩

theorem splitList_complete :
    completionsOf (converse (fun _ => true) allAttributes ([firstRound] ++ [lastRound])
      (allAttributes.start (fun _ => true) connectedWorld true).1).history =
      [⟨.ok, .attributes, [0x09, 0x00, 0x01, 0x35, 0x03, 0x19, 0x11, 0x01], 0⟩] := by
  have hdata : allAttributes.Delivers (([firstRound] ++ [lastRound]).flatMap Round.body)
      [0x09, 0x00, 0x01, 0x35, 0x03, 0x19, 0x11, 0x01] := SequenceEncoding.short (by decide)
  have hmore : ∀ round ∈ [firstRound], round.continuation.data ≠ [] := by decide
  have hdiv : ∀ round ∈ [firstRound] ++ [lastRound], allAttributes.Divides round.body :=
    fun _ _ => trivial
  exact (transfer_complete (fun _ => rfl) allAttributes rfl rfl [firstRound] lastRound hmore rfl
    hdiv (by decide) hdata).2.2.1

end Bluzing.Sdp
