import Bluzing.Sdp.Codec

/-! The client of the service discovery protocol (`protocols/sdp/sdp_client.c`). -/
namespace Bluzing.Sdp

abbrev maxResult : ℕ := 1024
abbrev maxRequestBody : ℕ := 64

abbrev requestBufLen : ℕ := headerLen + 4 + 2 + maxRequestBody + 1 + 16

inductive Op where
  | search
  | attributes
  deriving DecidableEq

inductive Result where
  | ok
  | errorConnect
  | errorClosed
  | errorProtocol
  | errorTooLarge
  deriving DecidableEq

structure Completion where
  result : Result
  op : Op
  data : Bytes
  totalCount : UInt16
  deriving DecidableEq

structure Filled (cap : ℕ) where
  bytes : Bytes
  fits : bytes.length ≤ cap

lemma Filled.bytes_inj {cap : ℕ} (a b : Filled cap) : a.bytes = b.bytes ↔ a = b := by
  cases a
  cases b
  simp

instance {cap : ℕ} : DecidableEq (Filled cap) := fun a b => decidable_of_iff _ (a.bytes_inj b)

def Filled.empty (cap : ℕ) : Filled cap := ⟨[], Nat.zero_le _⟩

structure Client where
  localCid : UInt16
  channelReady : Bool
  nextTransactionId : UInt16
  onConnect : Bool
  busy : Bool
  op : Op
  pendingTransactionId : UInt16
  searchPattern : Filled maxRequestBody
  searchMaxCount : UInt16
  attrHandle : UInt32
  attrMaxBytes : UInt16
  attrIdList : Filled maxRequestBody
  continuation : Continuation
  result : Filled maxResult
  lastTotalCount : UInt16
  onComplete : Bool
  deriving DecidableEq

inductive Event where
  | accepted
  | requested (cid : UInt16) (pdu : Bytes) (sent : Bool)
  | received (pdu : Bytes)
  | completed (completion : Completion)
  | connected (success : Bool)
  | closing (cid : UInt16)
  deriving DecidableEq

structure World where
  client : Client
  requests : ℕ
  history : List Event
  deriving DecidableEq

def clientInit : Client :=
  ⟨0, false, 1, false, false, .search, 0, .empty _, 0, 0, 0, .empty _, .none, .empty _, 0, false⟩

def World.init : World := ⟨clientInit, 0, []⟩

namespace World

def emit (w : World) (e : Event) : World := { w with history := e :: w.history }

def modify (w : World) (f : Client → Client) : World := { w with client := f w.client }

end World

def complete (w : World) (completion : Completion) : World :=
  let w := w.modify fun c => { c with busy := false }
  if w.client.onComplete then w.emit (.completed completion) else w

def fail (w : World) (result : Result) : World := complete w ⟨result, w.client.op, [], 0⟩

def succeed (w : World) : World :=
  complete w ⟨.ok, w.client.op, w.client.result.bytes, w.client.lastTotalCount⟩

def appendResult (result : Filled maxResult) (data : Bytes) :
    Except Status (Filled maxResult) :=
  if h : maxResult < result.bytes.length + data.length then .error .noResources
  else .ok ⟨result.bytes ++ data, by rw [List.length_append]; omega⟩

def readContinuationLocal : Reader → Access (Continuation × Reader) := readContinuation

variable (port : ℕ → Bool)

def encodeRequest (c : Client) (transactionId : UInt16) : Except Status Writer :=
  let cont := if 0 < c.continuation.data.length then some c.continuation else none
  let w := Writer.init requestBufLen
  match c.op with
  | .search =>
      encodeServiceSearchRequest w transactionId c.searchPattern.bytes c.searchMaxCount cont
  | .attributes =>
      encodeServiceAttributeRequest w transactionId c.attrHandle c.attrMaxBytes c.attrIdList.bytes
        cont

def issueRequest (w : World) : World :=
  let w := w.modify fun c =>
    { c with
      pendingTransactionId := c.nextTransactionId, nextTransactionId := c.nextTransactionId + 1 }
  match encodeRequest w.client w.client.pendingTransactionId with
  | .error _ => fail w .errorProtocol
  | .ok wr =>
      let sent := port w.requests
      let w := { w with requests := w.requests + 1 }.emit
        (.requested w.client.localCid wr.data sent)
      if sent then w else fail w .errorClosed

def finishRound (w : World) : World :=
  if 0 < w.client.continuation.data.length then issueRequest port w
  else
    match w.client.op with
    | .search => succeed w
    | .attributes =>
        match h : parseElement (.init w.client.result.bytes) with
        | .ok (.sequence data, _) =>
            let result := ⟨data, Nat.le_trans (parseElement_sequence_length h) w.client.result.fits⟩
            succeed (w.modify fun c => { c with result })
        | _ => fail w .errorProtocol

def handleSearchResponse (w : World) (params : Bytes) : World :=
  match parseServiceSearchResponse params with
  | .error _ => fail w .errorProtocol
  | .ok rsp =>
      let w := w.modify fun c => { c with lastTotalCount := rsp.totalRecordCount }
      match appendResult w.client.result rsp.handles with
      | .error _ => fail w .errorTooLarge
      | .ok result =>
          finishRound port (w.modify fun c => { c with result, continuation := rsp.continuation })

def handleAttributeResponse (w : World) (params : Bytes) : World :=
  match (Reader.init params).readBe16 with
  | .error _ => fail w .errorProtocol
  | .ok (byteCount, r) =>
      match r.peek byteCount.toNat, r.skip byteCount.toNat with
      | some chunk, .ok r =>
          match appendResult w.client.result chunk with
          | .error _ => fail w .errorTooLarge
          | .ok result =>
              let w := w.modify fun c => { c with result }
              match readContinuationLocal r with
              | .error _ => fail w .errorProtocol
              | .ok (continuation, _) =>
                  finishRound port (w.modify fun c => { c with continuation })
      | _, _ => fail w .errorProtocol

def handleResponse (w : World) (data : Bytes) : World :=
  if !w.client.busy then w
  else
    match parseHeader (.init data) with
    | .error _ => fail w .errorProtocol
    | .ok (hdr, r) =>
        if hdr.transactionId ≠ w.client.pendingTransactionId then w
        else
          match r.peek hdr.paramLen.toNat with
          | none => fail w .errorProtocol
          | some params =>
              if hdr.pduId = pduErrorResponse then fail w .errorProtocol
              else
                match w.client.op with
                | .search =>
                    if hdr.pduId ≠ pduServiceSearchResponse then fail w .errorProtocol
                    else handleSearchResponse port w params
                | .attributes =>
                    if hdr.pduId ≠ pduServiceAttributeResponse then fail w .errorProtocol
                    else handleAttributeResponse port w params

def reportConnect (w : World) (success : Bool) : World :=
  if w.client.onConnect then
    (w.modify fun c => { c with onConnect := false }).emit (.connected success)
  else w

def onOpened (w : World) : World :=
  reportConnect (w.modify fun c => { c with channelReady := true }) true

def onClosed (w : World) : World :=
  let w := reportConnect (w.modify fun c => { c with channelReady := false }) false
  if w.client.busy then fail w .errorClosed else w

def connect (w : World) (onConnect : Bool) (opened : Except Status UInt16) : World × Status :=
  let w := w.modify fun c => { c with onConnect }
  match opened with
  | .error st => (w, st)
  | .ok localCid => (w.modify fun c => { c with localCid }, .ok)

def disconnect (w : World) : World :=
  (if w.client.channelReady then w.emit (.closing w.client.localCid) else w).modify fun c =>
    { c with channelReady := false }

def startOperation (w : World) (setup : Client → Client) (onComplete : Bool) : World :=
  (w.emit .accepted).modify fun c =>
    { setup c with busy := true, continuation := .none, result := .empty _, onComplete }

def search (w : World) (serviceSearchPattern : Bytes) (maxRecordCount : UInt16)
    (onComplete : Bool) : World × Status :=
  if !w.client.channelReady || w.client.busy then (w, .invalidArgument)
  else if h : maxRequestBody < serviceSearchPattern.length then (w, .invalidArgument)
  else
    let setup (c : Client) : Client :=
      { c with
        op := .search, searchPattern := ⟨serviceSearchPattern, Nat.le_of_not_lt h⟩,
        searchMaxCount := maxRecordCount, lastTotalCount := 0 }
    (issueRequest port (startOperation w setup onComplete), .ok)

def getAttributes (w : World) (serviceRecordHandle : UInt32) (maxAttributeByteCount : UInt16)
    (attributeIdList : Bytes) (onComplete : Bool) : World × Status :=
  if !w.client.channelReady || w.client.busy then (w, .invalidArgument)
  else if h : maxRequestBody < attributeIdList.length then (w, .invalidArgument)
  else
    let setup (c : Client) : Client :=
      { c with
        op := .attributes, attrHandle := serviceRecordHandle, attrMaxBytes := maxAttributeByteCount,
        attrIdList := ⟨attributeIdList, Nat.le_of_not_lt h⟩ }
    (issueRequest port (startOperation w setup onComplete), .ok)

inductive Input where
  | connect (onConnect : Bool) (opened : Except Status UInt16)
  | disconnect
  | opened
  | closed
  | data (pdu : Bytes)
  | search (serviceSearchPattern : Bytes) (maxRecordCount : UInt16) (onComplete : Bool)
  | getAttributes (serviceRecordHandle : UInt32) (maxAttributeByteCount : UInt16)
      (attributeIdList : Bytes) (onComplete : Bool)

def apply (w : World) : Input → World
  | .connect onConnect opened => (connect w onConnect opened).1
  | .disconnect => disconnect w
  | .opened => onOpened w
  | .closed => onClosed w
  | .data pdu => handleResponse port (w.emit (.received pdu)) pdu
  | .search serviceSearchPattern maxRecordCount onComplete =>
      (search port w serviceSearchPattern maxRecordCount onComplete).1
  | .getAttributes serviceRecordHandle maxAttributeByteCount attributeIdList onComplete =>
      (getAttributes port w serviceRecordHandle maxAttributeByteCount attributeIdList onComplete).1

def run (inputs : List Input) : World := inputs.foldl (apply port) World.init

end Bluzing.Sdp
