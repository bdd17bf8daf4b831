import Bluzing.Core.Codec

/-! The service discovery protocol (`protocols/sdp/sdp.c`), whose numbers are big-endian: the
header, Data Elements, continuation states, the requests of a client and their responses. -/
namespace Bluzing.Sdp

abbrev headerLen : ℕ := 5
abbrev maxContinuation : ℕ := 16

def pduErrorResponse : UInt8 := 0x01
def pduServiceSearchRequest : UInt8 := 0x02
def pduServiceSearchResponse : UInt8 := 0x03
def pduServiceAttributeRequest : UInt8 := 0x04
def pduServiceAttributeResponse : UInt8 := 0x05

structure Header where
  pduId : UInt8
  transactionId : UInt16
  paramLen : UInt16
  deriving DecidableEq

def encodeHeader (w : Writer) (pduId : UInt8) (transactionId paramLen : UInt16) :
    Except Status Writer := do
  let w ← w.writeU8 pduId
  let w ← w.writeBe16 transactionId
  w.writeBe16 paramLen

def parseHeader (r : Reader) : Access (Header × Reader) := do
  let (pduId, r) ← r.readU8
  let (transactionId, r) ← r.readBe16
  let (paramLen, r) ← r.readBe16
  return (⟨pduId, transactionId, paramLen⟩, r)

inductive Element where
  | nil
  | uint (width : UInt8) (value : UInt32)
  | uuid16 (uuid : UInt16)
  | uuid128 (uuid : Octets 16)
  | sequence (data : Bytes)
  deriving DecidableEq

def typeNil : UInt8 := 0
def typeUint : UInt8 := 1
def typeUuid : UInt8 := 3
def typeSequence : UInt8 := 6

def encodeUint (w : Writer) (value : UInt32) (width : UInt8) : Except Status Writer :=
  let sizeDesc : Option UInt8 :=
    match width with
    | 1 => some 0
    | 2 => some 1
    | 4 => some 2
    | _ => none
  match sizeDesc with
  | none => .error .invalidArgument
  | some sizeDesc => do
      let w ← w.writeU8 ((typeUint <<< 3) ||| sizeDesc)
      if width = 1 then w.writeU8 value.toUInt8
      else if width = 2 then w.writeBe16 value.toUInt16
      else w.writeBe32 value

def encodeUuid16 (w : Writer) (uuid : UInt16) : Except Status Writer := do
  let w ← w.writeU8 ((typeUuid <<< 3) ||| 1)
  w.writeBe16 uuid

def encodeUuid128 (w : Writer) (uuid : Octets 16) : Except Status Writer := do
  let w ← w.writeU8 ((typeUuid <<< 3) ||| 4)
  w.writeBytes uuid.bytes

def encodeSequenceHeader (w : Writer) (nestedLen : UInt16) : Except Status Writer :=
  if nestedLen ≤ 0xFF then do
    let w ← w.writeU8 ((typeSequence <<< 3) ||| 5)
    w.writeU8 nestedLen.toUInt8
  else do
    let w ← w.writeU8 ((typeSequence <<< 3) ||| 6)
    w.writeBe16 nestedLen

def parseUint (sizeDesc : UInt8) (r : Reader) : Access (Element × Reader) :=
  if sizeDesc = 0 then do
    let (v, r) ← r.readU8
    return (.uint 1 v.toUInt32, r)
  else if sizeDesc = 1 then do
    let (v, r) ← r.readBe16
    return (.uint 2 v.toUInt32, r)
  else if sizeDesc = 2 then do
    let (v, r) ← r.readBe32
    return (.uint 4 v, r)
  else .error (.status .invalidArgument)

def parseUuid (sizeDesc : UInt8) (r : Reader) : Access (Element × Reader) :=
  if sizeDesc = 1 then do
    let (v, r) ← r.readBe16
    return (.uuid16 v, r)
  else if sizeDesc = 4 then do
    let (v, r) ← r.readBytes 16
    return (.uuid128 v, r)
  else .error (.status .invalidArgument)

def parseNestedLen (sizeDesc : UInt8) (r : Reader) : Access (ℕ × Reader) :=
  if sizeDesc = 5 then do
    let (l, r) ← r.readU8
    return (l.toNat, r)
  else if sizeDesc = 6 then do
    let (l, r) ← r.readBe16
    return (l.toNat, r)
  else if sizeDesc = 7 then do
    let (l, r) ← r.readBe32
    return (l.toNat, r)
  else .error (.status .invalidArgument)

def parseSequence (sizeDesc : UInt8) (r : Reader) : Access (Element × Reader) := do
  let (nestedLen, r) ← parseNestedLen sizeDesc r
  match r.peek nestedLen with
  | none => .error (.status .bufferUnderflow)
  | some data => do
      let r ← r.skip nestedLen
      return (.sequence data, r)

def parseElement (r : Reader) : Access (Element × Reader) := do
  let (header, r) ← r.readU8
  let type := header >>> 3
  let sizeDesc := header &&& 0x07
  if type = typeNil then
    if sizeDesc ≠ 0 then .error (.status .invalidArgument) else .ok (.nil, r)
  else if type = typeUint then parseUint sizeDesc r
  else if type = typeUuid then parseUuid sizeDesc r
  else if type = typeSequence then parseSequence sizeDesc r
  else .error (.status .invalidArgument)

def elementIterInit (data : Bytes) : Reader := .init data

def elementIterNext (it : Reader) : Access (Element × Reader) :=
  if it.remaining = 0 then .error (.status .bufferUnderflow) else parseElement it

variable {sizeDesc : UInt8} {r r' : Reader} {e : Element} {data : Bytes}

lemma parseUint_ne_sequence (h : parseUint sizeDesc r = .ok (e, r')) : e ≠ .sequence data := by
  unfold parseUint at h
  split at h
  · obtain ⟨v, -, h⟩ := Access.bind_ok h
    cases h
    nofun
  split at h
  · obtain ⟨v, -, h⟩ := Access.bind_ok h
    cases h
    nofun
  split at h
  · obtain ⟨v, -, h⟩ := Access.bind_ok h
    cases h
    nofun
  · cases h

lemma parseUuid_ne_sequence (h : parseUuid sizeDesc r = .ok (e, r')) : e ≠ .sequence data := by
  unfold parseUuid at h
  split at h
  · obtain ⟨v, -, h⟩ := Access.bind_ok h
    cases h
    nofun
  split at h
  · obtain ⟨v, -, h⟩ := Access.bind_ok h
    cases h
    nofun
  · cases h

lemma parseNestedLen_rest {n : ℕ} (h : parseNestedLen sizeDesc r = .ok (n, r')) :
    r'.rest <:+ r.rest := by
  unfold parseNestedLen at h
  split at h
  · obtain ⟨⟨l, r₁⟩, hread, h⟩ := Access.bind_ok h
    cases h
    exact ⟨_, ((reads_u8.exact hread).2).symm⟩
  split at h
  · obtain ⟨⟨l, r₁⟩, hread, h⟩ := Access.bind_ok h
    cases h
    exact ⟨_, ((reads_be16.exact hread).2).symm⟩
  split at h
  · obtain ⟨⟨l, r₁⟩, hread, h⟩ := Access.bind_ok h
    cases h
    exact ⟨_, ((reads_be32.exact hread).2).symm⟩
  · cases h

lemma parseSequence_length (h : parseSequence sizeDesc r = .ok (.sequence data, r')) :
    data.length ≤ r.rest.length := by
  obtain ⟨⟨n, r₁⟩, hlen, h⟩ := Access.bind_ok h
  dsimp only at h
  split at h
  · cases h
  next nested hpeek =>
    obtain ⟨r₂, hskip, h⟩ := Access.bind_ok h
    cases h
    obtain ⟨-, hrest⟩ := Reader.peek_skip hpeek hskip
    have hsuffix := (parseNestedLen_rest hlen).length_le
    rw [hrest, List.length_append] at hsuffix
    omega

lemma parseElement_sequence_length (h : parseElement r = .ok (.sequence data, r')) :
    data.length ≤ r.data.length := by
  obtain ⟨⟨header, r₁⟩, hread, h⟩ := Access.bind_ok h
  have hrest := (reads_u8.exact hread).2
  dsimp only at h
  split at h
  · split at h <;> cases h
  split at h
  · exact absurd rfl (parseUint_ne_sequence h)
  split at h
  · exact absurd rfl (parseUuid_ne_sequence h)
  split at h
  · have hnested := parseSequence_length h
    have hlen := congrArg List.length hrest
    rw [r.length_rest, Reader.remaining, List.length_append] at hlen
    omega
  · cases h

structure Continuation where
  data : Bytes
  fits : data.length ≤ maxContinuation
  deriving DecidableEq

def Continuation.none : Continuation := ⟨[], Nat.zero_le _⟩

def writeContinuation (w : Writer) (cont : Option Continuation) : Except Status Writer :=
  match cont with
  | .none => w.writeU8 0
  | some cont =>
      if cont.data.length = 0 then w.writeU8 0
      else do
        let w ← w.writeU8 cont.data.length.toUInt8
        w.writeBytes cont.data

def readContinuation (r : Reader) : Access (Continuation × Reader) := do
  let (len, r) ← r.readU8
  if h : maxContinuation < len.toNat then .error (.status .invalidArgument)
  else if len = 0 then .ok (.none, r)
  else do
    let (data, r) ← r.readBytes len.toNat
    return (⟨data.bytes, by rw [data.length_eq]; omega⟩, r)

def continuationLen (cont : Option Continuation) : ℕ := (cont.map (·.data.length)).getD 0

def encodeServiceSearchRequest (w : Writer) (transactionId : UInt16)
    (serviceSearchPattern : Bytes) (maxRecordCount : UInt16) (cont : Option Continuation) :
    Except Status Writer := do
  let paramLen := UInt16.ofNat (serviceSearchPattern.length + 2 + 1 + continuationLen cont)
  let w ← encodeHeader w pduServiceSearchRequest transactionId paramLen
  let w ← w.writeBytes serviceSearchPattern
  let w ← w.writeBe16 maxRecordCount
  writeContinuation w cont

def encodeServiceAttributeRequest (w : Writer) (transactionId : UInt16)
    (serviceRecordHandle : UInt32) (maxAttributeByteCount : UInt16) (attributeIdList : Bytes)
    (cont : Option Continuation) : Except Status Writer := do
  let paramLen := UInt16.ofNat (4 + 2 + attributeIdList.length + 1 + continuationLen cont)
  let w ← encodeHeader w pduServiceAttributeRequest transactionId paramLen
  let w ← w.writeBe32 serviceRecordHandle
  let w ← w.writeBe16 maxAttributeByteCount
  let w ← w.writeBytes attributeIdList
  writeContinuation w cont

structure ServiceSearchResponse where
  totalRecordCount : UInt16
  currentRecordCount : UInt16
  handles : Bytes
  continuation : Continuation
  deriving DecidableEq

def parseServiceSearchResponse (params : Bytes) : Access ServiceSearchResponse := do
  let (totalRecordCount, r) ← (Reader.init params).readBe16
  let (currentRecordCount, r) ← r.readBe16
  let handlesLen := currentRecordCount.toNat * 4
  match r.peek handlesLen with
  | none => .error (.status .bufferUnderflow)
  | some handles => do
      let r ← r.skip handlesLen
      let (continuation, _) ← readContinuation r
      return ⟨totalRecordCount, currentRecordCount, handles, continuation⟩

structure ServiceAttributeResponse where
  attributeList : Bytes
  continuation : Continuation
  deriving DecidableEq

def parseServiceAttributeResponse (params : Bytes) : Access ServiceAttributeResponse := do
  let (_, r) ← (Reader.init params).readBe16
  let (element, r) ← parseElement r
  match element with
  | .sequence attributeList => do
      let (continuation, _) ← readContinuation r
      return ⟨attributeList, continuation⟩
  | _ => .error (.status .invalidArgument)

end Bluzing.Sdp
