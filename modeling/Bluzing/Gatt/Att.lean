import Bluzing.Core.Codec

/-! The attribute protocol (`protocols/att/att.c`): the requests of a client, and the responses with
the iterators over their entries. -/
namespace Bluzing.Gatt

def opcodeErrorResponse : UInt8 := 0x01
def opcodeExchangeMtuRequest : UInt8 := 0x02
def opcodeExchangeMtuResponse : UInt8 := 0x03
def opcodeFindInformationRequest : UInt8 := 0x04
def opcodeFindInformationResponse : UInt8 := 0x05
def opcodeReadByTypeRequest : UInt8 := 0x08
def opcodeReadByTypeResponse : UInt8 := 0x09
def opcodeReadRequest : UInt8 := 0x0A
def opcodeReadResponse : UInt8 := 0x0B
def opcodeReadBlobRequest : UInt8 := 0x0C
def opcodeReadBlobResponse : UInt8 := 0x0D
def opcodeReadByGroupTypeRequest : UInt8 := 0x10
def opcodeReadByGroupTypeResponse : UInt8 := 0x11
def opcodeWriteRequest : UInt8 := 0x12
def opcodeWriteResponse : UInt8 := 0x13
def opcodeHandleValueNotification : UInt8 := 0x1B
def opcodeHandleValueIndication : UInt8 := 0x1D
def opcodeHandleValueConfirmation : UInt8 := 0x1E

def attDefaultMtu : UInt16 := 23
def errorAttributeNotFound : UInt8 := 0x0A
def errorInvalidOffset : UInt8 := 0x07
def uuidPrimaryService : UInt16 := 0x2800
def uuidCharacteristic : UInt16 := 0x2803

def encodeExchangeMtuRequest (w : Writer) (clientRxMtu : UInt16) : Except Status Writer := do
  let w ← w.writeU8 opcodeExchangeMtuRequest
  w.writeLe16 clientRxMtu

def encodeFindInformationRequest (w : Writer) (startingHandle endingHandle : UInt16) :
    Except Status Writer := do
  let w ← w.writeU8 opcodeFindInformationRequest
  let w ← w.writeLe16 startingHandle
  w.writeLe16 endingHandle

def encodeTypedRequest (opcode : UInt8) (w : Writer) (startingHandle endingHandle uuid16 : UInt16) :
    Except Status Writer := do
  let w ← w.writeU8 opcode
  let w ← w.writeLe16 startingHandle
  let w ← w.writeLe16 endingHandle
  w.writeLe16 uuid16

def encodeReadByGroupTypeRequest := encodeTypedRequest opcodeReadByGroupTypeRequest

def encodeReadByTypeRequest := encodeTypedRequest opcodeReadByTypeRequest

def encodeReadRequest (w : Writer) (handle : UInt16) : Except Status Writer := do
  let w ← w.writeU8 opcodeReadRequest
  w.writeLe16 handle

def encodeReadBlobRequest (w : Writer) (handle valueOffset : UInt16) : Except Status Writer := do
  let w ← w.writeU8 opcodeReadBlobRequest
  let w ← w.writeLe16 handle
  w.writeLe16 valueOffset

def encodeWriteRequest (w : Writer) (handle : UInt16) (value : Bytes) :
    Except Status Writer := do
  let w ← w.writeU8 opcodeWriteRequest
  let w ← w.writeLe16 handle
  w.writeBytes value

def encodeHandleValueConfirmation (w : Writer) : Except Status Writer :=
  w.writeU8 opcodeHandleValueConfirmation

structure ErrorResponse where
  requestOpcode : UInt8
  handleInError : UInt16
  errorCode : UInt8
  deriving DecidableEq

def parseErrorResponse (params : Bytes) : Access ErrorResponse :=
  if params.length ≠ 4 then .error (.status .invalidArgument)
  else do
    let (requestOpcode, r) ← (Reader.init params).readU8
    let (handleInError, r) ← r.readLe16
    let (errorCode, _) ← r.readU8
    return ⟨requestOpcode, handleInError, errorCode⟩

def parseExchangeMtuResponse (params : Bytes) : Access UInt16 :=
  if params.length ≠ 2 then .error (.status .invalidArgument)
  else do
    let (serverRxMtu, _) ← (Reader.init params).readLe16
    return serverRxMtu

structure HandleValue where
  handle : UInt16
  value : Bytes
  deriving DecidableEq

def parseHandleValue (params : Bytes) : Access HandleValue :=
  if params.length < 2 then .error (.status .invalidArgument)
  else do
    let (handle, r) ← (Reader.init params).readLe16
    return ⟨handle, (r.peek r.remaining).getD []⟩

structure Iter where
  r : Reader
  entryLen : UInt8

def takeValue (r : Reader) (n : ℕ) : Access (Bytes × Reader) :=
  match r.peek n with
  | none => .error (.status .bufferUnderflow)
  | some value => do
      let r ← r.skip n
      return (value, r)

structure GroupEntry where
  handle : UInt16
  endGroupHandle : UInt16
  value : Bytes
  deriving DecidableEq

def lengthIterInit (least : UInt8) (params : Bytes) : Access Iter := do
  let (entryLen, r) ← (Reader.init params).readU8
  if entryLen < least then .error (.status .invalidArgument) else return ⟨r, entryLen⟩

def readByGroupTypeResponseIterInit := lengthIterInit 4

def readByGroupTypeResponseIterNext (it : Iter) : Access (GroupEntry × Iter) :=
  if it.r.remaining = 0 then .error (.status .bufferUnderflow)
  else if it.r.remaining < it.entryLen.toNat then .error (.status .bufferUnderflow)
  else do
    let (handle, r) ← it.r.readLe16
    let (endGroupHandle, r) ← r.readLe16
    let (value, r) ← takeValue r (it.entryLen - 4).toNat
    return (⟨handle, endGroupHandle, value⟩, { it with r })

structure TypeEntry where
  handle : UInt16
  value : Bytes
  deriving DecidableEq

def readByTypeResponseIterInit := lengthIterInit 2

def readByTypeResponseIterNext (it : Iter) : Access (TypeEntry × Iter) :=
  if it.r.remaining = 0 then .error (.status .bufferUnderflow)
  else if it.r.remaining < it.entryLen.toNat then .error (.status .bufferUnderflow)
  else do
    let (handle, r) ← it.r.readLe16
    let (value, r) ← takeValue r (it.entryLen - 2).toNat
    return (⟨handle, value⟩, { it with r })

def findInformationResponseIterInit (params : Bytes) : Access Iter := do
  let (format, r) ← (Reader.init params).readU8
  if format ≠ 1 ∧ format ≠ 2 then .error (.status .invalidArgument)
  else
    let entryLen : UInt8 := if format = 1 then 4 else 18
    if r.remaining = 0 ∨ r.remaining % entryLen.toNat ≠ 0 then .error (.status .invalidArgument)
    else return ⟨r, entryLen⟩

def findInformationResponseIterNext (it : Iter) : Access (TypeEntry × Iter) :=
  if it.r.remaining = 0 then .error (.status .bufferUnderflow)
  else do
    let (handle, r) ← it.r.readLe16
    let (value, r) ← takeValue r (it.entryLen - 2).toNat
    return (⟨handle, value⟩, { it with r })

def drain {ε : Type} (next : Iter → Access (ε × Iter)) : ℕ → Iter → List ε
  | 0, _ => []
  | fuel + 1, it =>
      match next it with
      | .ok (entry, it) => entry :: drain next fuel it
      | .error _ => []

def entriesOf {ε : Type} (init : Bytes → Access Iter) (next : Iter → Access (ε × Iter))
    (params : Bytes) : Option (List ε) :=
  match init params with
  | .ok it => some (drain next params.length it)
  | .error _ => none

end Bluzing.Gatt
