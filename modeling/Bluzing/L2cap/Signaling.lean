import Bluzing.Core.Buffer

/-! L2CAP signaling commands (`protocols/l2cap/signaling.c`): their encoders, and the parsers of the
ones a channel manager receives. -/
namespace Bluzing.L2cap

def sigHeaderLen : ℕ := 4

def sigCommandReject : UInt8 := 0x01
def sigConnectionRequest : UInt8 := 0x02
def sigConnectionResponse : UInt8 := 0x03
def sigConfigureRequest : UInt8 := 0x04
def sigConfigureResponse : UInt8 := 0x05
def sigDisconnectionRequest : UInt8 := 0x06
def sigDisconnectionResponse : UInt8 := 0x07

def configOptionMtu : UInt8 := 0x01

def connResultSuccess : UInt16 := 0x0000
def connResultPending : UInt16 := 0x0001
def configResultSuccess : UInt16 := 0x0000

structure SigHeader where
  code : UInt8
  identifier : UInt8
  length : UInt16
  deriving DecidableEq

structure ConnectionResponse where
  destinationCid : UInt16
  sourceCid : UInt16
  result : UInt16
  status : UInt16
  deriving DecidableEq

structure ConfigureRequest where
  destinationCid : UInt16
  flags : UInt16
  mtu : Option UInt16
  deriving DecidableEq

structure ConfigureResponse where
  sourceCid : UInt16
  flags : UInt16
  result : UInt16
  mtu : Option UInt16
  deriving DecidableEq

structure Disconnection where
  destinationCid : UInt16
  sourceCid : UInt16
  deriving DecidableEq

def sigEncodeHeader (w : Writer) (code identifier : UInt8) (length : UInt16) :
    Except Status Writer := do
  let w ← w.writeU8 code
  let w ← w.writeU8 identifier
  w.writeLe16 length

def sigEncodeConnectionRequest (w : Writer) (identifier : UInt8) (psm sourceCid : UInt16) :
    Except Status Writer := do
  let w ← sigEncodeHeader w sigConnectionRequest identifier 4
  let w ← w.writeLe16 psm
  w.writeLe16 sourceCid

def encodeMtuOption (w : Writer) (mtu : UInt16) : Except Status Writer :=
  if mtu = 0 then .ok w
  else do
    let w ← w.writeU8 configOptionMtu
    let w ← w.writeU8 2
    w.writeLe16 mtu

def sigEncodeConfigureRequest (w : Writer) (identifier : UInt8)
    (destinationCid flags mtu : UInt16) : Except Status Writer := do
  let w ← sigEncodeHeader w sigConfigureRequest identifier (4 + if mtu ≠ 0 then 4 else 0)
  let w ← w.writeLe16 destinationCid
  let w ← w.writeLe16 flags
  encodeMtuOption w mtu

def sigEncodeConfigureResponse (w : Writer) (identifier : UInt8)
    (sourceCid flags result mtu : UInt16) : Except Status Writer := do
  let w ← sigEncodeHeader w sigConfigureResponse identifier (6 + if mtu ≠ 0 then 4 else 0)
  let w ← w.writeLe16 sourceCid
  let w ← w.writeLe16 flags
  let w ← w.writeLe16 result
  encodeMtuOption w mtu

def encodeDisconnection (w : Writer) (code identifier : UInt8)
    (destinationCid sourceCid : UInt16) : Except Status Writer := do
  let w ← sigEncodeHeader w code identifier 4
  let w ← w.writeLe16 destinationCid
  w.writeLe16 sourceCid

def sigEncodeDisconnectionRequest (w : Writer) (identifier : UInt8)
    (destinationCid sourceCid : UInt16) : Except Status Writer :=
  encodeDisconnection w sigDisconnectionRequest identifier destinationCid sourceCid

def sigEncodeDisconnectionResponse (w : Writer) (identifier : UInt8)
    (destinationCid sourceCid : UInt16) : Except Status Writer :=
  encodeDisconnection w sigDisconnectionResponse identifier destinationCid sourceCid

def sigParseHeader (r : Reader) : Access (SigHeader × Reader) := do
  let (code, r) ← r.readU8
  let (identifier, r) ← r.readU8
  let (length, r) ← r.readLe16
  return (⟨code, identifier, length⟩, r)

def sigParseConnectionResponse (data : Bytes) : Access ConnectionResponse :=
  if data.length ≠ 8 then .error (.status .invalidArgument)
  else do
    let (destinationCid, r) ← (Reader.init data).readLe16
    let (sourceCid, r) ← r.readLe16
    let (result, r) ← r.readLe16
    let (status, _) ← r.readLe16
    return ⟨destinationCid, sourceCid, result, status⟩

def scanForMtuOption : ℕ → Reader → Option UInt16 → Access (Option UInt16)
  | 0, _, mtu => .ok mtu
  | fuel + 1, r, mtu =>
      if r.remaining = 0 then .ok mtu
      else do
        let (type, r) ← r.readU8
        let (len, r) ← r.readU8
        if type = configOptionMtu then
          if len ≠ 2 then .error (.status .invalidArgument)
          else do
            let (value, r) ← r.readLe16
            scanForMtuOption fuel r (some value)
        else do
          let r ← r.skip len.toNat
          scanForMtuOption fuel r mtu

def sigParseConfigureRequest (data : Bytes) : Access ConfigureRequest :=
  if data.length < 4 then .error (.status .invalidArgument)
  else do
    let (destinationCid, r) ← (Reader.init data).readLe16
    let (flags, r) ← r.readLe16
    let mtu ← scanForMtuOption r.remaining r none
    return ⟨destinationCid, flags, mtu⟩

def sigParseConfigureResponse (data : Bytes) : Access ConfigureResponse :=
  if data.length < 6 then .error (.status .invalidArgument)
  else do
    let (sourceCid, r) ← (Reader.init data).readLe16
    let (flags, r) ← r.readLe16
    let (result, r) ← r.readLe16
    let mtu ← scanForMtuOption r.remaining r none
    return ⟨sourceCid, flags, result, mtu⟩

def sigParseDisconnection (data : Bytes) : Access Disconnection :=
  if data.length ≠ 4 then .error (.status .invalidArgument)
  else do
    let (destinationCid, r) ← (Reader.init data).readLe16
    let (sourceCid, _) ← r.readLe16
    return ⟨destinationCid, sourceCid⟩

end Bluzing.L2cap
