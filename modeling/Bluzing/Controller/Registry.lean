import Bluzing.Controller.Hci

/-! Discovered devices (`core/device/device_registry.c`): one entry for each address, with the name
and the flags that inquiry results and advertising data give it. -/
namespace Bluzing.Controller

def deviceRegistryMax : ℕ := 32
def deviceNameLen : ℕ := 25

def deviceFlagClassic : UInt32 := 1
def deviceFlagLe : UInt32 := 2
def deviceFlagHid : UInt32 := 4

structure Device where
  addr : Address
  flags : UInt32
  classOfDevice : UInt32
  leAddressType : UInt8
  appearance : UInt16
  name : Octets deviceNameLen
  nameState : UInt8
  lastRssi : Int8
  sightings : UInt32
  deriving DecidableEq

def Device.init (addr : Address) : Device := ⟨addr, 0, 0, 0, 0, .zero _, 0, 0, 0⟩

structure Registry where
  devices : List Device
  fits : devices.length ≤ deviceRegistryMax

def Registry.init : Registry := ⟨[], Nat.zero_le _⟩

structure DeviceRef where
  reg : Registry
  index : ℕ
  inBounds : index < reg.devices.length

namespace DeviceRef

def dev (e : DeviceRef) : Device := e.reg.devices.get ⟨e.index, e.inBounds⟩

def set (e : DeviceRef) (d : Device) : DeviceRef :=
  ⟨⟨e.reg.devices.set e.index d, by simpa using e.reg.fits⟩, e.index, by simpa using e.inBounds⟩

end DeviceRef

def cString (s : String) : Bytes := s.toList.map (fun c => c.toNat.toUInt8) ++ [0]

def labelFromAppearance (appearance : UInt16) : Option Bytes :=
  if appearance = 961 then some (cString "<keyboard>")
  else if appearance = 962 then some (cString "<mouse>")
  else if appearance = 963 then some (cString "<joystick>")
  else if appearance = 964 then some (cString "<gamepad>")
  else if appearance >>> 6 = 15 then some (cString "<HID device>")
  else none

def labelFromCod (classOfDevice : UInt32) : Option Bytes :=
  if (classOfDevice >>> 8) &&& 0x1F ≠ 0x05 then none
  else if (classOfDevice >>> 2) &&& 0x0F = 1 then some (cString "<joystick>")
  else if (classOfDevice >>> 2) &&& 0x0F = 2 then some (cString "<gamepad>")
  else if (classOfDevice >>> 6) &&& 0x03 = 1 then some (cString "<keyboard>")
  else if (classOfDevice >>> 6) &&& 0x03 = 2 then some (cString "<mouse>")
  else if (classOfDevice >>> 6) &&& 0x03 = 3 then some (cString "<keyboard+mouse>")
  else some (cString "<HID device>")

def codIsHid (classOfDevice : UInt32) : Bool :=
  (classOfDevice >>> 8) &&& 0x1F = 0x05 ∧ ((classOfDevice >>> 2) &&& 0x3F) &&& 0x30 ≠ 0

def leAddrIsStable (addr : Address) (addressType : UInt8) : Bool :=
  addressType = 0 ∨ (addr.bytes.getD (addrLen - 1) 0) &&& 0xC0 = 0xC0

def printable (c : UInt8) : UInt8 := if 0x20 ≤ c ∧ c ≤ 0x7E then c else 0x3F

def copyName (name : Bytes) (length : ℕ) :
    ℕ → ℕ → Octets deviceNameLen → Access (ℕ × Octets deviceNameLen)
  | 0, i, buf => .ok (i, buf)
  | fuel + 1, i, buf =>
      if i < length ∧ i + 1 < deviceNameLen then do
        let c ← octetAt name i
        if c = 0 then return (i, buf)
        else copyName name length fuel (i + 1) (buf.set i (printable c))
      else .ok (i, buf)

def trimSpaces (buf : Octets deviceNameLen) : ℕ → ℕ
  | 0 => 0
  | i + 1 => if buf.bytes.getD i 0 = 0x20 then trimSpaces buf i else i + 1

def deviceSetName (dev : Device) (name : Option Bytes) (length : ℕ) (state : UInt8) :
    Access Device :=
  match name with
  | none => .ok dev
  | some name =>
      if state = 0 ∨ state ≤ dev.nameState then .ok dev
      else do
        let (i, buf) ← copyName name length deviceNameLen 0 dev.name
        return { dev with name := buf.set (trimSpaces buf i) 0, nameState := state }

def deviceRegistryFind (reg : Registry) (addr : Address) : Option Device :=
  reg.devices.find? (·.addr = addr)

def findOrCreate (reg : Registry) (addr : Address) : Option DeviceRef :=
  match h : reg.devices.findIdx? (·.addr = addr) with
  | some i => some ⟨reg, i, (List.findIdx?_eq_some_iff_getElem.mp h).1⟩
  | none =>
      if hfull : deviceRegistryMax ≤ reg.devices.length then none
      else some ⟨⟨reg.devices ++ [.init addr], by simp; omega⟩, reg.devices.length, by simp⟩

def Device.noteClassic (dev : Device) (classOfDevice : UInt32) : Access Device := do
  let dev := { dev with flags := dev.flags ||| deviceFlagClassic }
  let dev :=
    if codIsHid classOfDevice then { dev with flags := dev.flags ||| deviceFlagHid } else dev
  let dev ← deviceSetName dev (labelFromCod classOfDevice) deviceNameLen 1
  return { dev with classOfDevice, sightings := dev.sightings + 1 }

def deviceRegistryNoteClassic (reg : Registry) (addr : Address) (classOfDevice : UInt32) :
    Access (Option DeviceRef) :=
  match findOrCreate reg addr with
  | none => .ok none
  | some e => do
      let dev ← e.dev.noteClassic classOfDevice
      return some (e.set dev)

def Device.noteLe (dev : Device) (leAddressType : UInt8) (rssi : Int8) : Device :=
  { dev with
    flags := dev.flags ||| deviceFlagLe
    leAddressType
    lastRssi := rssi
    sightings := dev.sightings + 1 }

def deviceRegistryNoteLe (reg : Registry) (addr : Address) (leAddressType : UInt8) (rssi : Int8) :
    Option DeviceRef :=
  (findOrCreate reg addr).map fun e => e.set (e.dev.noteLe leAddressType rssi)

structure LeAdvInfo where
  hid : Bool
  appearance : UInt16
  name : Option Bytes
  nameLen : ℕ
  nameComplete : Bool
  deriving DecidableEq

def LeAdvInfo.init : LeAdvInfo := ⟨false, 0, none, 0, false⟩

def scanServiceUuids (payload : Bytes) (payloadLen : ℕ) : ℕ → ℕ → Bool → Access Bool
  | 0, _, hid => .ok hid
  | fuel + 1, u, hid =>
      if u + 1 < payloadLen then do
        let b0 ← octetAt payload u
        let b1 ← octetAt payload (u + 1)
        scanServiceUuids payload payloadLen fuel (u + 2) (hid || readLe16 b0 b1 = 0x1812)
      else .ok hid

def leAdvField (out : LeAdvInfo) (type : UInt8) (payload : Bytes) (payloadLen : ℕ) :
    Access LeAdvInfo :=
  if type = 0x02 ∨ type = 0x03 then do
    let hid ← scanServiceUuids payload payloadLen payloadLen 0 out.hid
    return { out with hid }
  else if type = 0x08 ∨ type = 0x09 then
    if out.name = none ∨ (type = 0x09 ∧ out.nameComplete = false) then
      .ok { out with name := some payload, nameLen := payloadLen, nameComplete := type = 0x09 }
    else .ok out
  else if type = 0x19 then
    if payloadLen ≥ 2 then do
      let b0 ← octetAt payload 0
      let b1 ← octetAt payload 1
      let appearance := readLe16 b0 b1
      return { out with appearance, hid := out.hid || appearance >>> 6 = 15 }
    else .ok out
  else .ok out

def leAdvParseFrom (data : Bytes) (length : ℕ) : ℕ → ℕ → LeAdvInfo → Access LeAdvInfo
  | 0, _, out => .ok out
  | fuel + 1, i, out =>
      if i < length then do
        let fieldLen ← octetAt data i
        if fieldLen = 0 then return out
        else if i + 1 + fieldLen.toNat > length then return out
        else do
          let type ← octetAt data (i + 1)
          let payloadLen ← lengthSub fieldLen.toNat 1
          let out ← leAdvField out type ((data.drop (i + 2)).take payloadLen) payloadLen
          leAdvParseFrom data length fuel (i + 1 + fieldLen.toNat) out
      else .ok out

def leAdvParse (data : Bytes) (length : ℕ) : Access LeAdvInfo :=
  leAdvParseFrom data length length 0 .init

end Bluzing.Controller
