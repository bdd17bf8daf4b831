import Bluzing.Core.Codec
import Bluzing.Controller.Hci

/-! The bond store (`core/security/bond_store.c`): the entries, kept in order, and the `keys.db`
format that they are written to and read from. -/
namespace Bluzing.Bonds
open Controller (Address addrLen)

abbrev maxEntries : ℕ := 16

structure BondAddress where
  addr : Address
  type : UInt8
  deriving DecidableEq

structure Entry where
  adapter : BondAddress
  peerIdentity : BondAddress
  keyMask : UInt8
  flags : UInt8
  classicLinkKey : Octets 16
  classicLinkKeyType : UInt8
  ltk : Octets 16
  ltkRand : Octets 8
  ltkEdiv : UInt16
  ltkSize : UInt8
  irk : Octets 16
  csrk : Octets 16
  deriving DecidableEq

structure Store where
  entries : List Entry
  fits : entries.length ≤ maxEntries
  deriving DecidableEq

def addrRandom : UInt8 := 1
def keyLeLtk : UInt8 := 0x02
def keyValidMask : UInt8 := 0x0F
def flagValidMask : UInt8 := 0x03

def addressValid (a : BondAddress) : Bool := decide (a.type ≤ addrRandom)

def entryValid (e : Entry) : Bool :=
  if !addressValid e.adapter || !addressValid e.peerIdentity ||
      e.keyMask &&& ~~~keyValidMask != 0 || e.flags &&& ~~~flagValidMask != 0 then false
  else if e.keyMask &&& keyLeLtk != 0 && (decide (e.ltkSize < 7) || decide (16 < e.ltkSize)) then
    false
  else true

def storeInit : Store := ⟨[], Nat.zero_le _⟩

def Entry.isFor (e : Entry) (adapter peerIdentity : BondAddress) : Bool :=
  e.adapter == adapter && e.peerIdentity == peerIdentity

def find (s : Store) (adapter peerIdentity : BondAddress) : Option ℕ :=
  s.entries.findIdx? (·.isFor adapter peerIdentity)

def upsert (s : Store) (e : Entry) : Except Status Store :=
  if !entryValid e then .error .invalidArgument
  else
    match find s e.adapter e.peerIdentity with
    | some i => .ok ⟨s.entries.set i e, by rw [List.length_set]; exact s.fits⟩
    | none =>
        if h : maxEntries ≤ s.entries.length then .error .noResources
        else .ok ⟨s.entries ++ [e], by rw [List.length_append, List.length_singleton]; omega⟩

def remove (s : Store) (adapter peerIdentity : BondAddress) : Bool × Store :=
  match find s adapter peerIdentity with
  | none => (false, s)
  | some i => (true, ⟨s.entries.eraseIdx i, Nat.le_trans (List.length_eraseIdx_le ..) s.fits⟩)

abbrev dbHeaderLen : ℕ := 20
abbrev entryWireLen : ℕ := 92
def dbVersion : UInt16 := 1
def recordTypeEntry : UInt8 := 1

def dbMagic : Bytes := [0x42, 0x54, 0x4B, 0x44]

def crcBit (crc : UInt32) : UInt32 := (crc >>> 1) ^^^ (0xEDB88320 &&& (0 - (crc &&& 1)))

def crcOctet (crc : UInt32) (b : UInt8) : UInt32 :=
  (List.range 8).foldl (fun crc _ => crcBit crc) (crc ^^^ b.toUInt32)

def crc32 (data : Bytes) : UInt32 := ~~~(data.foldl crcOctet 0xFFFFFFFF)

def writeAddr (w : Writer) (a : BondAddress) : Except Status Writer := do
  let w ← w.writeU8 a.type
  w.writeBytes a.addr.bytes

def writeEntry (w : Writer) (e : Entry) : Except Status Writer := do
  let w ← w.writeU8 recordTypeEntry
  let w ← w.writeU8 0
  let w ← w.writeLe16 (UInt16.ofNat entryWireLen)
  let w ← writeAddr w e.adapter
  let w ← writeAddr w e.peerIdentity
  let w ← w.writeU8 e.keyMask
  let w ← w.writeU8 e.flags
  let w ← w.writeBytes e.classicLinkKey.bytes
  let w ← w.writeU8 e.classicLinkKeyType
  let w ← w.writeBytes e.ltk.bytes
  let w ← w.writeBytes e.ltkRand.bytes
  let w ← w.writeLe16 e.ltkEdiv
  let w ← w.writeU8 e.ltkSize
  let w ← w.writeBytes e.irk.bytes
  w.writeBytes e.csrk.bytes

def writeEntries (w : Writer) : List Entry → Except Status Writer
  | [] => .ok w
  | e :: entries => do
      let w ← writeEntry w e
      writeEntries w entries

def writeHeader (w : Writer) (count : ℕ) : Except Status Writer := do
  let w ← w.writeBytes dbMagic
  let w ← w.writeLe16 dbVersion
  let w ← w.writeLe16 (UInt16.ofNat dbHeaderLen)
  let w ← w.writeLe16 (UInt16.ofNat count)
  let w ← w.writeLe16 0
  let w ← w.writeLe32 0
  w.writeLe32 0

def serialize (s : Store) (writer : Writer) : Except Status Writer :=
  if maxEntries < s.entries.length then .error .invalidArgument
  else if s.entries.any (!entryValid ·) then .error .invalidArgument
  else do
    let start := writer.data.length
    let w ← writeHeader writer s.entries.length
    let payloadStart := w.data.length
    let w ← writeEntries w s.entries
    let payloadLen := UInt32.ofNat (w.data.length - payloadStart)
    let checksum := crc32 ((w.data.drop payloadStart).take payloadLen.toNat)
    return w.patch (start + 12) (writeLe32 payloadLen ++ writeLe32 checksum)

def orInvalid {α : Type} : Access α → Access α
  | .ok a => .ok a
  | .error (.status _) => .error (.status .invalidArgument)
  | .error .outOfRange => .error .outOfRange

def readAddr (r : Reader) : Access (BondAddress × Reader) := do
  let (type, r) ← orInvalid r.readU8
  if addrRandom < type then .error (.status .invalidArgument)
  else
    let (addr, r) ← r.readBytes addrLen
    return (⟨addr, type⟩, r)

def readEntry (data : Bytes) : Access Entry :=
  if data.length ≠ entryWireLen then .error (.status .invalidArgument)
  else do
    let r := Reader.init data
    let (adapter, r) ← readAddr r
    let (peerIdentity, r) ← readAddr r
    let (keyMask, r) ← r.readU8
    let (flags, r) ← r.readU8
    let (classicLinkKey, r) ← r.readBytes 16
    let (classicLinkKeyType, r) ← r.readU8
    let (ltk, r) ← r.readBytes 16
    let (ltkRand, r) ← r.readBytes 8
    let (ltkEdiv, r) ← r.readLe16
    let (ltkSize, r) ← r.readU8
    let (irk, r) ← r.readBytes 16
    let (csrk, _) ← r.readBytes 16
    let e : Entry := ⟨adapter, peerIdentity, keyMask, flags, classicLinkKey, classicLinkKeyType,
      ltk, ltkRand, ltkEdiv, ltkSize, irk, csrk⟩
    if entryValid e then .ok e else .error (.status .invalidArgument)

def readRecord (r : Reader) : Access ((UInt8 × UInt8 × Bytes) × Reader) := do
  let (type, r) ← r.readU8
  let (reserved, r) ← r.readU8
  let (len, r) ← r.readLe16
  match r.peek len.toNat with
  | none => .error (.status .bufferUnderflow)
  | some record =>
      let r ← r.skip len.toNat
      return ((type, reserved, record), r)

def validateRecords : ℕ → ℕ → Reader → Access ℕ
  | 0, known, _ => .ok known
  | fuel + 1, known, r =>
      if r.remaining = 0 then .ok known
      else do
        let ((type, reserved, record), r) ← orInvalid (readRecord r)
        if reserved ≠ 0 then .error (.status .invalidArgument)
        else if type = recordTypeEntry then do
          let _ ← orInvalid (readEntry record)
          if maxEntries < known + 1 then .error (.status .invalidArgument)
          else validateRecords fuel (known + 1) r
        else validateRecords fuel known r

def validatePayload (payload : Bytes) (expectedEntries : UInt16) : Access Unit := do
  let known ← validateRecords payload.length 0 (Reader.init payload)
  if known = expectedEntries.toNat then .ok () else .error (.status .invalidArgument)

def loadRecords : ℕ → Store → Reader → Access Store
  | 0, s, _ => .ok s
  | fuel + 1, s, r =>
      if r.remaining = 0 then .ok s
      else
        match readRecord r with
        | .error _ => .error .outOfRange
        | .ok ((type, _, record), r) =>
            if type = recordTypeEntry then
              match readEntry record with
              | .error _ => .error .outOfRange
              | .ok e =>
                  if h : s.entries.length < maxEntries then
                    loadRecords fuel ⟨s.entries ++ [e], by
                      rw [List.length_append, List.length_singleton]; omega⟩ r
                  else .error .outOfRange
            else loadRecords fuel s r

/-- The checks of `bt_bond_store_deserialize`, which gives the payload to be loaded. -/
def checkDatabase (data : Bytes) : Access Bytes :=
  if data.length < dbHeaderLen then .error (.status .invalidArgument)
  else do
    let r := Reader.init data
    let (magic, r) ← orInvalid (r.readBytes 4)
    let (version, r) ← orInvalid r.readLe16
    let (headerLen, r) ← orInvalid r.readLe16
    let (count, r) ← orInvalid r.readLe16
    let (reserved, r) ← orInvalid r.readLe16
    let (payloadLen, r) ← orInvalid r.readLe32
    let (expectedCrc, r) ← orInvalid r.readLe32
    if magic.bytes ≠ dbMagic ∨ version ≠ dbVersion ∨ headerLen ≠ UInt16.ofNat dbHeaderLen ∨
        reserved ≠ 0 ∨ payloadLen.toNat ≠ r.remaining ∨ maxEntries < count.toNat then
      .error (.status .invalidArgument)
    else
      match r.peek payloadLen.toNat with
      | none => .error (.status .invalidArgument)
      | some payload =>
          if crc32 payload ≠ expectedCrc then .error (.status .invalidArgument)
          else do
            orInvalid (validatePayload payload count)
            return payload

def deserialize (data : Bytes) : Access Store := do
  let payload ← checkDatabase data
  loadRecords payload.length storeInit (Reader.init payload)

def deserializeInto (out : Store) (data : Bytes) : Access (Status × Store) :=
  match checkDatabase data with
  | .error (.status st) => .ok (st, out)
  | .error .outOfRange => .error .outOfRange
  | .ok payload => do
      let s ← loadRecords payload.length storeInit (Reader.init payload)
      return (.ok, s)

end Bluzing.Bonds
