import Bluzing.Core.Buffer

/-! HID report descriptors (`core/hid/report_parser.c`): the item loop that lays out the fields of
the input reports, and the decoder that reads them. -/
namespace Bluzing.Hid

abbrev maxFields : ℕ := 128
abbrev maxReports : ℕ := 16
abbrev maxLocalUsages : ℕ := 32
abbrev globalStackMax : ℕ := 4

def inputConstant : UInt16 := 0x0001
def inputVariable : UInt16 := 0x0002
def inputRelative : UInt16 := 0x0004

structure Field where
  reportId : UInt8
  bitOffset : UInt16
  bitSize : UInt8
  count : UInt16
  flags : UInt16
  usagePage : UInt16
  usageMin : UInt16
  usageMax : UInt16
  logicalMin : Int32
  logicalMax : Int32
  deriving DecidableEq

structure ReportInfo where
  reportId : UInt8
  inputBits : UInt16
  deriving DecidableEq

structure Descriptor where
  fields : List Field
  reports : List ReportInfo
  usesReportIds : Bool
  deriving DecidableEq

structure Globals where
  usagePage : UInt16
  logicalMin : Int32
  logicalMax : Int32
  reportSize : UInt16
  reportCount : UInt16
  reportId : UInt8
  deriving DecidableEq

structure Locals where
  usages : List UInt16
  usageMin : Option UInt16
  usageMax : Option UInt16
  deriving DecidableEq

def Locals.none : Locals := ⟨[], Option.none, Option.none⟩

structure Parser where
  globals : Globals
  stack : List Globals
  locals : Locals
  out : Descriptor
  deriving DecidableEq

def Parser.init : Parser := ⟨⟨0, 0, 0, 0, 0, 0⟩, [], .none, ⟨[], [], false⟩⟩

def readUnsigned : Bytes → UInt32
  | [] => 0
  | b :: item => b.toUInt32 ||| (readUnsigned item <<< 8)

def readSigned (item : Bytes) : Int32 :=
  let value := readUnsigned item
  let bits := UInt32.ofNat (item.length * 8)
  if item.length ≠ 0 ∧ item.length < 4 ∧ value &&& (1 <<< (bits - 1)) ≠ 0 then
    (value ||| (0xFFFFFFFF <<< bits)).toInt32
  else value.toInt32

def getReport (out : Descriptor) (reportId : UInt8) : Option (Descriptor × ℕ) :=
  match out.reports.findIdx? (·.reportId == reportId) with
  | some i => some (out, i)
  | none =>
      if out.reports.length = maxReports then none
      else some ({ out with reports := out.reports ++ [⟨reportId, 0⟩] }, out.reports.length)

def usageForIndex (locals : Locals) (index : ℕ) : UInt16 :=
  if h : index < locals.usages.length then locals.usages[index]
  else
    match locals.usageMin, locals.usageMax with
    | some lo, some hi =>
        if lo.toNat + index ≤ hi.toNat then UInt16.ofNat (lo.toNat + index)
        else locals.usages.getLastD 0
    | _, _ => locals.usages.getLastD 0

def isVariable (flags : UInt16) : Bool := (flags &&& inputVariable) != 0

def inputField (globals : Globals) (locals : Locals) (flags : UInt16) (inputBits : UInt16)
    (i : ℕ) : Field where
  reportId := globals.reportId
  bitOffset := UInt16.ofNat (inputBits.toNat + i * globals.reportSize.toNat)
  bitSize := globals.reportSize.toUInt8
  count := if isVariable flags then 1 else globals.reportCount
  flags := flags
  usagePage := globals.usagePage
  usageMin := if isVariable flags then usageForIndex locals i else locals.usageMin.getD 0
  usageMax := if isVariable flags then usageForIndex locals i else locals.usageMax.getD 0xFFFF
  logicalMin := globals.logicalMin
  logicalMax := globals.logicalMax

def addInput (out : Descriptor) (globals : Globals) (locals : Locals) (flags : UInt16) :
    Except Status Descriptor :=
  match getReport out globals.reportId with
  | none => .error .noResources
  | some (out, i) =>
      let inputBits := (out.reports[i]?.map ReportInfo.inputBits).getD 0
      let emitted := if isVariable flags then globals.reportCount.toNat else 1
      let addedBits := globals.reportSize.toNat * globals.reportCount.toNat
      if 32 < globals.reportSize.toNat ∨ globals.reportCount = 0 ∨ 65535 < addedBits ∨
          65535 - addedBits < inputBits.toNat ∨ maxFields < out.fields.length + emitted then
        .error .noResources
      else
        .ok { out with
          fields := out.fields ++
            (List.range emitted).map (inputField globals locals flags inputBits)
          reports := out.reports.modify i fun r =>
            { r with inputBits := UInt16.ofNat (inputBits.toNat + addedBits) } }

def globalItem (p : Parser) (tag : UInt8) (item : Bytes) : Except Status Parser :=
  let value := readUnsigned item
  let g := p.globals
  match tag with
  | 0 => .ok { p with globals := { g with usagePage := value.toUInt16 } }
  | 1 => .ok { p with globals := { g with logicalMin := readSigned item } }
  | 2 =>
      let logicalMax := if g.logicalMin < 0 then readSigned item else value.toInt32
      .ok { p with globals := { g with logicalMax } }
  | 7 => .ok { p with globals := { g with reportSize := value.toUInt16 } }
  | 8 =>
      if value = 0 ∨ 255 < value then .error .invalidArgument
      else .ok { p with
        globals := { g with reportId := value.toUInt8 }
        out := { p.out with usesReportIds := true } }
  | 9 => .ok { p with globals := { g with reportCount := value.toUInt16 } }
  | 10 =>
      if p.stack.length = globalStackMax then .error .noResources
      else .ok { p with stack := g :: p.stack }
  | 11 =>
      match p.stack with
      | [] => .error .invalidArgument
      | g :: stack => .ok { p with globals := g, stack }
  | _ => .ok p

def localItem (p : Parser) (tag : UInt8) (item : Bytes) : Except Status Parser :=
  let usage := (readUnsigned item).toUInt16
  let l := p.locals
  match tag with
  | 0 =>
      if l.usages.length = maxLocalUsages then .error .noResources
      else .ok { p with locals := { l with usages := l.usages ++ [usage] } }
  | 1 => .ok { p with locals := { l with usageMin := some usage } }
  | 2 => .ok { p with locals := { l with usageMax := some usage } }
  | _ => .ok p

def mainItem (p : Parser) (tag : UInt8) (item : Bytes) : Except Status Parser :=
  if tag = 8 then do
    let out ← addInput p.out p.globals p.locals (readUnsigned item).toUInt16
    return { p with locals := .none, out }
  else if tag = 12 ∧ item.length ≠ 0 then .error .invalidArgument
  else if tag = 10 ∧ item.length ≠ 1 then .error .invalidArgument
  else .ok { p with locals := .none }

def shortItem (p : Parser) (lead : UInt8) (item : Bytes) : Except Status Parser :=
  let type := (lead >>> 2) &&& 3
  let tag := lead >>> 4
  if type = 1 then globalItem p tag item
  else if type = 2 then localItem p tag item
  else if type = 0 then mainItem p tag item
  else .ok p

def parseItems : ℕ → Parser → Bytes → Except Status Parser
  | 0, p, _ => .ok p
  | _ + 1, p, [] => .ok p
  | fuel + 1, p, lead :: rest =>
      if lead = 0xFE then
        match rest with
        | longSize :: _ :: rest =>
            if rest.length < longSize.toNat then .error .invalidArgument
            else parseItems fuel p (rest.drop longSize.toNat)
        | _ => .error .invalidArgument
      else
        let itemSize := if lead &&& 3 = 3 then 4 else (lead &&& 3).toNat
        if rest.length < itemSize then .error .invalidArgument
        else do
          let p ← shortItem p lead (rest.take itemSize)
          parseItems fuel p (rest.drop itemSize)

def reportParse (data : Bytes) : Except Status Descriptor := do
  let p ← parseItems data.length .init data
  if p.out.reports.length = 0 then .error .invalidArgument else .ok p.out

structure Value where
  reportId : UInt8
  usagePage : UInt16
  usage : UInt16
  value : Int32
  flags : UInt16
  isArray : Bool
  deriving DecidableEq

def extractBits (data : Bytes) (bitOffset : UInt16) (bitSize : UInt8) : Access UInt32 :=
  (List.range bitSize.toNat).foldlM (fun value i => do
    let bit := bitOffset.toNat + i
    let b ← octetAt data (bit / 8)
    return if b.toUInt32 &&& (1 <<< UInt32.ofNat (bit % 8)) ≠ 0 then
      value ||| (1 <<< UInt32.ofNat i) else value) 0

def signValue (value : UInt32) (bitSize : UInt8) : Int32 :=
  if bitSize ≠ 0 ∧ bitSize < 32 ∧ value &&& (1 <<< (bitSize.toUInt32 - 1)) ≠ 0 then
    (value ||| (0xFFFFFFFF <<< bitSize.toUInt32)).toInt32
  else value.toInt32

def elementValue (field : Field) (reportId : UInt8) (raw : UInt32) : Option Value :=
  if isVariable field.flags then
    let value := if field.logicalMin < 0 then signValue raw field.bitSize else raw.toInt32
    some ⟨reportId, field.usagePage, field.usageMin, value, field.flags, false⟩
  else if raw = 0 then none
  else some ⟨reportId, field.usagePage, raw.toUInt16, 1, field.flags, true⟩

variable {σ : Type} (callback : σ → Value → σ × Bool)

def decodeElements (payload : Bytes) (field : Field) (reportId : UInt8) :
    List ℕ → σ → Access (Bool × σ)
  | [], s => .ok (true, s)
  | element :: elements, s => do
      let bitOffset := UInt16.ofNat (field.bitOffset.toNat + element * field.bitSize.toNat)
      let raw ← extractBits payload bitOffset field.bitSize
      match elementValue field reportId raw with
      | none => decodeElements payload field reportId elements s
      | some value =>
          let r := callback s value
          if r.2 then decodeElements payload field reportId elements r.1 else .ok (false, r.1)

def Field.bits (field : Field) : ℕ := field.bitSize.toNat * field.count.toNat

def decodeFields (payload : Bytes) (reportId : UInt8) : List Field → σ → Access (Status × σ)
  | [], s => .ok (.ok, s)
  | field :: fields, s =>
      if field.reportId ≠ reportId then decodeFields payload reportId fields s
      else if payload.length * 8 < field.bitOffset.toNat + field.bits then
        .ok (.invalidArgument, s)
      else if field.flags &&& inputConstant ≠ 0 then decodeFields payload reportId fields s
      else do
        let r ← decodeElements callback payload field reportId (List.range field.count.toNat) s
        if r.1 then decodeFields payload reportId fields r.2 else .ok (.ok, r.2)

def decodeInput (d : Descriptor) (report : Bytes) (s : σ) : Access (Status × σ) :=
  if d.usesReportIds then
    match report with
    | [] => .ok (.invalidArgument, s)
    | reportId :: payload => decodeFields callback payload reportId d.fields s
  else decodeFields callback report 0 d.fields s

end Bluzing.Hid
