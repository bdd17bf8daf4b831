import Bluzing.Core.Buffer

/-! HCI commands and events (`protocols/hci/hci.c`): the command encoder, the event header and the
events a controller reads, with the iterators over discovery results. -/
namespace Bluzing.Controller

def opcode (ogf ocf : UInt16) : UInt16 := (ogf <<< 10) ||| (ocf &&& 0x03FF)

def opcodeReset : UInt16 := opcode 0x03 0x0003
def opcodeWriteInquiryMode : UInt16 := opcode 0x03 0x0045
def opcodeInquiry : UInt16 := opcode 0x01 0x0001
def opcodeLeSetScanParameters : UInt16 := opcode 0x08 0x000B
def opcodeLeSetScanEnable : UInt16 := opcode 0x08 0x000C
def opcodeReadLocalVersionInfo : UInt16 := opcode 0x04 0x0001
def opcodeReadLocalSupportedFeatures : UInt16 := opcode 0x04 0x0003
def opcodeReadBufferSize : UInt16 := opcode 0x04 0x0005

def eventInquiryResult : UInt8 := 0x02
def eventCommandComplete : UInt8 := 0x0E
def eventCommandStatus : UInt8 := 0x0F
def eventExtendedInquiryResult : UInt8 := 0x2F
def eventLeMeta : UInt8 := 0x3E

def leMetaSubeventAdvertisingReport : UInt8 := 0x02

def inquiryModeRssiEir : UInt8 := 0x02
def giacLap : UInt32 := 0x9E8B33

def commandHeaderLen : ℕ := 3
def maxParamLen : ℕ := 255
def addrLen : ℕ := 6

abbrev Address := Octets addrLen

def encodeCommand (w : Writer) (opcode : UInt16) (params : Bytes) : Except Status Writer :=
  if params.length > maxParamLen then .error .invalidArgument
  else do
    let w ← w.writeLe16 opcode
    let w ← w.writeU8 params.length.toUInt8
    if params.length = 0 then return w else w.writeBytes params

structure EventHeader where
  eventCode : UInt8
  paramLen : UInt8
  deriving DecidableEq

def parseEventHeader (r : Reader) : Access (EventHeader × Reader) := do
  let (eventCode, r) ← r.readU8
  let (paramLen, r) ← r.readU8
  if r.remaining < paramLen.toNat then .error (.status .bufferUnderflow)
  else return (⟨eventCode, paramLen⟩, r)

structure CommandComplete where
  numHciCommandPackets : UInt8
  commandOpcode : UInt16
  returnParams : Bytes
  deriving DecidableEq

def parseCommandComplete (r : Reader) (paramLen : UInt8) : Access CommandComplete :=
  if paramLen < 3 then .error (.status .bufferUnderflow)
  else do
    let (numPkts, r) ← r.readU8
    let (opcode, r) ← r.readLe16
    let returnLen ← lengthSub paramLen.toNat 3
    match r.peek returnLen with
    | none => .error (.status .bufferUnderflow)
    | some p => do
        let _ ← r.skip returnLen
        return ⟨numPkts, opcode, p⟩

structure CommandStatus where
  status : UInt8
  numHciCommandPackets : UInt8
  commandOpcode : UInt16
  deriving DecidableEq

def parseCommandStatus (r : Reader) (paramLen : UInt8) : Access CommandStatus :=
  if paramLen ≠ 4 then .error (.status .invalidArgument)
  else do
    let (status, r) ← r.readU8
    let (numPkts, r) ← r.readU8
    let (opcode, _) ← r.readLe16
    return ⟨status, numPkts, opcode⟩

structure LocalVersion where
  status : UInt8
  hciVersion : UInt8
  hciRevision : UInt16
  lmpPalVersion : UInt8
  manufacturerName : UInt16
  lmpPalSubversion : UInt16
  deriving DecidableEq, Inhabited

def parseLocalVersion (returnParams : Bytes) : Access LocalVersion :=
  if returnParams.length ≠ 9 then .error (.status .invalidArgument)
  else do
    let (status, r) ← (Reader.init returnParams).readU8
    let (hciVersion, r) ← r.readU8
    let (hciRevision, r) ← r.readLe16
    let (lmpPalVersion, r) ← r.readU8
    let (manufacturerName, r) ← r.readLe16
    let (lmpPalSubversion, _) ← r.readLe16
    return ⟨status, hciVersion, hciRevision, lmpPalVersion, manufacturerName, lmpPalSubversion⟩

structure LocalFeatures where
  status : UInt8
  features : Octets 8
  deriving DecidableEq, Inhabited

def parseLocalFeatures (returnParams : Bytes) : Access LocalFeatures :=
  if returnParams.length ≠ 9 then .error (.status .invalidArgument)
  else do
    let (status, r) ← (Reader.init returnParams).readU8
    let (features, _) ← r.readBytes 8
    return ⟨status, features⟩

structure BufferSize where
  status : UInt8
  aclDataPacketLength : UInt16
  scoDataPacketLength : UInt8
  totalNumAclDataPackets : UInt16
  totalNumScoDataPackets : UInt16
  deriving DecidableEq, Inhabited

def parseBufferSize (returnParams : Bytes) : Access BufferSize :=
  if returnParams.length ≠ 8 then .error (.status .invalidArgument)
  else do
    let (status, r) ← (Reader.init returnParams).readU8
    let (aclDataPacketLength, r) ← r.readLe16
    let (scoDataPacketLength, r) ← r.readU8
    let (totalNumAclDataPackets, r) ← r.readLe16
    let (totalNumScoDataPackets, _) ← r.readLe16
    return ⟨status, aclDataPacketLength, scoDataPacketLength, totalNumAclDataPackets,
      totalNumScoDataPackets⟩

structure InquiryResultEntry where
  bdAddr : Address
  pageScanRepetitionMode : UInt8
  classOfDevice : UInt32
  clockOffset : UInt16
  deriving DecidableEq

structure InquiryResultIter where
  base : Bytes
  available : ℕ
  count : UInt8
  index : UInt8
  deriving DecidableEq

def inquiryResultIterInit (eventParams : Bytes) : Access InquiryResultIter :=
  if eventParams.length < 1 then .error (.status .bufferUnderflow)
  else do
    let count ← octetAt eventParams 0
    let available ← lengthSub eventParams.length 1
    if count.toNat * 14 > available then .error (.status .bufferUnderflow)
    else return ⟨eventParams.drop 1, available, count, 0⟩

def inquiryResultIterNext (it : InquiryResultIter) :
    Access (InquiryResultEntry × InquiryResultIter) :=
  let n := it.count.toNat
  let i := it.index.toNat
  if it.index ≥ it.count then .error (.status .bufferUnderflow)
  else do
    let psrm := n * addrLen
    let cod := psrm + n * 1 + n * 2
    let clock := cod + n * 3
    let bdAddr ← octetsAt it.base (i * addrLen) addrLen
    let pageScanRepetitionMode ← octetAt it.base (psrm + i)
    let c0 ← octetAt it.base (cod + i * 3)
    let c1 ← octetAt it.base (cod + (i * 3 + 1))
    let c2 ← octetAt it.base (cod + (i * 3 + 2))
    let o0 ← octetAt it.base (clock + i * 2)
    let o1 ← octetAt it.base (clock + (i * 2 + 1))
    return (⟨bdAddr, pageScanRepetitionMode, readLe24 c0 c1 c2, readLe16 o0 o1⟩,
      { it with index := it.index + 1 })

structure LeAdvReport where
  eventType : UInt8
  addressType : UInt8
  address : Address
  data : Bytes
  rssi : Int8
  deriving DecidableEq

structure LeAdvReportIter where
  r : Reader
  remaining : UInt8

def leAdvReportIterInit (eventParams : Bytes) : Access LeAdvReportIter := do
  let (subeventCode, r) ← (Reader.init eventParams).readU8
  if subeventCode ≠ leMetaSubeventAdvertisingReport then .error (.status .invalidArgument)
  else do
    let (numReports, r) ← r.readU8
    return ⟨r, numReports⟩

def leAdvReportIterNext (it : LeAdvReportIter) : Access (LeAdvReport × LeAdvReportIter) :=
  if it.remaining = 0 then .error (.status .bufferUnderflow)
  else do
    let (eventType, r) ← it.r.readU8
    let (addressType, r) ← r.readU8
    let (address, r) ← r.readBytes addrLen
    let (dataLen, r) ← r.readU8
    match r.peek dataLen.toNat with
    | none => .error (.status .bufferUnderflow)
    | some data => do
        let r ← r.skip dataLen.toNat
        let (rssi, r) ← r.readU8
        return (⟨eventType, addressType, address, data, rssi.toInt8⟩, ⟨r, it.remaining - 1⟩)

lemma parseEventHeader_cons (code len : UInt8) (rest : Bytes) :
    parseEventHeader (.init (code :: len :: rest)) =
      if rest.length < len.toNat then .error (.status .bufferUnderflow)
      else .ok (⟨code, len⟩, ⟨code :: len :: rest, 2, by simp⟩) := by
  simp [parseEventHeader, Reader.fetches_u8 _, Reader.init, Reader.remaining, Reader.rest,
    Reader.advance, bind, Except.bind, pure, Except.pure]

lemma parseEventHeader_ok {data : Bytes} {hdr : EventHeader} {r : Reader}
    (h : parseEventHeader (.init data) = .ok (hdr, r)) :
    ∃ rest, data = hdr.eventCode :: hdr.paramLen :: rest ∧ hdr.paramLen.toNat ≤ rest.length ∧
      r.peek hdr.paramLen.toNat = some (rest.take hdr.paramLen.toNat) := by
  rcases data with _ | ⟨code, _ | ⟨len, rest⟩⟩
  · cases h
  · cases h
  · rw [parseEventHeader_cons] at h
    split at h
    · cases h
    next hlen =>
      cases h
      have hlen : len.toNat ≤ rest.length := by omega
      exact ⟨rest, rfl, hlen, by simp [Reader.peek, Reader.remaining, hlen]⟩

variable (r : Reader)

lemma parseEventHeader_inRange : InRange (parseEventHeader r) := by
  refine r.readU8_inRange.bind fun ⟨_, r⟩ _ => r.readU8_inRange.bind fun ⟨paramLen, r⟩ _ => ?_
  dsimp only
  split
  · exact inRange_status _
  · exact inRange_ok _

lemma parseCommandComplete_inRange (paramLen : UInt8) :
    InRange (parseCommandComplete r paramLen) := by
  unfold parseCommandComplete
  split
  · exact inRange_status _
  next hlen =>
  have hlen := UInt8.le_iff_toNat_le.mp (UInt8.not_lt.mp hlen)
  refine r.readU8_inRange.bind fun ⟨_, r⟩ _ => r.readLe16_inRange.bind fun ⟨_, r⟩ _ =>
    (lengthSub_inRange hlen).bind fun returnLen _ => ?_
  split
  · exact inRange_status _
  · exact (r.skip_inRange returnLen).bind fun _ _ => inRange_ok _

lemma parseCommandStatus_inRange (paramLen : UInt8) :
    InRange (parseCommandStatus r paramLen) := by
  unfold parseCommandStatus
  split
  · exact inRange_status _
  · exact r.readU8_inRange.bind fun ⟨_, r⟩ _ => r.readU8_inRange.bind fun ⟨_, r⟩ _ =>
      r.readLe16_inRange.bind fun _ _ => inRange_ok _

variable (returnParams : Bytes)

lemma parseLocalVersion_inRange : InRange (parseLocalVersion returnParams) := by
  unfold parseLocalVersion
  split
  · exact inRange_status _
  · exact (Reader.readU8_inRange _).bind fun ⟨_, r⟩ _ => r.readU8_inRange.bind fun ⟨_, r⟩ _ =>
      r.readLe16_inRange.bind fun ⟨_, r⟩ _ => r.readU8_inRange.bind fun ⟨_, r⟩ _ =>
      r.readLe16_inRange.bind fun ⟨_, r⟩ _ => r.readLe16_inRange.bind fun _ _ => inRange_ok _

lemma parseLocalFeatures_inRange : InRange (parseLocalFeatures returnParams) := by
  unfold parseLocalFeatures
  split
  · exact inRange_status _
  · exact (Reader.readU8_inRange _).bind fun ⟨_, r⟩ _ =>
      (r.readBytes_inRange 8).bind fun _ _ => inRange_ok _

lemma parseBufferSize_inRange : InRange (parseBufferSize returnParams) := by
  unfold parseBufferSize
  split
  · exact inRange_status _
  · exact (Reader.readU8_inRange _).bind fun ⟨_, r⟩ _ => r.readLe16_inRange.bind fun ⟨_, r⟩ _ =>
      r.readU8_inRange.bind fun ⟨_, r⟩ _ => r.readLe16_inRange.bind fun ⟨_, r⟩ _ =>
      r.readLe16_inRange.bind fun _ _ => inRange_ok _

def InquiryResultIter.Fits (it : InquiryResultIter) : Prop := it.count.toNat * 14 ≤ it.base.length

lemma inquiryResultIterInit_eq {eventParams : Bytes} (h : 1 ≤ eventParams.length) :
    inquiryResultIterInit eventParams =
      if eventParams[0].toNat * 14 > eventParams.length - 1 then .error (.status .bufferUnderflow)
      else .ok ⟨eventParams.drop 1, eventParams.length - 1, eventParams[0], 0⟩ := by
  unfold inquiryResultIterInit
  rw [if_neg (by omega), octetAt_ok (by omega), lengthSub_ok h]
  rfl

lemma inquiryResultIterInit_inRange (eventParams : Bytes) :
    InRange (inquiryResultIterInit eventParams) := by
  by_cases h : 1 ≤ eventParams.length
  · rw [inquiryResultIterInit_eq h]
    split
    · exact inRange_status _
    · exact inRange_ok _
  · unfold inquiryResultIterInit
    rw [if_pos (by omega)]
    exact inRange_status _

lemma inquiryResultIterInit_fits {eventParams : Bytes} {it : InquiryResultIter}
    (h : inquiryResultIterInit eventParams = .ok it) : it.Fits := by
  by_cases hlen : 1 ≤ eventParams.length
  · rw [inquiryResultIterInit_eq hlen] at h
    split at h
    · cases h
    next hfits =>
      cases h
      simp only [InquiryResultIter.Fits, List.length_drop]
      omega
  · unfold inquiryResultIterInit at h
    rw [if_pos (by omega)] at h
    cases h

lemma inquiryResultIterNext_inRange {it : InquiryResultIter} (h : it.Fits) :
    InRange (inquiryResultIterNext it) := by
  unfold inquiryResultIterNext
  split
  · exact inRange_status _
  next hi =>
  have hi := UInt8.lt_iff_toNat_lt.mp (UInt8.not_le.mp hi)
  unfold InquiryResultIter.Fits at h
  simp only [addrLen]
  refine (octetsAt_inRange ?_).bind fun _ _ => (octetAt_inRange ?_).bind fun _ _ =>
    (octetAt_inRange ?_).bind fun _ _ => (octetAt_inRange ?_).bind fun _ _ =>
    (octetAt_inRange ?_).bind fun _ _ => (octetAt_inRange ?_).bind fun _ _ =>
    (octetAt_inRange ?_).bind fun _ _ => inRange_ok _
  all_goals omega

lemma inquiryResultIterNext_fits {it it' : InquiryResultIter} {entry : InquiryResultEntry}
    (h : inquiryResultIterNext it = .ok (entry, it')) (hf : it.Fits) : it'.Fits := by
  have hsame : it'.base = it.base ∧ it'.count = it.count := by
    unfold inquiryResultIterNext at h
    split at h
    · cases h
    · simp only [bind, Except.bind, pure, Except.pure] at h
      repeat' split at h
      all_goals cases h
      exact ⟨rfl, rfl⟩
  rwa [InquiryResultIter.Fits, hsame.1, hsame.2]

lemma leAdvReportIterInit_inRange (eventParams : Bytes) :
    InRange (leAdvReportIterInit eventParams) := by
  refine (Reader.readU8_inRange _).bind fun ⟨_, r⟩ _ => ?_
  dsimp only
  split
  · exact inRange_status _
  · exact r.readU8_inRange.bind fun _ _ => inRange_ok _

lemma leAdvReportIterNext_inRange (it : LeAdvReportIter) : InRange (leAdvReportIterNext it) := by
  unfold leAdvReportIterNext
  split
  · exact inRange_status _
  refine it.r.readU8_inRange.bind fun ⟨_, r⟩ _ => r.readU8_inRange.bind fun ⟨_, r⟩ _ =>
    (r.readBytes_inRange _).bind fun ⟨_, r⟩ _ => r.readU8_inRange.bind fun ⟨dataLen, r⟩ _ => ?_
  dsimp only
  split
  · exact inRange_status _
  · exact (r.skip_inRange _).bind fun r _ => r.readU8_inRange.bind fun _ _ => inRange_ok _

end Bluzing.Controller
