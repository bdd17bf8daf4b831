import Bluzing.Lib.Reentrant
import Bluzing.Controller.CommandQueue
import Bluzing.Controller.Registry

/-! The controller (`core/controller/controller.c`): the bring-up sequence on top of the command
queue, and discovery. -/
namespace Bluzing.Controller

inductive ControllerState where
  | uninitialized
  | resetting
  | readingVersion
  | readingFeatures
  | readingBufferSize
  | ready
  | error
  deriving DecidableEq

structure ControllerInfo where
  version : LocalVersion
  features : LocalFeatures
  bufferSize : BufferSize
  deriving DecidableEq, Inhabited

structure Host where
  state : ControllerState
  info : ControllerInfo
  devices : Registry
  inquiryTraced : ℕ

inductive OnComplete where
  | onResetComplete
  | onVersionComplete
  | onFeaturesComplete
  | onBufferSizeComplete
  | ignoreCompletion
  deriving DecidableEq

abbrev Ctrl := World OnComplete Host

def Host.init (inquiryTraced : ℕ) : Host := ⟨.uninitialized, default, .init, inquiryTraced⟩

namespace World

def setState (w : Ctrl) (state : ControllerState) : Ctrl :=
  { w with host := { w.host with state } }

def setInfo (w : Ctrl) (f : ControllerInfo → ControllerInfo) : Ctrl :=
  { w with host := { w.host with info := f w.host.info } }

def setDevices (w : Ctrl) (devices : Registry) : Ctrl :=
  { w with host := { w.host with devices } }

end World

def stepOk (completion : Completion) : Bool :=
  completion.result = .complete ∧ completion.status = 0x00

def nextStep (w : Ctrl) (state : ControllerState) (opcode : UInt16) (cb : OnComplete) : Ctrl :=
  let r := cmdqSubmit (w.setState state) opcode none 0 0 (some cb)
  if r.2 ≠ .ok then r.1.setState .error else r.1

def parseStep {α : Type} (parse : Bytes → Access α)
    (store : α → ControllerInfo → ControllerInfo) (next : Ctrl → Ctrl) (w : Ctrl)
    (completion : Completion) : Ctrl :=
  if stepOk completion then
    match parse completion.returnParams with
    | .error e => (w.readError e).setState .error
    | .ok v => next (w.setInfo (store v))
  else w.setState .error

def onResetComplete (w : Ctrl) (completion : Completion) : Ctrl :=
  if stepOk completion then
    nextStep w .readingVersion opcodeReadLocalVersionInfo .onVersionComplete
  else w.setState .error

def onVersionComplete : Ctrl → Completion → Ctrl :=
  parseStep parseLocalVersion (fun version info => { info with version }) fun w =>
    nextStep w .readingFeatures opcodeReadLocalSupportedFeatures .onFeaturesComplete

def onFeaturesComplete : Ctrl → Completion → Ctrl :=
  parseStep parseLocalFeatures (fun features info => { info with features }) fun w =>
    nextStep w .readingBufferSize opcodeReadBufferSize .onBufferSizeComplete

def onBufferSizeComplete : Ctrl → Completion → Ctrl :=
  parseStep parseBufferSize (fun bufferSize info => { info with bufferSize }) fun w =>
    w.setState .ready

def callbacks : Callback OnComplete Host
  | .onResetComplete => onResetComplete
  | .onVersionComplete => onVersionComplete
  | .onFeaturesComplete => onFeaturesComplete
  | .onBufferSizeComplete => onBufferSizeComplete
  | .ignoreCompletion => fun w _ => w

def noteResponses : ℕ → Registry → InquiryResultIter → Access Registry
  | 0, devices, _ => .ok devices
  | rounds + 1, devices, it =>
      match inquiryResultIterNext it with
      | .error (.status _) => .ok devices
      | .error .outOfRange => .error .outOfRange
      | .ok (entry, it) => do
          let e ← deviceRegistryNoteClassic devices entry.bdAddr entry.classOfDevice
          noteResponses rounds ((e.map (·.reg)).getD devices) it

def onInquiryResult (devices : Registry) (params : Bytes) : Access Registry := do
  let it ← inquiryResultIterInit params
  noteResponses it.count.toNat devices it

def noteExtendedResponse (dev : Device) (rssi : Int8) (info : LeAdvInfo) : Access Device := do
  let dev := { dev with lastRssi := rssi }
  let dev := if info.hid then { dev with flags := dev.flags ||| deviceFlagHid } else dev
  deviceSetName dev info.name info.nameLen 2

def onExtendedInquiryResult (devices : Registry) (params : Bytes) : Access Registry :=
  if params.length < 15 then .ok devices
  else do
    let addr ← octetsAt params 1 addrLen
    let c0 ← octetAt params 10
    let c1 ← octetAt params 11
    let c2 ← octetAt params 12
    let rssi ← octetAt params 15
    match ← deviceRegistryNoteClassic devices addr (readLe24 c0 c1 c2) with
    | none => return devices
    | some e => do
        let length ← lengthSub params.length 16
        let info ← leAdvParse (params.drop 16) length
        let dev ← noteExtendedResponse e.dev rssi.toInt8 info
        return (e.set dev).reg

def noteAppearance (dev : Device) (appearance : UInt16) : Access Device :=
  if appearance ≠ 0 then
    deviceSetName { dev with appearance } (labelFromAppearance appearance) deviceNameLen 1
  else .ok dev

def noteAdvertising (dev : Device) (info : LeAdvInfo) : Access Device := do
  let dev := if info.hid then { dev with flags := dev.flags ||| deviceFlagHid } else dev
  let dev ← noteAppearance dev info.appearance
  deviceSetName dev info.name info.nameLen 2

def noteReport (devices : Registry) (report : LeAdvReport) : Access Registry := do
  let info ← leAdvParse report.data report.data.length
  if deviceRegistryFind devices report.address = none ∧
      leAddrIsStable report.address report.addressType = false ∧
      info.name = none ∧ info.hid = false ∧ info.appearance = 0 then
    return devices
  else
    match deviceRegistryNoteLe devices report.address report.addressType report.rssi with
    | none => return devices
    | some e => do
        let dev ← noteAdvertising e.dev info
        return (e.set dev).reg

def noteReports : ℕ → Registry → LeAdvReportIter → Access Registry
  | 0, devices, _ => .ok devices
  | rounds + 1, devices, it =>
      match leAdvReportIterNext it with
      | .error (.status _) => .ok devices
      | .error .outOfRange => .error .outOfRange
      | .ok (report, it) => do
          let devices ← noteReport devices report
          noteReports rounds devices it

def onLeMeta (devices : Registry) (params : Bytes) : Access Registry := do
  let it ← leAdvReportIterInit params
  noteReports it.remaining.toNat devices it

def discover (devices : Registry) (eventCode : UInt8) (params : Bytes) : Access Registry :=
  if eventCode = eventInquiryResult then onInquiryResult devices params
  else if eventCode = eventExtendedInquiryResult then onExtendedInquiryResult devices params
  else if eventCode = eventLeMeta then onLeMeta devices params
  else .ok devices

def traceInquiry (hook : Bool) (w : Ctrl) (eventCode : UInt8) (params : Bytes) : Ctrl :=
  if eventCode = eventInquiryResult ∧ w.host.inquiryTraced < 2 ∧ hook then
    { w with host := { w.host with inquiryTraced := w.host.inquiryTraced + 1 } }.emit
      (.traced params)
  else w

def inspectEvent (hook : Bool) (w : Ctrl) (eventCode : UInt8) (params : Bytes) : Ctrl :=
  let w := traceInquiry hook w eventCode params
  match discover w.host.devices eventCode params with
  | .error e => w.readError e
  | .ok devices => w.setDevices devices

variable (hook : Bool) (send : Send OnComplete Host) (fuel : ℕ)

def controllerOnEvent (w : Ctrl) (data : Bytes) (nowUs : ℕ) : Ctrl :=
  let w := cmdqOnEvent callbacks send fuel w data nowUs
  match parseEventHeader (.init data) with
  | .error e => w.readError e
  | .ok (hdr, r) =>
      match r.peek hdr.paramLen.toNat with
      | none => w
      | some params => inspectEvent hook w hdr.eventCode params

def controllerStart (w : Ctrl) (nowUs : ℕ) : Ctrl × Status :=
  if w.host.state ≠ .uninitialized then (w, .invalidArgument)
  else
    let r := cmdqSubmit w opcodeReset none 0 0 (some .onResetComplete)
    if r.2 ≠ .ok then r
    else (cmdqPump callbacks send fuel (r.1.setState .resetting) nowUs, .ok)

def controllerTick (w : Ctrl) (nowUs : ℕ) : Ctrl := cmdqTick callbacks send fuel w nowUs

def submitDiscovery (w : Ctrl) : List (UInt16 × Bytes) → Ctrl × Status
  | [] => (w, .ok)
  | (opcode, params) :: rest =>
      let r := cmdqSubmit w opcode (some params) params.length.toUInt8 0 (some .ignoreCompletion)
      if r.2 ≠ .ok then r else submitDiscovery r.1 rest

def discoveryCall (w : Ctrl) (commands : List (UInt16 × Bytes)) (nowUs : ℕ) :
    Ctrl × Status :=
  if w.host.state ≠ .ready then (w, .invalidArgument)
  else
    let r := submitDiscovery w commands
    if r.2 ≠ .ok then r else (cmdqPump callbacks send fuel r.1 nowUs, .ok)

def controllerStartClassicInquiry (w : Ctrl) (inquiryLength : UInt8) (nowUs : ℕ) : Ctrl × Status :=
  discoveryCall send fuel w
    [(opcodeWriteInquiryMode, [inquiryModeRssiEir]),
      (opcodeInquiry, writeLe24 giacLap ++ [inquiryLength, 0])] nowUs

def controllerStartLeScan (w : Ctrl) (nowUs : ℕ) : Ctrl × Status :=
  discoveryCall send fuel w
    [(opcodeLeSetScanParameters, [0x00] ++ writeLe16 0x0010 ++ writeLe16 0x0010 ++ [0x00, 0x00]),
      (opcodeLeSetScanEnable, [0x01, 0x01])] nowUs

def controllerStopLeScan (w : Ctrl) (nowUs : ℕ) : Ctrl × Status :=
  discoveryCall send fuel w [(opcodeLeSetScanEnable, [0x00, 0x00])] nowUs

structure Env where
  answers : ℕ → List (Bytes × ℕ) × Bool
  hook : Bool
  fuel : ℕ

def reentrant (env : Env) : Reentrant Ctrl Bytes Bool (Bytes × ℕ) where
  answer w := ({ w with calls := w.calls + 1 }, (env.answers w.calls).2, (env.answers w.calls).1)
  handle send w d := controllerOnEvent env.hook send env.fuel (w.emit (.received d.1)) d.1 d.2

def sendAt (env : Env) (depth : ℕ) : Send OnComplete Host := (reentrant env).port depth

def receive (env : Env) (depth : ℕ) (w : Ctrl) (data : Bytes) (nowUs : ℕ) : Ctrl :=
  (reentrant env).handle (sendAt env depth) w (data, nowUs)

inductive ControllerInput where
  | start (nowUs : ℕ)
  | onEvent (data : Bytes) (nowUs : ℕ)
  | tick (nowUs : ℕ)
  | startClassicInquiry (inquiryLength : UInt8) (nowUs : ℕ)
  | startLeScan (nowUs : ℕ)
  | stopLeScan (nowUs : ℕ)

def applyController (env : Env) (depth : ℕ) (w : Ctrl) : ControllerInput → Ctrl
  | .start nowUs => (controllerStart (sendAt env depth) env.fuel w nowUs).1
  | .onEvent data nowUs => receive env depth w data nowUs
  | .tick nowUs => controllerTick (sendAt env depth) env.fuel w nowUs
  | .startClassicInquiry inquiryLength nowUs =>
      (controllerStartClassicInquiry (sendAt env depth) env.fuel w inquiryLength nowUs).1
  | .startLeScan nowUs => (controllerStartLeScan (sendAt env depth) env.fuel w nowUs).1
  | .stopLeScan nowUs => (controllerStopLeScan (sendAt env depth) env.fuel w nowUs).1

def runController (env : Env) (depth inquiryTraced : ℕ) (inputs : List ControllerInput) : Ctrl :=
  inputs.foldl (applyController env depth) (.init (.init inquiryTraced))

end Bluzing.Controller
