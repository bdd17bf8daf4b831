import Bluzing.Gatt.Client
import Bluzing.Hid.Input

/-! The client of HID over GATT (`profiles/hogp/hogp_client.c`) on a client of the attribute
protocol. -/
namespace Bluzing.Hogp
open Gatt (Service Characteristic)

def uuidService : UInt16 := 0x1812
def uuidReportMap : UInt16 := 0x2A4B
def uuidReport : UInt16 := 0x2A4D
def uuidProtocolMode : UInt16 := 0x2A4E
def uuidBootKeyboardInput : UInt16 := 0x2A22
def uuidBootKeyboardOutput : UInt16 := 0x2A32
def uuidBootMouseInput : UInt16 := 0x2A33
def uuidCccd : UInt16 := 0x2902
def uuidReportReference : UInt16 := 0x2908

def reportTypeInput : UInt8 := 1
def reportTypeFeature : UInt8 := 3
def protocolModeBoot : UInt8 := 0
def protocolModeReport : UInt8 := 1

abbrev maxReports : ℕ := 8

inductive Result where
  | ok
  | errorGatt
  | errorNotFound
  | errorProtocol
  | errorTooLarge
  deriving DecidableEq

structure Report where
  valueHandle : UInt16
  cccdHandle : UInt16
  referenceHandle : UInt16
  reportId : UInt8
  reportType : UInt8
  deriving DecidableEq

structure Stored (α : Type) (cap : ℕ) where
  items : List α
  fits : items.length ≤ cap

def Stored.empty (α : Type) (cap : ℕ) : Stored α cap := ⟨[], Nat.zero_le _⟩

structure Client where
  service : Service
  characteristics : Stored Characteristic Gatt.maxCharacteristics
  descriptors : Stored Gatt.Descriptor Gatt.maxDescriptors
  reports : Stored Report maxReports
  pendingIndex : ℕ
  reportMapHandle : UInt16
  protocolModeHandle : UInt16
  bootKeyboardInputHandle : UInt16
  bootKeyboardInputCccd : UInt16
  bootKeyboardOutputHandle : UInt16
  bootMouseInputHandle : UInt16
  bootMouseInputCccd : UInt16
  reportDescriptor : Hid.Descriptor
  input : Hid.Input
  bootKeyboardInput : Hid.Input
  bootMouseInput : Hid.Input
  onComplete : Bool
  onWriteComplete : Bool
  onModeComplete : Bool
  onInput : Bool
  onEvent : Bool
  nowUs : ℕ
  pendingMode : UInt8
  bootSubscribeStep : ℕ

inductive Call where
  | discoverServices
  | discoverCharacteristics (startHandle endHandle : UInt16)
  | discoverDescriptors (startHandle endHandle : UInt16)
  | read (handle : UInt16)
  | write (handle : UInt16) (value : Bytes)
  deriving DecidableEq

inductive Callback where
  | onServices
  | onCharacteristics
  | onDescriptors
  | onReportMap
  | onReportReference
  | onCccdWrite
  | onReportWrite
  | onProtocolModeWrite
  | onBootCccdWrite
  deriving DecidableEq

inductive Event where
  | discovering
  | finished (result : Result)
  | received (pdu : Bytes)
  | issued (call : Call)
  | answered (call : Call) (completion : Gatt.Completion)
  | written (result : Result)
  | modeSet (result : Result)
  | value (v : Hid.Value)
  | input (e : Hid.InputEvent)
  | outOfRange
  deriving DecidableEq

structure World where
  client : Client
  gatt : Gatt.World
  pending : Option (Call × Callback)
  notifies : Bool
  history : List Event

structure Env where
  port : ℕ → Bool
  onInput : ℕ → Bool
  onEvent : ℕ → Bool

def bootKeyboardMap : Bytes :=
  [0x05, 0x01, 0x09, 0x06, 0xA1, 0x01, 0x05, 0x07, 0x19, 0xE0, 0x29, 0xE7, 0x15, 0x00, 0x25, 0x01,
    0x75, 0x01, 0x95, 0x08, 0x81, 0x02, 0x75, 0x08, 0x95, 0x01, 0x81, 0x01, 0x19, 0x00, 0x29, 0x65,
    0x15, 0x00, 0x25, 0x65, 0x75, 0x08, 0x95, 0x06, 0x81, 0x00, 0xC0]

def bootMouseMap : Bytes :=
  [0x05, 0x01, 0x09, 0x02, 0xA1, 0x01, 0x05, 0x09, 0x19, 0x01, 0x29, 0x03, 0x15, 0x00, 0x25, 0x01,
    0x75, 0x01, 0x95, 0x03, 0x81, 0x02, 0x75, 0x05, 0x95, 0x01, 0x81, 0x01, 0x05, 0x01, 0x09, 0x30,
    0x09, 0x31, 0x15, 0x81, 0x25, 0x7F, 0x75, 0x08, 0x95, 0x02, 0x81, 0x06, 0xC0]

def noDescriptor : Hid.Descriptor := ⟨[], [], false⟩

def bootKeyboardDescriptor : Hid.Descriptor :=
  (Hid.reportParse bootKeyboardMap).toOption.getD noDescriptor

def bootMouseDescriptor : Hid.Descriptor :=
  (Hid.reportParse bootMouseMap).toOption.getD noDescriptor

def clientInit : Client where
  service := ⟨0, 0, 0⟩
  characteristics := .empty _ _
  descriptors := .empty _ _
  reports := .empty _ _
  pendingIndex := 0
  reportMapHandle := 0
  protocolModeHandle := 0
  bootKeyboardInputHandle := 0
  bootKeyboardInputCccd := 0
  bootKeyboardOutputHandle := 0
  bootMouseInputHandle := 0
  bootMouseInputCccd := 0
  reportDescriptor := noDescriptor
  input := Hid.inputInit
  bootKeyboardInput := Hid.inputInit
  bootMouseInput := Hid.inputInit
  onComplete := false
  onWriteComplete := false
  onModeComplete := false
  onInput := false
  onEvent := false
  nowUs := 0
  pendingMode := 0
  bootSubscribeStep := 0

namespace World

def init : World := ⟨clientInit, .init, none, false, []⟩

def emit (w : World) (e : Event) : World := { w with history := e :: w.history }

def modify (w : World) (f : Client → Client) : World := { w with client := f w.client }

def readError (w : World) : ReadError → World
  | .status _ => w
  | .outOfRange => w.emit .outOfRange

end World

def characteristicEnd (endHandle : UInt16) (rest : List Characteristic) : UInt16 :=
  match rest with
  | next :: _ => next.declarationHandle - 1
  | [] => endHandle

def findDescriptor (descriptors : List Gatt.Descriptor) (valueHandle endHandle uuid16 : UInt16) :
    UInt16 :=
  match descriptors.find? fun d =>
      decide (valueHandle < d.handle ∧ d.handle ≤ endHandle ∧ d.uuid16 = uuid16) with
  | some d => d.handle
  | none => 0

def noteDescriptor (endHandle : UInt16) (report : Report) (d : Gatt.Descriptor) : Report :=
  if d.handle ≤ report.valueHandle ∨ endHandle < d.handle then report
  else if d.uuid16 = uuidCccd then { report with cccdHandle := d.handle }
  else if d.uuid16 = uuidReportReference then { report with referenceHandle := d.handle }
  else report

def reportOf (descriptors : List Gatt.Descriptor) (valueHandle endHandle : UInt16) : Report :=
  descriptors.foldl (noteDescriptor endHandle) ⟨valueHandle, 0, 0, 0, 0⟩

def buildReportList (endHandle : UInt16) (descriptors : List Gatt.Descriptor) :
    List Characteristic → Stored Report maxReports → Stored Report maxReports
  | [], reports => reports
  | c :: rest, reports =>
      if h : c.uuid16 ≠ uuidReport ∨ reports.items.length = maxReports then
        buildReportList endHandle descriptors rest reports
      else
        buildReportList endHandle descriptors rest
          ⟨reports.items ++
              [reportOf descriptors c.valueHandle (characteristicEnd endHandle rest)], by
            have hfits := reports.fits
            rw [List.length_append, List.length_singleton]
            omega⟩

def noteCharacteristic (client : Client) (c : Characteristic) : Client :=
  if c.uuid16 = uuidReportMap then { client with reportMapHandle := c.valueHandle }
  else if c.uuid16 = uuidProtocolMode then { client with protocolModeHandle := c.valueHandle }
  else if c.uuid16 = uuidBootKeyboardInput then
    { client with bootKeyboardInputHandle := c.valueHandle }
  else if c.uuid16 = uuidBootKeyboardOutput then
    { client with bootKeyboardOutputHandle := c.valueHandle }
  else if c.uuid16 = uuidBootMouseInput then { client with bootMouseInputHandle := c.valueHandle }
  else client

def bootCccd (uuid16 endHandle : UInt16) (descriptors : List Gatt.Descriptor) :
    List Characteristic → UInt16 → UInt16
  | [], cccd => cccd
  | c :: rest, cccd =>
      bootCccd uuid16 endHandle descriptors rest
        (if c.uuid16 = uuid16 then
          findDescriptor descriptors c.valueHandle (characteristicEnd endHandle rest) uuidCccd
        else cccd)

variable (env : Env)

def forwardValue (onInput : Bool) (calls : ℕ) (values : List Hid.Value) (v : Hid.Value) :
    List Hid.Value × Bool :=
  if onInput then (v :: values, env.onInput (calls + values.length)) else (values, true)

def Event.isValue : Event → Bool
  | .value _ => true
  | _ => false

def Event.isInput : Event → Bool
  | .input _ => true
  | _ => false

def decodeReport (w : World) (report : Bytes) : World :=
  let calls := w.history.countP Event.isValue
  match Hid.decodeInput (forwardValue env w.client.onInput calls) w.client.reportDescriptor
      report [] with
  | .error e => w.readError e
  | .ok (_, values) => { w with history := values.map Event.value ++ w.history }

def processInput (d : Hid.Descriptor) (get : Client → Hid.Input)
    (set : Hid.Input → Client → Client) (w : World) (report : Bytes) : World :=
  if !w.client.onEvent then w
  else
    let calls := w.history.countP Event.isInput
    match Hid.process (fun k => env.onEvent (calls + k)) d ⟨get w.client, []⟩ report with
    | .error e => w.readError e
    | .ok (hid, _) =>
        { w.modify (set hid.input) with
          history := hid.events.map (fun e => Event.input e.2) ++ w.history }

def processReport (w : World) (report : Bytes) : World :=
  processInput env w.client.reportDescriptor Client.input (fun input c => { c with input })
    (decodeReport env w report) report

def onNotification (w : World) (handle : UInt16) (value : Bytes) : World :=
  if handle = w.client.bootKeyboardInputHandle then
    processInput env bootKeyboardDescriptor Client.bootKeyboardInput
      (fun input c => { c with bootKeyboardInput := input }) w value
  else if handle = w.client.bootMouseInputHandle then
    processInput env bootMouseDescriptor Client.bootMouseInput
      (fun input c => { c with bootMouseInput := input }) w value
  else
    match w.client.reports.items.find? fun r =>
        decide (r.valueHandle = handle ∧ r.reportType = reportTypeInput) with
    | none => w
    | some endpoint =>
        if w.client.reportDescriptor.usesReportIds then
          if Gatt.maxValueLen < value.length then w
          else processReport env w (endpoint.reportId :: value)
        else processReport env w value

def finish (w : World) (result : Result) : World :=
  if w.client.onComplete then
    (w.modify fun c => { c with onComplete := false }).emit (.finished result)
  else w

def completeMode (w : World) (result : Result) : World :=
  if w.client.onModeComplete then
    (w.modify fun c => { c with onModeComplete := false }).emit (.modeSet result)
  else w

def completeWrite (w : World) (result : Result) : World :=
  if w.client.onWriteComplete then
    (w.modify fun c => { c with onWriteComplete := false }).emit (.written result)
  else w

def gattOk (completion : Gatt.Completion) : Bool := completion.result = .ok

def onFailure (w : World) : Callback → World
  | .onServices | .onCharacteristics | .onDescriptors | .onCccdWrite => finish w .errorGatt
  | .onReportMap | .onReportReference => finish w .errorProtocol
  | .onReportWrite => completeWrite w .errorGatt
  | .onProtocolModeWrite | .onBootCccdWrite => completeMode w .errorGatt

def newEvents (before after : Gatt.World) : List Gatt.Event :=
  after.history.take (after.history.length - before.history.length)

def completionIn (events : List Gatt.Event) : Option Gatt.Completion :=
  events.findSome? fun
    | .completed _ completion => some completion
    | _ => none

def Call.issue (port : ℕ → Bool) (g : Gatt.World) (nowUs : ℕ) : Call → Gatt.World × Status
  | .discoverServices => Gatt.discoverServices port g true nowUs
  | .discoverCharacteristics startHandle endHandle =>
      Gatt.discoverCharacteristics port g startHandle endHandle true nowUs
  | .discoverDescriptors startHandle endHandle =>
      Gatt.discoverDescriptors port g startHandle endHandle true nowUs
  | .read handle => Gatt.read port g handle true nowUs
  | .write handle value => Gatt.write port g handle value true nowUs

def eventTime (w : World) : World :=
  w.modify fun c =>
    { c with nowUs := if w.gatt.client.eventNowUs ≠ 0 then w.gatt.client.eventNowUs else c.nowUs }

def startCall (w : World) (call : Call) (cb : Callback) (nowUs : ℕ) : World × Status :=
  let r := call.issue env.port w.gatt nowUs
  if r.2 ≠ .ok then (w, r.2)
  else
    let issued := { w with gatt := r.1, pending := some (call, cb) }.emit (.issued call)
    match completionIn (newEvents w.gatt r.1) with
    | none => (issued, .ok)
    | some completion => (onFailure (issued.emit (.answered call completion)) cb, .ok)

def callOrFinish (w : World) (call : Call) (cb : Callback) : World :=
  let w := eventTime w
  let r := startCall env w call cb w.client.nowUs
  if r.2 ≠ .ok then finish r.1 .errorGatt else r.1

def notifyEnabled : Bytes := [1, 0]

def nextReport (p : Report → Bool) (reports : List Report) (i : ℕ) : ℕ :=
  i + ((reports.drop i).takeWhile fun r => !p r).length

def subscribeNext (w : World) : World :=
  let reports := w.client.reports.items
  let i :=
    nextReport (fun r => decide (r.reportType = reportTypeInput)) reports w.client.pendingIndex
  match reports[i]? with
  | none => finish (w.modify fun c => { c with pendingIndex := i }) .ok
  | some report =>
      let w := w.modify fun c => { c with pendingIndex := i + 1 }
      if report.cccdHandle = 0 then finish w .errorProtocol
      else callOrFinish env w (.write report.cccdHandle notifyEnabled) .onCccdWrite

def onCccdWrite (w : World) (completion : Gatt.Completion) : World :=
  if !gattOk completion then finish w .errorGatt else subscribeNext env w

def readNextReference (w : World) : World :=
  let reports := w.client.reports.items
  let i := nextReport (fun r => decide (r.referenceHandle ≠ 0)) reports w.client.pendingIndex
  let w := w.modify fun c => { c with pendingIndex := i }
  if i = reports.length then subscribeNext env (w.modify fun c => { c with pendingIndex := 0 })
  else
    match reports[i]? with
    | none => w.emit .outOfRange
    | some report => callOrFinish env w (.read report.referenceHandle) .onReportReference

def onReportReference (w : World) (completion : Gatt.Completion) : World :=
  if !gattOk completion then finish w .errorProtocol
  else
    match completion.value with
    | [reportId, reportType] =>
        if reportType < reportTypeInput ∨ reportTypeFeature < reportType then
          finish w .errorProtocol
        else
          readNextReference env (w.modify fun c =>
            { c with
              reports := ⟨c.reports.items.modify c.pendingIndex fun r =>
                { r with reportId, reportType }, by
                  rw [List.length_modify]
                  exact c.reports.fits⟩
              pendingIndex := c.pendingIndex + 1 })
    | _ => finish w .errorProtocol

def onReportMap (w : World) (completion : Gatt.Completion) : World :=
  if !gattOk completion then finish w .errorProtocol
  else
    match Hid.reportParse completion.value with
    | .error _ => finish w .errorProtocol
    | .ok reportDescriptor =>
        readNextReference env (w.modify fun c =>
          { c with reportDescriptor, input := Hid.inputInit, pendingIndex := 0 })

def descriptorsOf (completion : Gatt.Completion) : List Gatt.Descriptor :=
  completion.found.filterMap fun
    | .descriptor d => some d
    | _ => none

def characteristicsOf (completion : Gatt.Completion) : List Characteristic :=
  completion.found.filterMap fun
    | .characteristic c => some c
    | _ => none

def servicesOf (completion : Gatt.Completion) : List Service :=
  completion.found.filterMap fun
    | .service s => some s
    | _ => none

def noteDescriptors (c : Client) (descriptors : Stored Gatt.Descriptor Gatt.maxDescriptors) :
    Client :=
  let chars := c.characteristics.items
  let endHandle := c.service.endHandle
  { c with
    descriptors
    bootKeyboardInputCccd :=
      bootCccd uuidBootKeyboardInput endHandle descriptors.items chars 0
    bootMouseInputCccd := bootCccd uuidBootMouseInput endHandle descriptors.items chars 0
    reports := buildReportList endHandle descriptors.items chars (.empty _ _) }

def onDescriptors (w : World) (completion : Gatt.Completion) : World :=
  if h : !gattOk completion ∨ Gatt.maxDescriptors < (descriptorsOf completion).length then
    finish w .errorGatt
  else
    let w := w.modify fun c =>
      noteDescriptors c ⟨descriptorsOf completion, Nat.le_of_not_lt (not_or.mp h).2⟩
    if w.client.reports.items.length = 0 then finish w .errorNotFound
    else callOrFinish env w (.read w.client.reportMapHandle) .onReportMap

def noteCharacteristics (c : Client)
    (characteristics : Stored Characteristic Gatt.maxCharacteristics) : Client :=
  characteristics.items.foldl noteCharacteristic
    { c with
      characteristics
      reportMapHandle := 0
      protocolModeHandle := 0
      bootKeyboardInputHandle := 0
      bootKeyboardOutputHandle := 0
      bootMouseInputHandle := 0 }

def onCharacteristics (w : World) (completion : Gatt.Completion) : World :=
  if h : !gattOk completion ∨ Gatt.maxCharacteristics < (characteristicsOf completion).length then
    finish w .errorGatt
  else
    let w := w.modify fun c =>
      noteCharacteristics c ⟨characteristicsOf completion, Nat.le_of_not_lt (not_or.mp h).2⟩
    if w.client.reportMapHandle = 0 then finish w .errorNotFound
    else
      callOrFinish env w
        (.discoverDescriptors w.client.service.startHandle w.client.service.endHandle)
        .onDescriptors

def onServices (w : World) (completion : Gatt.Completion) : World :=
  if !gattOk completion then finish w .errorGatt
  else
    match (servicesOf completion).find? fun s => decide (s.uuid16 = uuidService) with
    | none => finish w .errorNotFound
    | some service =>
        callOrFinish env (w.modify fun c => { c with service })
          (.discoverCharacteristics service.startHandle service.endHandle) .onCharacteristics

def nextBootInput (c : Client) : ℕ × UInt16 :=
  if c.bootSubscribeStep = 0 ∧ c.bootKeyboardInputCccd ≠ 0 then (1, c.bootKeyboardInputCccd)
  else if c.bootSubscribeStep < 2 then (2, c.bootMouseInputCccd)
  else (c.bootSubscribeStep, 0)

def subscribeNextBootInput (w : World) : World :=
  let next := nextBootInput w.client
  let w := w.modify fun c => { c with bootSubscribeStep := next.1 }
  if next.2 = 0 then completeMode w .ok
  else
    let w := eventTime w
    let r := startCall env w (.write next.2 notifyEnabled) .onBootCccdWrite w.client.nowUs
    if r.2 ≠ .ok then completeMode r.1 .errorGatt else r.1

def onProtocolModeWrite (w : World) (completion : Gatt.Completion) : World :=
  if !gattOk completion then completeMode w .errorGatt
  else if w.client.pendingMode = protocolModeReport then completeMode w .ok
  else subscribeNextBootInput env (w.modify fun c => { c with bootSubscribeStep := 0 })

def onBootCccdWrite (w : World) (completion : Gatt.Completion) : World :=
  if !gattOk completion then completeMode w .errorGatt else subscribeNextBootInput env w

def onReportWrite (w : World) (completion : Gatt.Completion) : World :=
  completeWrite w (if gattOk completion then .ok else .errorGatt)

def handle (w : World) (completion : Gatt.Completion) : Callback → World
  | .onServices => onServices env w completion
  | .onCharacteristics => onCharacteristics env w completion
  | .onDescriptors => onDescriptors env w completion
  | .onReportMap => onReportMap env w completion
  | .onReportReference => onReportReference env w completion
  | .onCccdWrite => onCccdWrite env w completion
  | .onReportWrite => onReportWrite w completion
  | .onProtocolModeWrite => onProtocolModeWrite env w completion
  | .onBootCccdWrite => onBootCccdWrite env w completion

def observe (w : World) : Gatt.Event → World
  | .completed _ completion =>
      match w.pending with
      | none => w
      | some (call, cb) => handle env (w.emit (.answered call completion)) completion cb
  | .notified handle value _ => if w.notifies then onNotification env w handle value else w
  | .requested _ _ | .confirmed _ | .accepted _ | .connected _ => w

def discover (w : World) (onComplete onInput : Bool) (nowUs : ℕ) : World × Status :=
  if !onComplete ∨ !w.gatt.client.channelReady ∨ w.gatt.client.busy ∨ w.client.onComplete then
    (w, .invalidArgument)
  else
    let w := { w.modify fun c => { c with onComplete := true, onInput, nowUs } with
      gatt := Gatt.setNotifyHandler w.gatt true
      notifies := true }
    let r := startCall env (w.emit .discovering) .discoverServices .onServices nowUs
    if r.2 ≠ .ok then (r.1.modify fun c => { c with onComplete := false }, .invalidArgument)
    else (r.1, .ok)

def startWrite (w : World) (handle : UInt16) (value : Bytes) (nowUs : ℕ) : World × Status :=
  let w := w.modify fun c => { c with onWriteComplete := true }
  let r := startCall env w (.write handle value) .onReportWrite nowUs
  if r.2 ≠ .ok then (r.1.modify fun c => { c with onWriteComplete := false }, .invalidArgument)
  else (r.1, .ok)

def writeReport (w : World) (reportId reportType : UInt8) (value : Option Bytes)
    (onComplete : Bool) (nowUs : ℕ) : World × Status :=
  match value with
  | none => (w, .invalidArgument)
  | some value =>
      if !onComplete ∨ w.client.onComplete ∨ w.client.onWriteComplete ∨
          reportType = reportTypeInput then (w, .invalidArgument)
      else
        match w.client.reports.items.find? fun r =>
            decide (r.reportId = reportId ∧ r.reportType = reportType) with
        | none => (w, .invalidArgument)
        | some report => startWrite env w report.valueHandle value nowUs

def writeBootKeyboardOutput (w : World) (leds : UInt8) (onComplete : Bool) (nowUs : ℕ) :
    World × Status :=
  if w.client.bootKeyboardOutputHandle = 0 ∨ !onComplete ∨ w.client.onWriteComplete then
    (w, .invalidArgument)
  else startWrite env w w.client.bootKeyboardOutputHandle [leds] nowUs

def setProtocolMode (w : World) (mode : UInt8) (onComplete : Bool) (nowUs : ℕ) : World × Status :=
  if !onComplete ∨ (mode ≠ protocolModeBoot ∧ mode ≠ protocolModeReport) ∨
      w.client.protocolModeHandle = 0 ∨ w.client.onModeComplete ∨ w.client.onWriteComplete ∨
      w.client.onComplete then (w, .invalidArgument)
  else if mode = protocolModeBoot ∧ w.client.bootKeyboardInputHandle = 0 ∧
      w.client.bootMouseInputHandle = 0 then (w, .invalidArgument)
  else
    let w := w.modify fun c => { c with onModeComplete := true, pendingMode := mode }
    let r := startCall env w (.write w.client.protocolModeHandle [mode]) .onProtocolModeWrite nowUs
    if r.2 ≠ .ok then (r.1.modify fun c => { c with onModeComplete := false }, .invalidArgument)
    else (r.1, .ok)

inductive Input where
  | gatt (input : Gatt.Input)
  | setEventHandler (onEvent : Bool)
  | discover (onComplete onInput : Bool) (nowUs : ℕ)
  | writeReport (reportId reportType : UInt8) (value : Option Bytes) (onComplete : Bool)
      (nowUs : ℕ)
  | writeBootKeyboardOutput (leds : UInt8) (onComplete : Bool) (nowUs : ℕ)
  | setProtocolMode (mode : UInt8) (onComplete : Bool) (nowUs : ℕ)
  deriving DecidableEq

def World.noteInput (w : World) : Gatt.Input → World
  | .data pdu _ => w.emit (.received pdu)
  | .setNotifyHandler _ => { w with notifies := false }
  | _ => w

def applyGatt (w : World) (input : Gatt.Input) : World :=
  let g := Gatt.apply env.port w.gatt input
  let w' := { w.noteInput input with
    gatt := g
    pending := if g.operations = w.gatt.operations then w.pending else none }
  (newEvents w.gatt g).reverse.foldl (observe env) w'

def apply (w : World) : Input → World
  | .gatt input => applyGatt env w input
  | .setEventHandler onEvent => w.modify fun c => { c with onEvent }
  | .discover onComplete onInput nowUs => (discover env w onComplete onInput nowUs).1
  | .writeReport reportId reportType value onComplete nowUs =>
      (writeReport env w reportId reportType value onComplete nowUs).1
  | .writeBootKeyboardOutput leds onComplete nowUs =>
      (writeBootKeyboardOutput env w leds onComplete nowUs).1
  | .setProtocolMode mode onComplete nowUs => (setProtocolMode env w mode onComplete nowUs).1

def run (inputs : List Input) : World := inputs.foldl (apply env) .init

end Bluzing.Hogp
