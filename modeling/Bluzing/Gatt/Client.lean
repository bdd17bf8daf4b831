import Bluzing.Gatt.Att

/-! The client of the attribute protocol (`protocols/gatt/gatt_client.c`) on its fixed channel. -/
namespace Bluzing.Gatt

abbrev maxServices : ℕ := 16
abbrev maxCharacteristics : ℕ := 16
abbrev maxDescriptors : ℕ := 32
abbrev maxValueLen : ℕ := 512
def requestMtu : UInt16 := 247
abbrev requestTimeoutUs : ℕ := 30000000

abbrev maxSendLen : ℕ := 512

inductive Op where
  | mtu
  | discoverServices
  | discoverCharacteristics
  | discoverDescriptors
  | read
  | write
  deriving DecidableEq

inductive Result where
  | ok
  | errorConnect
  | errorClosed
  | errorProtocol
  | errorTooLarge
  | errorTimeout
  | errorAtt
  deriving DecidableEq

structure Service where
  startHandle : UInt16
  endHandle : UInt16
  uuid16 : UInt16
  deriving DecidableEq

structure Characteristic where
  declarationHandle : UInt16
  valueHandle : UInt16
  properties : UInt8
  uuid16 : UInt16
  deriving DecidableEq

structure Descriptor where
  handle : UInt16
  uuid16 : UInt16
  deriving DecidableEq

inductive Found where
  | service (s : Service)
  | characteristic (c : Characteristic)
  | descriptor (d : Descriptor)
  deriving DecidableEq

structure Value where
  bytes : Bytes
  fits : bytes.length ≤ maxValueLen
  deriving DecidableEq

def Value.empty : Value := ⟨[], Nat.zero_le _⟩

structure Completion where
  result : Result
  op : Op
  attErrorCode : UInt8
  found : List Found
  value : Bytes
  deriving DecidableEq

structure Client where
  channelReady : Bool
  mtu : UInt16
  onConnect : Bool
  onNotify : Bool
  busy : Bool
  op : Op
  connectStartedUs : ℕ
  requestDeadlineUs : ℕ
  eventNowUs : ℕ
  pendingHandle : UInt16
  discoverRangeEnd : UInt16
  found : List Found
  value : Value
  onComplete : Option ℕ
  deriving DecidableEq

inductive Event where
  | requested (pdu : Bytes) (sent : Bool)
  | confirmed (pdu : Bytes)
  | accepted (n : ℕ)
  | completed (n : ℕ) (completion : Completion)
  | connected (success : Bool)
  | notified (handle : UInt16) (value : Bytes) (isIndication : Bool)
  deriving DecidableEq

structure World where
  client : Client
  channelOpen : Bool
  requests : ℕ
  operations : ℕ
  history : List Event
  deriving DecidableEq

def clientInit : Client :=
  ⟨false, attDefaultMtu, false, false, false, .mtu, 0, 0, 0, 0, 0, [], .empty, none⟩

def World.init : World := ⟨clientInit, false, 0, 0, []⟩

namespace World

def emit (w : World) (e : Event) : World := { w with history := e :: w.history }

def modify (w : World) (f : Client → Client) : World := { w with client := f w.client }

end World

def requestDeadline (nowUs : ℕ) : ℕ :=
  if 2 ^ 64 - 1 - nowUs < requestTimeoutUs then 2 ^ 64 - 1 else nowUs + requestTimeoutUs

def completionOf (c : Client) (result : Result) (attErrorCode : UInt8) : Completion where
  result := result
  op := c.op
  attErrorCode := attErrorCode
  found :=
    if result = .ok then
      match c.op with
      | .discoverServices | .discoverCharacteristics | .discoverDescriptors => c.found
      | .read | .write | .mtu => []
    else []
  value := if result = .ok ∧ c.op = .read then c.value.bytes else []

def Client.settle (c : Client) : Client := { c with busy := false, requestDeadlineUs := 0 }

def complete (w : World) (result : Result) (attErrorCode : UInt8) : World :=
  match w.client.onComplete with
  | none => w.modify Client.settle
  | some n =>
      (w.modify Client.settle).emit (.completed n (completionOf w.client result attErrorCode))

def reportConnect (w : World) (success : Bool) : World :=
  (w.modify fun c => { c with onConnect := false }).emit (.connected success)

def negotiatedMtu (c : Client) (opcode : UInt8) (params : Bytes) : UInt16 :=
  if opcode = opcodeExchangeMtuResponse then
    match parseExchangeMtuResponse params with
    | .ok serverMtu => if serverMtu < requestMtu then serverMtu else requestMtu
    | .error _ => c.mtu
  else c.mtu

def handleMtuResponse (w : World) (opcode : UInt8) (params : Bytes) : World :=
  let w := w.modify fun c => { c.settle with mtu := negotiatedMtu c opcode params }
  if w.client.onConnect then reportConnect w true else w

def encodeCurrentRequest (c : Client) : Except Status Writer :=
  let w := Writer.init (3 + maxValueLen)
  match c.op with
  | .mtu => encodeExchangeMtuRequest w requestMtu
  | .discoverServices =>
      encodeReadByGroupTypeRequest w c.pendingHandle c.discoverRangeEnd uuidPrimaryService
  | .discoverCharacteristics =>
      encodeReadByTypeRequest w c.pendingHandle c.discoverRangeEnd uuidCharacteristic
  | .discoverDescriptors => encodeFindInformationRequest w c.pendingHandle c.discoverRangeEnd
  | .read =>
      if c.value.bytes.length = 0 then encodeReadRequest w c.pendingHandle
      else encodeReadBlobRequest w c.pendingHandle c.value.bytes.length.toUInt16
  | .write => encodeWriteRequest w c.pendingHandle c.value.bytes

def failRequest (w : World) (result : Result) : World :=
  if w.client.op = .mtu then handleMtuResponse w 0 [] else complete w result 0

variable (port : ℕ → Bool)

def sendRequest (w : World) (pdu : Bytes) : World × Bool :=
  if maxSendLen < pdu.length ∨ w.channelOpen = false then (w.emit (.requested pdu false), false)
  else
    ({ w with requests := w.requests + 1 }.emit (.requested pdu (port w.requests)),
      port w.requests)

def issueCurrentRequest (w : World) (nowUs : ℕ) : World :=
  match encodeCurrentRequest w.client with
  | .error _ => failRequest w .errorProtocol
  | .ok wr =>
      let r := sendRequest port w wr.data
      if r.2 then r.1.modify fun c => { c with requestDeadlineUs := requestDeadline nowUs }
      else failRequest r.1 .errorClosed

structure Entry where
  last : UInt16
  found : Option Found
  deriving DecidableEq

structure Discovery where
  opcode : UInt8
  entries : Bytes → Option (List Entry)
  full : ℕ → Bool
  done : UInt16 → UInt16 → Bool

def collect (full : ℕ → Bool) : List Found → List Entry → List Found × Bool
  | found, [] => (found, false)
  | found, entry :: entries =>
      match entry.found with
      | none => collect full found entries
      | some f => if full found.length then (found, true) else collect full (found ++ [f]) entries

def handleDiscoverResponse (d : Discovery) (w : World) (opcode : UInt8) (params : Bytes)
    (nowUs : ℕ) : World :=
  if opcode ≠ d.opcode then complete w .errorProtocol 0
  else
    match d.entries params with
    | none => complete w .errorProtocol 0
    | some entries =>
        let r := collect d.full w.client.found entries
        let w := w.modify fun c => { c with found := r.1 }
        if r.2 then complete w .errorTooLarge 0
        else
          match entries.getLast? with
          | none => complete w .errorProtocol 0
          | some entry =>
              if d.done entry.last w.client.discoverRangeEnd then complete w .ok 0
              else
                issueCurrentRequest port
                  (w.modify fun c => { c with pendingHandle := entry.last + 1 }) nowUs

def serviceEntry (e : GroupEntry) : Entry :=
  ⟨e.endGroupHandle,
    match e.value with
    | [b0, b1] => some (.service ⟨e.handle, e.endGroupHandle, readLe16 b0 b1⟩)
    | _ => none⟩

def servicesDiscovery : Discovery where
  opcode := opcodeReadByGroupTypeResponse
  entries params := (entriesOf readByGroupTypeResponseIterInit readByGroupTypeResponseIterNext
    params).map (·.map serviceEntry)
  full count := decide (maxServices ≤ count)
  done last _ := decide (last = 0xFFFF)

def characteristicEntry (e : TypeEntry) : Entry :=
  ⟨e.handle,
    match e.value with
    | [b0, b1, b2, b3, b4] =>
        some (.characteristic ⟨e.handle, readLe16 b1 b2, b0, readLe16 b3 b4⟩)
    | _ => none⟩

def characteristicsDiscovery : Discovery where
  opcode := opcodeReadByTypeResponse
  entries params := (entriesOf readByTypeResponseIterInit readByTypeResponseIterNext
    params).map (·.map characteristicEntry)
  full count := decide (maxCharacteristics ≤ count)
  done last rangeEnd := decide (rangeEnd ≤ last)

def descriptorEntry (e : TypeEntry) : Entry :=
  ⟨e.handle,
    match e.value with
    | [b0, b1] => some (.descriptor ⟨e.handle, readLe16 b0 b1⟩)
    | _ => none⟩

def descriptorsDiscovery : Discovery where
  opcode := opcodeFindInformationResponse
  entries params := (entriesOf findInformationResponseIterInit findInformationResponseIterNext
    params).map (·.map descriptorEntry)
  full count := decide (count = maxDescriptors)
  done last rangeEnd := decide (rangeEnd ≤ last) || decide (last = 0xFFFF)

def handleDiscoverServicesResponse := handleDiscoverResponse port servicesDiscovery

def handleDiscoverCharacteristicsResponse := handleDiscoverResponse port characteristicsDiscovery

def handleDiscoverDescriptorsResponse := handleDiscoverResponse port descriptorsDiscovery

def fullChunk (mtu : UInt16) : ℕ := (mtu.toUInt32 - 1).toNat

def expectedReadResponse (c : Client) : UInt8 :=
  if c.value.bytes.length = 0 then opcodeReadResponse else opcodeReadBlobResponse

def handleReadResponse (w : World) (opcode : UInt8) (params : Bytes) (nowUs : ℕ) : World :=
  let value := w.client.value
  if opcode ≠ expectedReadResponse w.client then complete w .errorProtocol 0
  else if h : maxValueLen - value.bytes.length < params.length then complete w .errorTooLarge 0
  else
    let value : Value := ⟨value.bytes ++ params, by
      have hfits := value.fits
      rw [List.length_append]
      omega⟩
    let w := w.modify fun c => { c with value }
    if params.length = fullChunk w.client.mtu then
      if 65535 < value.bytes.length then complete w .errorTooLarge 0
      else issueCurrentRequest port w nowUs
    else complete w .ok 0

def handleWriteResponse (w : World) (opcode : UInt8) : World :=
  if opcode ≠ opcodeWriteResponse then complete w .errorProtocol 0 else complete w .ok 0

def Op.isDiscovery : Op → Bool
  | .discoverServices | .discoverCharacteristics | .discoverDescriptors => true
  | .mtu | .read | .write => false

def handleErrorResponse (w : World) (params : Bytes) : World :=
  match parseErrorResponse params with
  | .error _ => complete w .errorProtocol 0
  | .ok err =>
      if w.client.op.isDiscovery && err.errorCode == errorAttributeNotFound then complete w .ok 0
      else if w.client.op = .read ∧ w.client.value.bytes.length ≠ 0 ∧
          err.requestOpcode = opcodeReadBlobRequest ∧ err.errorCode = errorInvalidOffset then
        complete w .ok 0
      else complete w .errorAtt err.errorCode

def dispatchResponse (w : World) (opcode : UInt8) (params : Bytes) (nowUs : ℕ) : World :=
  if opcode = opcodeErrorResponse then handleErrorResponse w params
  else
    match w.client.op with
    | .discoverServices => handleDiscoverServicesResponse port w opcode params nowUs
    | .discoverCharacteristics => handleDiscoverCharacteristicsResponse port w opcode params nowUs
    | .discoverDescriptors => handleDiscoverDescriptorsResponse port w opcode params nowUs
    | .read => handleReadResponse port w opcode params nowUs
    | .write => handleWriteResponse w opcode
    | .mtu => w

def confirm (w : World) : World :=
  match encodeHandleValueConfirmation (.init 1) with
  | .ok wr => w.emit (.confirmed wr.data)
  | .error _ => w

def handleNotification (w : World) (isIndication : Bool) (params : Bytes) : World :=
  let w :=
    match parseHandleValue params with
    | .ok hv => if w.client.onNotify then w.emit (.notified hv.handle hv.value isIndication) else w
    | .error _ => w
  if isIndication then confirm w else w

def handleResponse (w : World) (data : Bytes) (nowUs : ℕ) : World :=
  match data with
  | [] => w
  | opcode :: params =>
      let w := w.modify fun c => { c with eventNowUs := nowUs }
      if opcode = opcodeHandleValueNotification ∨ opcode = opcodeHandleValueIndication then
        handleNotification w (decide (opcode = opcodeHandleValueIndication)) params
      else if w.client.onConnect then handleMtuResponse w opcode params
      else if !w.client.busy then w
      else dispatchResponse port w opcode params nowUs

def onOpened (w : World) : World :=
  issueCurrentRequest port
    (w.modify fun c => { c with channelReady := true, busy := true, op := .mtu })
    w.client.connectStartedUs

def onClosed (w : World) : World :=
  let w := w.modify fun c => { c with channelReady := false }
  if w.client.onConnect then reportConnect w false
  else if w.client.busy then complete w .errorClosed 0
  else w

def closeChannel (w : World) : World :=
  if w.channelOpen then onClosed { w with channelOpen := false } else w

def openFixed (w : World) (granted : Bool) : World × Status :=
  if w.channelOpen then (w, .invalidArgument)
  else if !granted then (w, .noResources)
  else (onOpened port { w with channelOpen := true }, .ok)

def connect (w : World) (onConnect granted : Bool) (nowUs : ℕ) : World × Status :=
  openFixed port (w.modify fun c => { c with onConnect, connectStartedUs := nowUs }) granted

def disconnect (w : World) : World :=
  (if w.client.channelReady then closeChannel w else w).modify fun c =>
    { c with channelReady := false }

def setNotifyHandler (w : World) (onNotify : Bool) : World :=
  w.modify fun c => { c with onNotify }

def startOperation (w : World) (setup : Client → Client) (onComplete : Bool) : World :=
  ({ w with operations := w.operations + 1 }.emit (.accepted w.operations)).modify fun c =>
    { setup c with busy := true, onComplete := if onComplete then some w.operations else none }

def beginOperation (w : World) (setup : Client → Client) (onComplete : Bool) (nowUs : ℕ) :
    World × Status :=
  if !w.client.channelReady || w.client.busy then (w, .invalidArgument)
  else (issueCurrentRequest port (startOperation w setup onComplete) nowUs, .ok)

def Client.setDiscovery (op : Op) (startHandle endHandle : UInt16) (c : Client) : Client :=
  { c with op, pendingHandle := startHandle, discoverRangeEnd := endHandle, found := [] }

def Client.setValue (op : Op) (handle : UInt16) (value : Value) (c : Client) : Client :=
  { c with op, pendingHandle := handle, value }

def discoverServices (w : World) (onComplete : Bool) (nowUs : ℕ) : World × Status :=
  beginOperation port w (.setDiscovery .discoverServices 0x0001 0xFFFF) onComplete nowUs

def discoverCharacteristics (w : World) (serviceStartHandle serviceEndHandle : UInt16)
    (onComplete : Bool) (nowUs : ℕ) : World × Status :=
  beginOperation port w
    (.setDiscovery .discoverCharacteristics serviceStartHandle serviceEndHandle) onComplete nowUs

def discoverDescriptors (w : World) (startHandle endHandle : UInt16) (onComplete : Bool)
    (nowUs : ℕ) : World × Status :=
  if startHandle = 0 ∨ endHandle < startHandle then (w, .invalidArgument)
  else
    beginOperation port w (.setDiscovery .discoverDescriptors startHandle endHandle) onComplete
      nowUs

def read (w : World) (handle : UInt16) (onComplete : Bool) (nowUs : ℕ) : World × Status :=
  beginOperation port w (.setValue .read handle .empty) onComplete nowUs

def write (w : World) (handle : UInt16) (value : Bytes) (onComplete : Bool) (nowUs : ℕ) :
    World × Status :=
  if h : maxValueLen < value.length then (w, .invalidArgument)
  else
    beginOperation port w (.setValue .write handle ⟨value, Nat.le_of_not_lt h⟩) onComplete nowUs

def Client.expired (c : Client) (nowUs : ℕ) : Bool :=
  c.busy && c.requestDeadlineUs != 0 && decide (c.requestDeadlineUs ≤ nowUs)

def tick (w : World) (nowUs : ℕ) : World :=
  if !w.client.expired nowUs then w
  else if w.client.onConnect then handleMtuResponse w 0 []
  else complete w .errorTimeout 0

inductive Input where
  | connect (onConnect granted : Bool) (nowUs : ℕ)
  | disconnect
  | closed
  | data (pdu : Bytes) (nowUs : ℕ)
  | setNotifyHandler (onNotify : Bool)
  | discoverServices (onComplete : Bool) (nowUs : ℕ)
  | discoverCharacteristics (startHandle endHandle : UInt16) (onComplete : Bool) (nowUs : ℕ)
  | discoverDescriptors (startHandle endHandle : UInt16) (onComplete : Bool) (nowUs : ℕ)
  | read (handle : UInt16) (onComplete : Bool) (nowUs : ℕ)
  | write (handle : UInt16) (value : Bytes) (onComplete : Bool) (nowUs : ℕ)
  | tick (nowUs : ℕ)
  deriving DecidableEq

def apply (w : World) : Input → World
  | .connect onConnect granted nowUs => (connect port w onConnect granted nowUs).1
  | .disconnect => disconnect w
  | .closed => closeChannel w
  | .data pdu nowUs => if w.channelOpen then handleResponse port w pdu nowUs else w
  | .setNotifyHandler onNotify => setNotifyHandler w onNotify
  | .discoverServices onComplete nowUs => (discoverServices port w onComplete nowUs).1
  | .discoverCharacteristics startHandle endHandle onComplete nowUs =>
      (discoverCharacteristics port w startHandle endHandle onComplete nowUs).1
  | .discoverDescriptors startHandle endHandle onComplete nowUs =>
      (discoverDescriptors port w startHandle endHandle onComplete nowUs).1
  | .read handle onComplete nowUs => (read port w handle onComplete nowUs).1
  | .write handle value onComplete nowUs => (write port w handle value onComplete nowUs).1
  | .tick nowUs => tick w nowUs

def run (inputs : List Input) : World := inputs.foldl (apply port) World.init

end Bluzing.Gatt
