import Bluzing.Lib.TimerList
import Bluzing.L2cap.Signaling
import Bluzing.L2cap.Reassembly

/-! Connection-oriented channels over one ACL handle (`protocols/l2cap/channel_manager.c`). -/
namespace Bluzing.L2cap

abbrev maxChannels : ℕ := 8
def rtxTimeoutUs : ℕ := 60000000
def defaultMtu : UInt16 := 672
def maxSendLen : ℕ := 512
def cidDynamicStart : UInt16 := 0x0040

abbrev Slot := Fin maxChannels

inductive ChannelState where
  | free
  | waitConnectRsp
  | config
  | opened
  | waitDisconnectRsp
  deriving DecidableEq

inductive CloseReason where
  | local
  | peerDisconnected
  | refused
  | configFailed
  | timeout
  deriving DecidableEq

structure Channel where
  state : ChannelState
  isFixed : Bool
  psm : UInt16
  localCid : UInt16
  remoteCid : UInt16
  localMtu : UInt16
  remoteMtu : UInt16
  outboundConfigDone : Bool
  inboundConfigDone : Bool
  pendingIdentifier : UInt8
  onEvent : Bool
  deriving DecidableEq

structure Link where
  handle : UInt16
  signalingCid : UInt16
  aclFragSize : ℕ

structure Manager where
  timers : TimerList Slot ℕ
  reassembler : Reassembler
  channels : Slot → Channel
  nextLocalCid : UInt16
  nextIdentifier : UInt8

inductive ChannelEvent where
  | opened
  | closed (reason : CloseReason)
  | data (payload : Bytes) (nowUs : ℕ)
  deriving DecidableEq

inductive Event where
  | sent (acl : Bytes)
  | fired (slot : Slot) (localCid : UInt16) (event : ChannelEvent)
  | claimed (slot : Slot)
  | released (slot : Slot)
  deriving DecidableEq

structure World where
  mgr : Manager
  calls : ℕ
  history : List Event

def Link.init (handle signalingCid : UInt16) (aclFragSize : ℕ) : Link :=
  ⟨handle, signalingCid,
    if aclFragSize > maxAclFragment ∨ aclFragSize = 0 then maxAclFragment else aclFragSize⟩

def Channel.init : Channel := ⟨.free, false, 0, 0, 0, 0, 0, false, false, 0, false⟩

def Manager.init : Manager := ⟨.empty, .init, fun _ => .init, cidDynamicStart, 1⟩

def World.init : World := ⟨.init, 0, []⟩

namespace World

def chan (w : World) (i : Slot) : Channel := w.mgr.channels i

def emit (w : World) (e : Event) : World := { w with history := e :: w.history }

def modify (w : World) (f : Manager → Manager) : World := { w with mgr := f w.mgr }

def update (w : World) (i : Slot) (f : Channel → Channel) : World :=
  w.modify fun m => { m with channels := Function.update m.channels i (f (m.channels i)) }

def addTimer (w : World) (i : Slot) (nowUs : ℕ) : World :=
  w.modify fun m => { m with timers := m.timers.add i ((nowUs + rtxTimeoutUs) % 2 ^ 64) }

def cancelTimer (w : World) (i : Slot) : World :=
  w.modify fun m => { m with timers := m.timers.cancel i }

def received (w : World) (reassembler : Reassembler) : World :=
  w.modify fun m => { m with reassembler }

def release (w : World) (i : Slot) : World :=
  if (w.chan i).state = .free then w else w.emit (.released i)

def timerPending (w : World) (i : Slot) : Prop := i ∈ w.mgr.timers.timers

instance (w : World) (i : Slot) : Decidable (w.timerPending i) :=
  inferInstanceAs (Decidable (i ∈ w.mgr.timers.timers))

def find (w : World) (p : Channel → Bool) : Option Slot :=
  (List.finRange maxChannels).find? fun i => p (w.chan i)

end World

def findFreeChannel (w : World) : Option Slot := w.find fun c => c.state = .free

def findChannelByIdentifier (w : World) (identifier : UInt8) : Option Slot :=
  w.find fun c => c.state ≠ .free ∧ c.pendingIdentifier = identifier

def findChannelByLocalCid (w : World) (localCid : UInt16) : Option Slot :=
  w.find fun c => c.state ≠ .free ∧ c.localCid = localCid

def nextCid (cid : UInt16) : UInt16 :=
  if cid + 1 < cidDynamicStart then cidDynamicStart else cid + 1

def nextId (id : UInt8) : UInt8 := if id + 1 = 0 then 1 else id + 1

def allocLocalCid (w : World) : UInt16 × World :=
  (w.mgr.nextLocalCid, w.modify fun m => { m with nextLocalCid := nextCid m.nextLocalCid })

def allocIdentifier (w : World) : UInt8 × World :=
  (w.mgr.nextIdentifier, w.modify fun m => { m with nextIdentifier := nextId m.nextIdentifier })

abbrev Send := World → Bytes → World × Bool

variable (link : Link) (send : Send)

def sendFragments (w : World) : List (Bool × Bytes) → World × Status
  | [] => (w, .ok)
  | (first, chunk) :: rest =>
      match encodeFragment link.handle first chunk with
      | .error st => (w, st)
      | .ok wr =>
          let r := send (w.emit (.sent wr.data)) wr.data
          if r.2 then sendFragments r.1 rest else (r.1, .invalidArgument)

def sendFragmented (w : World) (pdu : Bytes) : World × Status :=
  sendFragments link send w (fragments link.aclFragSize pdu)

def encodePdu (cap : ℕ) (cid : UInt16) (payload : Bytes) : Except Status Writer := do
  let wr ← encodeHeader (.init (headerLen + cap)) payload.length.toUInt16 cid
  wr.writeBytes payload

def sendL2capPdu (w : World) (cid : UInt16) (payload : Bytes) : World × Status :=
  if payload.length > 64 then (w, .invalidArgument)
  else match encodePdu 64 cid payload with
  | .error st => (w, st)
  | .ok wr => sendFragmented link send w wr.data

def sendCommand (w : World) (encoded : Except Status Writer) : World × Status :=
  match encoded with
  | .error st => (w, st)
  | .ok wr => sendL2capPdu link send w link.signalingCid wr.data

def fireEvent (w : World) (i : Slot) (event : ChannelEvent) : World :=
  if (w.chan i).onEvent then w.emit (.fired i (w.chan i).localCid event) else w

def finishClose (w : World) (i : Slot) (reason : CloseReason) : World :=
  let w := if w.timerPending i then w.cancelTimer i else w
  let w := (w.release i).update i fun c => { c with state := .free, pendingIdentifier := 0 }
  fireEvent w i (.closed reason)

def sendConnectionRequest (w : World) (i : Slot) : World × Status :=
  sendCommand link send w (sigEncodeConnectionRequest (.init (sigHeaderLen + 4))
    (w.chan i).pendingIdentifier (w.chan i).psm (w.chan i).localCid)

def startOurConfigureRequest (w : World) (i : Slot) (nowUs : ℕ) : World :=
  let (identifier, w) := allocIdentifier w
  let w := w.update i fun c => { c with pendingIdentifier := identifier }
  let w := w.addTimer i nowUs
  (sendCommand link send w (sigEncodeConfigureRequest (.init (sigHeaderLen + 8))
    (w.chan i).pendingIdentifier (w.chan i).remoteCid 0 (w.chan i).localMtu)).1

def handleConnectionResponse (w : World) (identifier : UInt8) (data : Bytes) (nowUs : ℕ) :
    World :=
  match findChannelByIdentifier w identifier with
  | none => w
  | some i =>
      if (w.chan i).state ≠ .waitConnectRsp then w
      else match sigParseConnectionResponse data with
      | .error _ => w
      | .ok rsp =>
          if rsp.result = connResultPending then w
          else
            let w := w.cancelTimer i
            if rsp.result ≠ connResultSuccess then finishClose w i .refused
            else
              let w := w.update i fun c =>
                { c with remoteCid := rsp.destinationCid, state := .config }
              startOurConfigureRequest link send w i nowUs

def handleConfigureRequest (w : World) (identifier : UInt8) (data : Bytes) : World :=
  match sigParseConfigureRequest data with
  | .error _ => w
  | .ok req =>
      match findChannelByLocalCid w req.destinationCid with
      | none => w
      | some i =>
          if (w.chan i).state ≠ .config then w
          else
            let w := w.update i fun c => { c with remoteMtu := req.mtu.getD c.remoteMtu }
            let w := (sendCommand link send w
              (sigEncodeConfigureResponse (.init (sigHeaderLen + 10)) identifier
                (w.chan i).localCid 0 configResultSuccess 0)).1
            let w := w.update i fun c => { c with inboundConfigDone := true }
            if (w.chan i).outboundConfigDone then
              fireEvent (w.update i fun c => { c with state := .opened }) i .opened
            else w

def handleConfigureResponse (w : World) (identifier : UInt8) (data : Bytes) : World :=
  match findChannelByIdentifier w identifier with
  | none => w
  | some i =>
      if (w.chan i).state ≠ .config then w
      else match sigParseConfigureResponse data with
      | .error _ => w
      | .ok rsp =>
          let w := w.cancelTimer i
          let w := w.update i fun c => { c with pendingIdentifier := 0 }
          if rsp.result ≠ configResultSuccess then finishClose w i .configFailed
          else
            let w := w.update i fun c => { c with outboundConfigDone := true }
            if (w.chan i).inboundConfigDone then
              fireEvent (w.update i fun c => { c with state := .opened }) i .opened
            else w

def handleDisconnectionRequest (w : World) (identifier : UInt8) (data : Bytes) : World :=
  match sigParseDisconnection data with
  | .error _ => w
  | .ok req =>
      match findChannelByLocalCid w req.destinationCid with
      | none => w
      | some i =>
          let w := (sendCommand link send w
            (sigEncodeDisconnectionResponse (.init (sigHeaderLen + 4)) identifier
              req.destinationCid req.sourceCid)).1
          finishClose w i .peerDisconnected

def handleDisconnectionResponse (w : World) (identifier : UInt8) (data : Bytes) : World :=
  match findChannelByIdentifier w identifier with
  | none => w
  | some i =>
      if (w.chan i).state ≠ .waitDisconnectRsp then w
      else match sigParseDisconnection data with
      | .error _ => w
      | .ok _ => finishClose w i .local

def handleCommandReject (w : World) (identifier : UInt8) : World :=
  match findChannelByIdentifier w identifier with
  | none => w
  | some i =>
      finishClose w i (if (w.chan i).state = .waitConnectRsp then .refused else .configFailed)

def signalingCommand (payload : Bytes) : Option (SigHeader × Bytes) :=
  match sigParseHeader (.init payload) with
  | .error _ => none
  | .ok (hdr, r) => (r.peek hdr.length.toNat).map (hdr, ·)

def dispatchCommand (w : World) (hdr : SigHeader) (data : Bytes) (nowUs : ℕ) : World :=
  if hdr.code = sigConnectionResponse then
    handleConnectionResponse link send w hdr.identifier data nowUs
  else if hdr.code = sigConfigureRequest then
    handleConfigureRequest link send w hdr.identifier data
  else if hdr.code = sigConfigureResponse then handleConfigureResponse w hdr.identifier data
  else if hdr.code = sigDisconnectionRequest then
    handleDisconnectionRequest link send w hdr.identifier data
  else if hdr.code = sigDisconnectionResponse then
    handleDisconnectionResponse w hdr.identifier data
  else if hdr.code = sigCommandReject then handleCommandReject w hdr.identifier
  else w

def processSignalingPdu (w : World) (payload : Bytes) (nowUs : ℕ) : World :=
  match signalingCommand payload with
  | none => w
  | some (hdr, data) => dispatchCommand link send w hdr data nowUs

def connecting (psm localMtu localCid : UInt16) (identifier : UInt8) (onEvent : Bool) :
    Channel where
  state := .waitConnectRsp
  isFixed := false
  psm := psm
  localCid := localCid
  remoteCid := 0
  localMtu := if localMtu ≠ 0 then localMtu else defaultMtu
  remoteMtu := defaultMtu
  outboundConfigDone := false
  inboundConfigDone := false
  pendingIdentifier := identifier
  onEvent := onEvent

def allocChannel (w : World) (i : Slot) (psm localMtu : UInt16) (onEvent : Bool) (nowUs : ℕ) :
    World :=
  let (localCid, w) := allocLocalCid w
  let (identifier, w) := allocIdentifier w
  let w := (w.emit (.claimed i)).update i fun _ =>
    connecting psm localMtu localCid identifier onEvent
  w.addTimer i nowUs

def channelManagerOpen (w : World) (psm localMtu : UInt16) (onEvent : Bool) (nowUs : ℕ) :
    World × Except Status UInt16 :=
  match findFreeChannel w with
  | none => (w, .error .noResources)
  | some i =>
      let r := sendConnectionRequest link send (allocChannel w i psm localMtu onEvent nowUs) i
      if r.2 ≠ .ok then
        (((r.1.cancelTimer i).release i).update i fun c => { c with state := .free }, .error r.2)
      else (r.1, .ok (allocLocalCid w).1)

def fixedChannel (cid : UInt16) (onEvent : Bool) : Channel :=
  ⟨.opened, true, 0, cid, cid, defaultMtu, defaultMtu, true, true, 0, onEvent⟩

def channelManagerOpenFixed (w : World) (cid : UInt16) (onEvent : Bool) : World × Status :=
  if (findChannelByLocalCid w cid).isSome then (w, .invalidArgument)
  else match findFreeChannel w with
  | none => (w, .noResources)
  | some i =>
      (fireEvent ((w.emit (.claimed i)).update i fun _ => fixedChannel cid onEvent) i .opened, .ok)

def channelManagerClose (w : World) (localCid : UInt16) (nowUs : ℕ) : World :=
  match findChannelByLocalCid w localCid with
  | none => w
  | some i =>
      if (w.chan i).state = .opened ∧ ¬ (w.chan i).isFixed then
        let (identifier, w) := allocIdentifier w
        let w := w.update i fun c =>
          { c with pendingIdentifier := identifier, state := .waitDisconnectRsp }
        let w := w.addTimer i nowUs
        (sendCommand link send w (sigEncodeDisconnectionRequest (.init (sigHeaderLen + 4))
          (w.chan i).pendingIdentifier (w.chan i).remoteCid (w.chan i).localCid)).1
      else finishClose w i .local

def channelManagerSend (w : World) (localCid : UInt16) (data : Bytes) : World × Status :=
  if data.length > maxSendLen then (w, .invalidArgument)
  else match findChannelByLocalCid w localCid with
  | none => (w, .invalidArgument)
  | some i =>
      if (w.chan i).state ≠ .opened then (w, .invalidArgument)
      else match encodePdu maxSendLen (w.chan i).remoteCid data with
      | .error st => (w, st)
      | .ok wr => sendFragmented link send w wr.data

def pduContents (pdu : Bytes) : Option (Header × Bytes) :=
  match parseHeader (.init pdu) with
  | .error _ => none
  | .ok (hdr, r) => (r.peek hdr.length.toNat).map (hdr, ·)

def routePdu (w : World) (hdr : Header) (payload : Bytes) (nowUs : ℕ) : World :=
  if hdr.cid = link.signalingCid then processSignalingPdu link send w payload nowUs
  else match findChannelByLocalCid w hdr.cid with
  | none => w
  | some i =>
      if (w.chan i).state = .opened then fireEvent w i (.data payload nowUs) else w

def receiveFragment (ra : Reassembler) (pbFlag : UInt8) (data : Bytes) :
    Reassembler × Option (Header × Bytes) :=
  let r := reassemblerFeed ra pbFlag data
  if r.2 ≠ .complete then (r.1, none)
  else ((reassemblerTake r.1).1, pduContents (reassemblerTake r.1).2)

def channelManagerOnAcl (w : World) (pbFlag : UInt8) (data : Bytes) (nowUs : ℕ) : World :=
  let r := receiveFragment w.mgr.reassembler pbFlag data
  match r.2 with
  | none => w.received r.1
  | some (hdr, payload) => routePdu link send (w.received r.1) hdr payload nowUs

def tickRound (w : World) (nowUs : ℕ) : Option World :=
  match w.mgr.timers.popExpired nowUs with
  | none => none
  | some (i, timers) => some (finishClose (w.modify fun m => { m with timers }) i .timeout)

def tickRounds : ℕ → World → ℕ → World
  | 0, w, _ => w
  | rounds + 1, w, nowUs =>
      match tickRound w nowUs with
      | none => w
      | some w' => tickRounds rounds w' nowUs

def channelManagerTick (w : World) (nowUs : ℕ) : World :=
  tickRounds w.mgr.timers.timers.length w nowUs

end Bluzing.L2cap
