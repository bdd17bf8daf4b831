import Bluzing.Smp.Pairing
import Bluzing.Smp.Crypto

/-! The central-role pairing manager (`core/security/smp_manager.c`). -/
namespace Bluzing.Smp

def smpTimeoutUs : ℕ := 30000000
def uint64Max : ℕ := 2 ^ 64 - 1

inductive State where
  | idle
  | waitPairingResponse
  | waitLocalPublicKey
  | waitPeerPublicKey
  | waitDhkey
  | waitScConfirm
  | waitScRandom
  | waitNumericConfirmation
  | waitDhkeyCheck
  | waitTk
  | waitPairingConfirm
  | waitPairingRandom
  | waitEncryption
  | waitKeyDistribution
  | complete
  | failed
  deriving DecidableEq

inductive UserAction where
  | displayPasskey
  | requestPasskey
  | requestOobTk
  | confirmNumeric
  deriving DecidableEq

inductive Result where
  | ok
  | errorProtocol
  | errorConfirm
  | errorTimeout
  | errorCrypto
  | errorEncryption
  | errorUnsupported
  deriving DecidableEq

structure DistributedKeys where
  keyMask : UInt8
  ltk : Octets 16
  rand : Octets 8
  ediv : UInt16
  irk : Octets 16
  identityAddressType : UInt8
  identityAddress : Octets 6
  csrk : Octets 16
  deriving DecidableEq

def DistributedKeys.zero : DistributedKeys :=
  ⟨0, .zero 16, .zero 8, 0, .zero 16, 0, .zero 6, .zero 16⟩

structure Ops where
  send : Bool
  random : Bool
  startEncryption : Bool
  generatePublicKey : Bool
  generateDhkey : Bool
  getLocalKeys : Bool
  keysComplete : Bool
  userAction : Bool
  complete : Bool
  deriving DecidableEq

structure Config where
  features : PairingFeatures
  initiatorAddressType : UInt8
  responderAddressType : UInt8
  initiatorAddress : Octets 6
  responderAddress : Octets 6
  deriving DecidableEq

structure Setup where
  ops : Ops
  aes : Option Aes128
  cmac : Option AesCmac
  config : Config

structure Manager where
  state : State
  negotiation : Negotiation
  deadlineUs : ℕ
  preq : Octets 7
  pres : Octets 7
  tk : Octets 16
  localRandom : Octets 16
  peerConfirm : Octets 16
  stk : Octets 16
  peerKeys : DistributedKeys
  localKeys : DistributedKeys
  peerKeysCompleteMask : UInt8
  peerLtkReceived : Bool
  peerIrkReceived : Bool
  localPublicX : Octets 32
  localPublicY : Octets 32
  peerPublicX : Octets 32
  peerPublicY : Octets 32
  dhkey : Octets 32
  peerRandom : Octets 16
  macKey : Octets 16
  peerDhkeyCheck : Octets 16
  numericValue : UInt32
  deriving DecidableEq

structure Reply where
  status : Status
  octets : ℕ → UInt8
  keys : UInt8 → DistributedKeys
  deliveries : List (Bytes × ℕ)

inductive Call where
  | start
  | providePasskey (passkey : UInt32)
  | provideOobTk (tk : Option (Octets 16))
  | confirmNumeric (accepted : Bool)
  | onLocalPublicKey (success : Bool) (x y : Option (Octets 32))
  | onDhkey (success : Bool) (dhkey : Option (Octets 32))
  | onEncryptionChanged (enabled : Bool)
  | tick
  deriving DecidableEq

inductive Event where
  /-- `bt_smp_manager_start` passed its checks: a new pairing run. -/
  | started
  | startReturned (st : Status)
  | called (c : Call)
  /-- A PDU handled by a running manager. -/
  | received (pdu : Bytes)
  /-- A PDU that found the manager idle, complete or failed. -/
  | ignored (pdu : Bytes)
  | stateSet (s : State)
  | sent (pdu : Bytes)
  /-- `send` returned `st` and found the manager in state `s`. -/
  | returned (pdu : Bytes) (st : Status) (s : State)
  | random (octets : Bytes)
  | startEncryption (key : Octets 16) (size : UInt8) (negotiation : Negotiation)
  | generatePublicKey
  | generateDhkey (x y : Octets 32)
  | getLocalKeys (mask : UInt8)
  | keysComplete (peer loc : DistributedKeys)
  | userAction (action : UserAction) (value : UInt32)
  | complete (result : Result) (negotiation : Negotiation)
  deriving DecidableEq

structure World where
  m : Manager
  calls : ℕ
  history : List Event
  deriving DecidableEq

def Manager.init : Manager where
  state := .idle
  negotiation := ⟨false, false, false, 0, 0, 0, .justWorks⟩
  deadlineUs := 0
  preq := .zero 7
  pres := .zero 7
  tk := .zero 16
  localRandom := .zero 16
  peerConfirm := .zero 16
  stk := .zero 16
  peerKeys := .zero
  localKeys := .zero
  peerKeysCompleteMask := 0
  peerLtkReceived := false
  peerIrkReceived := false
  localPublicX := .zero 32
  localPublicY := .zero 32
  peerPublicX := .zero 32
  peerPublicY := .zero 32
  dhkey := .zero 32
  peerRandom := .zero 16
  macKey := .zero 16
  peerDhkeyCheck := .zero 16
  numericValue := 0

def World.init : World := ⟨Manager.init, 0, []⟩

namespace World

def emit (w : World) (e : Event) : World := { w with history := e :: w.history }

def modify (w : World) (f : Manager → Manager) : World := { w with m := f w.m }

def setState (w : World) (s : State) : World :=
  (w.modify fun m => { m with state := s }).emit (.stateSet s)

def answered (w : World) : World := { w with calls := w.calls + 1 }

end World

abbrev Send := World → Bytes → World × Status

def timeoutDeadline (nowUs : ℕ) : ℕ :=
  if uint64Max - nowUs < smpTimeoutUs then uint64Max else nowUs + smpTimeoutUs

def World.arm (w : World) (nowUs : ℕ) : World :=
  w.modify fun m => { m with deadlineUs := timeoutDeadline nowUs }

def typedAddress (addressType : UInt8) (address : Octets 6) : Octets 7 :=
  ⟨addressType :: address.bytes, by simp⟩

variable (su : Setup) (port : ℕ → Reply) (send : Send)

def finish (w : World) (result : Result) : World :=
  let w := w.modify fun m => { m with deadlineUs := 0 }
  let w := w.setState (if result = .ok then .complete else .failed)
  if su.ops.complete then w.emit (.complete result w.m.negotiation) else w

def sendPdu (w : World) (pdu : Bytes) (nowUs : ℕ) : World × Status :=
  let r := send ((w.arm nowUs).emit (.sent pdu)) pdu
  (r.1.emit (.returned pdu r.2 r.1.m.state), r.2)

def encodeAndSend (w : World) (encoded : Except Status Writer) (nowUs : ℕ) : World × Status :=
  match encoded with
  | .error st => (w, st)
  | .ok wr => sendPdu send w wr.data nowUs

def sendFailed (w : World) (reason : UInt8) (nowUs : ℕ) (result : Result) : World :=
  match encodeU8Command (.init 2) .pairingFailed reason with
  | .error _ => finish su w result
  | .ok wr => finish su (sendPdu send w wr.data nowUs).1 result

def randomOctets (n : ℕ) (w : World) : World × Option (Octets n) :=
  let reply := port w.calls
  if reply.status = .ok then
    let value := Octets.ofFun n reply.octets
    (w.answered.emit (.random value.bytes), some value)
  else (w.answered, none)

def passkeyTk (passkey : UInt32) : Octets 16 :=
  ⟨List.replicate 12 (0 : UInt8) ++ [(passkey >>> 24).toUInt8, (passkey >>> 16).toUInt8,
    (passkey >>> 8).toUInt8, passkey.toUInt8], rfl⟩

def setPasskeyTk (w : World) (passkey : UInt32) : World :=
  w.modify fun m => { m with tk := passkeyTk passkey }

def userAction (w : World) (action : UserAction) (value : UInt32) : World :=
  if su.ops.userAction then w.emit (.userAction action value) else w

def confirmValue (m : Manager) (random : Octets 16) : Except Status (Octets 16) :=
  c1 su.aes m.tk random m.preq m.pres su.config.initiatorAddressType
    su.config.responderAddressType su.config.initiatorAddress su.config.responderAddress

def startConfirmExchange (w : World) (nowUs : ℕ) : World :=
  match randomOctets port 16 w with
  | (w, none) => sendFailed su send w 0x08 nowUs .errorCrypto
  | (w, some random) =>
      let w := w.modify fun m => { m with localRandom := random }
      match confirmValue su w.m w.m.localRandom with
      | .error _ => sendFailed su send w 0x08 nowUs .errorCrypto
      | .ok confirm =>
          let w := w.setState .waitPairingConfirm
          let r := encodeAndSend send w
            (encodeValue128 (.init 17) .pairingConfirm confirm.rev) nowUs
          if r.2 = .ok then r.1 else finish su r.1 .errorProtocol

def a1 : Octets 7 := typedAddress su.config.initiatorAddressType su.config.initiatorAddress

def a2 : Octets 7 := typedAddress su.config.responderAddressType su.config.responderAddress

def localIoCap : Octets 3 :=
  ⟨[su.config.features.authReq, su.config.features.oobDataFlag, su.config.features.ioCapability],
    rfl⟩

def maskKey (size : UInt8) (key : Octets 16) : Octets 16 := key.clear (16 - size.toNat)

def startScStage2 (w : World) (nowUs : ℕ) : World :=
  match f5 su.cmac w.m.dhkey w.m.localRandom w.m.peerRandom (a1 su) (a2 su) with
  | .error _ => sendFailed su send w 0x08 nowUs .errorCrypto
  | .ok (macKey, ltk) =>
      let w := w.modify fun m => { m with macKey, stk := ltk }
      match f6 su.cmac w.m.macKey w.m.localRandom w.m.peerRandom (.zero 16) (localIoCap su)
          (a1 su) (a2 su) with
      | .error _ => sendFailed su send w 0x08 nowUs .errorCrypto
      | .ok check =>
          let w := w.modify fun m => { m with stk := maskKey m.negotiation.encryptionKeySize m.stk }
          let w := w.setState .waitDhkeyCheck
          let r := encodeAndSend send w
            (encodeValue128 (.init 17) .pairingDhkeyCheck check.rev) nowUs
          if r.2 = .ok then r.1 else finish su r.1 .errorProtocol

def startSecureConnections (w : World) (nowUs : ℕ) : World :=
  if w.m.negotiation.association ≠ .justWorks ∧
      w.m.negotiation.association ≠ .numericComparison then
    sendFailed su send w 0x07 nowUs .errorUnsupported
  else if su.cmac.isNone ∨ ¬ su.ops.generatePublicKey ∨ ¬ su.ops.generateDhkey then
    sendFailed su send w 0x07 nowUs .errorUnsupported
  else
    let w := (w.setState .waitLocalPublicKey).arm nowUs
    let w := w.emit .generatePublicKey
    if (port w.calls).status = .ok then w.answered else finish su w.answered .errorCrypto

def randomPasskey (o : Octets 4) : UInt32 :=
  ((o.bytes.getD 0 0).toUInt32 <<< 24 ||| (o.bytes.getD 1 0).toUInt32 <<< 16 |||
    (o.bytes.getD 2 0).toUInt32 <<< 8 ||| (o.bytes.getD 3 0).toUInt32) % 1000000

def startLegacy (w : World) (nowUs : ℕ) : World :=
  match w.m.negotiation.association with
  | .justWorks =>
      startConfirmExchange su port send (w.modify fun m => { m with tk := .zero 16 }) nowUs
  | .passkeyInitiatorDisplays =>
      match randomOctets port 4 w with
      | (w, none) => sendFailed su send w 0x08 nowUs .errorCrypto
      | (w, some o) =>
          let w := setPasskeyTk w (randomPasskey o)
          startConfirmExchange su port send
            (userAction su w .displayPasskey (randomPasskey o)) nowUs
  | .passkeyResponderDisplays | .passkeyBothInput =>
      userAction su (w.setState .waitTk) .requestPasskey 0
  | .oob => userAction su (w.setState .waitTk) .requestOobTk 0
  | .numericComparison => sendFailed su send w 0x07 nowUs .errorUnsupported

def reversedPdu (pdu : Bytes) : Octets 7 :=
  ⟨((pdu ++ List.replicate 7 0).take 7).reverse, by simp⟩

def dropEncKey (n : Negotiation) : Negotiation :=
  { n with
    initiatorKeyDistribution := n.initiatorKeyDistribution &&& ~~~keyDistEncKey
    responderKeyDistribution := n.responderKeyDistribution &&& ~~~keyDistEncKey }

def handlePairingResponse (w : World) (c : Command) (rawPdu : Bytes) (nowUs : ℕ) : World :=
  if w.m.state ≠ .waitPairingResponse then sendFailed su send w 0x0A nowUs .errorProtocol
  else match parsePairingFeatures c with
  | .error _ => sendFailed su send w 0x0A nowUs .errorProtocol
  | .ok response =>
      match negotiatePairing su.config.features response with
      | .error _ => sendFailed su send w 0x0A nowUs .errorProtocol
      | .ok negotiation =>
          let w := w.modify fun m => { m with negotiation, pres := reversedPdu rawPdu }
          if w.m.negotiation.secureConnections then
            let w := w.modify fun m => { m with negotiation := dropEncKey m.negotiation }
            startSecureConnections su port send w nowUs
          else if ((w.m.negotiation.initiatorKeyDistribution |||
              w.m.negotiation.responderKeyDistribution) &&& keyDistLinkKey) ≠ 0 then
            sendFailed su send w 0x07 nowUs .errorUnsupported
          else startLegacy su port send w nowUs

def handleConfirm (w : World) (c : Command) (nowUs : ℕ) : World :=
  if w.m.state ≠ .waitPairingConfirm then sendFailed su send w 0x0A nowUs .errorProtocol
  else match parseValue128 c with
  | .error _ => sendFailed su send w 0x0A nowUs .errorProtocol
  | .ok wire =>
      let w := w.modify fun m => { m with peerConfirm := wire.rev }
      let w := w.setState .waitPairingRandom
      let r := encodeAndSend send w
        (encodeValue128 (.init 17) .pairingRandom w.m.localRandom.rev) nowUs
      if r.2 = .ok then r.1 else finish su r.1 .errorProtocol

def startEncryption (w : World) (nowUs : ℕ) : World :=
  let w := (w.setState .waitEncryption).arm nowUs
  let w := w.emit (.startEncryption w.m.stk w.m.negotiation.encryptionKeySize w.m.negotiation)
  if (port w.calls).status = .ok then w.answered else finish su w.answered .errorEncryption

def handleRandom (w : World) (c : Command) (nowUs : ℕ) : World :=
  if w.m.state ≠ .waitPairingRandom then sendFailed su send w 0x0A nowUs .errorProtocol
  else match parseValue128 c with
  | .error _ => sendFailed su send w 0x0A nowUs .errorProtocol
  | .ok wire =>
      match confirmValue su w.m wire.rev with
      | .error _ => sendFailed su send w 0x08 nowUs .errorCrypto
      | .ok expectedConfirm =>
          if expectedConfirm ≠ w.m.peerConfirm then
            sendFailed su send w 0x04 nowUs .errorConfirm
          else match s1 su.aes w.m.tk wire.rev w.m.localRandom with
          | .error _ => sendFailed su send w 0x08 nowUs .errorCrypto
          | .ok stk =>
              let w := w.modify fun m =>
                { m with stk := maskKey m.negotiation.encryptionKeySize stk }
              startEncryption su port w nowUs

def handleScPublicKey (w : World) (c : Command) (nowUs : ℕ) : World :=
  if w.m.state ≠ .waitPeerPublicKey then sendFailed su send w 0x0A nowUs .errorProtocol
  else match parsePublicKey c with
  | .error _ => sendFailed su send w 0x0A nowUs .errorProtocol
  | .ok (wireX, wireY) =>
      let w := w.modify fun m => { m with peerPublicX := wireX.rev, peerPublicY := wireY.rev }
      if w.m.localPublicX = w.m.peerPublicX then sendFailed su send w 0x0A nowUs .errorProtocol
      else
        let w := (w.setState .waitDhkey).arm nowUs
        let w := w.emit (.generateDhkey w.m.peerPublicX w.m.peerPublicY)
        if (port w.calls).status = .ok then w.answered else finish su w.answered .errorCrypto

def handleScConfirm (w : World) (c : Command) (nowUs : ℕ) : World :=
  if w.m.state ≠ .waitScConfirm then sendFailed su send w 0x0A nowUs .errorProtocol
  else match parseValue128 c with
  | .error _ => sendFailed su send w 0x0A nowUs .errorProtocol
  | .ok wire =>
      let w := w.modify fun m => { m with peerConfirm := wire.rev }
      let w := w.setState .waitScRandom
      let r := encodeAndSend send w
        (encodeValue128 (.init 17) .pairingRandom w.m.localRandom.rev) nowUs
      if r.2 = .ok then r.1 else finish su r.1 .errorProtocol

def handleScRandom (w : World) (c : Command) (nowUs : ℕ) : World :=
  if w.m.state ≠ .waitScRandom then sendFailed su send w 0x0A nowUs .errorProtocol
  else match parseValue128 c with
  | .error _ => sendFailed su send w 0x0A nowUs .errorProtocol
  | .ok wire =>
      let w := w.modify fun m => { m with peerRandom := wire.rev }
      match f4 su.cmac w.m.peerPublicX w.m.localPublicX w.m.peerRandom 0 with
      | .error _ => sendFailed su send w 0x08 nowUs .errorCrypto
      | .ok expected =>
          if expected ≠ w.m.peerConfirm then sendFailed su send w 0x04 nowUs .errorConfirm
          else if w.m.negotiation.association = .numericComparison then
            match g2 su.cmac w.m.localPublicX w.m.peerPublicX w.m.localRandom w.m.peerRandom with
            | .error _ => sendFailed su send w 0x08 nowUs .errorCrypto
            | .ok value =>
                let w := w.modify fun m => { m with numericValue := value % 1000000 }
                let w := w.setState .waitNumericConfirmation
                userAction su w .confirmNumeric w.m.numericValue
          else startScStage2 su send w nowUs

def peerIoCap (m : Manager) : Octets 3 :=
  ⟨(m.pres.bytes.drop 3).take 3, by simp⟩

def handleScDhkeyCheck (w : World) (c : Command) (nowUs : ℕ) : World :=
  if w.m.state ≠ .waitDhkeyCheck then sendFailed su send w 0x0A nowUs .errorProtocol
  else match parseValue128 c with
  | .error _ => sendFailed su send w 0x0A nowUs .errorProtocol
  | .ok wire =>
      let w := w.modify fun m => { m with peerDhkeyCheck := wire.rev }
      match f6 su.cmac w.m.macKey w.m.peerRandom w.m.localRandom (.zero 16) (peerIoCap w.m)
          (a2 su) (a1 su) with
      | .error _ => sendFailed su send w 0x08 nowUs .errorCrypto
      | .ok expected =>
          if expected ≠ w.m.peerDhkeyCheck then sendFailed su send w 0x0B nowUs .errorConfirm
          else startEncryption su port w nowUs

def localKeyPdus (mask : UInt8) (keys : DistributedKeys) : List (Except Status Writer) :=
  (if (mask &&& keyDistEncKey) ≠ 0 then
    [encodeValue128 (.init 17) .encryptionInformation keys.ltk,
      encodeCentralIdentification (.init 17) keys.rand keys.ediv] else []) ++
  (if (mask &&& keyDistIdKey) ≠ 0 then
    [encodeValue128 (.init 17) .identityInformation keys.irk,
      encodeIdentityAddress (.init 17) keys.identityAddressType keys.identityAddress] else []) ++
  (if (mask &&& keyDistSignKey) ≠ 0 then
    [encodeValue128 (.init 17) .signingInformation keys.csrk] else [])

def sendKeyPdus (w : World) (nowUs : ℕ) : List (Except Status Writer) → World × Bool
  | [] => (w, true)
  | pdu :: rest =>
      let r := encodeAndSend send w pdu nowUs
      if r.2 = .ok then sendKeyPdus r.1 nowUs rest else (r.1, false)

def fetchLocalKeys (w : World) (mask : UInt8) : World × Bool :=
  let w := w.modify fun m => { m with localKeys := .zero }
  if mask = 0 then (w, true)
  else if !su.ops.getLocalKeys then (w, false)
  else
    let reply := port w.calls
    let w := (w.emit (.getLocalKeys mask)).answered
    if reply.status ≠ .ok then (w, false)
    else
      let w := w.modify fun m => { m with localKeys := reply.keys mask }
      (w, (w.m.localKeys.keyMask &&& mask) = mask)

def sendKeyDistribution (w : World) (nowUs : ℕ) : World × Bool :=
  let mask := w.m.negotiation.initiatorKeyDistribution
  let r := fetchLocalKeys su port w mask
  if r.2 then sendKeyPdus send r.1 nowUs (localKeyPdus mask r.1.m.localKeys) else (r.1, false)

def finishKeyDistribution (w : World) (nowUs : ℕ) : World :=
  let r := sendKeyDistribution su port send w nowUs
  if r.2 then
    let w := if su.ops.keysComplete then r.1.emit (.keysComplete r.1.m.peerKeys r.1.m.localKeys)
      else r.1
    finish su w .ok
  else finish su r.1 .errorCrypto

def outOfOrder (m : Manager) (code : Code) : Bool :=
  let expected := m.negotiation.responderKeyDistribution
  if (expected &&& keyDistEncKey) != 0 && (m.peerKeysCompleteMask &&& keyDistEncKey) == 0 then
    (!m.peerLtkReceived && code != .encryptionInformation) ||
      (m.peerLtkReceived && code != .centralIdentification)
  else if (expected &&& keyDistIdKey) != 0 && (m.peerKeysCompleteMask &&& keyDistIdKey) == 0 then
    (!m.peerIrkReceived && code != .identityInformation) ||
      (m.peerIrkReceived && code != .identityAddressInformation)
  else
    (expected &&& keyDistSignKey) != 0 && (m.peerKeysCompleteMask &&& keyDistSignKey) == 0 &&
      code != .signingInformation

def storeKey (m : Manager) (c : Command) : Option Manager :=
  let expected := m.negotiation.responderKeyDistribution
  match c.code with
  | .encryptionInformation =>
      if (expected &&& keyDistEncKey) = 0 ∨ m.peerLtkReceived then none
      else match parseValue128 c with
      | .error _ => none
      | .ok value =>
          some { m with peerKeys := { m.peerKeys with ltk := value }, peerLtkReceived := true }
  | .centralIdentification =>
      if ¬ m.peerLtkReceived ∨ (m.peerKeysCompleteMask &&& keyDistEncKey) ≠ 0 then none
      else match parseCentralIdentification c with
      | .error _ => none
      | .ok central =>
          some { m with
            peerKeys := { m.peerKeys with
              rand := central.rand, ediv := central.ediv
              keyMask := m.peerKeys.keyMask ||| keyDistEncKey }
            peerKeysCompleteMask := m.peerKeysCompleteMask ||| keyDistEncKey }
  | .identityInformation =>
      if (expected &&& keyDistIdKey) = 0 ∨ m.peerIrkReceived then none
      else match parseValue128 c with
      | .error _ => none
      | .ok value =>
          some { m with peerKeys := { m.peerKeys with irk := value }, peerIrkReceived := true }
  | .identityAddressInformation =>
      if ¬ m.peerIrkReceived ∨ (m.peerKeysCompleteMask &&& keyDistIdKey) ≠ 0 then none
      else match parseIdentityAddress c with
      | .error _ => none
      | .ok identity =>
          some { m with
            peerKeys := { m.peerKeys with
              identityAddressType := identity.addressType, identityAddress := identity.address
              keyMask := m.peerKeys.keyMask ||| keyDistIdKey }
            peerKeysCompleteMask := m.peerKeysCompleteMask ||| keyDistIdKey }
  | .signingInformation =>
      if (expected &&& keyDistSignKey) = 0 ∨ (m.peerKeysCompleteMask &&& keyDistSignKey) ≠ 0 then
        none
      else match parseValue128 c with
      | .error _ => none
      | .ok value =>
          some { m with
            peerKeys := { m.peerKeys with
              csrk := value, keyMask := m.peerKeys.keyMask ||| keyDistSignKey }
            peerKeysCompleteMask := m.peerKeysCompleteMask ||| keyDistSignKey }
  | _ => none

def handleDistributedKey (w : World) (c : Command) (nowUs : ℕ) : World :=
  if w.m.state ≠ .waitKeyDistribution ∨ outOfOrder w.m c.code then
    sendFailed su send w 0x0A nowUs .errorProtocol
  else match storeKey w.m c with
  | none => sendFailed su send w 0x0A nowUs .errorProtocol
  | some m =>
      let expected := m.negotiation.responderKeyDistribution
      let w := { w with m }
      if (m.peerKeysCompleteMask &&& expected) = expected then
        finishKeyDistribution su port send w nowUs
      else w

def startable (m : Manager) : Bool :=
  su.ops.send && su.ops.random && su.ops.startEncryption && su.aes.isSome &&
    m.state == .idle && pairingFeaturesValid su.config.features

def start (w : World) (nowUs : ℕ) : World × Status :=
  if ¬ (su.ops.send ∧ su.ops.random ∧ su.ops.startEncryption ∧ su.aes.isSome) ∨
      w.m.state ≠ .idle then
    (w.emit (.startReturned .invalidArgument), .invalidArgument)
  else match encodePairingFeatures (.init 7) .pairingRequest su.config.features with
  | .error _ => (w.emit (.startReturned .invalidArgument), .invalidArgument)
  | .ok wr =>
      let w := w.emit .started
      let w := w.modify fun m => { m with preq := reversedPdu wr.data }
      let w := w.setState .waitPairingResponse
      let r := sendPdu send w wr.data nowUs
      if r.2 ≠ .ok then ((r.1.setState .idle).emit (.startReturned r.2), r.2)
      else (r.1.emit (.startReturned .ok), .ok)

def dispatch (w : World) (c : Command) (rawPdu : Bytes) (nowUs : ℕ) : World :=
  match c.code with
  | .pairingResponse => handlePairingResponse su port send w c rawPdu nowUs
  | .pairingPublicKey => handleScPublicKey su port send w c nowUs
  | .pairingConfirm =>
      if w.m.state = .waitScConfirm then handleScConfirm su send w c nowUs
      else handleConfirm su send w c nowUs
  | .pairingRandom =>
      if w.m.state = .waitScRandom then handleScRandom su send w c nowUs
      else handleRandom su port send w c nowUs
  | .pairingDhkeyCheck => handleScDhkeyCheck su port send w c nowUs
  | .encryptionInformation | .centralIdentification | .identityInformation
  | .identityAddressInformation | .signingInformation =>
      handleDistributedKey su port send w c nowUs
  | .pairingFailed => finish su w .errorProtocol
  | .pairingRequest | .securityRequest | .pairingKeypressNotification =>
      sendFailed su send w 0x07 nowUs .errorProtocol

def onPdu (w : World) (pdu : Bytes) (nowUs : ℕ) : World :=
  if w.m.state = .idle ∨ w.m.state = .complete ∨ w.m.state = .failed then w.emit (.ignored pdu)
  else
    let w := w.emit (.received pdu)
    match parseCommand pdu with
    | .error _ => sendFailed su send w 0x0A nowUs .errorProtocol
    | .ok c => dispatch su port send (w.arm nowUs) c pdu nowUs

def unlessFailed (w : World) : World × Status :=
  (w, if w.m.state = .failed then .invalidArgument else .ok)

def providePasskey (w : World) (passkey : UInt32) (nowUs : ℕ) : World × Status :=
  if w.m.state ≠ .waitTk ∨ passkey > 999999 ∨ w.m.negotiation.association = .oob then
    (w, .invalidArgument)
  else unlessFailed (startConfirmExchange su port send (setPasskeyTk w passkey) nowUs)

def provideOobTk (w : World) (tk : Option (Octets 16)) (nowUs : ℕ) : World × Status :=
  match tk with
  | none => (w, .invalidArgument)
  | some tk =>
      if w.m.state ≠ .waitTk ∨ w.m.negotiation.association ≠ .oob then (w, .invalidArgument)
      else unlessFailed
        (startConfirmExchange su port send (w.modify fun m => { m with tk }) nowUs)

def confirmNumeric (w : World) (accepted : Bool) (nowUs : ℕ) : World × Status :=
  if w.m.state ≠ .waitNumericConfirmation then (w, .invalidArgument)
  else if !accepted then (sendFailed su send w 0x0C nowUs .errorConfirm, .ok)
  else unlessFailed (startScStage2 su send w nowUs)

def onLocalPublicKey (w : World) (success : Bool) (x y : Option (Octets 32)) (nowUs : ℕ) :
    World :=
  if w.m.state ≠ .waitLocalPublicKey then w
  else match success, x, y with
  | true, some x, some y =>
      let w := w.modify fun m => { m with localPublicX := x, localPublicY := y }
      let w := w.setState .waitPeerPublicKey
      let r := encodeAndSend send w (encodePublicKey (.init 65) x.rev y.rev) nowUs
      if r.2 = .ok then r.1 else finish su r.1 .errorProtocol
  | _, _, _ => sendFailed su send w 0x08 nowUs .errorCrypto

def onDhkey (w : World) (success : Bool) (dhkey : Option (Octets 32)) (nowUs : ℕ) : World :=
  if w.m.state ≠ .waitDhkey then w
  else match success, dhkey with
  | true, some dhkey =>
      match randomOctets port 16 w with
      | (w, none) => sendFailed su send w 0x08 nowUs .errorCrypto
      | (w, some random) =>
          let w := w.modify fun m => { m with localRandom := random, dhkey }
          (w.setState .waitScConfirm).arm nowUs
  | _, _ => sendFailed su send w 0x08 nowUs .errorCrypto

def initialPeerKeys (m : Manager) : DistributedKeys :=
  if m.negotiation.secureConnections then
    { DistributedKeys.zero with keyMask := keyDistEncKey, ltk := m.stk } else .zero

def onEncryptionChanged (w : World) (enabled : Bool) (nowUs : ℕ) : World :=
  if w.m.state ≠ .waitEncryption then w
  else if !enabled then finish su w .errorEncryption
  else
    let w := w.modify fun m =>
      { m with
        peerKeys := initialPeerKeys m
        peerKeysCompleteMask := 0
        peerLtkReceived := false
        peerIrkReceived := false }
    if w.m.negotiation.responderKeyDistribution = 0 then finishKeyDistribution su port send w nowUs
    else (w.setState .waitKeyDistribution).arm nowUs

def tick (w : World) (nowUs : ℕ) : World :=
  if w.m.deadlineUs ≠ 0 ∧ nowUs ≥ w.m.deadlineUs ∧ w.m.state ≠ .complete ∧ w.m.state ≠ .failed then
    finish su w .errorTimeout
  else w

end Bluzing.Smp
