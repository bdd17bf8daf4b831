import Bluzing.Lib.Octets
import Bluzing.Core.Buffer

/-! The Security Manager PDU codec (`protocols/smp/smp.c`). -/
namespace Bluzing.Smp

inductive Code where
  | pairingRequest
  | pairingResponse
  | pairingConfirm
  | pairingRandom
  | pairingFailed
  | encryptionInformation
  | centralIdentification
  | identityInformation
  | identityAddressInformation
  | signingInformation
  | securityRequest
  | pairingPublicKey
  | pairingDhkeyCheck
  | pairingKeypressNotification
  deriving DecidableEq

def Code.octet : Code → UInt8
  | .pairingRequest => 0x01
  | .pairingResponse => 0x02
  | .pairingConfirm => 0x03
  | .pairingRandom => 0x04
  | .pairingFailed => 0x05
  | .encryptionInformation => 0x06
  | .centralIdentification => 0x07
  | .identityInformation => 0x08
  | .identityAddressInformation => 0x09
  | .signingInformation => 0x0A
  | .securityRequest => 0x0B
  | .pairingPublicKey => 0x0C
  | .pairingDhkeyCheck => 0x0D
  | .pairingKeypressNotification => 0x0E

def allCodes : List Code :=
  [.pairingRequest, .pairingResponse, .pairingConfirm, .pairingRandom, .pairingFailed,
    .encryptionInformation, .centralIdentification, .identityInformation,
    .identityAddressInformation, .signingInformation, .securityRequest, .pairingPublicKey,
    .pairingDhkeyCheck, .pairingKeypressNotification]

def Code.ofOctet? (o : UInt8) : Option Code := allCodes.find? fun c => c.octet = o

@[simp] lemma Code.ofOctet?_octet (c : Code) : Code.ofOctet? c.octet = some c := by
  cases c <;> rfl

lemma Code.ofOctet?_some {o : UInt8} {c : Code} (h : Code.ofOctet? o = some c) : c.octet = o := by
  simpa using List.find?_some h

def Code.dataLen : Code → ℕ
  | .pairingRequest | .pairingResponse => 6
  | .pairingConfirm | .pairingRandom | .encryptionInformation | .identityInformation
  | .signingInformation | .pairingDhkeyCheck => 16
  | .pairingFailed | .securityRequest | .pairingKeypressNotification => 1
  | .centralIdentification => 10
  | .identityAddressInformation => 7
  | .pairingPublicKey => 64

def commandDataLen (code : UInt8) : Option ℕ := (Code.ofOctet? code).map Code.dataLen

def authReqBonding : UInt8 := 0x01
def authReqMitm : UInt8 := 0x04
def authReqSc : UInt8 := 0x08
def authReqValidMask : UInt8 := 0x3D

def keyDistEncKey : UInt8 := 0x01
def keyDistIdKey : UInt8 := 0x02
def keyDistSignKey : UInt8 := 0x04
def keyDistLinkKey : UInt8 := 0x08
def keyDistValidMask : UInt8 := 0x0F

structure PairingFeatures where
  ioCapability : UInt8
  oobDataFlag : UInt8
  authReq : UInt8
  maxEncryptionKeySize : UInt8
  initiatorKeyDistribution : UInt8
  responderKeyDistribution : UInt8
  deriving DecidableEq

def pairingFeaturesValid (f : PairingFeatures) : Bool :=
  f.ioCapability ≤ 0x04 && f.oobDataFlag ≤ 0x01 &&
    (f.authReq &&& ~~~authReqValidMask) == 0 && (f.authReq &&& 0x03) ≤ authReqBonding &&
    f.maxEncryptionKeySize ≥ 7 && f.maxEncryptionKeySize ≤ 16 &&
    (f.initiatorKeyDistribution &&& ~~~keyDistValidMask) == 0 &&
    (f.responderKeyDistribution &&& ~~~keyDistValidMask) == 0

structure Command where
  code : Code
  data : Bytes
  deriving DecidableEq

def featuresOf (data : Bytes) : PairingFeatures where
  ioCapability := data.getD 0 0
  oobDataFlag := data.getD 1 0
  authReq := data.getD 2 0
  maxEncryptionKeySize := data.getD 3 0
  initiatorKeyDistribution := data.getD 4 0
  responderKeyDistribution := data.getD 5 0

def fieldsValid (code : Code) (data : Bytes) : Bool :=
  match code with
  | .pairingFailed => !(data.getD 0 0 < 0x01 || data.getD 0 0 > 0x10)
  | .pairingRequest | .pairingResponse => pairingFeaturesValid (featuresOf data)
  | .securityRequest =>
      !((data.getD 0 0 &&& ~~~authReqValidMask) != 0 || (data.getD 0 0 &&& 0x03) > 1)
  | .pairingKeypressNotification => !(data.getD 0 0 > 4)
  | .identityAddressInformation => !(data.getD 0 0 > 1)
  | _ => true

def parseCommand : Bytes → Except Status Command
  | [] => .error .invalidArgument
  | o :: data =>
      match Code.ofOctet? o with
      | none => .error .invalidArgument
      | some code =>
          if data.length = code.dataLen ∧ fieldsValid code data then .ok ⟨code, data⟩
          else .error .invalidArgument

lemma parseCommand_ok {pdu : Bytes} {c : Command} (h : parseCommand pdu = .ok c) :
    pdu = c.code.octet :: c.data ∧ c.data.length = c.code.dataLen ∧
      fieldsValid c.code c.data = true := by
  cases pdu with
  | nil => simp [parseCommand] at h
  | cons o data =>
    simp only [parseCommand] at h
    split at h
    · cases h
    next code hcode =>
      split at h
      next hv =>
        cases h
        exact ⟨by rw [Code.ofOctet?_some hcode], hv.1, hv.2⟩
      · cases h

lemma parseCommand_octet {c : Code} {data : Bytes} (hlen : data.length = c.dataLen)
    (hv : fieldsValid c data = true) : parseCommand (c.octet :: data) = .ok ⟨c, data⟩ := by
  simp [parseCommand, hlen, hv]

def encodePairingFeatures (w : Writer) (code : Code) (f : PairingFeatures) :
    Except Status Writer :=
  if (code ≠ .pairingRequest ∧ code ≠ .pairingResponse) ∨ ¬ pairingFeaturesValid f then
    .error .invalidArgument
  else do
    let w ← w.writeU8 code.octet
    let w ← w.writeU8 f.ioCapability
    let w ← w.writeU8 f.oobDataFlag
    let w ← w.writeU8 f.authReq
    let w ← w.writeU8 f.maxEncryptionKeySize
    let w ← w.writeU8 f.initiatorKeyDistribution
    w.writeU8 f.responderKeyDistribution

def isValue128 (code : Code) : Bool := code.dataLen == 16

def encodeValue128 (w : Writer) (code : Code) (value : Octets 16) : Except Status Writer :=
  if !isValue128 code then .error .invalidArgument
  else do
    let w ← w.writeU8 code.octet
    w.writeBytes value.bytes

def encodeCentralIdentification (w : Writer) (rand : Octets 8) (ediv : UInt16) :
    Except Status Writer := do
  let w ← w.writeU8 Code.centralIdentification.octet
  let w ← w.writeBytes rand.bytes
  w.writeLe16 ediv

def encodeIdentityAddress (w : Writer) (addressType : UInt8) (address : Octets 6) :
    Except Status Writer :=
  if addressType > 1 then .error .invalidArgument
  else do
    let w ← w.writeU8 Code.identityAddressInformation.octet
    let w ← w.writeU8 addressType
    w.writeBytes address.bytes

def encodePublicKey (w : Writer) (x y : Octets 32) : Except Status Writer := do
  let w ← w.writeU8 Code.pairingPublicKey.octet
  let w ← w.writeBytes x.bytes
  w.writeBytes y.bytes

def encodeU8Command (w : Writer) (code : Code) (value : UInt8) : Except Status Writer :=
  match parseCommand [code.octet, value] with
  | .error _ => .error .invalidArgument
  | .ok _ => do
      let w ← w.writeU8 code.octet
      w.writeU8 value

def parsePairingFeatures (c : Command) : Except Status PairingFeatures :=
  if (c.code = .pairingRequest ∨ c.code = .pairingResponse) ∧ c.data.length = 6 ∧
      pairingFeaturesValid (featuresOf c.data) then
    .ok (featuresOf c.data)
  else .error .invalidArgument

def parseValue128 (c : Command) : Except Status (Octets 16) :=
  if h : isValue128 c.code = true ∧ c.data.length = 16 then .ok ⟨c.data, h.2⟩
  else .error .invalidArgument

structure CentralIdentification where
  rand : Octets 8
  ediv : UInt16
  deriving DecidableEq

def parseCentralIdentification (c : Command) : Except Status CentralIdentification :=
  if h : c.code = .centralIdentification ∧ c.data.length = 10 then
    .ok ⟨⟨c.data.take 8, by simp [h.2]⟩, readLe16 (c.data.getD 8 0) (c.data.getD 9 0)⟩
  else .error .invalidArgument

structure IdentityAddress where
  addressType : UInt8
  address : Octets 6
  deriving DecidableEq

def parseIdentityAddress (c : Command) : Except Status IdentityAddress :=
  if h : c.code = .identityAddressInformation ∧ c.data.length = 7 ∧ ¬ c.data.getD 0 0 > 1 then
    .ok ⟨c.data.getD 0 0, ⟨c.data.drop 1, by simp [h.2.1]⟩⟩
  else .error .invalidArgument

def parsePublicKey (c : Command) : Except Status (Octets 32 × Octets 32) :=
  if h : c.code = .pairingPublicKey ∧ c.data.length = 64 then
    .ok (⟨c.data.take 32, by simp [h.2]⟩, ⟨c.data.drop 32, by simp [h.2]⟩)
  else .error .invalidArgument

end Bluzing.Smp
