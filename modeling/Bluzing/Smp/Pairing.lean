import Bluzing.Smp.Codec

/-! Feature negotiation and the choice of the association method (`core/security/smp_pairing.c`). -/
namespace Bluzing.Smp

inductive Association where
  | justWorks
  | oob
  | numericComparison
  | passkeyInitiatorDisplays
  | passkeyResponderDisplays
  | passkeyBothInput
  deriving DecidableEq, Inhabited

structure Negotiation where
  secureConnections : Bool
  bonding : Bool
  mitmRequested : Bool
  encryptionKeySize : UInt8
  initiatorKeyDistribution : UInt8
  responderKeyDistribution : UInt8
  association : Association
  deriving DecidableEq, Inhabited

def featuresValid (f : PairingFeatures) : Bool :=
  f.ioCapability ≤ 4 && f.oobDataFlag ≤ 1 &&
    (f.authReq &&& ~~~authReqValidMask) == 0 && (f.authReq &&& 0x03) ≤ authReqBonding &&
    f.maxEncryptionKeySize ≥ 7 && f.maxEncryptionKeySize ≤ 16 &&
    (f.initiatorKeyDistribution &&& ~~~keyDistValidMask) == 0 &&
    (f.responderKeyDistribution &&& ~~~keyDistValidMask) == 0

@[simp] lemma featuresValid_eq (f : PairingFeatures) : featuresValid f = pairingFeaturesValid f :=
  rfl

def hasYesNo (io : UInt8) : Bool := io == 0x01 || io == 0x04

def ioAssociation (initiator responder : UInt8) (secureConnections : Bool) : Association :=
  if secureConnections && hasYesNo initiator && hasYesNo responder then .numericComparison
  else if initiator == 0x03 || responder == 0x03 then .justWorks
  -- the nested tests of the source fall through to the next one when no row matches
  else if initiator == 0x02 && responder == 0x02 then .passkeyBothInput
  else if initiator == 0x02 && (responder == 0x00 || responder == 0x01 || responder == 0x04) then
    .passkeyResponderDisplays
  else if responder == 0x02 && (initiator == 0x00 || initiator == 0x01 || initiator == 0x04) then
    .passkeyInitiatorDisplays
  else .justWorks

def oobSelected (secureConnections : Bool) (request response : PairingFeatures) : Bool :=
  (secureConnections && (request.oobDataFlag != 0 || response.oobDataFlag != 0)) ||
    (!secureConnections && request.oobDataFlag != 0 && response.oobDataFlag != 0)

def negotiatePairing (request response : PairingFeatures) : Except Status Negotiation :=
  if !featuresValid request || !featuresValid response then .error .invalidArgument
  else if (response.initiatorKeyDistribution &&& ~~~request.initiatorKeyDistribution) != 0 ||
      (response.responderKeyDistribution &&& ~~~request.responderKeyDistribution) != 0 then
    .error .invalidArgument
  else
    let secureConnections := (request.authReq &&& response.authReq &&& authReqSc) != 0
    let mitmRequested :=
      (request.authReq &&& authReqMitm) != 0 || (response.authReq &&& authReqMitm) != 0
    .ok {
      secureConnections
      bonding := (request.authReq &&& response.authReq &&& authReqBonding) != 0
      mitmRequested
      encryptionKeySize :=
        if request.maxEncryptionKeySize < response.maxEncryptionKeySize then
          request.maxEncryptionKeySize else response.maxEncryptionKeySize
      initiatorKeyDistribution := response.initiatorKeyDistribution
      responderKeyDistribution := response.responderKeyDistribution
      association :=
        if oobSelected secureConnections request response then .oob
        else if !mitmRequested then .justWorks
        else ioAssociation request.ioCapability response.ioCapability secureConnections }

variable {request response : PairingFeatures} {n : Negotiation}

lemma negotiatePairing_ok (h : negotiatePairing request response = .ok n) :
    pairingFeaturesValid request = true ∧ pairingFeaturesValid response = true := by
  unfold negotiatePairing at h
  split at h
  · cases h
  · next hv =>
    simpa only [Bool.or_eq_true, Bool.not_eq_true', not_or, Bool.not_eq_false, featuresValid_eq]
      using hv

lemma negotiatePairing_method (h : negotiatePairing request response = .ok n) :
    n.secureConnections = ((request.authReq &&& response.authReq &&& authReqSc) != 0) ∧
    n.mitmRequested =
      ((request.authReq &&& authReqMitm) != 0 || (response.authReq &&& authReqMitm) != 0) ∧
    n.association =
      if oobSelected n.secureConnections request response then .oob
      else if !n.mitmRequested then .justWorks
      else ioAssociation request.ioCapability response.ioCapability n.secureConnections := by
  unfold negotiatePairing at h
  split at h
  · cases h
  split at h
  · cases h
  cases h
  exact ⟨rfl, rfl, rfl⟩

lemma negotiatePairing_masks (h : negotiatePairing request response = .ok n) :
    n.initiatorKeyDistribution = response.initiatorKeyDistribution ∧
    n.responderKeyDistribution = response.responderKeyDistribution := by
  unfold negotiatePairing at h
  split at h
  · cases h
  split at h
  · cases h
  cases h
  exact ⟨rfl, rfl⟩

lemma negotiatePairing_numeric
    (h : negotiatePairing request response = .ok n) (ha : n.association = .numericComparison) :
    n.secureConnections = true := by
  obtain ⟨-, -, hassoc⟩ := negotiatePairing_method h
  rw [hassoc] at ha
  by_contra hsc
  simp only [Bool.not_eq_true] at hsc
  simp only [hsc, ioAssociation, Bool.false_and, Bool.false_eq_true, ↓reduceIte] at ha
  split_ifs at ha

lemma pairingFeaturesValid_keySize {f : PairingFeatures} (h : pairingFeaturesValid f = true) :
    7 ≤ f.maxEncryptionKeySize.toNat ∧ f.maxEncryptionKeySize.toNat ≤ 16 := by
  simp only [pairingFeaturesValid, Bool.and_eq_true, decide_eq_true_eq] at h
  obtain ⟨⟨⟨⟨-, h7⟩, h16⟩, -⟩, -⟩ := h
  exact ⟨UInt8.le_iff_toNat_le.mp h7, UInt8.le_iff_toNat_le.mp h16⟩

lemma negotiatePairing_keySize (h : negotiatePairing request response = .ok n) :
    7 ≤ n.encryptionKeySize.toNat ∧ n.encryptionKeySize.toNat ≤ 16 := by
  obtain ⟨hq, hr⟩ := negotiatePairing_ok h
  have hsize : n.encryptionKeySize = request.maxEncryptionKeySize ∨
      n.encryptionKeySize = response.maxEncryptionKeySize := by
    unfold negotiatePairing at h
    split at h
    · cases h
    split at h
    · cases h
    cases h
    dsimp only
    split
    · exact .inl rfl
    · exact .inr rfl
  rcases hsize with hs | hs <;> rw [hs]
  · exact pairingFeaturesValid_keySize hq
  · exact pairingFeaturesValid_keySize hr

end Bluzing.Smp
