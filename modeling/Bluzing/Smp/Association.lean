import Bluzing.Smp.VerifiedRuns

/-! Protection against a man in the middle. -/
namespace Bluzing.Smp

def hasKeyboard (io : UInt8) : Bool := io == 0x02 || io == 0x04

def secureOffered (request response : PairingFeatures) : Bool :=
  (request.authReq &&& response.authReq &&& authReqSc) != 0

def comparesNumbers (request response : PairingFeatures) : Bool :=
  secureOffered request response && hasYesNo request.ioCapability &&
    hasYesNo response.ioCapability

structure ProtectionDue (request response : PairingFeatures) : Prop where
  requested : (request.authReq &&& authReqMitm) ≠ 0 ∨ (response.authReq &&& authReqMitm) ≠ 0
  initiator : request.ioCapability ≠ 0x03
  responder : response.ioCapability ≠ 0x03
  notOob : oobSelected (secureOffered request response) request response = false
  permitted : hasKeyboard request.ioCapability = true ∨ hasKeyboard response.ioCapability = true ∨
    comparesNumbers request response = true

def protectedRow (request response : PairingFeatures) : Prop :=
  request.ioCapability = 0x02 ∨ response.ioCapability = 0x02 ∨
    comparesNumbers request response = true

lemma pairingFeaturesValid_io {f : PairingFeatures} (h : pairingFeaturesValid f = true) :
    f.ioCapability ≤ 0x04 := by
  simp only [pairingFeaturesValid, Bool.and_eq_true, decide_eq_true_eq] at h
  exact h.1.1.1.1.1.1.1

lemma ioCapability_cases {io : UInt8} (h : io ≤ 0x04) :
    io = 0x00 ∨ io = 0x01 ∨ io = 0x02 ∨ io = 0x03 ∨ io = 0x04 := by
  have hn : io.toNat ≤ 4 := UInt8.le_iff_toNat_le.mp h
  simp only [← UInt8.toNat_inj, UInt8.reduceToNat]
  omega

lemma ioAssociation_justWorks_iff {i r : UInt8} (hi : i ≤ 0x04) (hr : r ≤ 0x04)
    (hi3 : i ≠ 0x03) (hr3 : r ≠ 0x03) (sc : Bool) :
    ioAssociation i r sc = .justWorks ↔
      ¬ (i = 0x02 ∨ r = 0x02 ∨ (sc && hasYesNo i && hasYesNo r) = true) := by
  rcases ioCapability_cases hi with rfl | rfl | rfl | rfl | rfl <;>
    rcases ioCapability_cases hr with rfl | rfl | rfl | rfl | rfl <;>
      cases sc <;> revert hi3 hr3 <;> decide

lemma negotiatePairing_justWorks_iff {request response : PairingFeatures} {n : Negotiation}
    (hn : negotiatePairing request response = .ok n) (hp : ProtectionDue request response) :
    n.association = .justWorks ↔ ¬ protectedRow request response := by
  obtain ⟨hq, hr⟩ := negotiatePairing_ok hn
  obtain ⟨hsc, hmitm, hassoc⟩ := negotiatePairing_method hn
  have hmitm' : n.mitmRequested = true := by
    rw [hmitm, Bool.or_eq_true, bne_iff_ne, bne_iff_ne]
    exact hp.requested
  have hsc' : n.secureConnections = secureOffered request response := hsc
  have hoob := hp.notOob
  rw [hassoc, hsc', hmitm', if_neg (by rw [hoob]; exact Bool.false_ne_true), Bool.not_true,
    if_neg Bool.false_ne_true]
  exact ioAssociation_justWorks_iff (pairingFeaturesValid_io hq) (pairingFeaturesValid_io hr)
    hp.initiator hp.responder _

/-- Whenever encryption is started in a run whose peer has the features `response`, and protection
was due, the association is Just Works exactly outside the protected rows. -/
theorem run_downgrade_iff (su : Setup) (port : ℕ → Reply) (n : ℕ) (inputs : List Input)
    {newer older : List Event} {key : Octets 16} {size : UInt8} {negotiation : Negotiation}
    (hh : (run su port n inputs).history =
      newer ++ .startEncryption key size negotiation :: older)
    (response : PairingFeatures)
    (hpeer : ∀ f, .received (responsePdu f) ∈ currentRun older → f = response)
    (hp : ProtectionDue su.config.features response) :
    negotiation.association = .justWorks ↔ ¬ protectedRow su.config.features response := by
  obtain ⟨hv, -⟩ := (run_sound su port n inputs).past newer _ older hh
  obtain ⟨f, negotiated, hmem, hn, ha⟩ := hv.response
  obtain rfl := hpeer f hmem
  rw [ha, agreed_association]
  exact negotiatePairing_justWorks_iff hn hp

/-! Legacy runs in which both sides ask for protection. -/

def mitmFeatures (io : UInt8) : PairingFeatures := ⟨io, 0, 0x05, 16, 0, 0⟩

def mitmSetup (io : UInt8) : Setup :=
  { plainSetup with config := ⟨mitmFeatures io, 0, 0, .zero 6, .zero 6⟩ }

def mitmInputs (initiator responder : UInt8) (calls : List Call) : List Input :=
  [.call .start 0, .pdu (responsePdu (mitmFeatures responder)) 1] ++ calls.map (.call · 2) ++
    [.pdu [0x03, 0, 0, 0x01, initiator, 0, 5, 16, 0, 0, 0x02, responder, 0, 5, 16, 0, 0] 3,
      .pdu (0x04 :: List.replicate 16 0) 4]

def Event.respondsWith (response : PairingFeatures) : Event → Bool
  | .received (o :: data) => o != 0x02 || featuresOf data == response
  | _ => true

lemma respondsWith_unique {response : PairingFeatures} {run : List Event}
    (h : ∀ e ∈ run, e.respondsWith response = true) (f : PairingFeatures)
    (hf : .received (responsePdu f) ∈ run) : f = response := by
  have hr : (0x02 != 0x02 || featuresOf (responsePdu f).tail == response) = true := h _ hf
  simpa [responsePdu, featuresOf] using hr

theorem keyboardOnly_protected :
    ∃ newer key size negotiation older,
      (run (mitmSetup 0x02) (uniformPort .ok) 0
        (mitmInputs 0x02 0x04 [.providePasskey 0])).history =
          newer ++ .startEncryption key size negotiation :: older ∧
      ¬ negotiation.association = .justWorks := by
  have hh : (run (mitmSetup 0x02) (uniformPort .ok) 0
      (mitmInputs 0x02 0x04 [.providePasskey 0])).history =
        [] ++ .startEncryption (.zero 16) 16 ⟨false, true, true, 16, 0, 0,
          .passkeyResponderDisplays⟩ :: (run (mitmSetup 0x02) (uniformPort .ok) 0
            (mitmInputs 0x02 0x04 [.providePasskey 0])).history.tail := by
    decide +kernel
  refine ⟨_, _, _, _, _, hh, ?_⟩
  have hiff := run_downgrade_iff _ _ _ _ hh (mitmFeatures 0x04)
    (respondsWith_unique (by decide +kernel))
    ⟨by decide, by decide, by decide, by decide, by decide⟩
  exact fun ha => hiff.mp ha (.inl rfl)

/-- KeyboardDisplay against DisplayOnly: protection is due, and encryption is started under Just
Works. -/
theorem keyboardDisplay_downgraded :
    ProtectionDue (mitmSetup 0x04).config.features (mitmFeatures 0x00) ∧
    Event.startEncryption (.zero 16) 16 ⟨false, true, true, 16, 0, 0, .justWorks⟩ ∈
      (run (mitmSetup 0x04) (uniformPort .ok) 0 (mitmInputs 0x04 0x00 [])).history := by
  refine ⟨⟨by decide, by decide, by decide, by decide, by decide⟩, ?_⟩
  decide +kernel

end Bluzing.Smp
