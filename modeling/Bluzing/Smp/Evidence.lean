import Bluzing.Lib.History
import Bluzing.Smp.Deadline

/-! What must have happened in a pairing run before encryption may be started, and what each state
of the manager records of it. -/
namespace Bluzing.Smp

def Event.opensRun : Event → Bool
  | .started => true
  | _ => false

def currentRun (h : List Event) : List Event := since Event.opensRun h

lemma currentRun_append {newer h : List Event} (hn : ∀ e ∈ newer, e.opensRun = false) :
    currentRun (newer ++ h) = newer ++ currentRun h :=
  since_append hn

def peerPdu (code : Code) (v : Octets 16) : Event := .received (code.octet :: v.rev.bytes)

def ownPdu (code : Code) (v : Octets 16) : Event := .sent (code.octet :: v.rev.bytes)

inductive TkSource : Association → Octets 16 → List Event → Prop
  | justWorks : TkSource .justWorks (.zero 16) []
  | displayed (o : Octets 4) :
      TkSource .passkeyInitiatorDisplays (passkeyTk (randomPasskey o)) [.random o.bytes]
  | entered {association} (passkey : UInt32)
      (ha : association = .passkeyResponderDisplays ∨ association = .passkeyBothInput) :
      TkSource association (passkeyTk passkey) [.called (.providePasskey passkey)]
  | oob (tk : Octets 16) : TkSource .oob tk [.called (.provideOobTk (some tk))]

structure LegacyRun where
  response : PairingFeatures
  source : List Event
  tk : Octets 16
  localRandom : Octets 16
  peerConfirm : Octets 16

namespace LegacyRun
variable (v : LegacyRun)

def tkTrace : List Event := v.source ++ [.received (responsePdu v.response)]

def confirmTrace : List Event := .random v.localRandom.bytes :: v.tkTrace

def randomTrace : List Event :=
  ownPdu .pairingRandom v.localRandom :: peerPdu .pairingConfirm v.peerConfirm :: v.confirmTrace

end LegacyRun

def acceptance (association : Association) : List Event :=
  if association = .numericComparison then [.called (.confirmNumeric true)] else []

structure ScRun where
  response : PairingFeatures
  localX : Octets 32
  localY : Octets 32
  peerX : Octets 32
  peerY : Octets 32
  dhkey : Octets 32
  localRandom : Octets 16
  peerConfirm : Octets 16
  peerRandom : Octets 16

namespace ScRun
variable (v : ScRun)

def keyTrace : List Event :=
  [.sent (Code.pairingPublicKey.octet :: (v.localX.rev.bytes ++ v.localY.rev.bytes)),
    .called (.onLocalPublicKey true (some v.localX) (some v.localY)),
    .received (responsePdu v.response)]

def peerKeyTrace : List Event :=
  .received (Code.pairingPublicKey.octet :: (v.peerX.rev.bytes ++ v.peerY.rev.bytes)) :: v.keyTrace

def dhkeyTrace : List Event :=
  .random v.localRandom.bytes :: .called (.onDhkey true (some v.dhkey)) :: v.peerKeyTrace

def commitTrace : List Event :=
  ownPdu .pairingRandom v.localRandom :: peerPdu .pairingConfirm v.peerConfirm :: v.dhkeyTrace

def openTrace : List Event := peerPdu .pairingRandom v.peerRandom :: v.commitTrace

def checkTrace (association : Association) (check : Octets 16) : List Event :=
  ownPdu .pairingDhkeyCheck check :: (acceptance association ++ v.openTrace)

end ScRun

def agreed (n : Negotiation) : Negotiation := if n.secureConnections then dropEncKey n else n

def responseIoCap (f : PairingFeatures) : Octets 3 :=
  ⟨[f.authReq, f.oobDataFlag, f.ioCapability], rfl⟩

/-- In this run the peer showed that it has the secret of the pairing, and the key is its key. -/
inductive Verified (su : Setup) (run : List Event) (key : Octets 16) (negotiation : Negotiation) :
    Prop
  | legacy (v : LegacyRun) {peerRandom stk : Octets 16}
      (negotiated : negotiatePairing su.config.features v.response = .ok negotiation)
      (legacy : negotiation.secureConnections = false)
      (source : TkSource negotiation.association v.tk v.source)
      (trace : (peerPdu .pairingRandom peerRandom :: v.randomTrace).Sublist run)
      (confirmed : c1 su.aes v.tk peerRandom (reversedPdu (requestPdu su.config.features))
        (reversedPdu (responsePdu v.response)) su.config.initiatorAddressType
        su.config.responderAddressType su.config.initiatorAddress su.config.responderAddress =
          .ok v.peerConfirm)
      (derived : s1 su.aes v.tk peerRandom v.localRandom = .ok stk)
      (masked : key = maskKey negotiation.encryptionKeySize stk)
  | secureConnections (v : ScRun) {negotiated : Negotiation}
      {macKey ltk ownCheck peerCheck : Octets 16}
      (response : negotiatePairing su.config.features v.response = .ok negotiated)
      (secure : negotiated.secureConnections = true)
      (dropped : negotiation = dropEncKey negotiated)
      (trace : (peerPdu .pairingDhkeyCheck peerCheck ::
        v.checkTrace negotiation.association ownCheck).Sublist run)
      (committed : f4 su.cmac v.peerX v.localX v.peerRandom 0 = .ok v.peerConfirm)
      (derived : f5 su.cmac v.dhkey v.localRandom v.peerRandom (a1 su) (a2 su) =
        .ok (macKey, ltk))
      (checked : f6 su.cmac macKey v.peerRandom v.localRandom (.zero 16)
        (responseIoCap v.response) (a2 su) (a1 su) = .ok peerCheck)
      (masked : key = maskKey negotiation.encryptionKeySize ltk)

def Encrypted (run : List Event) : Prop :=
  ∃ key size negotiation,
    [.called (.onEncryptionChanged true), .startEncryption key size negotiation].Sublist run

structure Responded (su : Setup) (m : Manager) (response : PairingFeatures)
    (negotiated : Negotiation) : Prop where
  preq : m.preq = reversedPdu (requestPdu su.config.features)
  pres : m.pres = reversedPdu (responsePdu response)
  negotiated : negotiatePairing su.config.features response = .ok negotiated

structure LegacyRun.Keyed (v : LegacyRun) (su : Setup) (m : Manager) : Prop where
  responded : Responded su m v.response m.negotiation
  legacy : m.negotiation.secureConnections = false
  source : TkSource m.negotiation.association v.tk v.source
  tk : m.tk = v.tk
  localRandom : m.localRandom = v.localRandom

namespace ScRun

structure Begun (v : ScRun) (su : Setup) (m : Manager) : Prop where
  responded : ∃ negotiated, Responded su m v.response negotiated ∧
    negotiated.secureConnections = true ∧ m.negotiation = dropEncKey negotiated

structure Local (v : ScRun) (su : Setup) (m : Manager) : Prop extends v.Begun su m where
  localX : m.localPublicX = v.localX

structure Peer (v : ScRun) (su : Setup) (m : Manager) : Prop extends v.Local su m where
  peerX : m.peerPublicX = v.peerX

structure Shared (v : ScRun) (su : Setup) (m : Manager) : Prop extends v.Peer su m where
  dhkey : m.dhkey = v.dhkey
  localRandom : m.localRandom = v.localRandom

structure Committed (v : ScRun) (su : Setup) (m : Manager) : Prop extends v.Shared su m where
  peerConfirm : m.peerConfirm = v.peerConfirm

structure Opened (v : ScRun) (su : Setup) (m : Manager) : Prop extends v.Committed su m where
  peerRandom : m.peerRandom = v.peerRandom
  opened : f4 su.cmac v.peerX v.localX v.peerRandom 0 = .ok v.peerConfirm

end ScRun

def tkAsked (association : Association) : Prop :=
  association = .passkeyResponderDisplays ∨ association = .passkeyBothInput ∨ association = .oob

def EvidenceAt (su : Setup) (m : Manager) (run : List Event) : State → Prop
  | .idle | .complete | .failed => True
  | .waitPairingResponse => m.preq = reversedPdu (requestPdu su.config.features)
  | .waitTk => ∃ response, Responded su m response m.negotiation ∧
      m.negotiation.secureConnections = false ∧ tkAsked m.negotiation.association ∧
      [.received (responsePdu response)].Sublist run
  | .waitPairingConfirm => ∃ v : LegacyRun, v.Keyed su m ∧ v.confirmTrace.Sublist run
  | .waitPairingRandom => ∃ v : LegacyRun, v.Keyed su m ∧ m.peerConfirm = v.peerConfirm ∧
      v.randomTrace.Sublist run
  | .waitLocalPublicKey => ∃ v : ScRun, v.Begun su m ∧
      [.received (responsePdu v.response)].Sublist run
  | .waitPeerPublicKey => ∃ v : ScRun, v.Local su m ∧ v.keyTrace.Sublist run
  | .waitDhkey => ∃ v : ScRun, v.Peer su m ∧ v.peerKeyTrace.Sublist run
  | .waitScConfirm => ∃ v : ScRun, v.Shared su m ∧ v.dhkeyTrace.Sublist run
  | .waitScRandom => ∃ v : ScRun, v.Committed su m ∧ v.commitTrace.Sublist run
  | .waitNumericConfirmation => ∃ v : ScRun, v.Opened su m ∧
      m.negotiation.association = .numericComparison ∧ v.openTrace.Sublist run
  | .waitDhkeyCheck => ∃ (v : ScRun) (ltk check : Octets 16), v.Opened su m ∧
      f5 su.cmac v.dhkey v.localRandom v.peerRandom (a1 su) (a2 su) = .ok (m.macKey, ltk) ∧
      m.stk = maskKey m.negotiation.encryptionKeySize ltk ∧
      (v.checkTrace m.negotiation.association check).Sublist run
  | .waitEncryption => ∃ key size, [.startEncryption key size m.negotiation].Sublist run
  | .waitKeyDistribution => Encrypted run

def Evidence (su : Setup) (m : Manager) (run : List Event) : Prop := EvidenceAt su m run m.state

variable {su : Setup} {m m' : Manager} {run run' : List Event} {w w₁ : World}

lemma Encrypted.mono (h : Encrypted run) (hr : run.Sublist run') : Encrypted run' := by
  obtain ⟨key, size, negotiation, ht⟩ := h
  exact ⟨key, size, negotiation, ht.trans hr⟩

lemma Evidence.mono (h : Evidence su m run) (hr : run.Sublist run') : Evidence su m run' := by
  unfold Evidence at h ⊢
  cases hs : m.state <;> rw [hs] at h
  case idle | complete | failed => trivial
  case waitPairingResponse => exact h
  case waitTk =>
    obtain ⟨response, h₁, h₂, h₃, ht⟩ := h
    exact ⟨response, h₁, h₂, h₃, ht.trans hr⟩
  case waitPairingConfirm | waitLocalPublicKey | waitPeerPublicKey | waitDhkey | waitScConfirm
      | waitScRandom =>
    obtain ⟨v, hv, ht⟩ := h
    exact ⟨v, hv, ht.trans hr⟩
  case waitPairingRandom | waitNumericConfirmation =>
    obtain ⟨v, hv, hf, ht⟩ := h
    exact ⟨v, hv, hf, ht.trans hr⟩
  case waitDhkeyCheck =>
    obtain ⟨v, ltk, check, hv, h5, hk, ht⟩ := h
    exact ⟨v, ltk, check, hv, h5, hk, ht.trans hr⟩
  case waitEncryption =>
    obtain ⟨key, size, ht⟩ := h
    exact ⟨key, size, ht.trans hr⟩
  case waitKeyDistribution => exact Encrypted.mono h hr

lemma Responded.congr {response : PairingFeatures} {negotiated : Negotiation}
    (h : Responded su m response negotiated) (hq : m'.preq = m.preq) (hp : m'.pres = m.pres) :
    Responded su m' response negotiated :=
  ⟨hq.trans h.preq, hp.trans h.pres, h.negotiated⟩

lemma LegacyRun.Keyed.congr {v : LegacyRun} (h : v.Keyed su m) (hq : m'.preq = m.preq)
    (hn : m'.negotiation = m.negotiation ∧ m'.pres = m.pres)
    (ht : m'.tk = m.tk ∧ m'.localRandom = m.localRandom) : v.Keyed su m' where
  responded := by
    rw [hn.1]
    exact h.responded.congr hq hn.2
  legacy := by rw [hn.1, h.legacy]
  source := by
    rw [hn.1]
    exact h.source
  tk := ht.1.trans h.tk
  localRandom := ht.2.trans h.localRandom

lemma ScRun.Begun.congr {v : ScRun} (h : v.Begun su m) (hq : m'.preq = m.preq)
    (hn : m'.negotiation = m.negotiation ∧ m'.pres = m.pres) : v.Begun su m' := by
  obtain ⟨negotiated, hr, hsc, hd⟩ := h.responded
  exact ⟨negotiated, hr.congr hq hn.2, hsc, hn.1.trans hd⟩

lemma Evidence.scratch (h : Evidence su w.m run) (hs : Scratch w w₁) : Evidence su w₁.m run := by
  have hq := hs.preq
  have hx := hs.localPublicX
  have hd := hs.dhkey
  have hc := hs.peerConfirm
  have hn := hs.response
  have hp := hs.peerPublicX
  have ht := hs.tk
  have hr := hs.peerRandom
  have hk := hs.macKey
  unfold Evidence at h ⊢
  rw [hs.state]
  cases hst : w.m.state <;> rw [hst] at h hn hp ht hr hk
  case idle | complete | failed => trivial
  case waitPairingResponse => exact hq.trans h
  case waitKeyDistribution => exact h
  case waitEncryption =>
    obtain ⟨key, size, htr⟩ := h
    refine ⟨key, size, ?_⟩
    rw [(hn nofun).1]
    exact htr
  case waitTk =>
    obtain ⟨response, h₁, h₂, h₃, htr⟩ := h
    have hn := hn nofun
    refine ⟨response, ?_, ?_, ?_, htr⟩ <;> rw [hn.1]
    · exact h₁.congr hq hn.2
    · exact h₂
    · exact h₃
  case waitPairingConfirm =>
    obtain ⟨v, hv, htr⟩ := h
    exact ⟨v, hv.congr hq (hn nofun) (ht nofun nofun), htr⟩
  case waitPairingRandom =>
    obtain ⟨v, hv, hf, htr⟩ := h
    exact ⟨v, hv.congr hq (hn nofun) (ht nofun nofun), hc.trans hf, htr⟩
  case waitLocalPublicKey =>
    obtain ⟨v, hv, htr⟩ := h
    exact ⟨v, hv.congr hq (hn nofun), htr⟩
  case waitPeerPublicKey =>
    obtain ⟨v, hv, htr⟩ := h
    exact ⟨v, ⟨hv.toBegun.congr hq (hn nofun), hx.trans hv.localX⟩, htr⟩
  all_goals have hpeer {v : ScRun} (hv : v.Peer su w.m) : v.Peer su w₁.m :=
    ⟨⟨hv.toBegun.congr hq (hn nofun), hx.trans hv.localX⟩, (hp nofun).trans hv.peerX⟩
  case waitDhkey =>
    obtain ⟨v, hv, htr⟩ := h
    exact ⟨v, hpeer hv, htr⟩
  all_goals have hshared {v : ScRun} (hv : v.Shared su w.m) : v.Shared su w₁.m :=
    ⟨hpeer hv.toPeer, hd.trans hv.dhkey, (ht nofun nofun).2.trans hv.localRandom⟩
  case waitScConfirm =>
    obtain ⟨v, hv, htr⟩ := h
    exact ⟨v, hshared hv, htr⟩
  case waitScRandom =>
    obtain ⟨v, hv, htr⟩ := h
    exact ⟨v, ⟨hshared hv.toShared, hc.trans hv.peerConfirm⟩, htr⟩
  all_goals have hopened {v : ScRun} (hv : v.Opened su w.m) : v.Opened su w₁.m :=
    ⟨⟨hshared hv.toShared, hc.trans hv.peerConfirm⟩, (hr nofun).trans hv.peerRandom, hv.opened⟩
  case waitNumericConfirmation =>
    obtain ⟨v, hv, ha, htr⟩ := h
    exact ⟨v, hopened hv, by rw [(hn nofun).1, ha], htr⟩
  case waitDhkeyCheck =>
    obtain ⟨v, ltk, check, hv, h5, hkey, htr⟩ := h
    have hk := hk nofun nofun
    refine ⟨v, ltk, check, hopened hv, by rw [hk.1, h5], ?_, ?_⟩ <;> rw [(hn nofun).1]
    · exact hk.2.trans hkey
    · exact htr

end Bluzing.Smp
