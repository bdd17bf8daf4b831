import Bluzing.Smp.Conversation

/-! The manager and an honest responder end up with the same key: the STK of legacy pairing, or the
LTK of Secure Connections. -/
namespace Bluzing.Smp
open List

structure HoldsTk (su : Setup) (r : Responder) (n : Negotiation) (m : Manager) : Prop where
  tk : m.tk = r.tk
  preq : m.preq = reversedPdu (requestPdu su.config.features)
  pres : m.pres = reversedPdu (responsePdu r.features)
  negotiation : m.negotiation = n

structure Confirming (su : Setup) (r : Responder) (n : Negotiation) (s : Session) (v : Octets 16) :
    Prop where
  stands : Stands r s .waitPairingConfirm
    (.confirmed (requestPdu su.config.features) (r.confirm (requestPdu su.config.features) v))
    [responsePdu r.features, Code.pairingConfirm.octet ::
      (r.confirm (requestPdu su.config.features) r.random).rev.bytes] 1
  holds : HoldsTk su r n s.w.m
  random : s.w.m.localRandom = v

structure Revealed (su : Setup) (r : Responder) (n : Negotiation) (s : Session) (v : Octets 16) :
    Prop where
  stands : Stands r s .waitPairingRandom (.paired (r.box.s1 r.tk r.random v))
    [responsePdu r.features, Code.pairingConfirm.octet ::
      (r.confirm (requestPdu su.config.features) r.random).rev.bytes,
      Code.pairingRandom.octet :: r.random.rev.bytes] 2
  holds : HoldsTk su r n s.w.m
  random : s.w.m.localRandom = v
  peerConfirm : s.w.m.peerConfirm = r.confirm (requestPdu su.config.features) r.random

variable {su : Setup} {port : ℕ → Reply} {r : Responder} {n : Negotiation} {passkey : UInt32}
  {x : Octets 32}

namespace Honest
variable (h : Honest su port r n passkey x)
include h

lemma confirmValue_eq {m : Manager} (hm : HoldsTk su r n m)
    (v : Octets 16) : confirmValue su m v = .ok (r.confirm (requestPdu su.config.features) v) := by
  have hc := r.box.c1_eq r.tk v (reversedPdu (requestPdu su.config.features))
    (reversedPdu (responsePdu r.features)) r.link h.addressTypes.1 h.addressTypes.2
  rw [← h.link] at hc
  rw [confirmValue, h.aes, hm.tk, hm.preq, hm.pres]
  refine hc.trans ?_
  rw [Responder.confirm, ← h.link]

lemma confirming (hsc : n.secureConnections = false)
    {s : Session} {state : State} {k : ℕ}
    (hs : Stands r s state (.responded (requestPdu su.config.features)) [responsePdu r.features] k)
    {w : World} (hw : HoldsTk su r n w.m) (hsent : w.sentPdus = s.w.sentPdus) (nowUs : ℕ) :
    ∃ v, Confirming su r n ⟨startConfirmExchange su port (sendAt su port 0) w nowUs, 1⟩ v := by
  have hc := h.confirmValue_eq hw (Octets.ofFun 16 (port w.calls).octets)
  rw [startConfirmExchange_ok h.portOk nowUs hc]
  generalize Octets.ofFun 16 (port w.calls).octets = v
  refine ⟨v, hs.sends (Code.pairingConfirm.octet ::
    (r.confirm (requestPdu su.config.features) v).rev.bytes) 1 rfl ?_ (by simp [Code.octet]) ?_,
    ⟨hw.tk, hw.preq, hw.pres, hw.negotiation⟩, rfl⟩
  · simp [exchanged, World.sentPdus_emit, Event.sentPdu, hsent]
  · exact r.receive_confirm (h.secure_eq.trans hsc) _

structure AcceptedBy (su : Setup) (r : Responder) (n : Negotiation) (w : World) : Prop where
  preq : w.m.preq = reversedPdu (requestPdu su.config.features)
  pres : w.m.pres = reversedPdu (responsePdu r.features)
  negotiation : w.m.negotiation = n

lemma asked (hsc : n.secureConnections = false)
    {s : Session} {state : State}
    (hs : Stands r s state (.responded (requestPdu su.config.features)) [responsePdu r.features] 0)
    {w : World} (hw : AcceptedBy su r n w) (hsent : w.sentPdus = s.w.sentPdus) (c : Call)
    (nowUs : ℕ)
    (hc : ∀ w' : World, w'.m = { w.m with state := .waitTk } →
      applyCall su port (sendAt su port 0) w' c nowUs =
        startConfirmExchange su port (sendAt su port 0)
          (w'.modify fun m => { m with tk := r.tk }) nowUs) (action : UserAction) :
    ∃ v, Confirming su r n (converse su port r ⟨userAction su (w.setState .waitTk) action 0, 1⟩
      ([c].map (.call · nowUs))) v := by
  simp only [converse, map_cons, map_nil, foldl_cons, foldl_nil, act, apply]
  rw [hc _ (by simp)]
  refine h.confirming hsc hs ?_ ?_ nowUs
  · rw [World.modify_m, World.emit_m, userAction_m]
    exact ⟨rfl, hw.preq, hw.pres, hw.negotiation⟩
  · simp [World.sentPdus_emit, Event.sentPdu, hsent]

omit h in
lemma applyCall_passkey {w w' : World} (hw : w'.m = { w.m with state := .waitTk })
    (hoob : w.m.negotiation.association ≠ .oob)
    (htk : passkey ≤ 999999 ∧ r.tk = passkeyTk passkey) (send : Send) (nowUs : ℕ) :
    applyCall su port send w' (.providePasskey passkey) nowUs =
      startConfirmExchange su port send (w'.modify fun m => { m with tk := r.tk }) nowUs := by
  have hle := UInt32.not_lt.mpr htk.1
  simp only [applyCall, providePasskey, hw, ne_eq, not_true_eq_false, hle, hoob, or_self,
    ↓reduceIte, unlessFailed, setPasskeyTk, htk.2]

lemma legacy_confirming (hsc : n.secureConnections = false)
    {s : Session} {state : State}
    (hs : Stands r s state (.responded (requestPdu su.config.features)) [responsePdu r.features] 0)
    {w : World} (hw : AcceptedBy su r n w) (hsent : w.sentPdus = s.w.sentPdus)
    (hcalls : w.calls = 1) (t₁ t₂ : ℕ) :
    ∃ v, Confirming su r n (converse su port r
      ⟨startLegacy su port (sendAt su port 0) w t₁, 1⟩
      ((tkCalls r passkey n.association).map (.call · t₂))) v := by
  have hassoc : w.m.negotiation.association = n.association := by rw [hw.negotiation]
  have htk := h.legacy hsc
  cases ha : n.association with
  | justWorks =>
    rw [ha] at htk hassoc
    simp only [startLegacy, hassoc, tkCalls, map_nil, converse, foldl_nil]
    refine h.confirming hsc hs ?_ ?_ t₁
    · exact ⟨htk.symm, hw.preq, hw.pres, hw.negotiation⟩
    · exact hsent
  | passkeyInitiatorDisplays =>
    rw [ha] at htk hassoc
    simp only [startLegacy, hassoc, randomOctets_ok h.portOk, hcalls, tkCalls, map_nil,
      converse, foldl_nil]
    refine h.confirming hsc hs ?_ ?_ t₁
    · rw [userAction_m]
      exact ⟨htk.symm, hw.preq, hw.pres, hw.negotiation⟩
    · simp [setPasskeyTk, World.sentPdus_emit, Event.sentPdu, hsent]
  | passkeyResponderDisplays | passkeyBothInput =>
    rw [ha] at htk hassoc
    simp only [startLegacy, hassoc, tkCalls]
    exact h.asked hsc hs hw hsent _ t₂
      (fun w' hw' => applyCall_passkey hw' (by simp [hassoc]) htk _ t₂) _
  | oob =>
    rw [ha] at hassoc
    simp only [startLegacy, hassoc, tkCalls]
    refine h.asked hsc hs hw hsent _ t₂ (fun w' hw' => ?_) _
    simp only [applyCall, provideOobTk, hw', hassoc, ne_eq, not_true_eq_false, or_self, ↓reduceIte,
      unlessFailed]
  | numericComparison =>
    rw [negotiatePairing_numeric h.negotiated ha] at hsc
    cases hsc

lemma revealed {s : Session} {v : Octets 16}
    (hs : Confirming su r n s v) (nowUs : ℕ) :
    Revealed su r n (act su port r s (.deliver nowUs)) v := by
  rw [hs.stands.act_deliver su port nowUs rfl, onPdu_confirm h.portOk _ nowUs hs.stands.state,
    hs.random, Octets.rev_rev]
  refine ⟨hs.stands.sends (Code.pairingRandom.octet :: v.rev.bytes) 2 rfl ?_ (by simp [Code.octet])
    (r.receive_random v), ⟨hs.holds.tk, hs.holds.preq, hs.holds.pres, hs.holds.negotiation⟩,
    hs.random, rfl⟩
  simp [World.sentPdus_emit, Event.sentPdu]

lemma legacy_agrees {s : Session} {v : Octets 16}
    (hs : Revealed su r n s v) (nowUs : ℕ) : Agrees r n (act su port r s (.deliver nowUs)) := by
  have hc : confirmValue su s.w.m r.random.rev.rev = .ok s.w.m.peerConfirm := by
    rw [Octets.rev_rev, h.confirmValue_eq hs.holds, hs.peerConfirm]
  have hk : s1 su.aes s.w.m.tk r.random.rev.rev s.w.m.localRandom =
      .ok (r.box.s1 r.tk r.random v) := by
    rw [Octets.rev_rev, h.aes, hs.holds.tk, hs.random, Toolbox.s1_eq]
  rw [hs.stands.act_deliver su port nowUs rfl,
    onPdu_random h.portOk _ _ nowUs hs.stands.state hc hk]
  refine hs.stands.agrees ?_ ?_ ?_ nowUs 3
  · simp [World.sentPdus_emit, Event.sentPdu]
  · simp [hs.holds.negotiation]
  · simp [hs.holds.negotiation]

end Honest

structure HoldsKeys (r : Responder) (n : Negotiation) (x : Octets 32) (m : Manager) : Prop where
  pres : m.pres = reversedPdu (responsePdu r.features)
  negotiation : m.negotiation = dropEncKey n
  localPublicX : m.localPublicX = x
  peerPublicX : m.peerPublicX = r.publicX

def Responder.committed (r : Responder) (x : Octets 32) : List Bytes :=
  [responsePdu r.features,
    Code.pairingPublicKey.octet :: (r.publicX.rev.bytes ++ r.publicY.rev.bytes),
    Code.pairingConfirm.octet :: (r.box.f4 r.publicX x r.random 0).rev.bytes]

structure AwaitsDhkey (su : Setup) (r : Responder) (n : Negotiation) (x : Octets 32) (s : Session) :
    Prop where
  stands : Stands r s .waitDhkey (.exchanged (requestPdu su.config.features) x) (r.committed x) 2
  holds : HoldsKeys r n x s.w.m

namespace Honest
variable (h : Honest su port r n passkey x)
include h

lemma keyRequested (hsc : n.secureConnections = true)
    {s : Session}
    (hs : Stands r s .waitPairingResponse (.responded (requestPdu su.config.features))
      [responsePdu r.features] 0) (nowUs : ℕ) :
    ∃ s', act su port r s (.deliver nowUs) = s' ∧
      Stands r s' .waitLocalPublicKey (.responded (requestPdu su.config.features))
        [responsePdu r.features] 1 ∧
      s'.w.m.pres = reversedPdu (responsePdu r.features) ∧ s'.w.m.negotiation = dropEncKey n := by
  have hcmac : su.cmac.isSome = true := by simp [h.cmac hsc]
  have hassoc := h.supported hsc
  rw [hs.act_deliver su port nowUs rfl, onPdu_response _ nowUs hs.state h.negotiated, if_pos hsc,
    startSecureConnections_ok h.portOk _ nowUs hassoc hcmac (h.keyOps hsc).1 (h.keyOps hsc).2]
  refine ⟨_, rfl, hs.quiet 1 rfl ?_, rfl, rfl⟩
  simp [accepted, World.sentPdus_emit, Event.sentPdu]

lemma keySent (hsc : n.secureConnections = true) {s : Session}
    (hs : Stands r s .waitLocalPublicKey (.responded (requestPdu su.config.features))
      [responsePdu r.features] 1) (y : Octets 32) (nowUs : ℕ) :
    ∃ s', act su port r s (.call (.onLocalPublicKey true (some x) (some y)) nowUs) = s' ∧
      Stands r s' .waitPeerPublicKey (.exchanged (requestPdu su.config.features) x)
        (r.committed x) 1 ∧
      s'.w.m = { s.w.m with
        localPublicX := x, localPublicY := y, state := .waitPeerPublicKey
        deadlineUs := timeoutDeadline nowUs } := by
  have hcall (c : Call) : applyCall su port (sendAt su port 0) (s.w.emit (.called c))
      (.onLocalPublicKey true (some x) (some y)) nowUs = _ :=
    onLocalPublicKey_ok h.portOk x y nowUs hs.state
  rw [hs.act_call su port _ nowUs, hcall]
  refine ⟨_, rfl, hs.sends (Code.pairingPublicKey.octet :: (x.rev.bytes ++ y.rev.bytes)) 1 rfl ?_
    (by simp [Code.octet]) (r.receive_publicKey (h.secure_eq.trans hsc) x y), rfl⟩
  simp [World.sentPdus_emit, Event.sentPdu]

lemma awaitsDhkey (hsc : n.secureConnections = true)
    {s : Session}
    (hs : Stands r s .waitPairingResponse (.responded (requestPdu su.config.features))
      [responsePdu r.features] 0) (y : Octets 32) (t₁ t₂ t₃ : ℕ) :
    AwaitsDhkey su r n x (converse su port r s [.deliver t₁,
      .call (.onLocalPublicKey true (some x) (some y)) t₂, .deliver t₃]) := by
  obtain ⟨s₁, h₁, hs₁, hpres, hneg⟩ := h.keyRequested hsc hs t₁
  obtain ⟨s₂, h₂, hs₂, hm₂⟩ := h.keySent hsc hs₁ y t₂
  have hne : s₂.w.m.localPublicX ≠ r.publicX.rev.rev := by
    rw [hm₂, Octets.rev_rev]
    exact h.distinct hsc
  simp only [converse, foldl_cons, foldl_nil, h₁, h₂]
  rw [hs₂.act_deliver su port t₃ rfl, onPdu_publicKey h.portOk _ _ _ t₃ hs₂.state hne]
  refine ⟨hs₂.quiet 2 rfl ?_, ?_, ?_, ?_, ?_⟩
  · simp [World.sentPdus_emit, Event.sentPdu]
  · simpa [hm₂] using hpres
  · simpa [hm₂] using hneg
  · simp [hm₂]
  · simp

lemma addressA_eq : a1 su = r.addressA := by
  rw [Responder.addressA, ← h.link]
  rfl

lemma addressB_eq : a2 su = r.addressB := by
  rw [Responder.addressB, ← h.link]
  rfl

end Honest

lemma localIoCap_eq (su : Setup) :
    localIoCap su = Responder.ioCapA (requestPdu su.config.features) := rfl

lemma HoldsKeys.peerIoCap_eq {r : Responder} {n : Negotiation} {x : Octets 32} {m : Manager}
    (hm : HoldsKeys r n x m) : peerIoCap m = r.ioCapB := by
  simp only [peerIoCap, hm.pres]
  rfl

structure Nonces (su : Setup) (r : Responder) (n : Negotiation) (x : Octets 32) (v : Octets 16)
    (s : Session) : Prop where
  stands : Stands r s .waitScRandom (.opened (requestPdu su.config.features) x v)
    (r.committed x ++ [Code.pairingRandom.octet :: r.random.rev.bytes]) 3
  holds : HoldsKeys r n x s.w.m
  random : s.w.m.localRandom = v
  dhkey : s.w.m.dhkey = r.dhkey
  peerConfirm : s.w.m.peerConfirm = r.box.f4 r.publicX x r.random 0

structure Checked (r : Responder) (n : Negotiation) (x : Octets 32) (v : Octets 16)
    (s : Session) : Prop where
  stands : Stands r s .waitDhkeyCheck
    (.paired (r.box.f5 r.dhkey v r.random r.addressA r.addressB).2)
    (r.committed x ++ [Code.pairingRandom.octet :: r.random.rev.bytes] ++
      [Code.pairingDhkeyCheck.octet :: (r.checkB v).rev.bytes]) 4
  holds : HoldsKeys r n x s.w.m
  random : s.w.m.localRandom = v
  peerRandom : s.w.m.peerRandom = r.random
  macKey : s.w.m.macKey = (r.box.f5 r.dhkey v r.random r.addressA r.addressB).1
  key : s.w.m.stk =
    maskKey n.encryptionKeySize (r.box.f5 r.dhkey v r.random r.addressA r.addressB).2

namespace Honest
variable (h : Honest su port r n passkey x)
include h

lemma dhkeyReported {s : Session}
    (hs : AwaitsDhkey su r n x s) (nowUs : ℕ) :
    ∃ s' v, act su port r s (.call (.onDhkey true (some r.dhkey)) nowUs) = s' ∧
      Stands r s' .waitScConfirm (.exchanged (requestPdu su.config.features) x) (r.committed x) 2 ∧
      s'.w.m = { s.w.m with
        localRandom := v, dhkey := r.dhkey, state := .waitScConfirm
        deadlineUs := timeoutDeadline nowUs } := by
  have hcall (c : Call) : applyCall su port (sendAt su port 0) (s.w.emit (.called c))
      (.onDhkey true (some r.dhkey)) nowUs = _ :=
    onDhkey_ok h.portOk _ r.dhkey nowUs hs.stands.state
  rw [hs.stands.act_call su port _ nowUs, hcall]
  refine ⟨_, _, rfl, hs.stands.quiet 2 rfl ?_, rfl⟩
  simp [World.sentPdus_emit, Event.sentPdu]

lemma nonces {s : Session} (hs : AwaitsDhkey su r n x s)
    (t₁ t₂ : ℕ) :
    ∃ v, Nonces su r n x v (converse su port r s
      [.call (.onDhkey true (some r.dhkey)) t₁, .deliver t₂]) := by
  obtain ⟨s₁, v, h₁, hs₁, hm₁⟩ := h.dhkeyReported hs t₁
  have hv : s₁.w.m.localRandom = v := by rw [hm₁]
  simp only [converse, foldl_cons, foldl_nil, h₁]
  rw [hs₁.act_deliver su port t₂ rfl, onPdu_scConfirm h.portOk _ t₂ hs₁.state, hv, Octets.rev_rev]
  refine ⟨v, hs₁.sends (Code.pairingRandom.octet :: v.rev.bytes) 3 rfl ?_ (by simp [Code.octet])
    (r.receive_nonce x v), ⟨?_, ?_, ?_, ?_⟩, ?_, ?_, rfl⟩
  · simp [World.sentPdus_emit, Event.sentPdu]
  · simpa [hm₁] using hs.holds.pres
  · simpa [hm₁] using hs.holds.negotiation
  · simpa [hm₁] using hs.holds.localPublicX
  · simpa [hm₁] using hs.holds.peerPublicX
  · simp [hm₁]
  · simp [hm₁]

lemma checked (hsc : n.secureConnections = true)
    {s : Session} {v : Octets 16} {state : State} {k : ℕ}
    (hs : Stands r s state (.opened (requestPdu su.config.features) x v)
      (r.committed x ++ [Code.pairingRandom.octet :: r.random.rev.bytes]) k)
    {w : World} (hw : HoldsKeys r n x w.m) (hv : w.m.localRandom = v)
    (hd : w.m.dhkey = r.dhkey) (hp : w.m.peerRandom = r.random)
    (hsent : w.sentPdus = s.w.sentPdus) (nowUs : ℕ) :
    Checked r n x v ⟨startScStage2 su (sendAt su port 0) w nowUs, 4⟩ := by
  have h5 : f5 su.cmac w.m.dhkey w.m.localRandom w.m.peerRandom (a1 su) (a2 su) =
      .ok (r.box.f5 r.dhkey v r.random r.addressA r.addressB) := by
    rw [h.cmac hsc, hd, hv, hp, h.addressA_eq, h.addressB_eq, Toolbox.f5_eq]
  have h6 : f6 su.cmac (r.box.f5 r.dhkey v r.random r.addressA r.addressB).1 w.m.localRandom
      w.m.peerRandom (.zero 16) (localIoCap su) (a1 su) (a2 su) =
        .ok (r.checkA (requestPdu su.config.features) v) := by
    rw [h.cmac hsc, hv, hp, h.addressA_eq, h.addressB_eq, localIoCap_eq, Toolbox.f6_eq]
    rfl
  rw [startScStage2_ok h.portOk nowUs h5 h6]
  refine ⟨hs.sends (Code.pairingDhkeyCheck.octet ::
    (r.checkA (requestPdu su.config.features) v).rev.bytes) 4 rfl ?_ (by simp [Code.octet])
    (r.receive_check x v), ⟨hw.pres, hw.negotiation, hw.localPublicX, hw.peerPublicX⟩, hv, hp, rfl,
    ?_⟩
  · simp [stage2, hsent]
  · change maskKey w.m.negotiation.encryptionKeySize _ = _
    rw [hw.negotiation]
    rfl

lemma stage2_entered (hsc : n.secureConnections = true)
    {s : Session} {v : Octets 16} (hs : Nonces su r n x v s) (t₁ t₂ : ℕ) :
    Checked r n x v (converse su port r s ([.deliver t₁] ++
      if n.association = .numericComparison then [.call (.confirmNumeric true) t₂] else [])) := by
  have hf : f4 su.cmac s.w.m.peerPublicX s.w.m.localPublicX r.random.rev.rev 0 =
      .ok s.w.m.peerConfirm := by
    rw [h.cmac hsc, hs.holds.peerPublicX, hs.holds.localPublicX, Octets.rev_rev, hs.peerConfirm,
      Toolbox.f4_eq]
  have hassoc : s.w.m.negotiation.association = n.association := by rw [hs.holds.negotiation]; rfl
  split
  next hnc =>
    obtain ⟨value, hg⟩ := r.box.g2_ok s.w.m.localPublicX s.w.m.peerPublicX s.w.m.localRandom
      r.random.rev.rev
    rw [← h.cmac hsc] at hg
    simp only [converse, cons_append, nil_append, foldl_cons, foldl_nil]
    rw [hs.stands.act_deliver su port t₁ rfl,
      onPdu_scRandom_numeric _ _ t₁ hs.stands.state hf (hassoc.trans hnc) hg]
    simp only [act, apply, applyCall, confirmNumeric, World.emit_m, userAction_m, World.setState_m,
      ne_eq, not_true_eq_false, ↓reduceIte, Bool.not_true, Bool.false_eq_true, unlessFailed]
    refine h.checked hsc hs.stands ?_ ?_ ?_ ?_ ?_ t₂
    · rw [World.emit_m, userAction_m]
      exact ⟨hs.holds.pres, hs.holds.negotiation, hs.holds.localPublicX, hs.holds.peerPublicX⟩
    · simpa using hs.random
    · simpa using hs.dhkey
    · simp
    · simp [World.sentPdus_emit, Event.sentPdu]
  next hnc =>
    simp only [converse, append_nil, foldl_cons, foldl_nil]
    rw [hs.stands.act_deliver su port t₁ rfl,
      onPdu_scRandom _ _ t₁ hs.stands.state hf (fun he => hnc (hassoc.symm.trans he))]
    refine h.checked hsc hs.stands ?_ ?_ ?_ ?_ ?_ t₁
    · exact ⟨hs.holds.pres, hs.holds.negotiation, hs.holds.localPublicX, hs.holds.peerPublicX⟩
    · exact hs.random
    · exact hs.dhkey
    · simp
    · simp [World.sentPdus_emit, Event.sentPdu]

lemma secure_agrees (hsc : n.secureConnections = true)
    {s : Session} {v : Octets 16} (hs : Checked r n x v s) (nowUs : ℕ) :
    Agrees r n (act su port r s (.deliver nowUs)) := by
  have h6 : f6 su.cmac s.w.m.macKey s.w.m.peerRandom s.w.m.localRandom (.zero 16)
      (peerIoCap s.w.m) (a2 su) (a1 su) = .ok (r.checkB v).rev.rev := by
    rw [h.cmac hsc, hs.macKey, hs.peerRandom, hs.random, hs.holds.peerIoCap_eq, h.addressA_eq,
      h.addressB_eq, Octets.rev_rev, Toolbox.f6_eq]
    rfl
  rw [hs.stands.act_deliver su port nowUs rfl,
    onPdu_dhkeyCheck h.portOk _ _ nowUs hs.stands.state h6]
  refine hs.stands.agrees ?_ ?_ ?_ nowUs 5
  · simp [World.sentPdus_emit, Event.sentPdu]
  · exact hs.key
  · simp [hs.holds.negotiation, dropEncKey]

end Honest

section

variable (h : Honest su port r n passkey x)
include h

lemma Honest.early_confirm_refused {s : Session}
    (hs : AwaitsDhkey su r n x s) (nowUs : ℕ) : Refused (act su port r s (.deliver nowUs)) := by
  rw [hs.stands.act_deliver su port nowUs rfl,
    onPdu_value128 _ rfl _ nowUs (by rw [hs.stands.state]; rfl)]
  simp only [dispatch, handleConfirm, World.arm_m, World.emit_m, hs.stands.state, reduceCtorEq,
    ↓reduceIte, ne_eq, not_false_eq_true]
  exact sendFailed_refused h.portOk _ rfl nowUs (by decide) 3

lemma Honest.linkKey_refused (hsc : n.secureConnections = false)
    (hlk : ((n.initiatorKeyDistribution ||| n.responderKeyDistribution) &&& keyDistLinkKey) ≠ 0)
    {s : Session} {stage : Stage}
    (hs : Stands r s .waitPairingResponse stage [responsePdu r.features] 0) (nowUs : ℕ) :
    Refused (act su port r s (.deliver nowUs)) := by
  rw [hs.act_deliver su port nowUs rfl, onPdu_response _ nowUs hs.state h.negotiated,
    if_neg (by simp [hsc]), if_pos hlk]
  exact sendFailed_refused h.portOk _ rfl nowUs (by decide) 1

/-- With Secure Connections the responder's commitment may not come before the DHKey; without it no
key for the BR/EDR link is asked for. -/
def Supported (request response : PairingFeatures) (confirmFirst : Bool) : Prop :=
  if (request.authReq &&& response.authReq &&& authReqSc) != 0 then confirmFirst = false
  else ((response.initiatorKeyDistribution ||| response.responderKeyDistribution) &&&
    keyDistLinkKey) = 0

lemma Honest.legacy_iff (hsc : n.secureConnections = false)
    (t : ℕ → ℕ) :
    Agrees r n (converse su port r ⟨World.init, 0⟩ (legacyActs r n passkey t)) ↔
      ((n.initiatorKeyDistribution ||| n.responderKeyDistribution) &&& keyDistLinkKey) = 0 := by
  obtain ⟨s, hstart, hs, hpreq, hcalls⟩ := h.requested (t 0)
  have hacts : converse su port r ⟨World.init, 0⟩ (legacyActs r n passkey t) =
      converse su port r (converse su port r (act su port r s (.deliver (t 1)))
        ((tkCalls r passkey n.association).map (.call · (t 2))))
        [.deliver (t 3), .deliver (t 4)] := by
    simp only [converse, legacyActs, foldl_append, foldl_cons, foldl_nil, hstart]
  rw [hacts]
  by_cases hlk : ((n.initiatorKeyDistribution ||| n.responderKeyDistribution) &&&
      keyDistLinkKey) = 0
  · refine iff_of_true ?_ hlk
    rw [hs.act_deliver su port (t 1) rfl, onPdu_response _ (t 1) hs.state h.negotiated,
      if_neg (by simp [hsc]), if_neg (not_not.mpr hlk)]
    obtain ⟨v, hv⟩ := h.legacy_confirming hsc hs
      (w := accepted (s.w.emit (.received (responsePdu r.features))) (t 1) r.features n)
      ⟨hpreq, rfl, rfl⟩ (by simp [accepted, World.sentPdus_emit, Event.sentPdu]) hcalls (t 1) (t 2)
    rw [converse_cons, converse_cons, converse_nil]
    exact h.legacy_agrees (h.revealed hv (t 3)) (t 4)
  · refine iff_of_false ?_ hlk
    exact (((h.linkKey_refused hsc hlk hs (t 1)).converse _).converse _).not_agrees

lemma Honest.secure_iff (hsc : n.secureConnections = true)
    (y : Octets 32) (confirmFirst : Bool) (t : ℕ → ℕ) :
    Agrees r n (converse su port r ⟨World.init, 0⟩ (secureActs r n x y confirmFirst t)) ↔
      confirmFirst = false := by
  obtain ⟨s, hstart, hs, -, -⟩ := h.requested (t 0)
  have hacts : converse su port r ⟨World.init, 0⟩ (secureActs r n x y confirmFirst t) =
      converse su port r (converse su port r (converse su port r (converse su port r s
        [.deliver (t 1), .call (.onLocalPublicKey true (some x) (some y)) (t 2), .deliver (t 3)])
        (dhkeyActs r confirmFirst t))
        ([.deliver (t 6)] ++ if n.association = .numericComparison then
          [.call (.confirmNumeric true) (t 7)] else [])) [.deliver (t 8)] := by
    simp only [converse, secureActs, foldl_append, foldl_cons, foldl_nil, hstart]
  have hwait := h.awaitsDhkey hsc hs y (t 1) (t 2) (t 3)
  rw [hacts]
  cases confirmFirst with
  | false =>
    refine iff_of_true ?_ rfl
    obtain ⟨v, hv⟩ := h.nonces hwait (t 4) (t 5)
    exact h.secure_agrees hsc (h.stage2_entered hsc hv (t 6) (t 7)) (t 8)
  | true =>
    have hearly : Refused (converse su port r (converse su port r s
        [.deliver (t 1), .call (.onLocalPublicKey true (some x) (some y)) (t 2), .deliver (t 3)])
        (dhkeyActs r true t)) := by
      rw [dhkeyActs, if_pos rfl, converse_cons]
      exact (h.early_confirm_refused hwait (t 4)).converse _
    exact iff_of_false ((hearly.converse _).converse _).not_agrees (by simp)

end

/-- An honest responder and the manager agree on the key exactly in the supported conversations. -/
theorem pairing_agrees_iff (h : Honest su port r n passkey x) (y : Octets 32)
    (confirmFirst : Bool) (t : ℕ → ℕ) :
    Agrees r n (converse su port r ⟨World.init, 0⟩
        (pairingActs r n passkey x y confirmFirst t)) ↔
      Supported su.config.features r.features confirmFirst := by
  have hmethod := (negotiatePairing_method h.negotiated).1
  obtain ⟨hi, hr⟩ := negotiatePairing_masks h.negotiated
  rw [Supported, ← hmethod, ← hi, ← hr]
  cases hsc : n.secureConnections with
  | false => simpa [pairingActs, hsc] using h.legacy_iff hsc t
  | true => simpa [pairingActs, hsc] using h.secure_iff hsc y confirmFirst t

/-! A Secure Connections pairing without input and output on either side. -/

def secureFeatures : PairingFeatures := ⟨0x03, 0, 0x09, 16, 0, 0⟩

def secureResponder : Responder where
  box := ⟨fun k block => k.xor block, fun k _ => k⟩
  link := ⟨0, 0, .zero 6, .zero 6⟩
  features := secureFeatures
  tk := .zero 16
  random := .zero 16
  publicX := .zero 32
  publicY := .zero 32
  dhkey := .zero 32

def secureSetup : Setup where
  ops := ⟨true, true, true, true, true, true, true, true, true⟩
  aes := some secureResponder.box.aes
  cmac := some secureResponder.box.mac
  config := ⟨secureFeatures, 0, 0, .zero 6, .zero 6⟩

def secureNegotiation : Negotiation := ⟨true, true, false, 16, 0, 0, .justWorks⟩

def secureX : Octets 32 := .ofFun 32 fun _ => 1

lemma secure_honest :
    Honest secureSetup (uniformPort .ok) secureResponder secureNegotiation 0 secureX where
  ops := ⟨rfl, rfl, rfl⟩
  aes := rfl
  link := rfl
  addressTypes := by decide
  portOk _ := rfl
  negotiated := by decide
  legacy h := by cases h
  cmac _ := rfl
  keyOps _ := ⟨rfl, rfl⟩
  supported _ := .inl rfl
  distinct _ := by decide

theorem prompt_dhkey_agrees :
    Agrees secureResponder secureNegotiation (converse secureSetup (uniformPort .ok) secureResponder
      ⟨World.init, 0⟩
      (pairingActs secureResponder secureNegotiation 0 secureX (.zero 32) false id)) :=
  (pairing_agrees_iff secure_honest (.zero 32) false id).mpr rfl

theorem early_commitment_fails :
    let s := converse secureSetup (uniformPort .ok) secureResponder ⟨World.init, 0⟩
      (pairingActs secureResponder secureNegotiation 0 secureX (.zero 32) true id)
    Honest secureSetup (uniformPort .ok) secureResponder secureNegotiation 0 secureX ∧
      [Code.pairingFailed.octet, 0x0A] ∈ s.w.sentPdus ∧
      ¬ Agrees secureResponder secureNegotiation s := by
  have hsent : [Code.pairingFailed.octet, 0x0A] ∈ (converse secureSetup (uniformPort .ok)
      secureResponder ⟨World.init, 0⟩
      (pairingActs secureResponder secureNegotiation 0 secureX (.zero 32) true id)).w.sentPdus := by
    decide +kernel
  exact ⟨secure_honest, hsent, fun ha => ha.2 _ hsent rfl⟩

end Bluzing.Smp
