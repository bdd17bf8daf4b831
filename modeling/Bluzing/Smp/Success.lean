import Bluzing.Smp.StepCases

/-! The successful path of each handler as an equation, for a transport that delivers nothing from
inside `send` and a port that answers `BT_OK`. -/
namespace Bluzing.Smp

def sentOk (w : World) (pdu : Bytes) (nowUs : ℕ) : World :=
  (((w.arm nowUs).emit (.sent pdu)).answered).emit (.returned pdu .ok w.m.state)

variable (w : World) (pdu : Bytes) (nowUs : ℕ)

@[simp] lemma sentOk_m :
    (sentOk w pdu nowUs).m = { w.m with deadlineUs := timeoutDeadline nowUs } := rfl
@[simp] lemma sentOk_calls : (sentOk w pdu nowUs).calls = w.calls + 1 := rfl

section

variable {su : Setup} {port : ℕ → Reply} {w : World} {nowUs : ℕ}
  {response : PairingFeatures} {negotiation : Negotiation}

lemma sendPdu_ok (hport : ∀ k, (port k).status = .ok) (w : World) (pdu : Bytes)
    (nowUs : ℕ) : sendPdu (sendAt su port 0) w pdu nowUs = (sentOk w pdu nowUs, .ok) := by
  simp [sendPdu, sentOk, hport]

lemma start_ok (hport : ∀ k, (port k).status = .ok) (hs : startable su w.m = true) :
    (start su (sendAt su port 0) w nowUs).1 =
      (sentOk (begun su w) (requestPdu su.config.features) nowUs).emit (.startReturned .ok) := by
  rw [start_eq, if_pos hs]
  simp [sendPdu_ok hport]

lemma randomOctets_ok (hport : ∀ k, (port k).status = .ok) (n : ℕ) (w : World) :
    randomOctets port n w =
      (w.answered.emit (.random (Octets.ofFun n (port w.calls).octets).bytes),
        some (Octets.ofFun n (port w.calls).octets)) := by
  simp [randomOctets, hport]

variable (send : Send)

lemma onPdu_dispatch (c : Command) (nowUs : ℕ) (hw : w.m.state.waiting = true)
    (hlen : c.data.length = c.code.dataLen) (hv : fieldsValid c.code c.data = true) :
    onPdu su port send w (c.code.octet :: c.data) nowUs =
      dispatch su port send ((w.emit (.received (c.code.octet :: c.data))).arm nowUs) c
        (c.code.octet :: c.data) nowUs := by
  have hp := parseCommand_octet hlen hv
  rw [onPdu, if_neg ((State.waiting_iff _).mp hw), hp]

lemma onPdu_value128 {code : Code} (hc : isValue128 code = true) (v : Octets 16)
    (nowUs : ℕ) (hw : w.m.state.waiting = true) :
    onPdu su port send w (code.octet :: v.bytes) nowUs =
      dispatch su port send ((w.emit (.received (code.octet :: v.bytes))).arm nowUs)
        ⟨code, v.bytes⟩ (code.octet :: v.bytes) nowUs := by
  refine onPdu_dispatch send ⟨code, v.bytes⟩ nowUs hw ?_ ?_
  · have hd : code.dataLen = 16 := by simpa [isValue128] using hc
    rw [hd]
    exact v.length_eq
  · cases code <;> first | rfl | cases hc

lemma parseValue128_value (code : Code) (hc : isValue128 code = true) (v : Octets 16) :
    parseValue128 ⟨code, v.bytes⟩ = .ok v := by
  simp [parseValue128, hc]

lemma parsePublicKey_keys (x y : Octets 32) :
    parsePublicKey ⟨.pairingPublicKey, x.bytes ++ y.bytes⟩ = .ok (x, y) := by
  have hx : (x.bytes ++ y.bytes).take 32 = x.bytes := List.take_left' x.length_eq
  have hy : (x.bytes ++ y.bytes).drop 32 = y.bytes := List.drop_left' x.length_eq
  simp [parsePublicKey, hx, hy]

lemma onPdu_response (nowUs : ℕ) (hs : w.m.state = .waitPairingResponse)
    (hn : negotiatePairing su.config.features response = .ok negotiation) :
    onPdu su port send w (responsePdu response) nowUs =
      if negotiation.secureConnections then
        startSecureConnections su port send (accepted (w.emit (.received (responsePdu response)))
          nowUs response (dropEncKey negotiation)) nowUs
      else if ((negotiation.initiatorKeyDistribution ||| negotiation.responderKeyDistribution) &&&
          keyDistLinkKey) ≠ 0 then
        sendFailed su send (accepted (w.emit (.received (responsePdu response))) nowUs response
          negotiation) 0x07 nowUs .errorUnsupported
      else
        startLegacy su port send
          (accepted (w.emit (.received (responsePdu response))) nowUs response negotiation)
          nowUs := by
  have hv := (negotiatePairing_ok hn).2
  have hw : w.m.state.waiting = true := by rw [hs]; rfl
  have hp : parsePairingFeatures ⟨.pairingResponse, (responsePdu response).tail⟩ =
      .ok response := by
    rw [parsePairingFeatures, if_pos ⟨.inr rfl, rfl, hv⟩]
    rfl
  refine Eq.trans (onPdu_dispatch send ⟨.pairingResponse, (responsePdu response).tail⟩ nowUs hw
    rfl hv) ?_
  simp only [dispatch, handlePairingResponse, World.arm_m, World.emit_m, hs, ne_eq,
    not_true_eq_false, ↓reduceIte, hp, hn]
  rfl

lemma onPdu_scRandom (v : Octets 16) (nowUs : ℕ) (hs : w.m.state = .waitScRandom)
    (hf : f4 su.cmac w.m.peerPublicX w.m.localPublicX v.rev 0 = .ok w.m.peerConfirm)
    (ha : w.m.negotiation.association ≠ .numericComparison) :
    onPdu su port send w (Code.pairingRandom.octet :: v.bytes) nowUs =
      startScStage2 su send (((w.emit (.received (Code.pairingRandom.octet :: v.bytes))).arm
        nowUs).modify fun m => { m with peerRandom := v.rev }) nowUs := by
  rw [onPdu_value128 _ rfl v nowUs (by rw [hs]; rfl)]
  simp only [dispatch, handleScRandom, World.arm_m, World.emit_m, hs, ↓reduceIte, ne_eq,
    not_true_eq_false, parseValue128_value .pairingRandom rfl v, World.modify_m, hf, ha]

lemma onPdu_scRandom_numeric (v : Octets 16) (nowUs : ℕ) {value : UInt32}
    (hs : w.m.state = .waitScRandom)
    (hf : f4 su.cmac w.m.peerPublicX w.m.localPublicX v.rev 0 = .ok w.m.peerConfirm)
    (ha : w.m.negotiation.association = .numericComparison)
    (hg : g2 su.cmac w.m.localPublicX w.m.peerPublicX w.m.localRandom v.rev = .ok value) :
    onPdu su port send w (Code.pairingRandom.octet :: v.bytes) nowUs =
      userAction su ((((w.emit (.received (Code.pairingRandom.octet :: v.bytes))).arm nowUs).modify
        fun m => { m with peerRandom := v.rev, numericValue := value % 1000000 }).setState
          .waitNumericConfirmation) .confirmNumeric (value % 1000000) := by
  rw [onPdu_value128 _ rfl v nowUs (by rw [hs]; rfl)]
  simp only [dispatch, handleScRandom, World.arm_m, World.emit_m, hs, ↓reduceIte, ne_eq,
    not_true_eq_false, parseValue128_value .pairingRandom rfl v, World.modify_m, hf, ha, hg]
  rfl

variable (hport : ∀ k, (port k).status = .ok)
include hport

lemma startSecureConnections_ok (send : Send) (nowUs : ℕ)
    (ha : w.m.negotiation.association = .justWorks ∨
      w.m.negotiation.association = .numericComparison)
    (hc : su.cmac.isSome = true) (hg : su.ops.generatePublicKey = true)
    (hd : su.ops.generateDhkey = true) :
    startSecureConnections su port send w nowUs =
      (((w.setState .waitLocalPublicKey).arm nowUs).emit .generatePublicKey).answered := by
  have hn : su.cmac.isNone = false := by simpa using hc
  rw [startSecureConnections, if_neg (by tauto), if_neg (by simp [hn, hg, hd])]
  simp [hport]

lemma startConfirmExchange_ok (nowUs : ℕ) {confirm : Octets 16}
    (hc : confirmValue su w.m (Octets.ofFun 16 (port w.calls).octets) = .ok confirm) :
    startConfirmExchange su port (sendAt su port 0) w nowUs =
      sentOk (exchanged w (Octets.ofFun 16 (port w.calls).octets))
        (Code.pairingConfirm.octet :: confirm.rev.bytes) nowUs := by
  have hc' : confirmValue su { w.m with localRandom := Octets.ofFun 16 (port w.calls).octets }
      (Octets.ofFun 16 (port w.calls).octets) = .ok confirm := hc
  simp only [startConfirmExchange, randomOctets_ok hport, World.modify_m, World.emit_m,
    World.answered_m, hc']
  rw [encodeAndSend_value128 rfl, sendPdu_ok hport]
  rfl

lemma onPdu_confirm (v : Octets 16) (nowUs : ℕ) (hs : w.m.state = .waitPairingConfirm) :
    onPdu su port (sendAt su port 0) w (Code.pairingConfirm.octet :: v.bytes) nowUs =
      sentOk ((((w.emit (.received (Code.pairingConfirm.octet :: v.bytes))).arm nowUs).modify
        fun m => { m with peerConfirm := v.rev }).setState .waitPairingRandom)
        (Code.pairingRandom.octet :: w.m.localRandom.rev.bytes) nowUs := by
  rw [onPdu_value128 _ rfl v nowUs (by rw [hs]; rfl)]
  simp only [dispatch, handleConfirm, World.arm_m, World.emit_m, hs, reduceCtorEq, ↓reduceIte,
    ne_eq, not_true_eq_false, parseValue128_value .pairingConfirm rfl v]
  rw [encodeAndSend_value128 rfl, sendPdu_ok hport]
  rfl

lemma onPdu_random (send : Send) (v : Octets 16)
    (nowUs : ℕ) (hs : w.m.state = .waitPairingRandom) {stk : Octets 16}
    (hc : confirmValue su w.m v.rev = .ok w.m.peerConfirm)
    (hk : s1 su.aes w.m.tk v.rev w.m.localRandom = .ok stk) :
    onPdu su port send w (Code.pairingRandom.octet :: v.bytes) nowUs =
      encrypting (((w.emit (.received (Code.pairingRandom.octet :: v.bytes))).arm nowUs).modify
        fun m => { m with stk := maskKey m.negotiation.encryptionKeySize stk }) nowUs := by
  rw [onPdu_value128 _ rfl v nowUs (by rw [hs]; rfl)]
  have hc' : confirmValue su { w.m with deadlineUs := timeoutDeadline nowUs } v.rev =
      .ok w.m.peerConfirm := hc
  dsimp only [dispatch]
  rw [if_neg (by simp [hs]), handleRandom, if_neg (by simp [hs]),
    parseValue128_value .pairingRandom rfl]
  simp [hc', hk, startEncryption, encrypting, hport]

lemma onLocalPublicKey_ok (x y : Octets 32) (nowUs : ℕ) (hs : w.m.state = .waitLocalPublicKey) :
    onLocalPublicKey su (sendAt su port 0) w true (some x) (some y) nowUs =
      sentOk ((w.modify fun m => { m with localPublicX := x, localPublicY := y }).setState
        .waitPeerPublicKey)
        (Code.pairingPublicKey.octet :: (x.rev.bytes ++ y.rev.bytes)) nowUs := by
  simp only [onLocalPublicKey, hs, ne_eq, not_true_eq_false, ↓reduceIte]
  rw [encodeAndSend_publicKey, sendPdu_ok hport]
  rfl

lemma onPdu_publicKey (send : Send) (x y : Octets 32)
    (nowUs : ℕ) (hs : w.m.state = .waitPeerPublicKey) (hne : w.m.localPublicX ≠ x.rev) :
    onPdu su port send w (Code.pairingPublicKey.octet :: (x.bytes ++ y.bytes)) nowUs =
      ((((((w.emit (.received (Code.pairingPublicKey.octet :: (x.bytes ++ y.bytes)))).arm
        nowUs).modify fun m => { m with peerPublicX := x.rev, peerPublicY := y.rev }).setState
          .waitDhkey).arm nowUs).emit (.generateDhkey x.rev y.rev)).answered := by
  refine Eq.trans (onPdu_dispatch send ⟨.pairingPublicKey, x.bytes ++ y.bytes⟩ nowUs
    (by rw [hs]; rfl) (by simp [Code.dataLen]) rfl) ?_
  simp only [dispatch, handleScPublicKey, World.arm_m, World.emit_m, hs, ne_eq,
    not_true_eq_false, ↓reduceIte, parsePublicKey_keys, World.modify_m]
  simp [hne, hport]

lemma onDhkey_ok (send : Send) (d : Octets 32) (nowUs : ℕ) (hs : w.m.state = .waitDhkey) :
    onDhkey su port send w true (some d) nowUs =
      (((w.answered.emit (.random (Octets.ofFun 16 (port w.calls).octets).bytes)).modify fun m =>
        { m with localRandom := Octets.ofFun 16 (port w.calls).octets, dhkey := d }).setState
          .waitScConfirm).arm nowUs := by
  simp only [onDhkey, hs, ne_eq, not_true_eq_false, ↓reduceIte, randomOctets_ok hport]

lemma onPdu_scConfirm (v : Octets 16) (nowUs : ℕ) (hs : w.m.state = .waitScConfirm) :
    onPdu su port (sendAt su port 0) w (Code.pairingConfirm.octet :: v.bytes) nowUs =
      sentOk ((((w.emit (.received (Code.pairingConfirm.octet :: v.bytes))).arm nowUs).modify
        fun m => { m with peerConfirm := v.rev }).setState .waitScRandom)
        (Code.pairingRandom.octet :: w.m.localRandom.rev.bytes) nowUs := by
  rw [onPdu_value128 _ rfl v nowUs (by rw [hs]; rfl)]
  simp only [dispatch, handleScConfirm, World.arm_m, World.emit_m, hs, ↓reduceIte, ne_eq,
    not_true_eq_false, parseValue128_value .pairingConfirm rfl v]
  rw [encodeAndSend_value128 rfl, sendPdu_ok hport]
  rfl

lemma startScStage2_ok (nowUs : ℕ) {macKey ltk check : Octets 16}
    (h5 : f5 su.cmac w.m.dhkey w.m.localRandom w.m.peerRandom (a1 su) (a2 su) = .ok (macKey, ltk))
    (h6 : f6 su.cmac macKey w.m.localRandom w.m.peerRandom (.zero 16) (localIoCap su) (a1 su)
      (a2 su) = .ok check) :
    startScStage2 su (sendAt su port 0) w nowUs =
      sentOk (stage2 w macKey ltk) (Code.pairingDhkeyCheck.octet :: check.rev.bytes) nowUs := by
  simp only [startScStage2, h5, World.modify_m, h6]
  rw [encodeAndSend_value128 rfl, sendPdu_ok hport]
  rfl

lemma onPdu_dhkeyCheck (send : Send) (v : Octets 16) (nowUs : ℕ) (hs : w.m.state = .waitDhkeyCheck)
    (h6 : f6 su.cmac w.m.macKey w.m.peerRandom w.m.localRandom (.zero 16) (peerIoCap w.m)
      (a2 su) (a1 su) = .ok v.rev) :
    onPdu su port send w (Code.pairingDhkeyCheck.octet :: v.bytes) nowUs =
      encrypting (((w.emit (.received (Code.pairingDhkeyCheck.octet :: v.bytes))).arm nowUs).modify
        fun m => { m with peerDhkeyCheck := v.rev }) nowUs := by
  rw [onPdu_value128 _ rfl v nowUs (by rw [hs]; rfl)]
  have h6' : f6 su.cmac w.m.macKey w.m.peerRandom w.m.localRandom (.zero 16)
      (peerIoCap { w.m with peerDhkeyCheck := v.rev, deadlineUs := timeoutDeadline nowUs }) (a2 su)
        (a1 su) = .ok v.rev := h6
  dsimp only [dispatch]
  rw [handleScDhkeyCheck, if_neg (by simp [hs]), parseValue128_value .pairingDhkeyCheck rfl]
  simp [h6', startEncryption, encrypting, hport]

end

end Bluzing.Smp
