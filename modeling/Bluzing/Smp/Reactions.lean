import Bluzing.Smp.Runs

/-! What one input can do to the pairing manager, said once. -/
namespace Bluzing.Smp

def State.waiting : State → Bool
  | .idle | .complete | .failed => false
  | _ => true

def State.terminal : State → Bool
  | .complete | .failed => true
  | _ => false

def Event.isNote : Event → Bool
  | .called _ | .ignored _ | .startReturned _ | .random _ | .generatePublicKey
  | .generateDhkey _ _ | .getLocalKeys _ | .userAction _ _ => true
  | _ => false

namespace World
variable (w : World) (e : Event) (f : Manager → Manager) (s : State) (nowUs : ℕ)

@[simp] lemma emit_m : (w.emit e).m = w.m := rfl
@[simp] lemma emit_calls : (w.emit e).calls = w.calls := rfl
@[simp] lemma emit_history : (w.emit e).history = e :: w.history := rfl
@[simp] lemma modify_m : (w.modify f).m = f w.m := rfl
@[simp] lemma modify_calls : (w.modify f).calls = w.calls := rfl
@[simp] lemma modify_history : (w.modify f).history = w.history := rfl
@[simp] lemma setState_m : (w.setState s).m = { w.m with state := s } := rfl
@[simp] lemma setState_calls : (w.setState s).calls = w.calls := rfl
@[simp] lemma setState_history : (w.setState s).history = .stateSet s :: w.history := rfl
@[simp] lemma answered_m : w.answered.m = w.m := rfl
@[simp] lemma answered_history : w.answered.history = w.history := rfl
@[simp] lemma arm_m : (w.arm nowUs).m = { w.m with deadlineUs := timeoutDeadline nowUs } := rfl
@[simp] lemma arm_calls : (w.arm nowUs).calls = w.calls := rfl
@[simp] lemma arm_history : (w.arm nowUs).history = w.history := rfl

end World

@[simp] lemma finish_deadlineUs (su : Setup) (w : World) (r : Result) :
    (finish su w r).m.deadlineUs = 0 := by
  unfold finish
  dsimp only
  split <;> rfl

@[simp] lemma finish_state (su : Setup) (w : World) (r : Result) :
    (finish su w r).m.state = if r = .ok then .complete else .failed := by
  unfold finish
  dsimp only
  split <;> rfl

@[simp] lemma userAction_m (su : Setup) (w : World) (action : UserAction) (value : UInt32) :
    (userAction su w action value).m = w.m := by
  unfold userAction
  split <;> rfl

lemma timeoutDeadline_ne_zero (nowUs : ℕ) : timeoutDeadline nowUs ≠ 0 := by
  unfold timeoutDeadline uint64Max smpTimeoutUs
  split <;> omega

def requestPdu (f : PairingFeatures) : Bytes :=
  [0x01, f.ioCapability, f.oobDataFlag, f.authReq, f.maxEncryptionKeySize,
    f.initiatorKeyDistribution, f.responderKeyDistribution]

def responsePdu (f : PairingFeatures) : Bytes :=
  [0x02, f.ioCapability, f.oobDataFlag, f.authReq, f.maxEncryptionKeySize,
    f.initiatorKeyDistribution, f.responderKeyDistribution]

lemma responsePdu_featuresOf {data : Bytes} (h : data.length = 6) :
    responsePdu (featuresOf data) = Code.pairingResponse.octet :: data := by
  match data, h with
  | [_, _, _, _, _, _], _ => rfl

section

variable {su : Setup} {send : Send} {w : World} {nowUs : ℕ}

lemma encodeValue128_eq {code : Code} (h : isValue128 code = true) (v : Octets 16) :
    ∃ wr, encodeValue128 (.init 17) code v = .ok wr ∧ wr.data = code.octet :: v.bytes := by
  obtain ⟨wr, he, -, hd⟩ := (Writer.writes_bytes [code.octet]).bind (Writer.writes_bytes v.bytes)
    (.init 17) (by simp [Writer.init])
  exact ⟨wr, (if_neg (by simp [h])).trans he, hd⟩

lemma encodeAndSend_value128 {code : Code} (h : isValue128 code = true) (v : Octets 16) :
    encodeAndSend send w (encodeValue128 (.init 17) code v) nowUs =
      sendPdu send w (code.octet :: v.bytes) nowUs := by
  obtain ⟨wr, he, hd⟩ := encodeValue128_eq h v
  rw [he, encodeAndSend, hd]

lemma encodeAndSend_publicKey (x y : Octets 32) :
    encodeAndSend send w (encodePublicKey (.init 65) x y) nowUs =
      sendPdu send w (Code.pairingPublicKey.octet :: (x.bytes ++ y.bytes)) nowUs := by
  obtain ⟨wr, he, -, hd⟩ := (Writer.writes_bytes [Code.pairingPublicKey.octet]).bind
    ((Writer.writes_bytes x.bytes).bind (Writer.writes_bytes y.bytes)) (.init 65)
      (by simp [Writer.init])
  rw [show encodePublicKey (.init 65) x y = .ok wr from he, encodeAndSend, hd]
  rfl

lemma encodeCentralIdentification_eq (rand : Octets 8) (ediv : UInt16) :
    ∃ wr, encodeCentralIdentification (.init 17) rand ediv = .ok wr ∧
      wr.data = Code.centralIdentification.octet :: (rand.bytes ++ writeLe16 ediv) := by
  obtain ⟨wr, he, -, hd⟩ := (Writer.writes_bytes [Code.centralIdentification.octet]).bind
    ((Writer.writes_bytes rand.bytes).bind (Writer.writes_bytes (writeLe16 ediv))) (.init 17)
      (by simp [Writer.init, writeLe16])
  exact ⟨wr, he, hd⟩

lemma encodeIdentityAddress_eq {addressType : UInt8} (h : ¬ addressType > 1)
    (address : Octets 6) :
    ∃ wr, encodeIdentityAddress (.init 17) addressType address = .ok wr ∧
      wr.data = Code.identityAddressInformation.octet :: addressType :: address.bytes := by
  obtain ⟨wr, he, -, hd⟩ := (Writer.writes_bytes [Code.identityAddressInformation.octet]).bind
    ((Writer.writes_bytes [addressType]).bind (Writer.writes_bytes address.bytes)) (.init 17)
      (by simp [Writer.init])
  exact ⟨wr, (if_neg h).trans he, hd⟩

def failReason (reason : UInt8) : Bool := !(reason < 0x01 || reason > 0x10)

lemma sendFailed_eq {reason : UInt8} (h : failReason reason = true) (result : Result) :
    sendFailed su send w reason nowUs result =
      finish su (sendPdu send w [Code.pairingFailed.octet, reason] nowUs).1 result := by
  have hp : parseCommand [Code.pairingFailed.octet, reason] = .ok ⟨.pairingFailed, [reason]⟩ :=
    parseCommand_octet rfl h
  unfold sendFailed encodeU8Command
  rw [hp]
  simp [Writer.writeU8, Writer.writeBytes_eq, Writer.init, bind, Except.bind]

lemma encodePairingFeatures_eq {f : PairingFeatures} (h : pairingFeaturesValid f = true) :
    ∃ wr, encodePairingFeatures (.init 7) .pairingRequest f = .ok wr ∧ wr.data = requestPdu f := by
  unfold encodePairingFeatures
  rw [if_neg (by simp [h])]
  simp only [Writer.writeU8, Writer.writeBytes, Writer.init, Writer.remaining, bind, Except.bind,
    List.length_cons, List.length_nil]
  exact ⟨_, rfl, rfl⟩

end

section

variable (su : Setup) (w : World) (nowUs : ℕ)

def accepted (response : PairingFeatures) (negotiation : Negotiation) : World :=
  (w.arm nowUs).modify fun m => { m with negotiation, pres := reversedPdu (responsePdu response) }

def exchanged (random : Octets 16) : World :=
  ((w.answered.emit (.random random.bytes)).modify fun m =>
    { m with localRandom := random }).setState .waitPairingConfirm

def encrypting : World :=
  (((w.setState .waitEncryption).arm nowUs).emit
    (.startEncryption w.m.stk w.m.negotiation.encryptionKeySize w.m.negotiation)).answered

def keysPending : World :=
  w.modify fun m =>
    { m with
      peerKeys := initialPeerKeys m
      peerKeysCompleteMask := 0
      peerLtkReceived := false
      peerIrkReceived := false }

def stage2 (macKey ltk : Octets 16) : World :=
  (w.modify fun m =>
    { m with macKey, stk := maskKey m.negotiation.encryptionKeySize ltk }).setState .waitDhkeyCheck

def transmit (send : Send) (pdu : Bytes) : World :=
  let r := sendPdu send w pdu nowUs
  if r.2 = .ok then r.1 else finish su r.1 .errorProtocol

end

inductive TkReady (su : Setup) : World → Input → World → Prop
  | justWorks {w nowUs response negotiation} (hs : w.m.state = .waitPairingResponse)
      (hn : negotiatePairing su.config.features response = .ok negotiation)
      (hsc : negotiation.secureConnections = false) (ha : negotiation.association = .justWorks) :
      TkReady su w (.pdu (responsePdu response) nowUs)
        ((accepted w nowUs response negotiation).modify fun m => { m with tk := .zero 16 })
  | displayed {w nowUs response negotiation} (o : Octets 4) (hs : w.m.state = .waitPairingResponse)
      (hn : negotiatePairing su.config.features response = .ok negotiation)
      (hsc : negotiation.secureConnections = false)
      (ha : negotiation.association = .passkeyInitiatorDisplays) :
      TkReady su w (.pdu (responsePdu response) nowUs)
        (userAction su
          (setPasskeyTk ((accepted w nowUs response negotiation).answered.emit (.random o.bytes))
            (randomPasskey o)) .displayPasskey (randomPasskey o))
  | passkey {w nowUs passkey} (hs : w.m.state = .waitTk) (hp : ¬ passkey > 999999)
      (ha : w.m.negotiation.association ≠ .oob) :
      TkReady su w (.call (.providePasskey passkey) nowUs) (setPasskeyTk w passkey)
  | oob {w nowUs tk} (hs : w.m.state = .waitTk) (ha : w.m.negotiation.association = .oob) :
      TkReady su w (.call (.provideOobTk (some tk)) nowUs) (w.modify fun m => { m with tk })

inductive Stage2Ready (su : Setup) : World → Input → World → Prop
  | committed {w nowUs} {v : Octets 16} (hs : w.m.state = .waitScRandom)
      (hf : f4 su.cmac w.m.peerPublicX w.m.localPublicX v.rev 0 = .ok w.m.peerConfirm)
      (ha : w.m.negotiation.association ≠ .numericComparison) :
      Stage2Ready su w (.pdu (Code.pairingRandom.octet :: v.bytes) nowUs)
        ((w.arm nowUs).modify fun m => { m with peerRandom := v.rev })
  | confirmed {w nowUs} (hs : w.m.state = .waitNumericConfirmation) :
      Stage2Ready su w (.call (.confirmNumeric true) nowUs) w

inductive Transmits (su : Setup) : World → Input → World → Bytes → Prop
  | confirm {w i w₀ random confirm} (ht : TkReady su w i w₀)
      (hc : confirmValue su w₀.m random = .ok confirm) :
      Transmits su w i (exchanged w₀ random) (Code.pairingConfirm.octet :: confirm.rev.bytes)
  | random {w nowUs} {v : Octets 16} (hs : w.m.state = .waitPairingConfirm) :
      Transmits su w (.pdu (Code.pairingConfirm.octet :: v.bytes) nowUs)
        (((w.arm nowUs).modify fun m => { m with peerConfirm := v.rev }).setState
          .waitPairingRandom)
        (Code.pairingRandom.octet :: w.m.localRandom.rev.bytes)
  | publicKey {w nowUs} {x y : Octets 32} (hs : w.m.state = .waitLocalPublicKey) :
      Transmits su w (.call (.onLocalPublicKey true (some x) (some y)) nowUs)
        ((w.modify fun m => { m with localPublicX := x, localPublicY := y }).setState
          .waitPeerPublicKey)
        (Code.pairingPublicKey.octet :: (x.rev.bytes ++ y.rev.bytes))
  | scRandom {w nowUs} {v : Octets 16} (hs : w.m.state = .waitScConfirm) :
      Transmits su w (.pdu (Code.pairingConfirm.octet :: v.bytes) nowUs)
        (((w.arm nowUs).modify fun m => { m with peerConfirm := v.rev }).setState .waitScRandom)
        (Code.pairingRandom.octet :: w.m.localRandom.rev.bytes)
  | dhkeyCheck {w i w₀ macKey ltk check} (h2 : Stage2Ready su w i w₀)
      (h5 : f5 su.cmac w₀.m.dhkey w₀.m.localRandom w₀.m.peerRandom (a1 su) (a2 su) =
        .ok (macKey, ltk))
      (h6 : f6 su.cmac macKey w₀.m.localRandom w₀.m.peerRandom (.zero 16) (localIoCap su)
        (a1 su) (a2 su) = .ok check) :
      Transmits su w i (stage2 w₀ macKey ltk) (Code.pairingDhkeyCheck.octet :: check.rev.bytes)

structure StoresKey (w : World) (c : Command) (nowUs : ℕ) (m : Manager) : Prop where
  parsed : parseCommand (c.code.octet :: c.data) = .ok c
  state : w.m.state = .waitKeyDistribution
  inOrder : outOfOrder w.m c.code = false
  stored : storeKey (w.arm nowUs).m c = some m

inductive Rests (su : Setup) : World → Input → World → Prop
  | requestTk {w nowUs response negotiation action} (hs : w.m.state = .waitPairingResponse)
      (hn : negotiatePairing su.config.features response = .ok negotiation)
      (hsc : negotiation.secureConnections = false)
      (ha : negotiation.association = .passkeyResponderDisplays ∨
        negotiation.association = .passkeyBothInput ∨ negotiation.association = .oob) :
      Rests su w (.pdu (responsePdu response) nowUs)
        (userAction su ((accepted w nowUs response negotiation).setState .waitTk) action 0)
  | generatePublicKey {w nowUs response negotiation} (hs : w.m.state = .waitPairingResponse)
      (hn : negotiatePairing su.config.features response = .ok negotiation)
      (hsc : negotiation.secureConnections = true)
      (ha : negotiation.association = .justWorks ∨ negotiation.association = .numericComparison) :
      Rests su w (.pdu (responsePdu response) nowUs)
        ((((accepted w nowUs response (dropEncKey negotiation)).setState .waitLocalPublicKey).arm
          nowUs).emit .generatePublicKey).answered
  | encryptLegacy {w nowUs stk} {v : Octets 16} (hs : w.m.state = .waitPairingRandom)
      (hc : confirmValue su w.m v.rev = .ok w.m.peerConfirm)
      (hk : s1 su.aes w.m.tk v.rev w.m.localRandom = .ok stk) :
      Rests su w (.pdu (Code.pairingRandom.octet :: v.bytes) nowUs)
        (encrypting ((w.arm nowUs).modify fun m =>
          { m with stk := maskKey m.negotiation.encryptionKeySize stk }) nowUs)
  | generateDhkey {w nowUs} {x y : Octets 32} (hs : w.m.state = .waitPeerPublicKey)
      (hne : w.m.localPublicX ≠ x.rev) :
      Rests su w (.pdu (Code.pairingPublicKey.octet :: (x.bytes ++ y.bytes)) nowUs)
        ((((((w.arm nowUs).modify fun m =>
          { m with peerPublicX := x.rev, peerPublicY := y.rev }).setState .waitDhkey).arm
            nowUs).emit (.generateDhkey x.rev y.rev)).answered)
  | dhkey {w nowUs d} {random : Octets 16} (hs : w.m.state = .waitDhkey) :
      Rests su w (.call (.onDhkey true (some d)) nowUs)
        ((((w.answered.emit (.random random.bytes)).modify fun m =>
          { m with localRandom := random, dhkey := d }).setState .waitScConfirm).arm nowUs)
  | askNumeric {w nowUs value} {v : Octets 16} (hs : w.m.state = .waitScRandom)
      (hf : f4 su.cmac w.m.peerPublicX w.m.localPublicX v.rev 0 = .ok w.m.peerConfirm)
      (ha : w.m.negotiation.association = .numericComparison) :
      Rests su w (.pdu (Code.pairingRandom.octet :: v.bytes) nowUs)
        (userAction su (((w.arm nowUs).modify fun m =>
          { m with peerRandom := v.rev, numericValue := value }).setState .waitNumericConfirmation)
            .confirmNumeric value)
  | encryptSc {w nowUs} {v : Octets 16} (hs : w.m.state = .waitDhkeyCheck)
      (h6 : f6 su.cmac w.m.macKey w.m.peerRandom w.m.localRandom (.zero 16) (peerIoCap w.m)
        (a2 su) (a1 su) = .ok v.rev) :
      Rests su w (.pdu (Code.pairingDhkeyCheck.octet :: v.bytes) nowUs)
        (encrypting ((w.arm nowUs).modify fun m => { m with peerDhkeyCheck := v.rev }) nowUs)
  | keysExpected {w nowUs} (hs : w.m.state = .waitEncryption)
      (hm : w.m.negotiation.responderKeyDistribution ≠ 0) :
      Rests su w (.call (.onEncryptionChanged true) nowUs)
        (((keysPending w).setState .waitKeyDistribution).arm nowUs)
  | keyStored {w nowUs c m} (hk : StoresKey w c nowUs m)
      (hne : (m.peerKeysCompleteMask &&& m.negotiation.responderKeyDistribution) ≠
        m.negotiation.responderKeyDistribution) :
      Rests su w (.pdu (c.code.octet :: c.data) nowUs) { w.arm nowUs with m }

inductive Distributes : World → Input → World → Prop
  | noKeys {w nowUs} (hs : w.m.state = .waitEncryption)
      (hm : w.m.negotiation.responderKeyDistribution = 0) :
      Distributes w (.call (.onEncryptionChanged true) nowUs) (keysPending w)
  | lastKey {w nowUs c m} (hk : StoresKey w c nowUs m)
      (he : (m.peerKeysCompleteMask &&& m.negotiation.responderKeyDistribution) =
        m.negotiation.responderKeyDistribution) :
      Distributes w (.pdu (c.code.octet :: c.data) nowUs) { w.arm nowUs with m }

structure Scratch (w w₁ : World) : Prop where
  state : w₁.m.state = w.m.state
  preq : w₁.m.preq = w.m.preq
  response : w.m.state ≠ .waitPairingResponse →
    w₁.m.negotiation = w.m.negotiation ∧ w₁.m.pres = w.m.pres
  tk : w.m.state ≠ .waitPairingResponse → w.m.state ≠ .waitTk →
    w₁.m.tk = w.m.tk ∧ w₁.m.localRandom = w.m.localRandom
  peerConfirm : w₁.m.peerConfirm = w.m.peerConfirm
  localPublicX : w₁.m.localPublicX = w.m.localPublicX
  peerPublicX : w.m.state ≠ .waitPeerPublicKey → w₁.m.peerPublicX = w.m.peerPublicX
  dhkey : w₁.m.dhkey = w.m.dhkey
  peerRandom : w.m.state ≠ .waitScRandom → w₁.m.peerRandom = w.m.peerRandom
  macKey : w.m.state ≠ .waitScRandom → w.m.state ≠ .waitNumericConfirmation →
    w₁.m.macKey = w.m.macKey ∧ w₁.m.stk = w.m.stk
  keys : w₁.m.peerKeys = w.m.peerKeys ∧ w₁.m.peerLtkReceived = w.m.peerLtkReceived
  deadline : w₁.m.deadlineUs = w.m.deadlineUs ∨ w₁.m.deadlineUs ≠ 0
  history : ∃ notes, w₁.history = notes ++ w.history ∧ ∀ e ∈ notes, e.isNote = true

inductive Reacts (su : Setup) (port : ℕ → Reply) (send : Send) (w : World) (i : Input) :
    World → Prop
  | unchanged (hi : w.m.state.waiting = true → ∃ c nowUs, i = .call c nowUs) :
      Reacts su port send w i w
  | startRejected (hi : ∃ nowUs, i = .call .start nowUs) :
      Reacts su port send w i (w.emit (.startReturned .invalidArgument))
  | starts {nowUs} (hi : i = .call .start nowUs) (hs : startable su w.m = true) :
      Reacts su port send w i (start su send w nowUs).1
  | expires {nowUs} (hi : i = .call .tick nowUs) (hd : w.m.deadlineUs ≠ 0)
      (hdue : w.m.deadlineUs ≤ nowUs) (hs : w.m.state.terminal = false) :
      Reacts su port send w i (finish su w .errorTimeout)
  | fails {w₁ reason nowUs result} (hw : w.m.state.waiting = true) (hs : Scratch w w₁)
      (hf : failReason reason = true) (hr : result ≠ .ok) :
      Reacts su port send w i
        (finish su (sendPdu send w₁ [Code.pairingFailed.octet, reason] nowUs).1 result)
  | ends {w₁ result} (hw : w.m.state.waiting = true) (hs : Scratch w w₁) (hr : result ≠ .ok) :
      Reacts su port send w i (finish su w₁ result)
  | transmits {w₁ pdu nowUs} (ht : Transmits su w i w₁ pdu) :
      Reacts su port send w i (transmit su w₁ nowUs send pdu)
  | rests {w₁} (hr : Rests su w i w₁) : Reacts su port send w i w₁
  | breaks {w₁ result} (hs : Rests su w i w₁) (hr : result ≠ .ok) :
      Reacts su port send w i (finish su w₁ result)
  | distributes {w₁ nowUs} (hd : Distributes w i w₁) :
      Reacts su port send w i (finishKeyDistribution su port send w₁ nowUs)

namespace Scratch
variable {w w₁ w₂ : World}

lemma refl (w : World) : Scratch w w :=
  ⟨rfl, rfl, fun _ => ⟨rfl, rfl⟩, fun _ _ => ⟨rfl, rfl⟩, rfl, rfl, fun _ => rfl, rfl,
    fun _ => rfl, fun _ _ => ⟨rfl, rfl⟩, ⟨rfl, rfl⟩, .inl rfl, [], rfl, by simp⟩

lemma trans (h : Scratch w w₁) (h' : Scratch w₁ w₂) : Scratch w w₂ where
  state := h'.state.trans h.state
  preq := h'.preq.trans h.preq
  response hs :=
    have h₁ := h.response hs
    have h₂ := h'.response (h.state ▸ hs)
    ⟨h₂.1.trans h₁.1, h₂.2.trans h₁.2⟩
  tk hs hs' :=
    have h₁ := h.tk hs hs'
    have h₂ := h'.tk (h.state ▸ hs) (h.state ▸ hs')
    ⟨h₂.1.trans h₁.1, h₂.2.trans h₁.2⟩
  peerConfirm := h'.peerConfirm.trans h.peerConfirm
  localPublicX := h'.localPublicX.trans h.localPublicX
  peerPublicX hs := (h'.peerPublicX (h.state ▸ hs)).trans (h.peerPublicX hs)
  dhkey := h'.dhkey.trans h.dhkey
  peerRandom hs := (h'.peerRandom (h.state ▸ hs)).trans (h.peerRandom hs)
  macKey hs hs' :=
    have h₁ := h.macKey hs hs'
    have h₂ := h'.macKey (h.state ▸ hs) (h.state ▸ hs')
    ⟨h₂.1.trans h₁.1, h₂.2.trans h₁.2⟩
  keys := ⟨h'.keys.1.trans h.keys.1, h'.keys.2.trans h.keys.2⟩
  deadline := by
    rcases h'.deadline with h₂ | h₂
    · rw [h₂]
      exact h.deadline
    · exact .inr h₂
  history := by
    obtain ⟨notes, hh, hn⟩ := h.history
    obtain ⟨notes', hh', hn'⟩ := h'.history
    refine ⟨notes' ++ notes, by rw [hh', hh, List.append_assoc], ?_⟩
    intro e he
    exact (List.mem_append.mp he).elim (hn' e) (hn e)

lemma arm (nowUs : ℕ) : Scratch w (w.arm nowUs) :=
  { refl w with deadline := .inr (timeoutDeadline_ne_zero nowUs) }

lemma answered : Scratch w w.answered := { refl w with }

lemma note {e : Event} (he : e.isNote = true) : Scratch w (w.emit e) :=
  { refl w with history := ⟨[e], rfl, by simpa using he⟩ }

lemma accepted (hs : w.m.state = .waitPairingResponse) (nowUs : ℕ) (response : PairingFeatures)
    (negotiation : Negotiation) : Scratch w (accepted w nowUs response negotiation) :=
  { arm (w := w) nowUs with response := fun h => absurd hs h }

lemma setTk (hs : w.m.state = .waitPairingResponse ∨ w.m.state = .waitTk) (tk : Octets 16) :
    Scratch w (w.modify fun m => { m with tk }) :=
  { refl w with tk := fun h h' => absurd hs (not_or.mpr ⟨h, h'⟩) }

lemma setLocalRandom (hs : w.m.state = .waitPairingResponse ∨ w.m.state = .waitTk)
    (random : Octets 16) : Scratch w (w.modify fun m => { m with localRandom := random }) :=
  { refl w with tk := fun h h' => absurd hs (not_or.mpr ⟨h, h'⟩) }

lemma peerKey (hs : w.m.state = .waitPeerPublicKey) (x y : Octets 32) :
    Scratch w (w.modify fun m => { m with peerPublicX := x, peerPublicY := y }) :=
  { refl w with peerPublicX := fun h => absurd hs h }

lemma setPeerRandom (hs : w.m.state = .waitScRandom) (v : Octets 16) :
    Scratch w (w.modify fun m => { m with peerRandom := v }) :=
  { refl w with peerRandom := fun h => absurd hs h }

lemma stage2Keys (hs : w.m.state = .waitScRandom ∨ w.m.state = .waitNumericConfirmation)
    (macKey stk : Octets 16) : Scratch w (w.modify fun m => { m with macKey, stk }) :=
  { refl w with macKey := fun h h' => absurd hs (not_or.mpr ⟨h, h'⟩) }

lemma dhkeyCheck (v : Octets 16) : Scratch w (w.modify fun m => { m with peerDhkeyCheck := v }) :=
  { refl w with }

lemma setLocalKeys (keys : DistributedKeys) :
    Scratch w (w.modify fun m => { m with localKeys := keys }) :=
  { refl w with }

lemma fetchLocalKeys (su : Setup) (port : ℕ → Reply) (w : World) (mask : UInt8) :
    Scratch w (fetchLocalKeys su port w mask).1 := by
  have hzero : Scratch w (w.modify fun m => { m with localKeys := .zero }) := setLocalKeys .zero
  have hget := (hzero.trans (note (e := .getLocalKeys mask) rfl)).trans answered
  unfold Smp.fetchLocalKeys
  dsimp only
  split
  · exact hzero
  split
  · exact hzero
  split
  · exact hget
  · exact hget.trans (setLocalKeys _)

lemma userAction (su : Setup) (action : UserAction) (value : UInt32) :
    Scratch w (userAction su w action value) := by
  unfold Smp.userAction
  split
  · exact note rfl
  · exact refl w

end Scratch

structure SiteRules (su : Setup) (R : World → World → Prop) : Prop where
  refl (w : World) : R w w
  trans {w w₁ w₂ : World} : R w w₁ → R w₁ w₂ → R w w₂
  sent (w : World) (pdu : Bytes) (nowUs : ℕ) : R w ((w.arm nowUs).emit (.sent pdu))
  returned (w : World) (pdu : Bytes) (st : Status) (s : State) :
    R w (w.emit (.returned pdu st s))
  failed (w : World) {r : Result} (hr : r ≠ .ok) : R w (finish su w r)

namespace SiteRules
variable {su : Setup} {R : World → World → Prop} {send : Send} {w w₁ : World}

lemma sendPdu (h : SiteRules su R) (hsend : ∀ w pdu, R w (send w pdu).1) (w : World)
    (pdu : Bytes) (nowUs : ℕ) : R w (sendPdu send w pdu nowUs).1 :=
  h.trans (h.trans (h.sent w pdu nowUs) (hsend _ pdu)) (h.returned _ pdu _ _)

lemma transmit (h : SiteRules su R) (hsend : ∀ w pdu, R w (send w pdu).1) {pdu : Bytes}
    {nowUs : ℕ} (hw : R w ((w₁.arm nowUs).emit (.sent pdu))) :
    R w (transmit su w₁ nowUs send pdu) := by
  have hsent : R w (Smp.sendPdu send w₁ pdu nowUs).1 :=
    h.trans (h.trans hw (hsend _ pdu)) (h.returned _ pdu _ _)
  unfold Smp.transmit
  dsimp only
  split
  · exact hsent
  · exact h.trans hsent (h.failed _ nofun)

lemma transmitted (h : SiteRules su R) (hsend : ∀ w pdu, R w (send w pdu).1) {pdu : Bytes}
    {nowUs : ℕ} (hw : R w w₁) : R w (Smp.transmit su w₁ nowUs send pdu) :=
  h.transmit hsend (h.trans hw (h.sent w₁ pdu nowUs))

lemma sendKeyPdus (h : SiteRules su R) (hsend : ∀ w pdu, R w (send w pdu).1) (nowUs : ℕ)
    (pdus : List (Except Status Writer)) (w : World) : R w (sendKeyPdus send w nowUs pdus).1 := by
  induction pdus generalizing w with
  | nil => exact h.refl w
  | cons pdu rest ih =>
    have hfirst : R w (encodeAndSend send w pdu nowUs).1 := by
      cases pdu with
      | error st => exact h.refl w
      | ok wr => exact h.sendPdu hsend w wr.data nowUs
    simp only [Smp.sendKeyPdus]
    split
    · exact h.trans hfirst (ih _)
    · exact hfirst

lemma sendKeyDistribution (h : SiteRules su R) (hsend : ∀ w pdu, R w (send w pdu).1)
    (hscratch : ∀ {w w₁}, Scratch w w₁ → R w w₁) (port : ℕ → Reply) (w : World) (nowUs : ℕ) :
    R w (sendKeyDistribution su port send w nowUs).1 := by
  have hfetch := hscratch (.fetchLocalKeys su port w w.m.negotiation.initiatorKeyDistribution)
  unfold Smp.sendKeyDistribution
  dsimp only
  split
  · exact h.trans hfetch (h.sendKeyPdus hsend nowUs _ _)
  · exact hfetch

end SiteRules

lemma TkReady.state {su : Setup} {w w₀ : World} {i : Input} (h : TkReady su w i w₀) :
    w.m.state = .waitPairingResponse ∨ w.m.state = .waitTk := by
  cases h with
  | justWorks hs | displayed _ hs => exact .inl hs
  | passkey hs | oob hs => exact .inr hs

lemma TkReady.scratch {su : Setup} {w w₀ : World} {i : Input} (h : TkReady su w i w₀) :
    Scratch w w₀ := by
  cases h with
  | @justWorks nowUs response negotiation hs =>
    have ha := Scratch.accepted hs nowUs response negotiation
    exact ha.trans (.setTk (.inl (ha.state.trans hs)) _)
  | @displayed nowUs response negotiation o hs =>
    have ha := (Scratch.accepted hs nowUs response negotiation).trans Scratch.answered
    have hr := ha.trans (Scratch.note (e := .random o.bytes) rfl)
    have ht := hr.trans (.setTk (.inl (hr.state.trans hs)) (passkeyTk (randomPasskey o)))
    exact ht.trans (.userAction su .displayPasskey (randomPasskey o))
  | passkey hs | oob hs => exact .setTk (.inr hs) _

lemma Stage2Ready.scratch {su : Setup} {w w₀ : World} {i : Input} (h : Stage2Ready su w i w₀) :
    Scratch w w₀ ∧
      (w.m.state = .waitScRandom ∨ w.m.state = .waitNumericConfirmation) := by
  cases h with
  | @committed nowUs v hs =>
    exact ⟨(Scratch.arm nowUs).trans (.setPeerRandom (w := w.arm nowUs) hs _), .inl hs⟩
  | confirmed hs => exact ⟨.refl _, .inr hs⟩

end Bluzing.Smp
