import Bluzing.Smp.Reactions

/-! Every call and every received PDU reacts as classified, handler by handler. -/
namespace Bluzing.Smp

def entry (w : World) : Input → World
  | .call c _ => w.emit (.called c)
  | .pdu octets _ => w.emit (if w.m.state.waiting then .received octets else .ignored octets)

def inputEvent : Input → Event
  | .call c _ => .called c
  | .pdu octets _ => .received octets

variable {su : Setup} {port : ℕ → Reply} {send : Send} {w w₀ w₁ : World} {i : Input} {nowUs : ℕ}

lemma sendFailed_reacts {reason : UInt8} {result : Result} (hw : w.m.state.waiting = true)
    (hs : Scratch w w₁) (hf : failReason reason = true) (hr : result ≠ .ok) :
    Reacts su port send w i (sendFailed su send w₁ reason nowUs result) := by
  rw [sendFailed_eq hf]
  exact .fails hw hs hf hr

lemma randomOctets_cases (port : ℕ → Reply) (n : ℕ) (w : World) :
    randomOctets port n w = (w.answered, none) ∨
      ∃ v : Octets n, randomOctets port n w = (w.answered.emit (.random v.bytes), some v) := by
  unfold randomOctets
  dsimp only
  split
  · exact .inr ⟨_, rfl⟩
  · exact .inl rfl

lemma startConfirmExchange_reacts (ht : TkReady su w i w₀) :
    Reacts su port send w i (startConfirmExchange su port send w₀ nowUs) := by
  have hs := ht.state
  have hsc := ht.scratch
  have hw : w.m.state.waiting = true := by rcases hs with hs | hs <;> rw [hs] <;> rfl
  unfold startConfirmExchange
  obtain hrand | ⟨random, hrand⟩ := randomOctets_cases port 16 w₀
  · simp only [hrand]
    exact sendFailed_reacts hw (hsc.trans .answered) rfl nofun
  · simp only [hrand]
    have hnote := (hsc.trans .answered).trans (Scratch.note (e := .random random.bytes) rfl)
    have hrnd := hnote.trans (.setLocalRandom (by rw [hnote.state]; exact hs) random)
    split
    · exact sendFailed_reacts hw hrnd rfl nofun
    next confirm hc =>
      rw [encodeAndSend_value128 rfl]
      exact .transmits (.confirm ht hc)

lemma startScStage2_reacts (h2 : Stage2Ready su w i w₀) :
    Reacts su port send w i (startScStage2 su send w₀ nowUs) := by
  obtain ⟨hsc, hs⟩ := h2.scratch
  have hw : w.m.state.waiting = true := by rcases hs with hs | hs <;> rw [hs] <;> rfl
  unfold startScStage2
  split
  · exact sendFailed_reacts hw hsc rfl nofun
  next macKey ltk h5 =>
    dsimp only
    split
    · refine sendFailed_reacts hw (hsc.trans (.stage2Keys ?_ macKey ltk)) rfl nofun
      rw [hsc.state]
      exact hs
    next check h6 =>
      rw [encodeAndSend_value128 rfl]
      have ht := Transmits.dhkeyCheck h2 h5 h6
      exact .transmits ht

lemma asked_reacts {st : Status} {result : Result} (hr : Rests su w i w₁) (hne : result ≠ .ok) :
    Reacts su port send w i (if st = .ok then w₁ else finish su w₁ result) := by
  split
  · exact .rests hr
  · exact .breaks hr hne

variable {c : Command}

lemma parseValue128_ok {v : Octets 16} (h : parseValue128 c = .ok v) : c.data = v.bytes := by
  unfold parseValue128 at h
  split at h
  · cases h
    rfl
  · cases h

lemma parsePublicKey_ok {x y : Octets 32} (h : parsePublicKey c = .ok (x, y)) :
    c.data = x.bytes ++ y.bytes := by
  unfold parsePublicKey at h
  split at h
  · cases h
    exact (List.take_append_drop 32 c.data).symm
  · cases h

lemma parsePairingFeatures_ok {f : PairingFeatures}
    (h : parsePairingFeatures c = .ok f) (hc : c.code = .pairingResponse) :
    c.code.octet :: c.data = responsePdu f := by
  unfold parsePairingFeatures at h
  split at h
  next hv =>
    cases h
    rw [hc, responsePdu_featuresOf hv.2.1]
  · cases h

variable {response : PairingFeatures} {success : Bool} {negotiation : Negotiation}

lemma startSecureConnections_reacts (hs : w.m.state = .waitPairingResponse)
    (hn : negotiatePairing su.config.features response = .ok negotiation)
    (hsc : negotiation.secureConnections = true) :
    Reacts su port send w (.pdu (responsePdu response) nowUs)
      (startSecureConnections su port send
        (accepted w nowUs response (dropEncKey negotiation)) nowUs) := by
  have hw : w.m.state.waiting = true := by rw [hs]; rfl
  have hacc := Scratch.accepted hs nowUs response (dropEncKey negotiation)
  unfold startSecureConnections
  split
  · exact sendFailed_reacts hw hacc rfl nofun
  next ha =>
    split
    · exact sendFailed_reacts hw hacc rfl nofun
    · refine asked_reacts (.generatePublicKey hs hn hsc ?_) nofun
      rw [not_and_or, not_not, not_not] at ha
      exact ha

lemma startLegacy_reacts (hs : w.m.state = .waitPairingResponse)
    (hn : negotiatePairing su.config.features response = .ok negotiation)
    (hsc : negotiation.secureConnections = false) :
    Reacts su port send w (.pdu (responsePdu response) nowUs)
      (startLegacy su port send (accepted w nowUs response negotiation) nowUs) := by
  have hw : w.m.state.waiting = true := by rw [hs]; rfl
  have hacc := Scratch.accepted hs nowUs response negotiation
  unfold startLegacy
  split
  next ha => exact startConfirmExchange_reacts (.justWorks hs hn hsc ha)
  next ha =>
    obtain hrand | ⟨o, hrand⟩ :=
      randomOctets_cases port 4 (accepted w nowUs response negotiation)
    · simp only [hrand]
      exact sendFailed_reacts hw (hacc.trans .answered) rfl nofun
    · simp only [hrand]
      exact startConfirmExchange_reacts (.displayed o hs hn hsc ha)
  next ha => exact .rests (.requestTk hs hn hsc (.inl ha))
  next ha => exact .rests (.requestTk hs hn hsc (.inr (.inl ha)))
  next ha => exact .rests (.requestTk hs hn hsc (.inr (.inr ha)))
  · exact sendFailed_reacts hw hacc rfl nofun

lemma unexpected_reacts (hw : w.m.state.waiting = true) :
    Reacts su port send w i (sendFailed su send (w.arm nowUs) 0x0A nowUs .errorProtocol) :=
  sendFailed_reacts hw (.arm nowUs) rfl nofun

section

variable (hw : w.m.state.waiting = true)
include hw

lemma handlePairingResponse_reacts (hc : c.code = .pairingResponse) :
    Reacts su port send w (.pdu (c.code.octet :: c.data) nowUs)
      (handlePairingResponse su port send (w.arm nowUs) c (c.code.octet :: c.data) nowUs) := by
  unfold handlePairingResponse
  split
  · exact unexpected_reacts hw
  next hs =>
    have hs : w.m.state = .waitPairingResponse := not_not.mp hs
    split
    · exact unexpected_reacts hw
    next response hp =>
      rw [parsePairingFeatures_ok hp hc]
      split
      · exact unexpected_reacts hw
      next negotiation hn =>
        dsimp only
        split
        next hsc => exact startSecureConnections_reacts hs hn hsc
        next hsc =>
          split
          · exact sendFailed_reacts hw (.accepted hs nowUs response negotiation) rfl nofun
          · exact startLegacy_reacts hs hn (Bool.eq_false_iff.mpr hsc)

lemma handleConfirm_reacts (hc : c.code = .pairingConfirm) :
    Reacts su port send w (.pdu (c.code.octet :: c.data) nowUs)
      (handleConfirm su send (w.arm nowUs) c nowUs) := by
  unfold handleConfirm
  split
  · exact unexpected_reacts hw
  next hs =>
    split
    · exact unexpected_reacts hw
    next v hp =>
      dsimp only
      rw [encodeAndSend_value128 rfl, parseValue128_ok hp, hc]
      exact .transmits (.random (not_not.mp hs))

lemma handleScConfirm_reacts (hc : c.code = .pairingConfirm) :
    Reacts su port send w (.pdu (c.code.octet :: c.data) nowUs)
      (handleScConfirm su send (w.arm nowUs) c nowUs) := by
  unfold handleScConfirm
  split
  · exact unexpected_reacts hw
  next hs =>
    split
    · exact unexpected_reacts hw
    next v hp =>
      dsimp only
      rw [encodeAndSend_value128 rfl, parseValue128_ok hp, hc]
      exact .transmits (.scRandom (not_not.mp hs))

lemma handleRandom_reacts (hc : c.code = .pairingRandom) :
    Reacts su port send w (.pdu (c.code.octet :: c.data) nowUs)
      (handleRandom su port send (w.arm nowUs) c nowUs) := by
  unfold handleRandom
  split
  · exact unexpected_reacts hw
  next hs =>
    have hs : w.m.state = .waitPairingRandom := not_not.mp hs
    split
    · exact unexpected_reacts hw
    next v hp =>
      rw [parseValue128_ok hp, hc]
      split
      · exact sendFailed_reacts hw (.arm nowUs) rfl nofun
      next expected he =>
        split
        · exact sendFailed_reacts hw (.arm nowUs) rfl nofun
        next heq =>
          rw [not_not] at heq
          subst heq
          split
          · exact sendFailed_reacts hw (.arm nowUs) rfl nofun
          next stk hk => exact asked_reacts (.encryptLegacy hs he hk) nofun

lemma handleScPublicKey_reacts (hc : c.code = .pairingPublicKey) :
    Reacts su port send w (.pdu (c.code.octet :: c.data) nowUs)
      (handleScPublicKey su port send (w.arm nowUs) c nowUs) := by
  unfold handleScPublicKey
  split
  · exact unexpected_reacts hw
  next hs =>
    have hs : w.m.state = .waitPeerPublicKey := not_not.mp hs
    split
    · exact unexpected_reacts hw
    next x y hp =>
      rw [parsePublicKey_ok hp, hc]
      dsimp only
      split
      · exact sendFailed_reacts hw
          ((Scratch.arm nowUs).trans (.peerKey (w := w.arm nowUs) hs x.rev y.rev)) rfl nofun
      next hne => exact asked_reacts (.generateDhkey hs hne) nofun

lemma handleScRandom_reacts (hc : c.code = .pairingRandom) :
    Reacts su port send w (.pdu (c.code.octet :: c.data) nowUs)
      (handleScRandom su send (w.arm nowUs) c nowUs) := by
  unfold handleScRandom
  split
  · exact unexpected_reacts hw
  next hs =>
    have hs : w.m.state = .waitScRandom := not_not.mp hs
    split
    · exact unexpected_reacts hw
    next v hp =>
      have hsc := (Scratch.arm nowUs).trans (.setPeerRandom (w := w.arm nowUs) hs v.rev)
      rw [parseValue128_ok hp, hc]
      dsimp only
      split
      · exact sendFailed_reacts hw hsc rfl nofun
      next expected he =>
        split
        · exact sendFailed_reacts hw hsc rfl nofun
        next heq =>
          rw [not_not] at heq
          subst heq
          split
          next ha =>
            split
            · exact sendFailed_reacts hw hsc rfl nofun
            · exact .rests (.askNumeric hs he ha)
          next ha => exact startScStage2_reacts (.committed hs he ha)

lemma handleScDhkeyCheck_reacts (hc : c.code = .pairingDhkeyCheck) :
    Reacts su port send w (.pdu (c.code.octet :: c.data) nowUs)
      (handleScDhkeyCheck su port send (w.arm nowUs) c nowUs) := by
  unfold handleScDhkeyCheck
  split
  · exact unexpected_reacts hw
  next hs =>
    split
    · exact unexpected_reacts hw
    next v hp =>
      have hsc := (Scratch.arm (w := w) nowUs).trans (.dhkeyCheck v.rev)
      rw [parseValue128_ok hp, hc]
      dsimp only
      split
      · exact sendFailed_reacts hw hsc rfl nofun
      next expected he =>
        split
        · exact sendFailed_reacts hw hsc rfl nofun
        next heq =>
          have heq : expected = v.rev := not_not.mp heq
          subst heq
          exact asked_reacts (.encryptSc (not_not.mp hs) he) nofun

lemma handleDistributedKey_reacts (hp : parseCommand (c.code.octet :: c.data) = .ok c) :
    Reacts su port send w (.pdu (c.code.octet :: c.data) nowUs)
      (handleDistributedKey su port send (w.arm nowUs) c nowUs) := by
  unfold handleDistributedKey
  split
  · exact unexpected_reacts hw
  next hs =>
    obtain ⟨hs, ho⟩ := not_or.mp hs
    split
    · exact unexpected_reacts hw
    next m hm =>
      have hk : StoresKey w c nowUs m := ⟨hp, not_not.mp hs, Bool.eq_false_iff.mpr ho, hm⟩
      dsimp only
      split
      next he => exact .distributes (.lastKey hk he)
      next hne => exact .rests (.keyStored hk hne)

lemma dispatch_reacts (hp : parseCommand (c.code.octet :: c.data) = .ok c) :
    Reacts su port send w (.pdu (c.code.octet :: c.data) nowUs)
      (dispatch su port send (w.arm nowUs) c (c.code.octet :: c.data) nowUs) := by
  unfold dispatch
  split
  next hc => exact handlePairingResponse_reacts hw hc
  next hc => exact handleScPublicKey_reacts hw hc
  next hc =>
    split
    · exact handleScConfirm_reacts hw hc
    · exact handleConfirm_reacts hw hc
  next hc =>
    split
    · exact handleScRandom_reacts hw hc
    · exact handleRandom_reacts hw hc
  next hc => exact handleScDhkeyCheck_reacts hw hc
  iterate 5 next => exact handleDistributedKey_reacts hw hp
  · exact .ends hw (.arm nowUs) nofun
  iterate 3 next => exact sendFailed_reacts hw (.arm nowUs) rfl nofun

end

lemma State.waiting_iff (s : State) :
    s.waiting = true ↔ ¬ (s = .idle ∨ s = .complete ∨ s = .failed) := by
  cases s <;> decide

lemma onPdu_ignored (hw : ¬ w.m.state.waiting = true) (pdu : Bytes) :
    onPdu su port send w pdu nowUs = w.emit (.ignored pdu) := by
  rw [onPdu, if_pos (not_not.mp (mt (State.waiting_iff _).mpr hw))]

lemma onPdu_reacts {pdu : Bytes} :
    Reacts su port send (entry w (.pdu pdu nowUs)) (.pdu pdu nowUs)
      (onPdu su port send w pdu nowUs) := by
  simp only [entry, onPdu]
  split
  next hw =>
    rw [if_neg ((State.waiting_iff _).mp hw)]
    split
    · exact sendFailed_reacts hw (.refl _) rfl nofun
    next c hp =>
      obtain ⟨rfl, -, -⟩ := parseCommand_ok hp
      exact dispatch_reacts hw hp
  next hw =>
    rw [if_pos (not_not.mp (mt (State.waiting_iff _).mpr hw))]
    exact .unchanged fun h => absurd h hw

def begun (su : Setup) (w : World) : World :=
  ((w.emit .started).modify fun m =>
    { m with preq := reversedPdu (requestPdu su.config.features) }).setState .waitPairingResponse

lemma start_eq (send : Send) (w : World) (nowUs : ℕ) :
    start su send w nowUs =
      if startable su w.m then
        let r := sendPdu send (begun su w) (requestPdu su.config.features) nowUs
        if r.2 = .ok then (r.1.emit (.startReturned .ok), .ok)
        else ((r.1.setState .idle).emit (.startReturned r.2), r.2)
      else (w.emit (.startReturned .invalidArgument), .invalidArgument) := by
  unfold start
  by_cases hv : pairingFeaturesValid su.config.features = true
  · obtain ⟨wr, he, hd⟩ := encodePairingFeatures_eq hv
    rw [he]
    by_cases hp : su.ops.send ∧ su.ops.random ∧ su.ops.startEncryption ∧ su.aes.isSome
    · by_cases hs : w.m.state = .idle
      · simp only [hp, hs, hv, hd, startable, ite_not, and_self, not_true_eq_false, ne_eq, or_self,
          ↓reduceIte, Bool.and_self, beq_self_eq_true]
        rfl
      · simp [hp, hs, startable]
    · have hn : startable su w.m = false := by
        simp only [startable, Bool.and_eq_false_iff]
        grind
      simp [hp, hn]
  · have he : encodePairingFeatures (.init 7) .pairingRequest su.config.features =
        .error .invalidArgument := by
      simp [encodePairingFeatures, hv]
    simp [he, startable, hv]

lemma start_reacts : Reacts su port send w (.call .start nowUs) (start su send w nowUs).1 := by
  by_cases hs : startable su w.m = true
  · exact .starts rfl hs
  · rw [start_eq, if_neg hs]
    exact .startRejected ⟨nowUs, rfl⟩

lemma onLocalPublicKey_reacts {x y : Option (Octets 32)} :
    Reacts su port send w (.call (.onLocalPublicKey success x y) nowUs)
      (onLocalPublicKey su send w success x y nowUs) := by
  unfold onLocalPublicKey
  split
  · exact .unchanged fun _ => ⟨_, _, rfl⟩
  next hs =>
    have hs := not_not.mp hs
    split
    · dsimp only
      rw [encodeAndSend_publicKey]
      exact .transmits (.publicKey hs)
    · exact sendFailed_reacts (by rw [hs]; rfl) (.refl w) rfl nofun

lemma onDhkey_reacts {d : Option (Octets 32)} :
    Reacts su port send w (.call (.onDhkey success d) nowUs)
      (onDhkey su port send w success d nowUs) := by
  unfold onDhkey
  split
  · exact .unchanged fun _ => ⟨_, _, rfl⟩
  next hs =>
    have hs : w.m.state = .waitDhkey := not_not.mp hs
    have hw : w.m.state.waiting = true := by rw [hs]; rfl
    split
    · obtain hrand | ⟨random, hrand⟩ := randomOctets_cases port 16 w
      · simp only [hrand]
        exact sendFailed_reacts hw .answered rfl nofun
      · simp only [hrand]
        exact .rests (.dhkey hs)
    · exact sendFailed_reacts hw (.refl w) rfl nofun

lemma onEncryptionChanged_reacts {enabled : Bool} :
    Reacts su port send w (.call (.onEncryptionChanged enabled) nowUs)
      (onEncryptionChanged su port send w enabled nowUs) := by
  unfold onEncryptionChanged
  split
  · exact .unchanged fun _ => ⟨_, _, rfl⟩
  next hs =>
    have hs : w.m.state = .waitEncryption := not_not.mp hs
    cases enabled with
    | false => exact .ends (by rw [hs]; rfl) (.refl w) nofun
    | true =>
      simp only [Bool.not_true, Bool.false_eq_true, ↓reduceIte]
      split
      next hm => exact .distributes (.noKeys hs hm)
      next hm => exact .rests (.keysExpected hs hm)

lemma applyCall_reacts (c : Call) :
    Reacts su port send w (.call c nowUs) (applyCall su port send w c nowUs) := by
  cases c with
  | start => exact start_reacts
  | providePasskey passkey =>
    simp only [applyCall, providePasskey]
    split
    · exact .unchanged fun _ => ⟨_, _, rfl⟩
    next h =>
      obtain ⟨hs, hp, ha⟩ := by simpa only [not_or] using h
      exact startConfirmExchange_reacts (.passkey (not_not.mp hs) hp ha)
  | provideOobTk tk =>
    cases tk with
    | none => exact .unchanged fun _ => ⟨_, _, rfl⟩
    | some tk =>
      simp only [applyCall, provideOobTk]
      split
      · exact .unchanged fun _ => ⟨_, _, rfl⟩
      next h =>
        obtain ⟨hs, ha⟩ := not_or.mp h
        exact startConfirmExchange_reacts (.oob (not_not.mp hs) (not_not.mp ha))
  | confirmNumeric accepted =>
    simp only [applyCall, confirmNumeric]
    split
    · exact .unchanged fun _ => ⟨_, _, rfl⟩
    next h =>
      have hs : w.m.state = .waitNumericConfirmation := not_not.mp h
      cases accepted with
      | false =>
        simp only [Bool.not_false, ↓reduceIte]
        exact sendFailed_reacts (by rw [hs]; rfl) (.refl w) rfl nofun
      | true => exact startScStage2_reacts (.confirmed hs)
  | onLocalPublicKey success x y => exact onLocalPublicKey_reacts
  | onDhkey success d => exact onDhkey_reacts
  | onEncryptionChanged enabled => exact onEncryptionChanged_reacts
  | tick =>
    simp only [applyCall, tick]
    split
    next h =>
      obtain ⟨hd, hdue, hc, hf⟩ := h
      have ht : w.m.state.terminal = false := by
        cases hs : w.m.state <;> first | rfl | exact absurd hs hc | exact absurd hs hf
      exact .expires rfl hd hdue ht
    · exact .unchanged fun _ => ⟨_, _, rfl⟩

lemma apply_reacts (su : Setup) (port : ℕ → Reply) (send : Send) (w : World) (i : Input) :
    Reacts su port send (entry w i) i (apply su port send w i) := by
  cases i with
  | call c nowUs => exact applyCall_reacts c
  | pdu octets nowUs => exact onPdu_reacts

end Bluzing.Smp
