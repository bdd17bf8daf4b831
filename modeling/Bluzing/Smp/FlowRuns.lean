import Bluzing.Smp.Flow

/-! Runs stay in their flow: each reaction of the manager receives at most the next PDU of the flow,
and any other PDU ends the run. -/
namespace Bluzing.Smp
variable {su : Setup} {w w' : World} {i : Input} {w₁ : World} {pdu : Bytes}

lemma userAction_quiet (su : Setup) (w : World) (action : UserAction) (value : UInt32) :
    Quiet w.history (userAction su w action value).history := by
  unfold userAction
  split
  · exact .cons rfl .refl
  · exact .refl

lemma Flow.at_state {s : State} (hw : Flow su w) (hs : w.m.state = s) : FlowAt su w s := hs ▸ hw

lemma TkReady.flow (h : TkReady su (w.emit (inputEvent i)) i w₁) (hw : Flow su w) :
    InFlow su w₁ false [.pairingResponse] := by
  cases h with
  | justWorks hs hn hsc _ =>
    have hw := hw.at_state hs
    exact inFlow_response hw hn hsc .refl (by simp [accepted, agreed, hsc])
  | displayed o hs hn hsc _ =>
    have hw := hw.at_state hs
    refine inFlow_response hw hn hsc ?_ ?_
    · refine Extends.trans ?_ (userAction_quiet su _ _ _)
      exact .cons rfl .refl
    · simp [setPasskeyTk, accepted, agreed, hsc]
  | passkey hs _ _ | oob hs _ =>
    have hw := hw.at_state hs
    exact InFlow.quiet hw (.cons rfl .refl) rfl

lemma Stage2Ready.flow (h : Stage2Ready su (w.emit (inputEvent i)) i w₁) (hw : Flow su w) :
    InFlow su w₁ true [.pairingResponse, .pairingPublicKey, .pairingConfirm, .pairingRandom] := by
  cases h with
  | committed hs _ _ =>
    have hw := hw.at_state hs
    exact InFlow.receive hw (codeOf_value128 rfl _) .refl rfl
  | confirmed hs =>
    have hw := hw.at_state hs
    exact InFlow.quiet hw (.cons rfl .refl) rfl

lemma Transmits.flow (h : Transmits su (w.emit (inputEvent i)) i w₁ pdu) (hw : Flow su w) :
    Flow su w₁ := by
  cases h with
  | confirm ht _ => exact (ht.flow hw).quiet (.cons rfl (.cons rfl .refl)) rfl
  | random hs | scRandom hs =>
    have hw := hw.at_state hs
    exact InFlow.receive hw (codeOf_value128 rfl _) (.cons rfl .refl) rfl
  | publicKey hs =>
    have hw := hw.at_state hs
    exact InFlow.quiet hw (.cons rfl (.cons rfl .refl)) rfl
  | dhkeyCheck h2 _ _ => exact (h2.flow hw).quiet (.cons rfl .refl) rfl

variable {c : Command}

lemma StoresKey.remaining {nowUs : ℕ} {m : Manager}
    (hk : StoresKey (w.emit (.received (c.code.octet :: c.data))) c nowUs m)
    (ho : w.m.KeysOrdered) : w.m.remainingKeys = c.code :: m.remainingKeys ∧ m.KeysOrdered := by
  have harm : ((w.emit (.received (c.code.octet :: c.data))).arm nowUs).m.KeysOrdered :=
    ⟨ho.ltk, ho.central, ho.irk, ho.identity, ho.link⟩
  exact harm.stored hk.inOrder (Manager.storeKey_stored hk.stored)

lemma StoresKey.codeOf_eq {nowUs : ℕ} {m : Manager} (hk : StoresKey w c nowUs m) :
    codeOf (c.code.octet :: c.data) = some c.code := by
  rw [codeOf, hk.parsed]

lemma StoresKey.flow {nowUs : ℕ} {m : Manager}
    (hk : StoresKey (w.emit (.received (c.code.octet :: c.data))) c nowUs m) (hw : Flow su w)
    (w₁ : World) (hh : w₁.history = .received (c.code.octet :: c.data) :: w.history)
    (hm : w₁.m = m) :
    m.KeysOrdered ∧ ∃ done, InKeyFlow su w₁ done ∧
      done ++ m.remainingKeys = keyFlow m.negotiation.responderKeyDistribution := by
  have hw := hw.at_state hk.state
  obtain ⟨hordered, done, hflow, hdone⟩ := hw
  have hneg : m.negotiation = w.m.negotiation := by
    rw [Manager.storeKey_frame hk.stored]
    rfl
  obtain ⟨hrem, hordered'⟩ := hk.remaining hordered
  refine ⟨hordered', done ++ [c.code], hflow.receive hk.codeOf_eq ?_ (by rw [hm, hneg]), ?_⟩
  · rw [hh]
    exact .refl
  · rw [hneg, ← hdone, hrem, List.append_assoc, List.singleton_append]

lemma Rests.flow (h : Rests su (w.emit (inputEvent i)) i w₁) (hw : Flow su w) : Flow su w₁ := by
  cases h with
  | requestTk hs hn hsc _ =>
    have hw := hw.at_state hs
    rw [Flow, userAction_m]
    refine inFlow_response hw hn hsc ?_ ?_
    · refine Extends.trans ?_ (userAction_quiet su _ _ _)
      exact .cons rfl .refl
    · simp [accepted, agreed, hsc]
  | generatePublicKey hs hn hsc _ =>
    have hw := hw.at_state hs
    refine inFlow_response hw hn hsc ?_ (by simp [accepted, agreed, hsc])
    exact .cons rfl (.cons rfl .refl)
  | encryptLegacy hs _ _ =>
    have hw := hw.at_state hs
    exact ⟨false, InFlow.receive hw (codeOf_value128 rfl _) (.cons rfl (.cons rfl .refl)) rfl⟩
  | generateDhkey hs _ =>
    have hw := hw.at_state hs
    exact InFlow.receive hw (codeOf_publicKey _ _) (.cons rfl (.cons rfl .refl)) rfl
  | dhkey hs =>
    have hw := hw.at_state hs
    exact InFlow.quiet hw (.cons rfl (.cons rfl (.cons rfl .refl))) rfl
  | @askNumeric nowUs value v hs _ _ =>
    have hw := hw.at_state hs
    rw [Flow, userAction_m]
    refine InFlow.receive hw (codeOf_value128 rfl v) ?_ (by simp)
    refine Extends.trans ?_ (userAction_quiet su _ _ _)
    exact .cons rfl .refl
  | encryptSc hs _ =>
    have hw := hw.at_state hs
    exact ⟨true, InFlow.receive hw (codeOf_value128 rfl _) (.cons rfl (.cons rfl .refl)) rfl⟩
  | @keysExpected nowUs hs _ =>
    have hw := hw.at_state hs
    obtain ⟨sc, hw⟩ := hw
    obtain ⟨hordered, hrem⟩ := Manager.keys_fresh (m :=
      (((keysPending (w.emit (inputEvent (.call (.onEncryptionChanged true) nowUs)))).setState
        .waitKeyDistribution).arm nowUs).m) rfl rfl rfl
    exact ⟨hordered, [], hw.encrypted (.cons rfl .refl) rfl, hrem⟩
  | @keyStored nowUs c m hk _ =>
    have hstate : m.state = .waitKeyDistribution := by
      rw [Manager.storeKey_frame hk.stored]
      exact hk.state
    have hflow := hk.flow hw { (w.emit _).arm nowUs with m } rfl rfl
    rw [Flow, show World.m _ = m from rfl, hstate]
    exact hflow

variable {port : ℕ → Reply}

lemma Flow.quiet (h : Flow su w) {d : ℕ} (hm : w'.m = { w.m with deadlineUs := d })
    (hq : Quiet w.history w'.history) : Flow su w' := by
  have hn : w'.m.negotiation = w.m.negotiation := by rw [hm]
  unfold Flow at h ⊢
  rw [show w'.m.state = w.m.state by rw [hm]]
  cases hs : w.m.state <;> rw [hs] at h
  case idle | failed => trivial
  case waitPairingResponse => exact hq.codes.trans h
  case waitEncryption =>
    obtain ⟨sc, h⟩ := h
    exact ⟨sc, h.quiet hq hn⟩
  case waitKeyDistribution =>
    obtain ⟨ho, done, hk, hd⟩ := h
    rw [FlowAt, hm]
    exact ⟨⟨ho.ltk, ho.central, ho.irk, ho.identity, ho.link⟩, done, hk.quiet hq hn, hd⟩
  case complete =>
    rw [FlowAt, hn]
    exact InKeyFlow.quiet h hq hn
  all_goals exact InFlow.quiet h hq hn

lemma finish_failed_flow {r : Result} (hr : r ≠ .ok) : Flow su (finish su w r) := by
  rw [Flow, finish_state, if_neg hr]
  trivial

lemma sendKeyPdus_quiet (su : Setup) (port : ℕ → Reply) (nowUs : ℕ)
    (pdus : List (Except Status Writer)) (w : World) :
    Quiet w.history (sendKeyPdus (sendAt su port 0) w nowUs pdus).1.history ∧
      (sendKeyPdus (sendAt su port 0) w nowUs pdus).1.m.negotiation = w.m.negotiation := by
  induction pdus generalizing w with
  | nil => exact ⟨.refl, rfl⟩
  | cons pdu rest ih =>
    have hfirst : Quiet w.history (encodeAndSend (sendAt su port 0) w pdu nowUs).1.history ∧
        (encodeAndSend (sendAt su port 0) w pdu nowUs).1.m.negotiation = w.m.negotiation := by
      cases pdu with
      | error st => exact ⟨.refl, rfl⟩
      | ok wr => exact ⟨.cons rfl (.cons rfl .refl), rfl⟩
    simp only [sendKeyPdus]
    split
    · obtain ⟨hq, hn⟩ := ih (encodeAndSend (sendAt su port 0) w pdu nowUs).1
      exact ⟨hfirst.1.trans hq, hn.trans hfirst.2⟩
    · exact hfirst

lemma fetchLocalKeys_quiet (su : Setup) (port : ℕ → Reply) (w : World) (mask : UInt8) :
    Quiet w.history (fetchLocalKeys su port w mask).1.history ∧
      (fetchLocalKeys su port w mask).1.m.negotiation = w.m.negotiation := by
  unfold fetchLocalKeys
  dsimp only
  split
  · exact ⟨.refl, rfl⟩
  split
  · exact ⟨.refl, rfl⟩
  split
  · exact ⟨.cons rfl .refl, rfl⟩
  · exact ⟨.cons rfl .refl, rfl⟩

lemma sendKeyDistribution_quiet (su : Setup) (port : ℕ → Reply) (w : World) (nowUs : ℕ) :
    Quiet w.history (sendKeyDistribution su port (sendAt su port 0) w nowUs).1.history ∧
      (sendKeyDistribution su port (sendAt su port 0) w nowUs).1.m.negotiation =
        w.m.negotiation := by
  obtain ⟨hq, hn⟩ := fetchLocalKeys_quiet su port w w.m.negotiation.initiatorKeyDistribution
  unfold sendKeyDistribution
  dsimp only
  split
  · obtain ⟨hq', hn'⟩ := sendKeyPdus_quiet su port nowUs _
      (fetchLocalKeys su port w w.m.negotiation.initiatorKeyDistribution).1
    exact ⟨hq.trans hq', hn'.trans hn⟩
  · exact ⟨hq, hn⟩

lemma finish_ok_flow (h : InKeyFlow su w (keyFlow w.m.negotiation.responderKeyDistribution)) :
    Flow su (finish su w .ok) := by
  rw [Flow, finish_state, if_pos rfl]
  have hn : (finish su w .ok).m.negotiation = w.m.negotiation := by
    unfold finish
    dsimp only
    split <;> rfl
  rw [FlowAt, hn]
  refine h.quiet ?_ hn
  unfold finish
  dsimp only
  split
  · exact .cons rfl (.cons rfl .refl)
  · exact .cons rfl .refl

lemma finishKeyDistribution_flow (nowUs : ℕ)
    (h : InKeyFlow su w (keyFlow w.m.negotiation.responderKeyDistribution)) :
    Flow su (finishKeyDistribution su port (sendAt su port 0) w nowUs) := by
  obtain ⟨hq, hn⟩ := sendKeyDistribution_quiet su port w nowUs
  have hkeys : InKeyFlow su (sendKeyDistribution su port (sendAt su port 0) w nowUs).1
      (keyFlow (sendKeyDistribution su port (sendAt su port 0) w
        nowUs).1.m.negotiation.responderKeyDistribution) := by
    rw [hn]
    exact h.quiet hq hn
  unfold finishKeyDistribution
  dsimp only
  split
  · split
    · exact finish_ok_flow (hkeys.quiet (.cons rfl .refl) rfl)
    · exact finish_ok_flow hkeys
  · exact finish_failed_flow nofun

lemma Distributes.flow {nowUs : ℕ} (h : Distributes (w.emit (inputEvent i)) i w₁)
    (hw : Flow su w) : Flow su (finishKeyDistribution su port (sendAt su port 0) w₁ nowUs) := by
  refine finishKeyDistribution_flow nowUs ?_
  cases h with
  | @noKeys t hs hm =>
    have hw := hw.at_state hs
    obtain ⟨sc, hw⟩ := hw
    have hzero : (keysPending (w.emit (inputEvent
        (.call (.onEncryptionChanged true) t)))).m.negotiation.responderKeyDistribution = 0 := hm
    rw [hzero]
    exact hw.encrypted .refl rfl
  | @lastKey t c m hk he =>
    obtain ⟨-, done, hflow, hdone⟩ := hk.flow hw { (w.emit _).arm t with m } rfl rfl
    rw [Manager.remainingKeys_eq_nil he, List.append_nil] at hdone
    rw [show World.m _ = m from rfl, ← hdone]
    exact hflow

lemma Reacts.flow (hr : Reacts su port (sendAt su port 0) (w.emit (inputEvent i)) i w')
    (hi : (∃ c nowUs, i = .call c nowUs) ∨ w.m.state.waiting = true) (hw : Flow su w) :
    Flow su w' := by
  have hcalled (c : Call) : Flow su (w.emit (.called c)) := hw.quiet rfl (.cons rfl .refl)
  cases hr with
  | unchanged hcall =>
    obtain ⟨c, nowUs, rfl⟩ := hi.elim id hcall
    exact hcalled c
  | startRejected hstart =>
    obtain ⟨nowUs, rfl⟩ := hstart
    exact (hcalled .start).quiet rfl (.cons rfl .refl)
  | starts hstart hs =>
    subst hstart
    rw [start_eq, if_pos hs]
    dsimp only
    split
    · simp [Flow, FlowAt, begun, sendPdu, currentRun, since, Event.opensRun, codes,
        Event.receivedCode]
    · exact trivial
  | expires => exact finish_failed_flow (by simp)
  | fails _ _ _ hne | ends _ _ hne | breaks _ hne => exact finish_failed_flow hne
  | transmits ht => unfold transmit
                    dsimp only
                    split
                    · exact (ht.flow hw).quiet rfl (.cons rfl (.cons rfl .refl))
                    · exact finish_failed_flow (by simp)
  | rests hrest => exact hrest.flow hw
  | distributes hd => exact hd.flow hw

lemma apply_flow (hw : Flow su w) (i : Input) :
    Flow su (apply su port (sendAt su port 0) w i) := by
  have hr := apply_reacts su port (sendAt su port 0) w i
  cases i with
  | call c nowUs => exact Reacts.flow hr (.inl ⟨c, nowUs, rfl⟩) hw
  | pdu octets nowUs =>
    by_cases hwait : w.m.state.waiting = true
    · simp only [entry, hwait, ↓reduceIte] at hr
      exact Reacts.flow (i := .pdu octets nowUs) hr (.inr hwait) hw
    · simp only [apply, onPdu_ignored hwait]
      exact hw.quiet rfl (.cons rfl .refl)

lemma run_in_flow (su : Setup) (port : ℕ → Reply) (inputs : List Input) :
    Flow su (run su port 0 inputs) := by
  have hinit : Flow su World.init := trivial
  unfold run runFrom
  exact foldl_invariant (fun w i (hw : Flow su w) => apply_flow hw i) inputs hinit

variable {octets : Bytes} {nowUs : ℕ}

def expectedFlow (m : Manager) : List Code :=
  authenticationFlow m.negotiation.secureConnections ++
    if m.state = .waitKeyDistribution then keyFlow m.negotiation.responderKeyDistribution else []

def NextInFlow (w : World) (pdu : Bytes) : Prop :=
  codes (currentRun w.history) ++ [codeOf pdu] <+: (expectedFlow w.m).map some

lemma nextInFlow_response (hw : codes (currentRun w.history) = [])
    {request f : PairingFeatures} {n : Negotiation}
    (hn : negotiatePairing request f = .ok n) : NextInFlow w (responsePdu f) := by
  rw [NextInFlow, hw, codeOf_response hn, expectedFlow]
  cases w.m.negotiation.secureConnections <;> simp [authenticationFlow]

lemma InFlow.next {sc : Bool} {received : List Code} {c : Code}
    (h : InFlow su w sc received) (hc : codeOf pdu = some c)
    (hp : received ++ [c] <+: authenticationFlow sc) : NextInFlow w pdu := by
  obtain ⟨rest, hrest⟩ := hp
  rw [NextInFlow, h.codes, hc, expectedFlow, h.protocol, ← hrest]
  simp

lemma StoresKey.next {m : Manager}
    (hk : StoresKey (w.emit (.received (c.code.octet :: c.data))) c nowUs m) (hw : Flow su w) :
    NextInFlow w (c.code.octet :: c.data) := by
  have hstate : w.m.state = .waitKeyDistribution := hk.state
  rw [Flow, hstate] at hw
  obtain ⟨hordered, done, hflow, hdone⟩ := hw
  rw [(hk.remaining hordered).1] at hdone
  rw [NextInFlow, hflow.codes.codes, hk.codeOf_eq, expectedFlow, if_pos hstate, ← hdone]
  simp

lemma Transmits.next (h : Transmits su (w.emit (inputEvent i)) i w₁ pdu) (hw : Flow su w)
    (hi : i = .pdu octets nowUs) : NextInFlow w octets := by
  cases h with
  | confirm ht _ => subst hi
                    cases ht with
                    | justWorks hs hn _ _ | displayed _ hs hn _ _ =>
                      have hw := hw.at_state hs
                      exact nextInFlow_response hw hn
  | random hs | scRandom hs =>
    cases hi
    have hw := hw.at_state hs
    exact InFlow.next hw (codeOf_value128 rfl _) (by decide)
  | publicKey hs => cases hi
  | dhkeyCheck h2 _ _ =>
    cases h2 with
    | committed hs _ _ =>
      cases hi
      have hw := hw.at_state hs
      exact InFlow.next hw (codeOf_value128 rfl _) (by decide)
    | confirmed hs => cases hi

lemma Rests.next (h : Rests su (w.emit (inputEvent i)) i w₁) (hw : Flow su w)
    (hi : i = .pdu octets nowUs) : NextInFlow w octets := by
  cases h with
  | requestTk hs hn _ _ | generatePublicKey hs hn _ _ =>
    cases hi
    have hw := hw.at_state hs
    exact nextInFlow_response hw hn
  | encryptLegacy hs _ _ | askNumeric hs _ _ | encryptSc hs _ =>
    cases hi
    have hw := hw.at_state hs
    exact InFlow.next hw (codeOf_value128 rfl _) (by decide)
  | generateDhkey hs _ =>
    cases hi
    have hw := hw.at_state hs
    exact InFlow.next hw (codeOf_publicKey _ _) (by decide)
  | dhkey | keysExpected => cases hi
  | keyStored hk _ =>
    cases hi
    exact hk.next hw

lemma Reacts.rejects {send : Send} {w' : World}
    (hr : Reacts su port send (w.emit (inputEvent i)) i w') (hi : i = .pdu octets nowUs)
    (hwait : w.m.state.waiting = true) (hw : Flow su w) (hn : ¬ NextInFlow w octets) :
    w'.m.state = .failed := by
  cases hr with
  | unchanged hcall =>
    obtain ⟨c, t, hc⟩ := hcall hwait
    cases hi.symm.trans hc
  | startRejected hstart =>
    obtain ⟨t, hc⟩ := hstart
    cases hi.symm.trans hc
  | starts hc | expires hc => cases hi.symm.trans hc
  | fails _ _ _ hne | ends _ _ hne | breaks _ hne => rw [finish_state, if_neg hne]
  | transmits ht => exact absurd (ht.next hw hi) hn
  | rests hrest => exact absurd (hrest.next hw hi) hn
  | distributes hd =>
    cases hd with
    | noKeys => cases hi
    | lastKey hk _ =>
      cases hi
      exact absurd (hk.next hw) hn

lemma onPdu_fails (hw : Flow su w) (hwait : w.m.state.waiting = true)
    (hn : ¬ NextInFlow w octets) :
    (onPdu su port (sendAt su port 0) w octets nowUs).m.state = .failed := by
  have hr := apply_reacts su port (sendAt su port 0) w (.pdu octets nowUs)
  simp only [entry, hwait, ↓reduceIte] at hr
  exact Reacts.rejects (i := .pdu octets nowUs) hr rfl hwait hw hn

/-- In every run whose transport delivers nothing from inside `send`: a completed run has received
exactly the flow of its negotiation, its keys after encryption was reported, and any other PDU fails
a waiting manager. -/
theorem run_follows_flow (su : Setup) (port : ℕ → Reply) (inputs : List Input) :
    ((run su port 0 inputs).m.state = .complete →
      ∃ f n, .received (responsePdu f) ∈ currentRun (run su port 0 inputs).history ∧
        negotiatePairing su.config.features f = .ok n ∧
        EncryptedBetween (currentRun (run su port 0 inputs).history)
          ((authenticationFlow n.secureConnections).map some)
          ((keyFlow (agreed n).responderKeyDistribution).map some)) ∧
    ∀ pdu nowUs, (run su port 0 inputs).m.state.waiting = true →
      ¬ NextInFlow (run su port 0 inputs) pdu →
        (onPdu su port (sendAt su port 0) (run su port 0 inputs) pdu nowUs).m.state = .failed := by
  have hflow := run_in_flow su port inputs
  refine ⟨fun hs => ?_, fun pdu nowUs hwait hn => onPdu_fails hflow hwait hn⟩
  rw [Flow, hs] at hflow
  obtain ⟨⟨f, n, hmem, hn, hneg⟩, hcodes⟩ := hflow
  have hsc : (agreed n).secureConnections = n.secureConnections := by
    unfold agreed
    split <;> rfl
  rw [hneg, hsc] at hcodes
  exact ⟨f, n, hmem, hn, hcodes⟩

/-! A transport that delivers from inside `send` while the local keys are distributed. -/

def signFeatures : PairingFeatures := ⟨0x03, 0, 0x01, 16, keyDistSignKey, 0⟩

def signSetup : Setup := { plainSetup with config := ⟨signFeatures, 0, 0, .zero 6, .zero 6⟩ }

def interruptingPort : ℕ → Reply := fun k =>
  ⟨.ok, fun _ => 0, fun mask => { DistributedKeys.zero with keyMask := mask },
    if k = 6 then [([], 0)] else []⟩

/-- The malformed PDU fails the manager, and the interrupted distribution completes it. -/
theorem interrupted_distribution_completes :
    let w := run signSetup interruptingPort 1
      [.call .start 0, .pdu (responsePdu signFeatures) 1,
        .pdu [0x03, 0, 0, 0x01, 3, 0, 1, 16, 4, 0, 0x02, 3, 0, 1, 16, 4, 0] 2,
        .pdu (0x04 :: List.replicate 16 0) 3, .call (.onEncryptionChanged true) 4]
    w.m.state = .complete ∧ .stateSet .failed ∈ currentRun w.history ∧
      codes (currentRun w.history) =
        [some .pairingResponse, some .pairingConfirm, some .pairingRandom, none] := by
  decide +kernel

end Bluzing.Smp
