import Bluzing.Smp.KeyOrder
import Bluzing.Smp.Evidence

/-! The PDUs of a pairing run in the order in which they were received, and the flows they may form.
-/
namespace Bluzing.Smp

def codeOf (pdu : Bytes) : Option Code :=
  match parseCommand pdu with
  | .ok c => some c.code
  | .error _ => none

def Event.receivedCode : Event → Option (Option Code)
  | .received pdu => some (codeOf pdu)
  | _ => none

def codes (h : List Event) : List (Option Code) := (h.filterMap Event.receivedCode).reverse

def authenticationFlow (secureConnections : Bool) : List Code :=
  if secureConnections then
    [.pairingResponse, .pairingPublicKey, .pairingConfirm, .pairingRandom, .pairingDhkeyCheck]
  else [.pairingResponse, .pairingConfirm, .pairingRandom]

def EncryptedBetween (run : List Event) (before after : List (Option Code)) : Prop :=
  ∃ newer older, run = newer ++ .called (.onEncryptionChanged true) :: older ∧
    codes older = before ∧ codes newer = after

def Event.quiet (e : Event) : Bool := !e.opensRun && e.receivedCode.isNone

abbrev Quiet (h h' : List Event) : Prop := Extends Event.quiet h h'

variable {h h' : List Event} {e : Event} {before after : List (Option Code)}

lemma codes_cons (e : Event) (h : List Event) :
    codes (e :: h) = codes h ++ e.receivedCode.toList := by
  cases he : e.receivedCode <;> simp [codes, he]

lemma Event.quiet_iff : e.quiet = true ↔ e.opensRun = false ∧ e.receivedCode = none := by
  simp [Event.quiet]

lemma currentRun_cons (he : e.opensRun = false) : currentRun (e :: h) = e :: currentRun h :=
  since_cons he

lemma Quiet.codes (hq : Quiet h h') : codes (currentRun h') = codes (currentRun h) := by
  induction hq with
  | refl => rfl
  | cons he _ ih =>
    obtain ⟨ho, hr⟩ := Event.quiet_iff.mp he
    rw [currentRun_cons ho, codes_cons, hr, ih, Option.toList_none, List.append_nil]

lemma Quiet.mem (hq : Quiet h h') (he : e ∈ currentRun h) : e ∈ currentRun h' := by
  induction hq with
  | refl => exact he
  | cons hq _ ih =>
    rw [currentRun_cons (Event.quiet_iff.mp hq).1]
    exact List.mem_cons_of_mem _ ih

lemma EncryptedBetween.cons (hs : EncryptedBetween (currentRun h) before after)
    (he : e.opensRun = false) :
    EncryptedBetween (currentRun (e :: h)) before (after ++ e.receivedCode.toList) := by
  obtain ⟨newer, older, hrun, hb, ha⟩ := hs
  refine ⟨e :: newer, older, ?_, hb, ?_⟩
  · rw [currentRun_cons he, hrun, List.cons_append]
  · rw [codes_cons, ha]

lemma EncryptedBetween.codes {run : List Event} (hs : EncryptedBetween run before after) :
    codes run = before ++ after := by
  obtain ⟨newer, older, rfl, rfl, rfl⟩ := hs
  simp only [Smp.codes, List.filterMap_append, List.reverse_append]
  rfl

lemma Quiet.encryptedBetween (hq : Quiet h h')
    (hs : EncryptedBetween (currentRun h) before after) :
    EncryptedBetween (currentRun h') before after := by
  induction hq with
  | refl => exact hs
  | cons he _ ih =>
    obtain ⟨ho, hr⟩ := Event.quiet_iff.mp he
    simpa [hr] using ih.cons ho

structure InFlow (su : Setup) (w : World) (secureConnections : Bool) (received : List Code) :
    Prop where
  accepted : ∃ f n, .received (responsePdu f) ∈ currentRun w.history ∧
    negotiatePairing su.config.features f = .ok n ∧ w.m.negotiation = agreed n
  protocol : w.m.negotiation.secureConnections = secureConnections
  codes : codes (currentRun w.history) = received.map some

structure InKeyFlow (su : Setup) (w : World) (received : List Code) : Prop where
  accepted : ∃ f n, .received (responsePdu f) ∈ currentRun w.history ∧
    negotiatePairing su.config.features f = .ok n ∧ w.m.negotiation = agreed n
  codes : EncryptedBetween (currentRun w.history)
    ((authenticationFlow w.m.negotiation.secureConnections).map some) (received.map some)

def FlowAt (su : Setup) (w : World) : State → Prop
  | .idle | .failed => True
  | .waitPairingResponse => codes (currentRun w.history) = []
  | .waitTk | .waitPairingConfirm => InFlow su w false [.pairingResponse]
  | .waitPairingRandom => InFlow su w false [.pairingResponse, .pairingConfirm]
  | .waitLocalPublicKey | .waitPeerPublicKey => InFlow su w true [.pairingResponse]
  | .waitDhkey | .waitScConfirm => InFlow su w true [.pairingResponse, .pairingPublicKey]
  | .waitScRandom =>
      InFlow su w true [.pairingResponse, .pairingPublicKey, .pairingConfirm]
  | .waitNumericConfirmation | .waitDhkeyCheck =>
      InFlow su w true [.pairingResponse, .pairingPublicKey, .pairingConfirm, .pairingRandom]
  | .waitEncryption => ∃ sc, InFlow su w sc (authenticationFlow sc)
  | .waitKeyDistribution => w.m.KeysOrdered ∧ ∃ done, InKeyFlow su w done ∧
      done ++ w.m.remainingKeys = keyFlow w.m.negotiation.responderKeyDistribution
  | .complete => InKeyFlow su w (keyFlow w.m.negotiation.responderKeyDistribution)

def Flow (su : Setup) (w : World) : Prop := FlowAt su w w.m.state

variable {su : Setup} {w w' : World} {sc : Bool} {received : List Code}

lemma codeOf_response {request f : PairingFeatures} {n : Negotiation}
    (hn : negotiatePairing request f = .ok n) : codeOf (responsePdu f) = some .pairingResponse := by
  have hp : parseCommand (responsePdu f) = .ok ⟨.pairingResponse, (responsePdu f).tail⟩ :=
    parseCommand_octet (c := .pairingResponse) rfl (negotiatePairing_ok hn).2
  rw [codeOf, hp]

lemma inFlow_response {f : PairingFeatures} {n : Negotiation}
    (hw : codes (currentRun w.history) = [])
    (hn : negotiatePairing su.config.features f = .ok n) (hsc : n.secureConnections = sc)
    (hq : Quiet (.received (responsePdu f) :: w.history) w'.history)
    (hm : w'.m.negotiation = agreed n) : InFlow su w' sc [.pairingResponse] := by
  refine ⟨⟨f, n, hq.mem ?_, hn, hm⟩, ?_, ?_⟩
  · exact List.mem_cons_self
  · rw [hm, agreed, ← hsc]
    split <;> rfl
  · rw [hq.codes, currentRun_cons rfl, codes_cons, hw]
    simp [Event.receivedCode, codeOf_response hn]

lemma InFlow.quiet (h : InFlow su w sc received) (hq : Quiet w.history w'.history)
    (hm : w'.m.negotiation = w.m.negotiation) : InFlow su w' sc received := by
  obtain ⟨⟨f, n, hmem, hn, hneg⟩, hp, hc⟩ := h
  exact ⟨⟨f, n, hq.mem hmem, hn, hm.trans hneg⟩, by rw [hm, hp], by rw [hq.codes, hc]⟩

lemma InFlow.receive (h : InFlow su w sc received) {pdu : Bytes} {c : Code}
    (hc : codeOf pdu = some c) (hq : Quiet (.received pdu :: w.history) w'.history)
    (hm : w'.m.negotiation = w.m.negotiation) : InFlow su w' sc (received ++ [c]) := by
  obtain ⟨⟨f, n, hmem, hn, hneg⟩, hp, hcodes⟩ := h
  refine ⟨⟨f, n, hq.mem ?_, hn, hm.trans hneg⟩, by rw [hm, hp], ?_⟩
  · exact List.mem_cons_of_mem _ hmem
  · rw [hq.codes, currentRun_cons rfl, codes_cons, hcodes]
    simp [Event.receivedCode, hc]

lemma InFlow.encrypted (h : InFlow su w sc (authenticationFlow sc))
    (hq : Quiet (.called (.onEncryptionChanged true) :: w.history) w'.history)
    (hm : w'.m.negotiation = w.m.negotiation) : InKeyFlow su w' [] := by
  obtain ⟨⟨f, n, hmem, hn, hneg⟩, hp, hcodes⟩ := h
  refine ⟨⟨f, n, hq.mem ?_, hn, hm.trans hneg⟩, hq.encryptedBetween ?_⟩
  · exact List.mem_cons_of_mem _ hmem
  · rw [currentRun_cons rfl, hm, hp]
    exact ⟨[], _, rfl, hcodes, rfl⟩

lemma InKeyFlow.quiet (h : InKeyFlow su w received) (hq : Quiet w.history w'.history)
    (hm : w'.m.negotiation = w.m.negotiation) : InKeyFlow su w' received := by
  obtain ⟨⟨f, n, hmem, hn, hneg⟩, hc⟩ := h
  exact ⟨⟨f, n, hq.mem hmem, hn, hm.trans hneg⟩, by rw [hm]; exact hq.encryptedBetween hc⟩

lemma InKeyFlow.receive (h : InKeyFlow su w received) {pdu : Bytes} {c : Code}
    (hc : codeOf pdu = some c) (hq : Quiet (.received pdu :: w.history) w'.history)
    (hm : w'.m.negotiation = w.m.negotiation) : InKeyFlow su w' (received ++ [c]) := by
  obtain ⟨⟨f, n, hmem, hn, hneg⟩, hcodes⟩ := h
  refine ⟨⟨f, n, hq.mem ?_, hn, hm.trans hneg⟩, hq.encryptedBetween ?_⟩
  · exact List.mem_cons_of_mem _ hmem
  · rw [hm]
    simpa [Event.receivedCode, hc] using hcodes.cons (e := .received pdu) rfl

lemma codeOf_value128 {code : Code} (hc : isValue128 code = true) (v : Octets 16) :
    codeOf (code.octet :: v.bytes) = some code := by
  have hd : code.dataLen = 16 := by simpa [isValue128] using hc
  have hf : fieldsValid code v.bytes = true := by
    cases code <;> first | rfl | cases hc
  rw [codeOf, parseCommand_octet (by rw [hd]; exact v.length_eq) hf]

lemma codeOf_publicKey (x y : Octets 32) :
    codeOf (Code.pairingPublicKey.octet :: (x.bytes ++ y.bytes)) = some .pairingPublicKey := by
  rw [codeOf, parseCommand_octet (by simp [Code.dataLen]) rfl]

end Bluzing.Smp
