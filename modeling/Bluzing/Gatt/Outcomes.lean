import Bluzing.Gatt.Completions

/-! What an input means for the user of the client: the operation in progress goes on, another one
is begun, or a completion is delivered; with a result that is not an error only to the operation
that is in progress, and to a write only by a Write Response. -/
namespace Bluzing.Gatt

def World.Active (w : World) : Prop := w.client.busy = true ∧ w.client.op ≠ .mtu

def Quiet (events : List Event) : Prop := ∀ e ∈ events, e.completion? = none

inductive Outcome (w : World) (input : Input) : World → Prop
  | quiet {w' : World} (events : List Event) (hhistory : w'.history = events ++ w.history)
      (hquiet : Quiet events) (hoperations : w'.operations = w.operations)
      (hactive : w'.Active → w.Active ∧ w'.client.op = w.client.op) : Outcome w input w'
  | begun {w' : World} (events : List Event) (hhistory : w'.history = events ++ w.history)
      (hoperations : w'.operations = w.operations + 1) : Outcome w input w'
  | failed {w' : World} {n : ℕ} {completion : Completion} (events : List Event)
      (hhistory : w'.history = .completed n completion :: (events ++ w.history))
      (hquiet : Quiet events) (hoperations : w'.operations = w.operations)
      (hidle : w'.client.busy = false) (hfailed : completion.result ≠ .ok) : Outcome w input w'
  | answered {w' : World} {n : ℕ} {completion : Completion} {opcode : UInt8} {params : Bytes}
      {nowUs : ℕ} (hinput : input = .data (opcode :: params) nowUs) (hactive : w.Active)
      (hhistory : w'.history = .completed n completion :: w.history)
      (hoperations : w'.operations = w.operations) (hidle : w'.client.busy = false)
      (hwrite : w.client.op = .write → opcode = opcodeWriteResponse) : Outcome w input w'

variable {port : ℕ → Bool} {w : World} {input : Input}

lemma quiet_nil : Quiet [] := nofun

lemma Quiet.cons {e : Event} {events : List Event} (he : e.completion? = none)
    (h : Quiet events) : Quiet (e :: events) :=
  List.forall_mem_cons.mpr ⟨he, h⟩

lemma not_active_of_idle {w' : World} (h : w'.client.busy = false) : ¬ w'.Active := by
  intro hactive
  rw [World.Active, h] at hactive
  cases hactive.1

variable {v : World} (events : List Event)

lemma complete_failed (hhistory : v.history = events ++ w.history) (hquiet : Quiet events)
    (hoperations : v.operations = w.operations) {result : Result}
    (hfailed : result ≠ .ok) (code : UInt8) : Outcome w input (complete v result code) := by
  unfold complete
  split
  · exact .quiet events hhistory hquiet hoperations fun hactive =>
      absurd hactive (not_active_of_idle rfl)
  · exact .failed events (congrArg (_ :: ·) hhistory) hquiet hoperations rfl hfailed

lemma handleMtuResponse_outcome
    (hhistory : v.history = events ++ w.history) (hquiet : Quiet events)
    (hoperations : v.operations = w.operations) (opcode : UInt8) (params : Bytes) :
    Outcome w input (handleMtuResponse v opcode params) := by
  unfold handleMtuResponse
  dsimp only
  split
  · exact .quiet (.connected true :: events) (congrArg (Event.connected true :: ·) hhistory)
      (hquiet.cons rfl) hoperations fun hactive => absurd hactive (not_active_of_idle rfl)
  · exact .quiet events hhistory hquiet hoperations fun hactive =>
      absurd hactive (not_active_of_idle rfl)

lemma issueCurrentRequest_outcome {c : Client} (hactive : w.Active) (hop : c.op = w.client.op)
    (nowUs : ℕ) : Outcome w input (issueCurrentRequest port { w with client := c } nowUs) := by
  refine issueCurrentRequest_cases nowUs (fun _ _ _ => ?_) (fun hmtu _ => ?_) fun _ requests => ?_
  · exact .quiet [_] rfl (quiet_nil.cons (by rfl)) rfl fun _ => ⟨hactive, hop⟩
  · exact absurd (hop.symm.trans hmtu) hactive.2
  · exact complete_failed [_] (by rfl) (quiet_nil.cons (by rfl)) (by rfl) (by decide) 0

lemma issueCurrentRequest_begun
    (hhistory : v.history = events ++ w.history) (hoperations : v.operations = w.operations + 1)
    (nowUs : ℕ) : Outcome w input (issueCurrentRequest port v nowUs) := by
  have hcons (e : Event) : e :: v.history = (e :: events) ++ w.history := by rw [hhistory]; rfl
  refine issueCurrentRequest_cases nowUs (fun _ _ _ => ?_) (fun _ _ => ?_) fun _ _ => ?_
  · exact .begun (_ :: events) (hcons _) hoperations
  · unfold handleMtuResponse
    dsimp only
    split
    · exact .begun (_ :: _ :: events) (congrArg (_ :: ·) (hcons _)) hoperations
    · exact .begun (_ :: events) (hcons _) hoperations
  · unfold complete
    split
    · exact .begun (_ :: events) (hcons _) hoperations
    · exact .begun (_ :: _ :: events) (congrArg (_ :: ·) (hcons _)) hoperations

def Acknowledges (c : Client) (opcode : UInt8) : Prop :=
  c.op ≠ .mtu ∧ (c.op = .write → opcode = opcodeWriteResponse)

lemma handleErrorResponse_result (hop : w.client.op = .mtu ∨ w.client.op = .write)
    (params : Bytes) :
    ∃ result code, result ≠ .ok ∧ handleErrorResponse w params = complete w result code := by
  have hdiscovery : w.client.op.isDiscovery = false := by
    rcases hop with h | h <;> rw [h] <;> rfl
  have hread : w.client.op ≠ .read := by
    rcases hop with h | h <;> rw [h] <;> exact nofun
  unfold handleErrorResponse
  split
  · exact ⟨.errorProtocol, 0, by decide, rfl⟩
  next err _ =>
    rw [hdiscovery, Bool.false_and, if_neg Bool.false_ne_true, if_neg fun h => hread h.1]
    exact ⟨.errorAtt, err.errorCode, by decide, rfl⟩

lemma dispatchResponse_ended (port : ℕ → Bool) (w : World) (opcode : UInt8)
    (params : Bytes) (nowUs : ℕ) :
    (∃ found value result code, (result = .ok → Acknowledges w.client opcode) ∧
      dispatchResponse port w opcode params nowUs =
        complete (w.modify fun c => { c with found, value }) result code) ∨
      (∃ c, Continues w.client opcode params c ∧
        dispatchResponse port w opcode params nowUs =
          issueCurrentRequest port { w with client := c } nowUs) ∨
      dispatchResponse port w opcode params nowUs = w := by
  by_cases herror : opcode = opcodeErrorResponse ∧ (w.client.op = .mtu ∨ w.client.op = .write)
  · obtain ⟨result, code, hresult, h⟩ := handleErrorResponse_result herror.2 params
    refine .inl ⟨w.client.found, w.client.value, result, code, fun hok => absurd hok hresult, ?_⟩
    rw [dispatchResponse, if_pos herror.1]
    exact h
  cases hop : w.client.op with
  | mtu =>
    refine .inr (.inr ?_)
    rw [dispatchResponse, if_neg fun h => herror ⟨h, .inl hop⟩, hop]
  | write =>
    have hwritten : dispatchResponse port w opcode params nowUs = handleWriteResponse w opcode := by
      rw [dispatchResponse, if_neg fun h => herror ⟨h, .inr hop⟩, hop]
    by_cases hno : opcode = opcodeWriteResponse
    · refine .inl ⟨w.client.found, w.client.value, .ok, 0, fun _ => ?_, ?_⟩
      · exact ⟨by rw [hop]; simp, fun _ => hno⟩
      · exact hwritten.trans (if_neg (not_not.mpr hno))
    · refine .inl ⟨w.client.found, w.client.value, .errorProtocol, 0, (by simp), ?_⟩
      exact hwritten.trans (if_pos hno)
  | discoverServices | discoverCharacteristics | discoverDescriptors | read =>
    have hmtu : w.client.op ≠ .mtu := by rw [hop]; simp
    obtain ⟨found, value, result, code, h⟩ | h := @dispatchResponse_cases port w hmtu opcode params
      nowUs
    · refine .inl ⟨found, value, result, code, fun _ => ⟨hmtu, fun hwrite => ?_⟩, h⟩
      cases hop.symm.trans hwrite
    · exact .inr (.inl h)

lemma dispatchResponse_outcome (hbusy : w.client.busy = true) {opcode : UInt8}
    {params : Bytes} {nowUs : ℕ} (hinput : input = .data (opcode :: params) nowUs) :
    Outcome w input (dispatchResponse port (arrived w nowUs) opcode params nowUs) := by
  have hkept : Outcome w input (arrived w nowUs) :=
    .quiet [] rfl quiet_nil rfl fun h => ⟨h, rfl⟩
  obtain ⟨found, value, result, code, hresult, h⟩ | ⟨c, hnext, h⟩ | h :=
    dispatchResponse_ended port (arrived w nowUs) opcode params nowUs
  · rw [h]
    by_cases hok : result = .ok
    · unfold complete
      split
      · exact .quiet [] rfl quiet_nil rfl fun hactive =>
          absurd hactive (not_active_of_idle rfl)
      · obtain ⟨hop, hwrite⟩ := hresult hok
        exact .answered hinput ⟨hbusy, hop⟩ rfl rfl rfl hwrite
    · exact complete_failed [] (by rfl) quiet_nil (by rfl) hok code
  · rw [h]
    have hsame : c.op = w.client.op ∧ w.client.op ≠ .mtu := by
      cases hnext with
      | @discovery d _ _ hd =>
        refine ⟨rfl, fun hmtu => ?_⟩
        have hd : discoveryOf w.client.op = some d := hd
        rw [hmtu] at hd
        cases hd
      | read hop =>
        refine ⟨rfl, fun hmtu => ?_⟩
        cases hmtu.symm.trans hop
    exact issueCurrentRequest_outcome (w := w) ⟨hbusy, hsame.2⟩ hsame.1 nowUs
  · rw [h]
    exact hkept

lemma apply_outcome (port : ℕ → Bool) (w : World) (input : Input) :
    Outcome w input (apply port w input) := by
  have hsame {w' : World} (hhistory : w'.history = w.history)
      (hoperations : w'.operations = w.operations) (hbusy : w'.client.busy = w.client.busy)
      (hop : w'.client.op = w.client.op) : Outcome w input w' :=
    .quiet [] hhistory quiet_nil hoperations fun h =>
      ⟨⟨hbusy ▸ h.1, hop ▸ h.2⟩, hop⟩
  generalize happly : apply port w input = w'
  have hstep := apply_step port w input
  rw [happly] at hstep
  cases hstep with
  | ignored | notifyHandler | unopened | unready | unsolicited => exact hsame rfl rfl rfl rfl
  | opened onConnect granted nowUs =>
    refine issueCurrentRequest_cases nowUs (fun _ _ _ => ?_) (fun _ requests => ?_)
      fun hop _ => absurd rfl hop
    · exact .quiet [_] rfl (quiet_nil.cons (by rfl)) rfl fun h => absurd rfl h.2
    · exact handleMtuResponse_outcome [_] (by rfl) (quiet_nil.cons (by rfl)) (by rfl) 0 []
  | closed hinput =>
    refine onClosed_cases ?_ (fun _ _ => ?_) (hsame rfl rfl rfl rfl)
    · exact .quiet [_] rfl (quiet_nil.cons (by rfl)) rfl fun h => ⟨h, rfl⟩
    · exact complete_failed [] (by rfl) quiet_nil (by rfl) (by decide) 0
  | notification hopen hop =>
    rw [handleNotification_eq]
    refine .quiet _ rfl (fun e he => ?_) rfl fun h => ⟨h, rfl⟩
    rcases mem_notificationEvents he with rfl | ⟨handle, value, rfl⟩
    · rfl
    · rfl
  | exchanged => exact handleMtuResponse_outcome [] (by rfl) quiet_nil (by rfl) _ _
  | response hopen hop hconnect hbusy => exact dispatchResponse_outcome hbusy rfl
  | begun hsetup => exact issueCurrentRequest_begun [_] (by rfl) (by rfl) _
  | mtuExpired => exact handleMtuResponse_outcome [] (by rfl) quiet_nil (by rfl) 0 []
  | expired => exact complete_failed [] (by rfl) quiet_nil (by rfl) (by decide) 0

end Bluzing.Gatt
