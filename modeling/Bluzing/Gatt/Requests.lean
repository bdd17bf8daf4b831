import Bluzing.Gatt.Steps

/-! The requests of one operation: a rule for what holds of them along every run. -/
namespace Bluzing.Gatt

structure Operation where
  op : Op
  pendingHandle : UInt16
  discoverRangeEnd : UInt16
  value : Value

namespace Client

def asOperation (c : Client) : Operation := ⟨c.op, c.pendingHandle, c.discoverRangeEnd, c.value⟩

def operation (c : Client) : Option Operation :=
  if c.busy = true ∧ c.op ≠ .mtu then some c.asOperation else none

variable {c : Client}

lemma operation_idle (h : c.busy = false) : c.operation = none :=
  if_neg fun hbusy => absurd (h.symm.trans hbusy.1) (by decide)

lemma operation_mtu (h : c.op = .mtu) : c.operation = none :=
  if_neg fun hop => hop.2 h

lemma operation_busy (hbusy : c.busy = true) (hop : c.op ≠ .mtu) :
    c.operation = some c.asOperation := if_pos ⟨hbusy, hop⟩

end Client

lemma Continues.of_arrived {w : World} {nowUs : ℕ} {opcode : UInt8} {params : Bytes}
    {c : Client} (h : Continues (arrived w nowUs).client opcode params c) :
    c.busy = w.client.busy ∧ c.op ≠ .mtu ∧
      Continues w.client opcode params { c with eventNowUs := w.client.eventNowUs } := by
  cases h with
  | discovery hd hopcode hentries hroom hlast hmore =>
    refine ⟨rfl, fun hmtu => ?_, .discovery hd hopcode hentries hroom hlast hmore⟩
    rw [show (arrived w nowUs).client.op = .mtu from hmtu] at hd
    cases hd
  | read hop hfull hvalue =>
    refine ⟨rfl, fun hmtu => ?_, .read hop hfull hvalue⟩
    cases hop.symm.trans hmtu

section

variable {α : Type*} (select : Bytes → Option α)

def requestsSince : List Event → List α
  | [] => []
  | .accepted _ :: _ => []
  | .requested pdu _ :: h => (select pdu).toList ++ requestsSince h
  | .confirmed _ :: h | .completed _ _ :: h | .connected _ :: h | .notified _ _ _ :: h =>
      requestsSince h

lemma complete_requests (w : World) (result : Result) (code : UInt8) :
    (complete w result code).client.operation = none ∧
      requestsSince select (complete w result code).history = requestsSince select w.history := by
  unfold complete
  split <;> exact ⟨Client.operation_idle rfl, rfl⟩

lemma handleMtuResponse_requests (w : World) (opcode : UInt8) (params : Bytes) :
    (handleMtuResponse w opcode params).client.operation = none ∧
      requestsSince select (handleMtuResponse w opcode params).history =
        requestsSince select w.history := by
  unfold handleMtuResponse
  dsimp only
  split <;> exact ⟨Client.operation_idle rfl, rfl⟩

lemma requestsSince_notificationEvents (onNotify isIndication : Bool) (params : Bytes)
    (h : List Event) :
    requestsSince select (notificationEvents onNotify isIndication params ++ h) =
      requestsSince select h := by
  have hquiet (events : List Event) (hevents : ∀ e ∈ events,
      e = .confirmed [opcodeHandleValueConfirmation] ∨
        ∃ handle value, e = .notified handle value isIndication) :
      requestsSince select (events ++ h) = requestsSince select h := by
    induction events with
    | nil => rfl
    | cons e events ih =>
      obtain ⟨hhead, htail⟩ := List.forall_mem_cons.mp hevents
      obtain rfl | ⟨handle, value, rfl⟩ := hhead
      · exact ih htail
      · exact ih htail
  exact hquiet _ fun e => mem_notificationEvents

variable {port : ℕ → Bool} {w : World}

lemma issueCurrentRequest_requests (nowUs : ℕ) :
    ((issueCurrentRequest port w nowUs).client.operation = none ∨
      (issueCurrentRequest port w nowUs).client.operation = w.client.operation) ∧
    requestsSince select (issueCurrentRequest port w nowUs).history =
      (select (requestPdu w.client)).toList ++ requestsSince select w.history := by
  let P (v : World) : Prop :=
    (v.client.operation = none ∨ v.client.operation = w.client.operation) ∧
      requestsSince select v.history =
        (select (requestPdu w.client)).toList ++ requestsSince select w.history
  refine issueCurrentRequest_cases (P := P) nowUs (fun _ _ _ => ⟨.inr rfl, rfl⟩)
    (fun _ requests => ?_) fun _ requests => ?_
  · obtain ⟨hnone, hsame⟩ := handleMtuResponse_requests select (w.refused requests) 0 []
    exact ⟨.inl hnone, hsame⟩
  · obtain ⟨hnone, hsame⟩ := complete_requests select (w.refused requests) .errorClosed 0
    exact ⟨.inl hnone, hsame⟩

variable {select} {R : Option Operation → List α → Prop} {input : Input}

lemma issueCurrentRequest_rule (hdone : ∀ o requests, R o requests → R none requests)
    (h : R w.client.operation
      ((select (requestPdu w.client)).toList ++ requestsSince select w.history)) (nowUs : ℕ) :
    R (issueCurrentRequest port w nowUs).client.operation
      (requestsSince select (issueCurrentRequest port w nowUs).history) := by
  obtain ⟨hnone | hsame, hrequests⟩ := @issueCurrentRequest_requests _ select port w nowUs
  · rw [hnone, hrequests]
    exact hdone _ _ h
  · rw [hsame, hrequests]
    exact h

lemma apply_requests (hdone : ∀ o requests, R o requests → R none requests)
    (hmtu : ∀ c : Client, c.op = .mtu → select (requestPdu c) = none)
    (h : R w.client.operation (requestsSince select w.history))
    (hbegin : ∀ setup onComplete nowUs, input.setup = some (setup, onComplete, nowUs) →
      R (some (setup w.client).asOperation) (select (requestPdu (setup w.client))).toList)
    (hnext : ∀ opcode params nowUs c, input = .data (opcode :: params) nowUs →
      w.channelOpen = true → w.client.onConnect = false → w.client.busy = true →
      Continues w.client opcode params c → R (some c.asOperation)
        ((select (requestPdu c)).toList ++ requestsSince select w.history)) :
    R (apply port w input).client.operation
      (requestsSince select (apply port w input).history) := by
  generalize hw : apply port w input = w'
  have hstep := apply_step port w input
  rw [hw] at hstep
  have hended {v : World} (hv : v.client.operation = none ∧
      requestsSince select v.history = requestsSince select w.history) :
      R v.client.operation (requestsSince select v.history) := by
    rw [hv.1, hv.2]
    exact hdone _ _ h
  cases hstep with
  | ignored | notifyHandler | unopened | unready | unsolicited => exact h
  | opened onConnect granted nowUs hclosed =>
    refine issueCurrentRequest_rule hdone ?_ nowUs
    rw [hmtu _ rfl, Client.operation_mtu rfl]
    exact hdone _ _ h
  | closed =>
    exact onClosed_cases (P := fun v => R v.client.operation (requestsSince select v.history)) h
      (fun _ _ => hended (complete_requests select _ _ _)) h
  | @notification opcode params nowUs hopen hop =>
    rw [handleNotification_eq, requestsSince_notificationEvents]
    exact h
  | @exchanged opcode params nowUs hopen hop hconnect =>
    exact hended (handleMtuResponse_requests select _ opcode params)
  | @response opcode params nowUs hopen hop hconnect hbusy =>
    obtain ⟨found, value, result, code, hcompleted⟩ | ⟨c, hcontinues, hissued⟩ | ⟨-, hsame⟩ :=
      dispatchResponse_outcomes port (arrived w nowUs) opcode params nowUs
    · rw [hcompleted]
      exact hended (complete_requests select _ result code)
    · obtain ⟨hcBusy, hcOp, hunarrived⟩ := hcontinues.of_arrived
      have hcontinued := hnext opcode params nowUs _ rfl hopen hconnect hbusy hunarrived
      rw [hissued]
      refine issueCurrentRequest_rule hdone ?_ nowUs
      rw [Client.operation_busy (hcBusy.trans hbusy) hcOp]
      exact hcontinued
    · rw [hsame]
      exact h
  | @begun _ setup onComplete nowUs hsetup hready hidle =>
    obtain ⟨op, pendingHandle, discoverRangeEnd, found, value, hop, hset⟩ :=
      Input.setup_spec hsetup w.client
    have hstarted : (startOperation w setup onComplete).client.operation =
        some (setup w.client).asOperation :=
      Client.operation_busy rfl (by
        change (setup w.client).op ≠ .mtu
        rw [hset]
        exact hop)
    have hrequests : requestsSince select (startOperation w setup onComplete).history = [] := rfl
    refine issueCurrentRequest_rule hdone ?_ nowUs
    rw [hstarted, hrequests, List.append_nil]
    exact hbegin setup onComplete nowUs hsetup
  | mtuExpired hexpired hconnect => exact hended (handleMtuResponse_requests select _ 0 [])
  | expired => exact hended (complete_requests select _ _ _)

end

end Bluzing.Gatt
