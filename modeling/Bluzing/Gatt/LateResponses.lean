import Bluzing.Gatt.Steps
import Bluzing.Lib.Reentrant

/-! The client and its server with responses in flight. -/
namespace Bluzing.Gatt

def Ignores (port : ℕ → Bool) (w : World) (pdu : Bytes) (nowUs : ℕ) : Prop :=
  ∃ eventNowUs, apply port w (.data pdu nowUs) = arrived w eventNowUs

def Listening (w : World) (pdu : Bytes) : Prop :=
  w.channelOpen = true ∧ (w.client.onConnect = true ∨
    w.client.busy = true ∧ (w.client.op ≠ .mtu ∨ pdu.head? = some opcodeErrorResponse))

def IsResponse : Bytes → Bool
  | [] => false
  | opcode :: _ => !decide (IsNotification opcode)

variable {port : ℕ → Bool} {w : World}

lemma issueCurrentRequest_effect (hop : w.client.op ≠ .mtu) (nowUs : ℕ) :
    (issueCurrentRequest port w nowUs).client.busy = false ∨
      (issueCurrentRequest port w nowUs).history ≠ w.history := by
  refine issueCurrentRequest_cases (P := fun v => v.client.busy = false ∨ v.history ≠ w.history)
    nowUs (fun _ _ _ => ?_) (fun hmtu => absurd hmtu hop) fun _ requests => ?_
  · exact .inr (List.cons_ne_self _ _)
  · exact .inl (complete_busy _ _ _)

variable {opcode : UInt8}

lemma dispatchResponse_effect
    (hop : w.client.op ≠ .mtu ∨ opcode = opcodeErrorResponse) (params : Bytes) (nowUs : ℕ) :
    (dispatchResponse port w opcode params nowUs).client.busy = false ∨
      (dispatchResponse port w opcode params nowUs).history ≠ w.history := by
  by_cases hmtu : w.client.op = .mtu
  · have herror := hop.resolve_left (not_not.mpr hmtu)
    obtain ⟨result, code, hdone⟩ := handleErrorResponse_cases w params
    rw [dispatchResponse, if_pos herror, hdone]
    exact .inl (complete_busy w result code)
  · obtain ⟨found, value, result, code, hdone⟩ | ⟨c, hcontinues, hnext⟩ :=
      @dispatchResponse_cases port w hmtu opcode params nowUs
    · rw [hdone]
      exact .inl (complete_busy _ result code)
    · have hsame : c.op = w.client.op := by cases hcontinues <;> rfl
      rw [hnext]
      exact issueCurrentRequest_effect (w := { w with client := c }) (hsame ▸ hmtu) nowUs

lemma handleMtuResponse_onConnect (w : World) (opcode : UInt8) (params : Bytes) :
    (handleMtuResponse w opcode params).client.onConnect = false := by
  unfold handleMtuResponse
  dsimp only
  split
  · rfl
  next hconnect => exact Bool.eq_false_iff.mpr hconnect

lemma not_ignores_of_listening {params : Bytes}
    (hop : ¬ IsNotification opcode) (nowUs : ℕ) (h : Listening w (opcode :: params)) :
    ¬ Ignores port w (opcode :: params) nowUs := by
  rintro ⟨eventNowUs, happly⟩
  obtain ⟨hopen, hlisten⟩ := h
  rw [apply_response hopen hop] at happly
  by_cases hconnect : w.client.onConnect = true
  · rw [if_pos hconnect] at happly
    have hkept : (arrived w eventNowUs).client.onConnect = true := hconnect
    rw [← happly, handleMtuResponse_onConnect] at hkept
    cases hkept
  · obtain ⟨hbusy, hmatters⟩ := hlisten.resolve_left hconnect
    rw [if_neg hconnect, if_pos hbusy] at happly
    have hkept : (arrived w eventNowUs).client.busy = true := hbusy
    obtain hidle | hhistory := @dispatchResponse_effect port (arrived w nowUs) opcode
      (hmatters.imp_right Option.some.inj) params nowUs
    · rw [← happly, hidle] at hkept
      cases hkept
    · exact hhistory (happly ▸ rfl)

lemma ignores_of_not_listening {params : Bytes}
    (hop : ¬ IsNotification opcode) (nowUs : ℕ) (h : ¬ Listening w (opcode :: params)) :
    Ignores port w (opcode :: params) nowUs := by
  by_cases hopen : w.channelOpen = true
  · have hdeaf := fun hlisten => h ⟨hopen, hlisten⟩
    refine ⟨nowUs, ?_⟩
    rw [apply_response hopen hop, if_neg fun hconnect => hdeaf (.inl hconnect)]
    split
    next hbusy =>
      -- only an exchange of MTUs whose callback is gone waits in this way
      have hmtu := not_not.mp fun hop => hdeaf (.inr ⟨hbusy, .inl hop⟩)
      have herror := fun heq => hdeaf (.inr ⟨hbusy, .inr (congrArg some heq)⟩)
      rw [dispatchResponse, if_neg herror]
      rw [show (arrived w nowUs).client.op = .mtu from hmtu]
    · rfl
  · exact ⟨w.client.eventNowUs, if_neg hopen⟩

lemma ignores_iff {pdu : Bytes} (hpdu : IsResponse pdu = true) (nowUs : ℕ) :
    Ignores port w pdu nowUs ↔ ¬ Listening w pdu := by
  cases pdu with
  | nil => cases hpdu
  | cons opcode params =>
    have hop : ¬ IsNotification opcode := by simpa [IsResponse] using hpdu
    exact ⟨fun hignores hlisten => not_ignores_of_listening hop nowUs hlisten hignores,
      ignores_of_not_listening hop nowUs⟩

structure System where
  world : World
  inFlight : List (ℕ × Bytes)
  timedOut : List ℕ

inductive Action where
  | call (input : Input)
  | answer (request : ℕ) (pdu : Bytes)
  | deliver (i : ℕ) (nowUs : ℕ)

section

variable (port : ℕ → Bool)

def timeout (w : World) : Input → Option ℕ
  | .tick nowUs => if w.client.expired nowUs then some (w.requests - 1) else none
  | _ => none

def act (s : System) : Action → System
  | .call input =>
      { s with
        world := apply port s.world input
        timedOut := (timeout s.world input).toList ++ s.timedOut }
  | .answer request pdu =>
      if request < s.world.requests ∧ port request = true ∧ IsResponse pdu = true then
        { s with inFlight := (request, pdu) :: s.inFlight }
      else s
  | .deliver i nowUs =>
      match s.inFlight[i]? with
      | none => s
      | some (_, pdu) =>
          { s with
            world := apply port s.world (.data pdu nowUs)
            inFlight := s.inFlight.eraseIdx i }

def runSystem (actions : List Action) : System := actions.foldl (act port) ⟨World.init, [], []⟩

def Late (s : System) (i : ℕ) (pdu : Bytes) : Prop :=
  ∃ request ∈ s.timedOut, s.inFlight[i]? = some (request, pdu)

def Answers (s : System) : Prop := ∀ answer ∈ s.inFlight, IsResponse answer.2 = true

lemma act_answers {s : System} (action : Action) (h : Answers s) :
    Answers (act port s action) := by
  cases action with
  | call input => exact h
  | answer request pdu =>
    rw [act]
    split
    next hsent => exact List.forall_mem_cons.mpr ⟨hsent.2.2, h⟩
    · exact h
  | deliver i nowUs =>
    rw [act]
    split
    · exact h
    · exact fun answer hmem => h answer (List.mem_of_mem_eraseIdx hmem)

lemma runSystem_answers (actions : List Action) : Answers (runSystem port actions) :=
  foldl_invariant (I := Answers) (fun _ action h => act_answers port action h) actions
    (List.forall_mem_nil _)

/-- The late responses of a run are ignored exactly where they find a client that waits for none. -/
theorem late_ignored_iff (actions : List Action) :
    (∀ done i nowUs rest, done ++ .deliver i nowUs :: rest = actions →
        ∀ pdu, Late (runSystem port done) i pdu →
          Ignores port (runSystem port done).world pdu nowUs) ↔
      ∀ done i nowUs rest, done ++ .deliver i nowUs :: rest = actions →
        ∀ pdu, Late (runSystem port done) i pdu → ¬ Listening (runSystem port done).world pdu := by
  have hstep (done : List Action) (i nowUs : ℕ) (pdu : Bytes)
      (hlate : Late (runSystem port done) i pdu) :
      Ignores port (runSystem port done).world pdu nowUs ↔
        ¬ Listening (runSystem port done).world pdu := by
    obtain ⟨request, -, hat⟩ := hlate
    exact ignores_iff (runSystem_answers port done _ (List.mem_of_getElem? hat)) nowUs
  constructor
  · intro h done i nowUs rest hrun pdu hlate
    exact (hstep done i nowUs pdu hlate).mp (h done i nowUs rest hrun pdu hlate)
  · intro h done i nowUs rest hrun pdu hlate
    exact (hstep done i nowUs pdu hlate).mpr (h done i nowUs rest hrun pdu hlate)

end

def lateRead : List Action :=
  [.call (.connect true true 0), .answer 0 [opcodeExchangeMtuResponse, 23, 0], .deliver 0 10,
    .call (.read 3 true 20), .call (.tick 30000020), .call (.read 5 true 30000030),
    .answer 1 [opcodeReadResponse, 0x42]]

/-- What handle 3 held is reported as the value of handle 5. -/
theorem lateRead_misattributed :
    let s := runSystem (fun _ => true) lateRead
    Late s 0 [opcodeReadResponse, 0x42] ∧ s.world.client.pendingHandle = 5 ∧
      (act (fun _ => true) s (.deliver 0 30000040)).world.history =
        .completed 1 ⟨.ok, .read, 0, [], [0x42]⟩ :: s.world.history :=
  ⟨⟨1, by decide, by decide⟩, by decide, by decide⟩

end Bluzing.Gatt
