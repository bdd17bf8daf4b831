import Bluzing.Lib.History
import Bluzing.Controller.CommandQueue

/-! An invariant rule for the command queue: what each primitive step of the queue keeps, and the
transport and the callbacks keep, every entry point keeps, however deep it recurses. -/
namespace Bluzing.Controller
variable {κ σ : Type} {callback : Callback κ σ} {send : Send κ σ} {I : World κ σ → Prop}
  {w : World κ σ} {i : SlotId} {nowUs fuel : ℕ}

def CmdSlot.wire (slot : CmdSlot κ) : Bytes :=
  writeLe16 slot.opcode ++ [slot.params.length.toUInt8] ++ slot.params

lemma encodeCommand_slot (slot : CmdSlot κ) :
    ∃ wr, encodeCommand (.init (commandHeaderLen + maxParamLen)) slot.opcode slot.params = .ok wr ∧
      wr.data = slot.wire := by
  have hfits := slot.fits
  have hop : (writeLe16 slot.opcode).length = 2 := rfl
  unfold encodeCommand
  rw [if_neg (by omega)]
  simp only [Writer.writeLe16, Writer.writeU8, Writer.init, bind, Except.bind]
  rw [Writer.writeBytes_eq _ _ (by simp [hop, commandHeaderLen, maxParamLen])]
  dsimp only
  rw [Writer.writeBytes_eq _ _ (by simp [hop, commandHeaderLen, maxParamLen])]
  dsimp only
  split
  next hnil => exact ⟨_, rfl, by simp [CmdSlot.wire, List.length_eq_zero_iff.mp hnil]⟩
  · rw [Writer.writeBytes_eq _ _ (by
      simp only [List.length_append, hop, List.length_singleton, commandHeaderLen, List.nil_append]
      omega)]
    exact ⟨_, rfl, rfl⟩

structure World.Sends (w : World κ σ) (i : SlotId) (rest : List SlotId) : Prop where
  idle : w.q.outstanding = none
  credit : w.q.commandCredits ≠ 0
  head : w.q.pending = i :: rest

def World.launched (w : World κ σ) (i : SlotId) (rest : List SlotId) (nowUs : ℕ) : World κ σ :=
  (w.dequeue rest).launch i (w.slot i).wire nowUs

def World.failed (w : World κ σ) (serial : ℕ) : World κ σ := w.emit (.sendFailed serial)

def World.completionOf (w : World κ σ) (i : SlotId) (result : CmdqResult) (status : UInt8)
    (returnParams : Bytes) : Completion :=
  ⟨result, (w.slot i).opcode, status, returnParams⟩

def World.settle (callback : Callback κ σ) (w : World κ σ) (i : SlotId)
    (completion : Completion) : World κ σ :=
  match (w.slot i).onComplete with
  | none => w.release i completion
  | some cb => callback cb (w.release i completion) completion

def CompleteAnswers (data : Bytes) (opcode : UInt16) (status : UInt8)
    (returnParams : Bytes) : Prop :=
  ∃ hdr r cc, parseEventHeader (.init data) = .ok (hdr, r) ∧
    hdr.eventCode = eventCommandComplete ∧ parseCommandComplete r hdr.paramLen = .ok cc ∧
    cc.commandOpcode = opcode ∧ completeStatus cc = .ok status ∧ cc.returnParams = returnParams

def StatusAnswers (data : Bytes) (opcode : UInt16) (status : UInt8) : Prop :=
  ∃ hdr r cs, parseEventHeader (.init data) = .ok (hdr, r) ∧
    hdr.eventCode = eventCommandStatus ∧ parseCommandStatus r hdr.paramLen = .ok cs ∧
    cs.commandOpcode = opcode ∧ cs.status = status

def Answers (data : Bytes) (opcode : UInt16) (status : UInt8)
    (returnParams : Bytes) : Prop :=
  CompleteAnswers data opcode status returnParams ∨
    StatusAnswers data opcode status ∧ returnParams = []

structure Delivers (callback : Callback κ σ) (send : Send κ σ) (I : World κ σ → Prop) : Prop where
  clock : ∀ w nowUs, I w → I (w.advanceClock nowUs)
  credits : ∀ w credits, I w → I (w.setCredits credits)
  sent : ∀ w i rest nowUs, I w → w.Sends i rest →
    I (send (w.launched i rest nowUs) (w.slot i).wire).1
  failed : ∀ w i rest nowUs w', I w → w.Sends i rest →
    send (w.launched i rest nowUs) (w.slot i).wire = (w', false) → w'.q.outstanding ≠ some i →
    I (w'.failed (w.slot i).serial)
  aborted : ∀ w i rest nowUs w', I w → w.Sends i rest →
    send (w.launched i rest nowUs) (w.slot i).wire = (w', false) → w'.q.outstanding = some i →
    I ((w'.failed (w.slot i).serial).restoreCredit.settle callback i
      (w'.completionOf i .sendError 0xFF []))

structure Settles (callback : Callback κ σ) (send : Send κ σ) (I : World κ σ → Prop) : Prop
    extends Delivers callback send I where
  expired : ∀ w nowUs i timers, I w → w.q.timers.popExpired nowUs = some (i, timers) →
    I (((w.modify fun q => { q with timers }).setCredits 1).settle callback i
      (w.completionOf i .timeout 0xFF []))

def AnswersKeep (callback : Callback κ σ) (I : World κ σ → Prop) (w : World κ σ)
    (data : Bytes) : Prop :=
  ∀ credits i status returnParams, w.q.outstanding = some i →
    Answers data (w.slot i).opcode status returnParams →
    I ((w.setCredits credits).settle callback i (w.completionOf i .complete status returnParams))

namespace Delivers

lemma pump (h : Delivers callback send I) (fuel : ℕ) (w : World κ σ) (nowUs : ℕ) (hw : I w) :
    I (cmdqPump callback send fuel w nowUs) := by
  induction fuel generalizing w nowUs with
  | zero => exact hw
  | succ fuel ih =>
    unfold cmdqPump
    have hw := h.clock w nowUs hw
    generalize w.advanceClock nowUs = w at *
    dsimp only
    split
    · exact hw
    next hidle =>
    split
    · exact hw
    next hcredit =>
    split
    · exact hw
    next i rest hhead =>
    have hs : w.Sends i rest := ⟨by simpa using hidle, hcredit, hhead⟩
    obtain ⟨wr, hwr, hdata⟩ := encodeCommand_slot (w.slot i)
    have hwr : encodeCommand (.init (commandHeaderLen + maxParamLen))
        ((w.dequeue rest).slot i).opcode ((w.dequeue rest).slot i).params = .ok wr := hwr
    rw [hwr]
    dsimp only
    rw [hdata]
    split
    · exact h.sent w i rest nowUs hw hs
    next hrc =>
    have hrc : send (w.launched i rest nowUs) (w.slot i).wire =
        ((send (w.launched i rest nowUs) (w.slot i).wire).1, false) :=
      Prod.ext rfl (Bool.eq_false_iff.mpr hrc)
    split
    next hout => exact ih _ nowUs (h.aborted w i rest nowUs _ hw hs hrc hout)
    next hout => exact h.failed w i rest nowUs _ hw hs hrc hout

lemma answerCommand (h : Delivers callback send I) (fuel : ℕ) (hw : I w) {opcode : UInt16}
    {status : Access UInt8} (hs : InRange status) {returnParams : Bytes}
    (answered : ∀ i value, w.q.outstanding = some i → (w.slot i).opcode = opcode →
      status = .ok value →
        I (w.settle callback i (w.completionOf i .complete value returnParams))) :
    I (answerCommand callback send fuel w opcode status returnParams nowUs) := by
  unfold Controller.answerCommand
  split
  · exact h.pump fuel w nowUs hw
  next i hout =>
  split
  next hop =>
    split
    next e => cases e with
      | status => exact hw
      | outOfRange => exact absurd rfl hs
    next value => exact h.pump fuel _ nowUs (answered i value hout hop rfl)
  · exact h.pump fuel w nowUs hw

lemma onEvent (h : Delivers callback send I) (fuel : ℕ) (hw : I w) {data : Bytes}
    (answered : AnswersKeep callback I w data) :
    I (cmdqOnEvent callback send fuel w data nowUs) := by
  have hkeep {α : Type} {x : Access α} {e : ReadError} (hx : InRange x) (he : x = .error e) :
      I (w.readError e) := by
    cases e with
    | status => exact hw
    | outOfRange => exact absurd he hx
  unfold cmdqOnEvent
  split
  next e he => exact hkeep (parseEventHeader_inRange _) he
  next hdr r hhdr =>
  split
  next hcode =>
    split
    next e he => exact hkeep (parseCommandComplete_inRange _ _) he
    next cc hcc =>
      refine h.answerCommand fuel (h.credits w _ hw) ?_ fun i value hout hop hvalue =>
        answered _ i value _ hout (.inl ⟨hdr, r, cc, hhdr, hcode, hcc, hop.symm, hvalue, rfl⟩)
      unfold completeStatus
      split
      next hlen => exact octetAt_inRange hlen
      · exact inRange_ok _
  next =>
  split
  next hcode =>
    split
    next e he => exact hkeep (parseCommandStatus_inRange _ _) he
    next cs hcs =>
      refine h.answerCommand fuel (h.credits w _ hw) (inRange_ok _) fun i value hout hop hvalue =>
        answered _ i value _ hout (.inr ⟨⟨hdr, r, cs, hhdr, hcode, hcs, hop.symm, ?_⟩, rfl⟩)
      exact Except.ok.inj hvalue
  · exact hw

end Delivers

namespace Settles

lemma expire (h : Settles callback send I) (fuel rounds : ℕ) (w : World κ σ) (hw : I w) :
    I (expireTimers callback send fuel rounds w nowUs) := by
  induction rounds generalizing w with
  | zero => exact hw
  | succ rounds ih =>
    unfold expireTimers
    split
    · exact hw
    next i timers hpop => exact ih _ (h.pump fuel _ _ (h.expired w nowUs i timers hw hpop))

lemma tick (h : Settles callback send I) (fuel : ℕ) (hw : I w) :
    I (cmdqTick callback send fuel w nowUs) :=
  h.pump fuel _ nowUs (h.expire fuel fuel _ (h.clock w nowUs hw))

end Settles

structure Keeps (callback : Callback κ σ) (send : Send κ σ) (I : World κ σ → Prop) : Prop where
  clock : ∀ w nowUs, I w → I (w.advanceClock nowUs)
  credits : ∀ w credits, I w → I (w.setCredits credits)
  callback : ∀ cb w completion, I w → I (callback cb w completion)
  sent : ∀ w i rest nowUs, I w → w.Sends i rest →
    I (send (w.launched i rest nowUs) (w.slot i).wire).1
  failed : ∀ w i rest nowUs w', I w → w.Sends i rest →
    send (w.launched i rest nowUs) (w.slot i).wire = (w', false) → w'.q.outstanding ≠ some i →
    I (w'.failed (w.slot i).serial)
  aborted : ∀ w i rest nowUs w', I w → w.Sends i rest →
    send (w.launched i rest nowUs) (w.slot i).wire = (w', false) → w'.q.outstanding = some i →
    I ((w'.failed (w.slot i).serial).restoreCredit.release i
      (w'.completionOf i .sendError 0xFF []))
  completed : ∀ w i status returnParams, I w → w.q.outstanding = some i →
    I (w.release i (w.completionOf i .complete status returnParams))
  expired : ∀ w nowUs i timers, I w → w.q.timers.popExpired nowUs = some (i, timers) →
    I (((w.modify fun q => { q with timers }).setCredits 1).release i
      (w.completionOf i .timeout 0xFF []))

namespace Keeps

lemma settle (h : Keeps callback send I) {completion : Completion}
    (hw : I (w.release i completion)) : I (w.settle callback i completion) := by
  unfold World.settle
  split
  · exact hw
  · exact h.callback _ _ _ hw

lemma settles (h : Keeps callback send I) : Settles callback send I where
  clock := h.clock
  credits := h.credits
  sent := h.sent
  failed := h.failed
  aborted w i rest nowUs w' hw hs hrc hout := h.settle (h.aborted w i rest nowUs w' hw hs hrc hout)
  expired w nowUs i timers hw hpop := h.settle (h.expired w nowUs i timers hw hpop)

lemma answersKeep (h : Keeps callback send I) (hw : I w) (data : Bytes) :
    AnswersKeep callback I w data :=
  fun credits i status returnParams hout _ =>
    h.settle (h.completed _ i status returnParams (h.credits w credits hw) hout)

lemma pump (h : Keeps callback send I) (fuel : ℕ) (w : World κ σ) (nowUs : ℕ) (hw : I w) :
    I (cmdqPump callback send fuel w nowUs) :=
  h.settles.pump fuel w nowUs hw

lemma onEvent (h : Keeps callback send I) (fuel : ℕ) (hw : I w) (data : Bytes) :
    I (cmdqOnEvent callback send fuel w data nowUs) :=
  h.settles.onEvent fuel hw (h.answersKeep hw data)

lemma tick (h : Keeps callback send I) (fuel : ℕ) (hw : I w) :
    I (cmdqTick callback send fuel w nowUs) :=
  h.settles.tick fuel hw

end Keeps

def Event.ofQueue : Event → Bool
  | .submitted _ | .sent _ _ _ | .sendFailed _ | .restored _ | .completed _ _ => true
  | .received _ | .traced _ | .outOfRange => false

lemma World.release_history (completion : Completion) :
    (w.release i completion).history = .completed (w.slot i).serial completion :: w.history := by
  unfold World.release
  dsimp only
  split <;> split <;> rfl

lemma World.release_host (completion : Completion) : (w.release i completion).host = w.host := by
  unfold World.release
  dsimp only
  split <;> split <;> rfl

lemma cmdqSubmit_host (w : World κ σ) (opcode : UInt16) (params : Option Bytes)
    (paramsLen : UInt8) (timeoutUs : ℕ) (onComplete : Option κ) :
    (cmdqSubmit w opcode params paramsLen timeoutUs onComplete).1.host = w.host := by
  unfold cmdqSubmit
  split
  · rfl
  split
  · rfl
  · rfl

lemma cmdqSubmit_refused {opcode : UInt16} {params : Option Bytes} {paramsLen : UInt8}
    {timeoutUs : ℕ} {onComplete : Option κ}
    (h : (cmdqSubmit w opcode params paramsLen timeoutUs onComplete).2 ≠ .ok) :
    (cmdqSubmit w opcode params paramsLen timeoutUs onComplete).1 = w := by
  revert h
  unfold cmdqSubmit
  split
  · exact fun _ => rfl
  split
  · exact fun _ => rfl
  · exact fun hrc => absurd rfl hrc

lemma cmdqSubmit_history (w : World κ σ) (opcode : UInt16) (params : Option Bytes)
    (paramsLen : UInt8) (timeoutUs : ℕ) (onComplete : Option κ) :
    (cmdqSubmit w opcode params paramsLen timeoutUs onComplete).1.history = w.history ∨
      (cmdqSubmit w opcode params paramsLen timeoutUs onComplete).1.history =
        .submitted w.submissions :: w.history := by
  unfold cmdqSubmit
  split
  · exact .inl rfl
  split
  · exact .inl rfl
  · exact .inr rfl

structure QueueStep (w w' : World κ σ) : Prop where
  host : w'.host = w.host
  history : Extends Event.ofQueue w.history w'.history

lemma keeps_of_queueStep (step : ∀ w w', QueueStep w w' → I w → I w')
    (call : ∀ cb w completion, I w → I (callback cb w completion))
    (sent : ∀ w command, I w → I (send w command).1) : Keeps callback send I where
  clock w nowUs hw := step w _ ⟨rfl, .refl⟩ hw
  credits w credits hw := step w _ ⟨rfl, .refl⟩ hw
  callback := call
  sent w i rest nowUs hw _ := sent _ _ (step w _ ⟨rfl, .cons rfl .refl⟩ hw)
  failed w i rest nowUs w' hw _ hrc _ := by
    have hsent := sent (w.launched i rest nowUs) (w.slot i).wire
      (step w _ ⟨rfl, .cons rfl .refl⟩ hw)
    rw [hrc] at hsent
    exact step w' _ ⟨rfl, .cons rfl .refl⟩ hsent
  aborted w i rest nowUs w' hw _ hrc _ := by
    have hsent := sent (w.launched i rest nowUs) (w.slot i).wire
      (step w _ ⟨rfl, .cons rfl .refl⟩ hw)
    rw [hrc] at hsent
    refine step w' _ ⟨World.release_host _, ?_⟩ hsent
    rw [World.release_history]
    exact .cons rfl (.cons rfl (.cons rfl .refl))
  completed w i status returnParams hw _ := by
    refine step w _ ⟨World.release_host _, ?_⟩ hw
    rw [World.release_history]
    exact .cons rfl .refl
  expired w nowUs i timers hw _ := by
    refine step w _ ⟨World.release_host _, ?_⟩ hw
    rw [World.release_history]
    exact .cons rfl .refl

lemma keeps_of_history {J : List Event → Prop}
    (queue : ∀ e h, e.ofQueue = true → J h → J (e :: h))
    (call : ∀ cb w completion, J w.history → J (callback cb w completion).history)
    (sent : ∀ w command, J w.history → J (send w command).1.history) :
    Keeps callback send fun w => J w.history :=
  keeps_of_queueStep (fun _ _ hstep => hstep.history.keeps queue) call sent

end Bluzing.Controller
