import Bluzing.Smp.KeyOrder
import Bluzing.Smp.StepCases

/-! The pairing deadline in sequential runs: it is armed exactly while the manager waits, unless the
Pairing Request of a start could not be sent. -/
namespace Bluzing.Smp

def Armed (m : Manager) : Prop := m.deadlineUs ≠ 0 ↔ m.state.waiting = true

variable {su : Setup} {port : ℕ → Reply} {w w₁ : World} {i : Input} {pdu : Bytes}

lemma armed_of_waiting {m : Manager} (hd : m.deadlineUs ≠ 0) (hs : m.state.waiting = true) :
    Armed m := iff_of_true hd hs

lemma finish_armed (su : Setup) (w : World) (r : Result) : Armed (finish su w r).m := by
  refine iff_of_false (by simp) ?_
  rw [finish_state]
  split <;> decide

lemma Transmits.waiting (h : Transmits su w i w₁ pdu) : w₁.m.state.waiting = true := by
  cases h <;> rfl

lemma Rests.armed (h : Rests su w i w₁) : Armed w₁.m := by
  cases h with
  | requestTk | askNumeric =>
    rw [userAction_m]
    exact armed_of_waiting (timeoutDeadline_ne_zero _) rfl
  | keyStored hk =>
    have hf := Manager.storeKey_frame hk.stored
    dsimp only
    rw [hf]
    exact armed_of_waiting (timeoutDeadline_ne_zero _) (by simp [hk.state, State.waiting])
  | _ => exact armed_of_waiting (timeoutDeadline_ne_zero _) rfl

variable {w' : World}

def StartSendFails (su : Setup) (port : ℕ → Reply) (w : World) (i : Input) : Prop :=
  (∃ nowUs, i = .call .start nowUs) ∧ startable su w.m = true ∧ (port w.calls).status ≠ .ok

lemma start_fails (hs : startable su w.m = true) (hp : (port w.calls).status ≠ .ok) (nowUs : ℕ) :
    (start su (sendAt su port 0) w nowUs).1.m.state = .idle ∧
      (start su (sendAt su port 0) w nowUs).1.m.deadlineUs = timeoutDeadline nowUs := by
  rw [start_eq, if_pos hs]
  simp [begun, sendPdu, hp]

lemma start_sends (hs : startable su w.m = true) (hp : (port w.calls).status = .ok) (nowUs : ℕ) :
    (start su (sendAt su port 0) w nowUs).1.m.state = .waitPairingResponse ∧
      (start su (sendAt su port 0) w nowUs).1.m.deadlineUs = timeoutDeadline nowUs := by
  rw [start_eq, if_pos hs]
  simp [begun, sendPdu, hp]

lemma Reacts.armed (h : Reacts su port (sendAt su port 0) w i w') (ha : Armed w.m)
    (hn : ¬ StartSendFails su port w i) : Armed w'.m := by
  cases h with
  | unchanged | startRejected => exact ha
  | @starts nowUs hi hs =>
    have hp : (port w.calls).status = .ok := by
      by_contra hp
      exact hn ⟨⟨nowUs, hi⟩, hs, hp⟩
    obtain ⟨hst, hd⟩ := start_sends hs hp nowUs
    exact armed_of_waiting (by rw [hd]; exact timeoutDeadline_ne_zero nowUs) (by rw [hst]; rfl)
  | expires | fails | ends | breaks => exact finish_armed su _ _
  | transmits ht =>
    unfold transmit
    dsimp only
    split
    · exact armed_of_waiting (timeoutDeadline_ne_zero _) ht.waiting
    · exact finish_armed su _ _
  | rests hr => exact hr.armed
  | distributes =>
    unfold finishKeyDistribution
    dsimp only
    split <;> exact finish_armed su _ _

lemma apply_armed (ha : Armed w.m) (hn : ¬ StartSendFails su port w i) :
    Armed (apply su port (sendAt su port 0) w i).m := by
  have he : (entry w i).m = w.m ∧ (entry w i).calls = w.calls := by cases i <;> exact ⟨rfl, rfl⟩
  refine (apply_reacts su port _ w i).armed (by rw [he.1]; exact ha) ?_
  unfold StartSendFails at hn ⊢
  rw [he.1, he.2]
  exact hn

lemma run_concat (n : ℕ) (inputs : List Input) (i : Input) :
    run su port n (inputs ++ [i]) =
      apply su port (sendAt su port n) (run su port n inputs) i := by
  simp [run, runFrom]

structure DeadlineSound (su : Setup) (port : ℕ → Reply) (w : World) : Prop where
  armed : Armed w.m
  quiet : w.m.state = .idle → ∀ nowUs, tick su w nowUs = w
  restartable : ∀ nowUs, startable su w.m = true →
    (start su (sendAt su port 0) w nowUs).2 ≠ .ok →
      startable su (start su (sendAt su port 0) w nowUs).1.m = true

lemma Armed.sound (h : Armed w.m) : DeadlineSound su port w where
  armed := h
  quiet hs nowUs := by
    have hd : w.m.deadlineUs = 0 := by
      by_contra hd
      have := h.mp hd
      rw [hs] at this
      cases this
    simp [tick, hd]
  restartable nowUs hs hf := by
    have hp : (port w.calls).status ≠ .ok := by
      intro hp
      rw [start_eq, if_pos hs] at hf
      simp [begun, sendPdu, hp] at hf
    obtain ⟨hst, -⟩ := start_fails hs hp nowUs
    simp only [startable, Bool.and_eq_true] at hs ⊢
    exact ⟨⟨hs.1.1, by rw [hst]; rfl⟩, hs.2⟩

/-- A sequential run keeps the deadline sound in every state it reaches exactly when no start in it
fails to send the Pairing Request. -/
theorem run_deadlineSound_iff (su : Setup) (port : ℕ → Reply) (inputs : List Input) :
    (∀ done rest, done ++ rest = inputs → DeadlineSound su port (run su port 0 done)) ↔
      ∀ done i rest, done ++ i :: rest = inputs →
        ¬ StartSendFails su port (run su port 0 done) i := by
  refine foldl_invariant_iff (I := DeadlineSound su port) ?_ ?_ ?_ inputs
  · exact Armed.sound (iff_of_false (by simp [World.init, Manager.init]) nofun)
  · exact fun w i h hn => (apply_armed h.armed hn).sound
  · rintro w i ⟨⟨nowUs, rfl⟩, hs, hp⟩ h
    obtain ⟨hst, hdl⟩ := start_fails (w := w.emit (.called .start)) hs hp nowUs
    have hwait := h.armed.mp (by
      simp only [apply, applyCall, hdl]
      exact timeoutDeadline_ne_zero nowUs)
    simp only [apply, applyCall, hst] at hwait
    cases hwait

def plainFeatures : PairingFeatures := ⟨0x03, 0, 0x01, 16, 0, 0⟩

def plainSetup : Setup where
  ops := ⟨true, true, true, true, true, true, true, true, true⟩
  aes := some fun _ block => .ok block
  cmac := none
  config := ⟨plainFeatures, 0, 0, .zero 6, .zero 6⟩

theorem refused_start_expires :
    let port := uniformPort .invalidArgument
    (run plainSetup port 0 [.call .start 0]).m.state = .idle ∧
      (run plainSetup port 0 [.call .start 0]).m.deadlineUs = 30000000 ∧
      (run plainSetup port 0 [.call .start 0, .call .tick 30000000]).m.state = .failed ∧
      startable plainSetup
        (run plainSetup port 0 [.call .start 0, .call .tick 30000000]).m = false := by
  decide +kernel

end Bluzing.Smp
