import Bluzing.Controller.QueueInvariant

/-! Send errors of the command queue. -/
namespace Bluzing.Controller

def FailedBefore (e : Event) (older : List Event) : Prop :=
  ∀ serial completion, e = .completed serial completion → completion.result = .sendError →
    .sendFailed serial ∈ older

structure SendErrorsSound (h : List Event) : Prop where
  failed : Always FailedBefore h
  restored : .restored 0 ∉ h

def CommandEvent (data : Bytes) : Prop :=
  data.head? = some eventCommandComplete ∨ data.head? = some eventCommandStatus

def QueueEnv.FailsCleanly (env : QueueEnv) : Prop :=
  ∀ k, (env.answers k).2 = false → ∀ d ∈ (env.answers k).1, ¬ CommandEvent d.1

variable {h : List Event} {env : QueueEnv}

lemma SendErrorsSound.cons {e : Event} (hh : SendErrorsSound h)
    (hc : ∀ serial completion, e = .completed serial completion → completion.result ≠ .sendError)
    (hr : e ≠ .restored 0) : SendErrorsSound (e :: h) where
  failed := hh.failed.cons fun serial completion he hres => absurd hres (hc serial completion he)
  restored hm := (List.mem_cons.mp hm).elim (fun he => hr he.symm) hh.restored

def FailsQuietly {κ σ : Type} (send : Send κ σ) : Prop :=
  ∀ w command w', send w command = (w', false) → w'.q = w.q

lemma sendErrors_keeps {κ σ : Type} {callback : Callback κ σ} {send : Send κ σ}
    (call : ∀ cb w completion, SendErrorsSound w.history →
      SendErrorsSound (callback cb w completion).history)
    (sent : ∀ w command, SendErrorsSound w.history → SendErrorsSound (send w command).1.history)
    (quiet : FailsQuietly send) : Keeps callback send fun w => SendErrorsSound w.history where
  clock _ _ hw := hw
  credits _ _ hw := hw
  callback := call
  sent w i rest nowUs hw _ := sent _ _ (hw.cons (by simp) (by simp))
  failed w i rest nowUs w' hw _ hrc _ := by
    have hsent := sent (w.launched i rest nowUs) (w.slot i).wire (hw.cons (by simp) (by simp))
    rw [hrc] at hsent
    exact hsent.cons (by simp) (by simp)
  aborted w i rest nowUs w' hw hs hrc _ := by
    have hsent := sent (w.launched i rest nowUs) (w.slot i).wire (hw.cons (by simp) (by simp))
    rw [hrc] at hsent
    have hq := quiet _ _ _ hrc
    have hserial : (w'.slot i).serial = (w.slot i).serial := by
      rw [World.slot, hq]
      rfl
    have hcredits : w'.q.commandCredits + 1 = w.q.commandCredits := by
      rw [hq]
      exact UInt8.sub_add_cancel ..
    have hrestored : SendErrorsSound (w'.failed (w.slot i).serial).restoreCredit.history := by
      refine SendErrorsSound.cons (hsent.cons (by simp) (by simp)) (by simp) fun he => hs.credit ?_
      rw [← hcredits]
      exact Event.restored.inj he
    rw [World.release_history]
    refine ⟨hrestored.failed.cons fun serial completion he _ => ?_,
      fun hm => hrestored.restored ((List.mem_cons.mp hm).resolve_left (by simp))⟩
    obtain ⟨rfl, -⟩ := Event.completed.inj he
    rw [show ((w'.failed (w.slot i).serial).restoreCredit.slot i).serial = (w'.slot i).serial
      from rfl, hserial]
    exact List.mem_cons_of_mem _ List.mem_cons_self
  completed w i status returnParams hw _ := by
    rw [World.release_history]
    refine hw.cons (fun serial completion he => ?_) (by simp)
    obtain ⟨-, rfl⟩ := Event.completed.inj he
    intro h
    cases h
  expired w nowUs i timers hw _ := by
    rw [World.release_history]
    refine SendErrorsSound.cons hw (fun serial completion he => ?_) (by simp)
    obtain ⟨-, rfl⟩ := Event.completed.inj he
    intro h
    cases h

lemma submitOne_sendErrors (w : Queue) (s : Submission) (hw : SendErrorsSound w.history) :
    SendErrorsSound (submitOne w s).history := by
  rcases cmdqSubmit_history w s.opcode s.params s.paramsLen s.timeoutUs
    (if s.hasCallback then some () else none) with h | h
  · rwa [submitOne, h]
  · rw [submitOne, h]
    exact hw.cons nofun nofun

lemma resubmit_sendErrors (cb : Unit) (w : Queue) (completion : Completion)
    (hw : SendErrorsSound w.history) : SendErrorsSound (resubmit env cb w completion).history :=
  foldl_invariant (I := fun w : Queue => SendErrorsSound w.history) submitOne_sendErrors _ hw

lemma cmdqOnEvent_ignored {κ σ : Type} {callback : Callback κ σ} {send : Send κ σ}
    {fuel nowUs : ℕ} {data : Bytes} (hd : ¬ CommandEvent data) (w : World κ σ) :
    cmdqOnEvent callback send fuel w data nowUs = w := by
  unfold cmdqOnEvent
  split
  next e he => cases e with
    | status => rfl
    | outOfRange => exact absurd he (parseEventHeader_inRange _)
  next hdr r hp =>
    obtain ⟨rest, rfl, -⟩ := parseEventHeader_ok hp
    rw [if_neg fun hc => hd (.inl (congrArg some hc)),
      if_neg fun hc => hd (.inr (congrArg some hc))]

lemma queueSend_failsQuietly (hclean : env.FailsCleanly) (depth : ℕ) :
    FailsQuietly (queueSend env depth) := by
  intro w command w' hrc
  cases depth with
  | zero =>
    obtain ⟨rfl, -⟩ := Prod.mk.inj hrc
    rfl
  | succ depth =>
    obtain ⟨rfl, hfail⟩ := Prod.mk.inj hrc
    have hignored := hclean w.calls hfail
    -- Each delivery only records that it was received.
    refine List.foldlRecOn (motive := fun w' : Queue => w'.q = w.q) _ _ rfl fun w' hw' d hd => ?_
    exact (congrArg World.q (cmdqOnEvent_ignored (hignored d hd) _)).trans hw'

lemma handleEvent_sendErrors {send : Send Unit ℕ} (quiet : FailsQuietly send)
    (sent : ∀ w command, SendErrorsSound w.history → SendErrorsSound (send w command).1.history)
    (w : Queue) (d : Bytes × ℕ) (hw : SendErrorsSound w.history) :
    SendErrorsSound ((queueReentrant env).handle send w d).history := by
  have hreceived : SendErrorsSound (w.emit (.received d.1)).history := hw.cons nofun nofun
  exact (sendErrors_keeps resubmit_sendErrors sent quiet).onEvent env.fuel hreceived d.1

lemma queueSend_sendErrors (hclean : env.FailsCleanly) (depth : ℕ) (w : Queue)
    (command : Bytes) (hw : SendErrorsSound w.history) :
    SendErrorsSound (queueSend env depth w command).1.history := by
  induction depth generalizing w command with
  | zero => exact hw
  | succ depth ih =>
    refine List.foldlRecOn (motive := fun w : Queue => SendErrorsSound w.history) _ _ hw ?_
    exact fun w hw d _ => handleEvent_sendErrors (queueSend_failsQuietly hclean depth) ih w d hw

lemma applyQueue_sendErrors (hclean : env.FailsCleanly) (depth : ℕ) (w : Queue)
    (input : QueueInput) (hw : SendErrorsSound w.history) :
    SendErrorsSound (applyQueue env depth w input).history := by
  have hquiet := queueSend_failsQuietly hclean depth
  have hsent := queueSend_sendErrors hclean depth
  have hkeeps : Keeps (resubmit env) (queueSend env depth) fun w => SendErrorsSound w.history :=
    sendErrors_keeps resubmit_sendErrors hsent hquiet
  cases input with
  | submit s => exact submitOne_sendErrors w s hw
  | pump nowUs => exact hkeeps.pump env.fuel w nowUs hw
  | onEvent data nowUs => exact handleEvent_sendErrors hquiet hsent w (data, nowUs) hw
  | tick nowUs => exact hkeeps.tick env.fuel hw

/-- In every run with a transport that never delivers an answer and then fails, a submission
completes with a send error only after `send_command` has failed for it, and no credit is restored
to 0. -/
theorem run_sendErrors_sound (env : QueueEnv) (hclean : env.FailsCleanly) (depth : ℕ)
    (inputs : List QueueInput) : SendErrorsSound (runQueue env depth inputs).history :=
  foldl_invariant (I := fun w : Queue => SendErrorsSound w.history)
    (applyQueue_sendErrors hclean depth) inputs ⟨always_nil, List.not_mem_nil⟩

/-! Three transports: one fails without delivering anything, one answers the command before it
fails, and one delivers an answer to another command with 255 credits. -/

def commandComplete (credits : UInt8) (opcode : UInt16) : Bytes :=
  [eventCommandComplete, 4, credits] ++ writeLe16 opcode ++ [0]

def resetSubmission : Submission := ⟨opcodeReset, none, 0, 0, true⟩

def firstSend (deliveries : List (Bytes × ℕ)) (reaction : List Submission) : QueueEnv where
  answers k := if k = 0 then (deliveries, false) else ([], true)
  reactions k := if k = 0 then reaction else []
  fuel := 4

theorem silentFailure_sound :
    SendErrorsSound (runQueue (firstSend [] []) 1 [.submit resetSubmission, .pump 0]).history := by
  refine run_sendErrors_sound (firstSend [] []) (fun k hk d hd => ?_) 1 _
  have hnil : ((firstSend [] []).answers k).1 = [] := by
    simp only [firstSend]
    split <;> rfl
  rw [hnil] at hd
  cases hd

theorem answeredFailure_misattributed :
    (let h := (runQueue (firstSend [(commandComplete 1 opcodeReset, 0)] [resetSubmission]) 1
        [.submit resetSubmission, .pump 0]).history
     .completed 1 ⟨.sendError, opcodeReset, 0xFF, []⟩ ∈ h ∧ .sendFailed 1 ∉ h) ∧
    .restored 0 ∈ (runQueue (firstSend [(commandComplete 255 0, 0)] []) 1
      [.submit resetSubmission, .pump 0]).history := by
  decide +kernel

end Bluzing.Controller
