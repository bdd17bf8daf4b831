import Bluzing.Controller.QueueInvariant

/-! When the command queue times a command out: runs of the queue whose host notes, for each command
that is handed to the transport, the time of the pump and the timeout of the command. -/
namespace Bluzing.Controller
open List

/-- A command handed to the transport: the time of the pump that sent it, and its timeout. -/
structure Stamp where
  serial : ℕ
  sentUs : ℕ
  timeoutUs : ℕ
  deriving DecidableEq

def Stamp.deadline (s : Stamp) : ℕ := (s.sentUs + s.timeoutUs) % 2 ^ 64

structure Clocked where
  callbacks : ℕ
  stamps : List Stamp

/-- The command was completed with `BT_CMDQ_RESULT_TIMEOUT`. -/
def Expired (serial : ℕ) (h : List Event) : Prop :=
  ∃ e ∈ h, match e with
    | .completed s c => s = serial ∧ c.result = .timeout
    | _ => False

variable {κ σ : Type}

def World.armedUs (w : World κ σ) (i : SlotId) : ℕ :=
  ((w.q.timers.expiry? i).getD 0 + (2 ^ 64 - (w.slot i).timeoutUs % 2 ^ 64)) % 2 ^ 64

def World.stampOf (w : World κ σ) (i : SlotId) : Stamp :=
  ⟨(w.slot i).serial, w.armedUs i, (w.slot i).timeoutUs⟩

variable {w : World κ σ} {i : SlotId} {rest : List SlotId} {nowUs : ℕ}

lemma expiry?_launched :
    (w.launched i rest nowUs).q.timers.expiry? i =
      some ((nowUs + (w.slot i).timeoutUs) % 2 ^ 64) :=
  TimerList.expiry?_add ..

lemma armedUs_launched : (w.launched i rest nowUs).armedUs i = nowUs % 2 ^ 64 := by
  have hslot : (w.launched i rest nowUs).slot i = w.slot i := rfl
  rw [World.armedUs, expiry?_launched, hslot, Option.getD_some]
  omega

lemma stampOf_deadline :
    ((w.launched i rest nowUs).stampOf i).deadline =
      (nowUs + (w.slot i).timeoutUs) % 2 ^ 64 := by
  rw [Stamp.deadline, World.stampOf, armedUs_launched]
  exact Nat.mod_add_mod ..

abbrev ClockedQueue := World Unit Clocked

variable (env : QueueEnv)

def World.noteSent (w : ClockedQueue) : ClockedQueue :=
  match w.q.outstanding with
  | none => w
  | some i => { w with host := { w.host with stamps := w.stampOf i :: w.host.stamps } }

def submitClocked (w : ClockedQueue) (s : Submission) : ClockedQueue :=
  (cmdqSubmit w s.opcode s.params s.paramsLen s.timeoutUs
    (if s.hasCallback then some () else none)).1

def resubmitClocked : Callback Unit Clocked :=
  fun _ w _ => (env.reactions w.host.callbacks).foldl submitClocked
    { w with host := { w.host with callbacks := w.host.callbacks + 1 } }

def clockedReentrant : Reentrant ClockedQueue Bytes Bool (Bytes × ℕ) where
  answer w :=
    ({ w.noteSent with calls := w.calls + 1 }, (env.answers w.calls).2, (env.answers w.calls).1)
  handle send w d :=
    cmdqOnEvent (resubmitClocked env) send env.fuel (w.emit (.received d.1)) d.1 d.2

def clockedSend (depth : ℕ) : Send Unit Clocked := (clockedReentrant env).port depth

def applyClocked (depth : ℕ) (w : ClockedQueue) : QueueInput → ClockedQueue
  | .submit s => submitClocked w s
  | .pump nowUs => cmdqPump (resubmitClocked env) (clockedSend env depth) env.fuel w nowUs
  | .onEvent data nowUs => (clockedReentrant env).handle (clockedSend env depth) w (data, nowUs)
  | .tick nowUs => cmdqTick (resubmitClocked env) (clockedSend env depth) env.fuel w nowUs

def newEvents (w w' : ClockedQueue) : List Event :=
  w'.history.take (w'.history.length - w.history.length)

structure Stamped (w : ClockedQueue) : Prop where
  queue : QueueInv w
  serials : (w.host.stamps.map Stamp.serial).reverse = sentSerials w.history
  armed : ∀ i, w.q.outstanding = some i →
    ∃ s ∈ w.host.stamps, s.serial = (w.slot i).serial ∧
      w.q.timers.expiry? i = some s.deadline

structure Timed (P : Stamp → Prop) (w₀ w : ClockedQueue) : Prop extends Stamped w where
  log : w₀.host.stamps <:+ w.host.stamps
  past : ∃ newer, w.history = newer ++ w₀.history ∧
    ∀ serial, Expired serial newer → ∃ s ∈ w.host.stamps, s.serial = serial ∧ P s

lemma expired_append {serial : ℕ} {h h' : List Event} :
    Expired serial (h ++ h') ↔ Expired serial h ∨ Expired serial h' := by
  simp only [Expired, mem_append, or_and_right, exists_or]

namespace Stamped
variable {w : ClockedQueue}

lemma unique (h : Stamped w) {s s' : Stamp} (hs : s ∈ w.host.stamps) (hs' : s' ∈ w.host.stamps)
    (heq : s.serial = s'.serial) : s = s' := by
  have hnodup : (w.host.stamps.map Stamp.serial).Nodup := by
    rw [← nodup_reverse, h.serials]
    exact (nodup_append.mp h.queue.serials_nodup).1
  exact inj_on_of_nodup_map hnodup hs hs' heq

end Stamped

namespace Timed
variable {P : Stamp → Prop} {env : QueueEnv} {w₀ w w' : ClockedQueue} {i : SlotId}
  {nowUs : ℕ} {send : Send Unit Clocked}

lemma step (h : Timed P w₀ w) (hqueue : QueueInv w') (hstamps : w'.host.stamps = w.host.stamps)
    (events : List Event) (hhistory : w'.history = events ++ w.history)
    (hquiet : ∀ e ∈ events, e.sentSerial = none)
    (hexp : ∀ serial, Expired serial events → ∃ s ∈ w.host.stamps, s.serial = serial ∧ P s)
    (harmed : ∀ i, w'.q.outstanding = some i → w.q.outstanding = some i ∧
      (w'.slot i).serial = (w.slot i).serial ∧
        w'.q.timers.expiry? i = w.q.timers.expiry? i) : Timed P w₀ w' := by
  refine ⟨⟨hqueue, ?_, fun i hout => ?_⟩, hstamps ▸ h.log, ?_⟩
  · have hnone := filterMap_eq_nil_iff.mpr hquiet
    rw [hstamps, h.serials, hhistory, sentSerials, sentSerials, filterMap_append, hnone,
      nil_append]
  · obtain ⟨hout, hserial, hexpiry⟩ := harmed i hout
    rw [hstamps, hserial, hexpiry]
    exact h.armed i hout
  · obtain ⟨newer, hnewer, hpast⟩ := h.past
    refine ⟨events ++ newer, by rw [hhistory, hnewer, append_assoc], fun serial hs => ?_⟩
    rw [hstamps]
    rcases expired_append.mp hs with hs | hs
    · exact hexp serial hs
    · exact hpast serial hs

lemma quiet (h : Timed P w₀ w) (hq : SameQueue w w') (hstamps : w'.host.stamps = w.host.stamps)
    (events : List Event) (hhistory : w'.history = events ++ w.history)
    (hevents : ∀ e ∈ events, e.sentSerial = none ∧ ∀ serial, e.completes serial = false) :
    Timed P w₀ w' := by
  have hnone := filterMap_eq_nil_iff.mpr fun e he => (hevents e he).1
  have hcount (serial : ℕ) : events.countP (·.completes serial) = 0 :=
    countP_eq_zero.mpr fun e he => by simp [(hevents e he).2 serial]
  refine h.step (h.queue.quiet hq ?_ (fun serial => ?_) ?_) hstamps events hhistory
    (fun e he => (hevents e he).1) (fun serial ⟨e, he, hexp⟩ => ?_) fun i hout => ?_
  · rw [hhistory, sentSerials, sentSerials, filterMap_append, hnone, nil_append]
  · rw [hhistory, completions, completions, countP_append, hcount, Nat.zero_add]
  · rw [hhistory]
    clear hhistory hnone hcount
    induction events with
    | nil => exact h.queue.alone
    | cons e events ih =>
      refine Always.cons ?_ (ih fun e he => hevents e (mem_cons_of_mem _ he))
      rintro serial credits command rfl
      cases (hevents _ (mem_cons_self ..)).1
  · have hcompletes := (hevents e he).2 serial
    cases e <;> simp_all [Event.completes]
  · rw [World.slot, hq.pool, hq.timers]
    exact ⟨hq.outstanding ▸ hout, rfl, rfl⟩

lemma released (h : Timed P w₀ w) (hout : w.q.outstanding = some i) {completion : Completion}
    (hhost : w'.host = w.host) (hr : Released w w' i completion)
    (hexp : completion.result = .timeout →
      ∃ s ∈ w.host.stamps, s.serial = (w.slot i).serial ∧ P s) : Timed P w₀ w' := by
  refine h.step (h.queue.released hout completion hr) (by rw [hhost])
    [.completed (w.slot i).serial completion] hr.history (by simp [Event.sentSerial]) ?_
    fun j hj => ?_
  · rintro serial ⟨e, he, hexpired⟩
    obtain rfl := mem_singleton.mp he
    obtain ⟨rfl, hresult⟩ := hexpired
    exact hexp hresult
  · rw [hr.outstanding] at hj
    cases hj

lemma release (h : Timed P w₀ w) (hout : w.q.outstanding = some i) {completion : Completion}
    (hresult : completion.result ≠ .timeout) : Timed P w₀ (w.release i completion) :=
  h.released hout (World.release_host completion) (release_released hout completion)
    fun htimeout => absurd htimeout hresult

lemma submit (h : Timed P w₀ w) (s : Submission) : Timed P w₀ (submitClocked w s) := by
  have hqueue : QueueInv (submitClocked w s) := h.queue.submit ..
  revert hqueue
  unfold submitClocked cmdqSubmit
  split
  · exact fun _ => h
  split
  · exact fun _ => h
  next i hfree =>
    intro hqueue
    refine h.step hqueue rfl [.submitted w.submissions] rfl (by simp [Event.sentSerial]) ?_
      fun j hj => ⟨hj, ?_, rfl⟩
    · rintro serial ⟨e, he, hexpired⟩
      obtain rfl := mem_singleton.mp he
      cases hexpired
    · have hunused : (w.q.pool i).inUse = false := by
        simpa using find?_some (p := fun i => !(w.q.pool i).inUse) hfree
      have hne : j ≠ i := by
        rintro rfl
        exact absurd ((h.queue.slots j).mpr (.inr hj)) (by simp [World.slot, hunused])
      exact congrArg CmdSlot.serial (Function.update_of_ne hne ..)

lemma settle (env : QueueEnv) {completion : Completion}
    (h : Timed P w₀ (w.release i completion)) :
    Timed P w₀ (w.settle (resubmitClocked env) i completion) := by
  unfold World.settle
  split
  · exact h
  · exact foldl_invariant (fun _ s hw => hw.submit s) _
      (h.quiet ⟨rfl, rfl, rfl, rfl, rfl⟩ rfl [] rfl nofun)

lemma sent (h : Timed P w₀ w) (env : QueueEnv) {rest : List SlotId} (hs : w.Sends i rest)
    (nowUs : ℕ) : Timed P w₀ ((clockedReentrant env).answer (w.launched i rest nowUs)).1 := by
  have hlaunched := h.queue.launched hs nowUs
  refine ⟨⟨hlaunched.quiet ⟨rfl, rfl, rfl, rfl, rfl⟩ rfl (fun _ => rfl) hlaunched.alone, ?_, ?_⟩,
    h.log.trans (suffix_cons ..), ?_⟩
  · refine Eq.trans ?_ (sentSerials_launched w i rest nowUs).symm
    exact (reverse_cons ..).trans (congrArg (· ++ [(w.slot i).serial]) h.serials)
  · intro j hj
    obtain rfl := Option.some.inj hj
    refine ⟨_, mem_cons_self .., rfl, ?_⟩
    rw [stampOf_deadline]
    exact expiry?_launched
  · obtain ⟨newer, hnewer, hpast⟩ := h.past
    refine ⟨.sent (w.slot i).serial w.q.commandCredits (w.slot i).wire :: newer,
      congrArg (cons _) hnewer, fun serial ⟨e, he, hexp⟩ => ?_⟩
    rcases mem_cons.mp he with rfl | he
    · cases hexp
    · obtain ⟨s, hs, hserial, hP⟩ := hpast serial ⟨e, he, hexp⟩
      exact ⟨s, mem_cons_of_mem _ hs, hserial, hP⟩

lemma delivers (hsent : ∀ w i rest nowUs, Timed P w₀ w → w.Sends i rest →
      Timed P w₀ (send (w.launched i rest nowUs) (w.slot i).wire).1) :
    Delivers (resubmitClocked env) send (Timed P w₀) where
  clock w nowUs h := h.quiet ⟨rfl, rfl, rfl, rfl, rfl⟩ rfl [] rfl (by simp)
  credits w credits h := h.quiet ⟨rfl, rfl, rfl, rfl, rfl⟩ rfl [] rfl (by simp)
  sent := hsent
  failed w i rest nowUs w' h hs hrc _ := by
    have hsent := hsent w i rest nowUs h hs
    rw [hrc] at hsent
    exact hsent.quiet ⟨rfl, rfl, rfl, rfl, rfl⟩ rfl [.sendFailed (w.slot i).serial] rfl
      (by simp [Event.sentSerial, Event.completes])
  aborted w i rest nowUs w' h hs hrc hout := by
    have hsent := hsent w i rest nowUs h hs
    rw [hrc] at hsent
    have hfailed : Timed P w₀ (w'.failed (w.slot i).serial).restoreCredit :=
      hsent.quiet ⟨rfl, rfl, rfl, rfl, rfl⟩ rfl
        [.restored (w'.q.commandCredits + 1), .sendFailed (w.slot i).serial] rfl
        (by simp [Event.sentSerial, Event.completes])
    exact settle env (hfailed.release hout (by intro h; cases h))

lemma answersKeep (h : Timed P w₀ w) (data : Bytes) :
    AnswersKeep (resubmitClocked env) (Timed P w₀) w data := by
  intro credits i status returnParams hout _
  have hcredits : Timed P w₀ (w.setCredits credits) :=
    h.quiet ⟨rfl, rfl, rfl, rfl, rfl⟩ rfl [] rfl nofun
  exact settle env (hcredits.release hout nofun)

lemma handle (hd : Delivers (resubmitClocked env) send (Timed P w₀)) (h : Timed P w₀ w)
    (d : Bytes × ℕ) : Timed P w₀ ((clockedReentrant env).handle send w d) := by
  have hreceived : Timed P w₀ (w.emit (.received d.1)) :=
    h.quiet ⟨rfl, rfl, rfl, rfl, rfl⟩ rfl [.received d.1] rfl
      (by simp [Event.sentSerial, Event.completes])
  exact hd.onEvent env.fuel hreceived (hreceived.answersKeep d.1)

lemma clockedSend_delivers (env : QueueEnv) (P : Stamp → Prop) (w₀ : ClockedQueue) (depth : ℕ) :
    Delivers (resubmitClocked env) (clockedSend env depth) (Timed P w₀) := by
  induction depth with
  | zero => exact delivers fun w i rest nowUs h hs => h.sent env hs nowUs
  | succ depth ih =>
    refine delivers fun w i rest nowUs h hs => ?_
    have hnoted := h.sent env hs nowUs
    exact foldl_invariant (I := Timed P w₀) (fun _ d hw => handle ih hw d) _ hnoted

lemma expired (h : Timed P w₀ w) (hP : ∀ s : Stamp, s.deadline ≤ nowUs → P s)
    {timers : TimerList SlotId ℕ} (hpop : w.q.timers.popExpired nowUs = some (i, timers)) :
    Timed P w₀ (((w.modify fun q => { q with timers }).setCredits 1).release i
      (w.completionOf i .timeout 0xFF [])) := by
  have hout := h.queue.expired_outstanding hpop
  refine h.released hout (World.release_host _) (h.queue.expired_released hpop _) fun _ => ?_
  obtain ⟨s, hs, hserial, hexpiry⟩ := h.armed i hout
  exact ⟨s, hs, hserial, hP s (TimerList.popExpired_due hpop hexpiry)⟩

lemma expire (hd : Delivers (resubmitClocked env) send (Timed P w₀))
    (hP : ∀ s : Stamp, s.deadline ≤ nowUs → P s) (fuel rounds : ℕ) (w : ClockedQueue)
    (h : Timed P w₀ w) :
    Timed P w₀ (expireTimers (resubmitClocked env) send fuel rounds w nowUs) := by
  induction rounds generalizing w with
  | zero => exact h
  | succ rounds ih =>
    unfold expireTimers
    split
    · exact h
    next i timers hpop => exact ih _ (hd.pump fuel _ _ (settle env (h.expired hP hpop)))

lemma tick (hd : Delivers (resubmitClocked env) send (Timed P w₀))
    (hP : ∀ s : Stamp, s.deadline ≤ nowUs → P s) (fuel : ℕ) (h : Timed P w₀ w) :
    Timed P w₀ (cmdqTick (resubmitClocked env) send fuel w nowUs) :=
  hd.pump fuel _ nowUs (expire hd hP fuel fuel _ (hd.clock w nowUs h))

lemma apply (h : Timed P w₀ w) (env : QueueEnv) (depth : ℕ) {input : QueueInput}
    (hP : ∀ (s : Stamp) (nowUs : ℕ), input = .tick nowUs → s.deadline ≤ nowUs → P s) :
    Timed P w₀ (applyClocked env depth w input) := by
  cases input with
  | submit s => exact h.submit s
  | pump nowUs => exact (clockedSend_delivers env P w₀ depth).pump env.fuel w nowUs h
  | onEvent data nowUs => exact handle (clockedSend_delivers env P w₀ depth) h (data, nowUs)
  | tick nowUs =>
    exact tick (clockedSend_delivers env P w₀ depth) (fun s => hP s nowUs rfl) env.fuel h

end Timed

section

variable {env : QueueEnv} {w : ClockedQueue} {i : SlotId} {nowUs : ℕ}

end

variable (depth : ℕ)

end Bluzing.Controller
