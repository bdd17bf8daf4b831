import Bluzing.Lib.History
import Bluzing.Lib.Reentrant
import Bluzing.Controller.QueueRules

/-! Runs of the command queue on its own, with a transport that may deliver events from
`send_command` and completion callbacks that may submit again, and what holds in them: the pool, the
FIFO and the timers agree, commands are sent in order, and every submission is completed once. -/
namespace Bluzing.Controller
open List

def Event.sentSerial : Event → Option ℕ
  | .sent serial _ _ => some serial
  | _ => none

def sentSerials (h : List Event) : List ℕ := (h.filterMap Event.sentSerial).reverse

def Event.completes (serial : ℕ) : Event → Bool
  | .completed s _ => s = serial
  | _ => false

def completions (serial : ℕ) (h : List Event) : ℕ := h.countP (·.completes serial)

def SentAlone (e : Event) (older : List Event) : Prop :=
  ∀ serial credits command, e = .sent serial credits command →
    credits ≠ 0 ∧ ∀ s ∈ sentSerials older, completions s older = 1

variable {κ σ : Type}

def World.Holds (w : World κ σ) (serial : ℕ) : Prop :=
  ∃ i, (w.slot i).inUse = true ∧ (w.slot i).serial = serial

def World.pendingSerials (w : World κ σ) : List ℕ := w.q.pending.map fun i => (w.slot i).serial

structure QueueShape (w : World κ σ) : Prop where
  slots : ∀ i, (w.slot i).inUse = true ↔ i ∈ w.q.pending ∨ w.q.outstanding = some i
  disjoint : ∀ i ∈ w.q.pending, w.q.outstanding ≠ some i
  nodup : w.q.pending.Nodup
  timers : ∀ i, w.timerPending i ↔ w.q.outstanding = some i
  order : sentSerials w.history ++ w.pendingSerials = range w.submissions
  alone : Always SentAlone w.history

structure QueueSound (w : World κ σ) : Prop extends QueueShape w where
  callbacks : ∀ serial < w.submissions,
    (w.Holds serial → completions serial w.history = 0) ∧
      (¬ w.Holds serial → completions serial w.history = 1)

structure QueueInv (w : World κ σ) : Prop extends QueueShape w where
  inFlight : ∀ i, w.q.outstanding = some i → (w.slot i).serial ∈ sentSerials w.history
  waiting : ∀ serial, serial ∉ sentSerials w.history → completions serial w.history = 0
  completed : ∀ serial ∈ sentSerials w.history, completions serial w.history =
    if w.q.outstanding.map (fun i => (w.slot i).serial) = some serial then 0 else 1

structure Released (w w' : World κ σ) (i : SlotId) (completion : Completion) : Prop where
  pool : w'.q.pool = Function.update w.q.pool i { w.slot i with inUse := false }
  pending : w'.q.pending = w.q.pending
  outstanding : w'.q.outstanding = none
  timers : ∀ j, w'.timerPending j ↔ j ≠ i ∧ w.timerPending j
  submissions : w'.submissions = w.submissions
  history : w'.history = .completed (w.slot i).serial completion :: w.history

lemma release_released {w : World κ σ} {i : SlotId} (hout : w.q.outstanding = some i)
    (completion : Completion) : Released w (w.release i completion) i completion := by
  have htimers (j : SlotId) (hi : ¬ w.timerPending i) :
      w.timerPending j ↔ j ≠ i ∧ w.timerPending j := by
    refine ⟨fun hj => ⟨?_, hj⟩, And.right⟩
    rintro rfl
    exact hi hj
  unfold World.release
  dsimp only
  split
  · rw [if_pos (show (w.modify fun q => { q with timers := q.timers.cancel i }).q.outstanding =
      some i from hout)]
    exact ⟨rfl, rfl, rfl, fun j => TimerList.mem_timers_cancel .., rfl, rfl⟩
  next hi =>
    exact ⟨rfl, rfl, rfl, fun j => htimers j hi, rfl, rfl⟩

structure SameQueue (w w' : World κ σ) : Prop where
  pool : w'.q.pool = w.q.pool
  pending : w'.q.pending = w.q.pending
  outstanding : w'.q.outstanding = w.q.outstanding
  timers : w'.q.timers = w.q.timers
  submissions : w'.submissions = w.submissions

lemma sentSerials_launched (w : World κ σ) (i : SlotId) (rest : List SlotId) (nowUs : ℕ) :
    sentSerials (w.launched i rest nowUs).history =
      sentSerials w.history ++ [(w.slot i).serial] := by
  simp [World.launched, World.launch, World.dequeue, World.emit, World.modify, sentSerials,
    Event.sentSerial, World.slot]

namespace QueueInv
variable {w : World κ σ} {i : SlotId}

lemma serials_nodup (h : QueueInv w) : (sentSerials w.history ++ w.pendingSerials).Nodup :=
  h.order ▸ nodup_range

lemma pending_notSent (h : QueueInv w) (hi : i ∈ w.q.pending) :
    (w.slot i).serial ∉ sentSerials w.history := by
  intro hs
  have hp : (w.slot i).serial ∈ w.pendingSerials := mem_map_of_mem hi
  exact disjoint_of_nodup_append h.serials_nodup hs hp

lemma sound (h : QueueInv w) : QueueSound w where
  toQueueShape := h.toQueueShape
  callbacks serial hs := by
    have hmem : serial ∈ sentSerials w.history ++ w.pendingSerials := by
      rw [h.order]
      exact mem_range.mpr hs
    constructor
    · rintro ⟨i, hi, rfl⟩
      rcases (h.slots i).mp hi with hp | ho
      · exact h.waiting _ (h.pending_notSent hp)
      · rw [h.completed _ (h.inFlight i ho), ho]
        simp
    · intro hn
      rcases mem_append.mp hmem with hsent | hp
      · rw [h.completed _ hsent, if_neg]
        intro ho
        obtain ⟨i, hi, hserial⟩ := Option.map_eq_some_iff.mp ho
        exact hn ⟨i, (h.slots i).mpr (.inr hi), hserial⟩
      · obtain ⟨i, hi, hserial⟩ := mem_map.mp hp
        exact absurd ⟨i, (h.slots i).mpr (.inl hi), hserial⟩ hn

lemma quiet {w' : World κ σ} (h : QueueInv w) (hq : SameQueue w w')
    (hs : sentSerials w'.history = sentSerials w.history)
    (hc : ∀ serial, completions serial w'.history = completions serial w.history)
    (ha : Always SentAlone w'.history) : QueueInv w' where
  slots i := by rw [World.slot, hq.pool, hq.pending, hq.outstanding]; exact h.slots i
  disjoint i := by rw [hq.pending, hq.outstanding]; exact h.disjoint i
  nodup := by rw [hq.pending]; exact h.nodup
  timers i := by rw [World.timerPending, hq.timers, hq.outstanding]; exact h.timers i
  order := by
    rw [hs, hq.submissions, ← h.order, World.pendingSerials, hq.pending]
    simp only [World.slot, hq.pool, World.pendingSerials]
  alone := ha
  inFlight i := by rw [hq.outstanding, World.slot, hq.pool, hs]; exact h.inFlight i
  waiting serial := by rw [hs, hc]; exact h.waiting serial
  completed serial := by
    simp only [hs, hc, hq.outstanding, World.slot, hq.pool]
    exact h.completed serial

lemma idle_completed (h : QueueInv w) (hidle : w.q.outstanding = none) (serial : ℕ)
    (hs : serial ∈ sentSerials w.history) : completions serial w.history = 1 := by
  rw [h.completed serial hs, hidle]
  rfl

lemma launched (h : QueueInv w) {rest : List SlotId} (hs : w.Sends i rest) (nowUs : ℕ) :
    QueueInv (w.launched i rest nowUs) := by
  obtain ⟨hidle, hcredit, hhead⟩ := hs
  have hserials := sentSerials_launched w i rest nowUs
  have hcount (serial : ℕ) : completions serial (w.launched i rest nowUs).history =
      completions serial w.history := by
    simp [World.launched, World.launch, World.dequeue, World.emit, World.modify, completions,
      Event.completes]
  have hnodup := hhead ▸ h.nodup
  have hnew := h.pending_notSent (i := i) (by rw [hhead]; exact mem_cons_self)
  refine ⟨⟨fun j => ?_, fun j hj hout => ?_, ?_, fun j => ?_, ?_, ?_⟩, fun j hj => ?_,
    fun serial hn => ?_, fun serial hm => ?_⟩
  · have hj := h.slots j
    rw [hhead, hidle] at hj
    exact hj.trans ⟨fun hj => (mem_cons.mp (hj.resolve_right nofun)).symm.imp_right
      fun hj => congrArg some hj.symm, fun hj => .inl (mem_cons.mpr (hj.symm.imp_left
      fun hj => (Option.some.inj hj).symm))⟩
  · obtain rfl := Option.some.inj hout
    exact (nodup_cons.mp hnodup).1 hj
  · exact (nodup_cons.mp hnodup).2
  · have hnone : ¬ w.timerPending j := by
      rw [h.timers, hidle]
      exact nofun
    refine (TimerList.mem_timers_add ..).trans ⟨fun hj => ?_, fun hj => .inl ?_⟩
    · exact congrArg some (hj.resolve_right hnone).symm
    · exact (Option.some.inj hj).symm
  · rw [hserials, append_assoc]
    have horder := h.order
    rw [World.pendingSerials, hhead, map_cons] at horder
    exact horder
  · refine Always.cons ?_ h.alone
    rintro serial credits command ⟨⟩
    exact ⟨hcredit, h.idle_completed hidle⟩
  · obtain rfl := Option.some.inj hj
    rw [hserials]
    exact mem_append_right _ mem_cons_self
  · rw [hserials] at hn
    exact h.waiting serial fun hm => hn (mem_append_left _ hm)
  · rw [hserials, mem_append, mem_singleton] at hm
    split
    next hout =>
      obtain rfl := Option.some.inj hout
      exact h.waiting _ hnew
    next hout =>
      have hne : serial ≠ (w.slot i).serial := fun he => hout (congrArg some he.symm)
      exact h.idle_completed hidle serial (hm.resolve_right hne)

lemma released {w' : World κ σ} (h : QueueInv w) (hout : w.q.outstanding = some i)
    (completion : Completion) (hr : Released w w' i completion) : QueueInv w' := by
  have hserial (j : SlotId) : (w'.slot j).serial = (w.slot j).serial := by
    rw [World.slot, hr.pool]
    by_cases hj : j = i
    · rw [hj, Function.update_self]
    · rw [Function.update_of_ne hj]
      rfl
  have hserials : sentSerials w'.history = sentSerials w.history := by
    rw [hr.history, sentSerials, filterMap_cons_none rfl, sentSerials]
  have hcount (serial : ℕ) : completions serial w'.history =
      completions serial w.history + if (w.slot i).serial = serial then 1 else 0 := by
    simp [hr.history, completions, Event.completes, countP_cons]
  have hpending (j : SlotId) (hj : j ∈ w.q.pending) : j ≠ i := by
    rintro rfl
    exact h.disjoint j hj hout
  refine ⟨⟨fun j => ?_, fun j _ => ?_, ?_, fun j => ?_, ?_, ?_⟩, fun j hj => ?_,
    fun serial hn => ?_, fun serial hm => ?_⟩
  · rw [World.slot, hr.pool, hr.pending, hr.outstanding]
    by_cases hj : j = i
    · subst hj
      rw [Function.update_self]
      exact ⟨nofun, fun hj => absurd rfl (hpending j (hj.resolve_right nofun))⟩
    · rw [Function.update_of_ne hj]
      have hslots := h.slots j
      rw [hout] at hslots
      exact hslots.trans (or_congr_right ⟨fun he => absurd (Option.some.inj he).symm hj, nofun⟩)
  · rw [hr.outstanding]
    exact nofun
  · rw [hr.pending]
    exact h.nodup
  · rw [hr.timers, hr.outstanding, h.timers, hout]
    exact ⟨fun hj => absurd (Option.some.inj hj.2).symm hj.1, nofun⟩
  · rw [hserials, hr.submissions, ← h.order, World.pendingSerials, hr.pending]
    simp only [hserial, World.pendingSerials]
  · rw [hr.history]
    exact h.alone.cons nofun
  · rw [hr.outstanding] at hj
    cases hj
  · rw [hserials] at hn
    have hne : (w.slot i).serial ≠ serial := fun he => hn (he ▸ h.inFlight i hout)
    rw [hcount, if_neg hne, h.waiting serial hn]
  · rw [hserials] at hm
    rw [hcount, h.completed serial hm, hout, hr.outstanding]
    by_cases he : (w.slot i).serial = serial <;> simp [he]

lemma release (h : QueueInv w) (hout : w.q.outstanding = some i) (completion : Completion) :
    QueueInv (w.release i completion) :=
  h.released hout completion (release_released hout completion)

lemma enqueue (h : QueueInv w) (hunused : (w.slot i).inUse = false) {slot : CmdSlot κ}
    (huse : slot.inUse = true) (hserial : slot.serial = w.submissions) :
    QueueInv (w.enqueue i slot) := by
  obtain ⟨hnp, hno⟩ : i ∉ w.q.pending ∧ w.q.outstanding ≠ some i := by
    rw [← not_or, ← h.slots, hunused]
    exact nofun
  have hself : (w.enqueue i slot).slot i = slot := Function.update_self ..
  have hother (j : SlotId) (hj : j ≠ i) : (w.enqueue i slot).slot j = w.slot j :=
    Function.update_of_ne hj ..
  have houtOther (j : SlotId) (hj : w.q.outstanding = some j) := hother j fun he => hno (he ▸ hj)
  refine ⟨⟨fun j => ?_, fun j hj => ?_, ?_, h.timers, ?_, h.alone.cons nofun⟩, fun j hj => ?_,
    h.waiting, fun serial hm => ?_⟩
  · by_cases hj : j = i
    · subst hj
      rw [hself]
      exact ⟨fun _ => .inl (mem_append_right _ mem_cons_self), fun _ => huse⟩
    · rw [hother j hj, h.slots j]
      refine or_congr_left ⟨mem_append_left _, fun hm => ?_⟩
      exact (mem_append.mp hm).resolve_right fun hm => hj (mem_singleton.mp hm)
  · rcases mem_append.mp hj with hj | hj
    · exact h.disjoint j hj
    · rwa [mem_singleton.mp hj]
  · refine List.Nodup.append h.nodup (nodup_singleton i) ?_
    exact disjoint_singleton.mpr hnp
  · have hpending : (w.enqueue i slot).pendingSerials = w.pendingSerials ++ [w.submissions] := by
      rw [World.pendingSerials, show (w.enqueue i slot).q.pending = w.q.pending ++ [i] from rfl,
        map_append, map_singleton, hself, hserial]
      congr 1
      exact map_congr_left fun j hj => by rw [hother j fun he => hnp (he ▸ hj)]
    rw [hpending, ← append_assoc]
    refine (congrArg (· ++ [w.submissions]) h.order).trans ?_
    exact range_succ.symm
  · rw [houtOther j hj]
    exact h.inFlight j hj
  · refine (h.completed serial hm).trans ?_
    have hmap : (w.enqueue i slot).q.outstanding.map
        (fun j => ((w.enqueue i slot).slot j).serial) =
          w.q.outstanding.map fun j => (w.slot j).serial :=
      Option.map_congr fun j hj => by rw [houtOther j hj]
    rw [hmap]

lemma submit (h : QueueInv w) (opcode : UInt16) (params : Option Bytes)
    (paramsLen : UInt8) (timeoutUs : ℕ) (onComplete : Option κ) :
    QueueInv (cmdqSubmit w opcode params paramsLen timeoutUs onComplete).1 := by
  unfold cmdqSubmit
  split
  · exact h
  split
  · exact h
  next i hfree =>
    have hunused : (w.q.pool i).inUse = false := by
      simpa using find?_some (p := fun i => !(w.q.pool i).inUse) hfree
    exact h.enqueue hunused rfl rfl

lemma expired_outstanding (h : QueueInv w) {nowUs : ℕ} {timers : TimerList SlotId ℕ}
    (hpop : w.q.timers.popExpired nowUs = some (i, timers)) : w.q.outstanding = some i := by
  rw [← h.timers, World.timerPending, TimerList.popExpired_some hpop]
  exact mem_cons_self

lemma expired_released (h : QueueInv w) {nowUs : ℕ} {timers : TimerList SlotId ℕ}
    (hpop : w.q.timers.popExpired nowUs = some (i, timers)) (completion : Completion) :
    Released w (((w.modify fun q => { q with timers }).setCredits 1).release i completion) i
      completion := by
  have htimers := TimerList.popExpired_some hpop
  have hout := h.expired_outstanding hpop
  have hrel := release_released
    (w := (w.modify fun q => { q with timers }).setCredits 1) hout completion
  refine ⟨hrel.pool, hrel.pending, hrel.outstanding, fun j => ?_, hrel.submissions, hrel.history⟩
  rw [hrel.timers]
  refine and_congr_right fun hj => ?_
  rw [World.timerPending, World.timerPending, htimers, mem_cons]
  exact ⟨.inr, fun hm => hm.resolve_left hj⟩

lemma keeps {callback : Callback κ σ} {send : Send κ σ}
    (call : ∀ cb w completion, QueueInv w → QueueInv (callback cb w completion))
    (sent : ∀ w command, QueueInv w → QueueInv (send w command).1) :
    Keeps callback send QueueInv where
  clock w nowUs h := h.quiet ⟨rfl, rfl, rfl, rfl, rfl⟩ rfl (fun _ => rfl) h.alone
  credits w credits h := h.quiet ⟨rfl, rfl, rfl, rfl, rfl⟩ rfl (fun _ => rfl) h.alone
  callback := call
  sent w i rest nowUs h hs := sent _ _ (h.launched hs nowUs)
  failed w i rest nowUs w' h hs hrc _ := by
    have hsent := sent _ (w.slot i).wire (h.launched hs nowUs)
    rw [hrc] at hsent
    exact hsent.quiet ⟨rfl, rfl, rfl, rfl, rfl⟩ rfl (fun _ => rfl) (hsent.alone.cons nofun)
  aborted w i rest nowUs w' h hs hrc hout := by
    have hsent := sent _ (w.slot i).wire (h.launched hs nowUs)
    rw [hrc] at hsent
    have hfailed : QueueInv (w'.failed (w.slot i).serial).restoreCredit :=
      hsent.quiet ⟨rfl, rfl, rfl, rfl, rfl⟩ rfl (fun _ => rfl)
        (Always.cons nofun (hsent.alone.cons nofun))
    exact hfailed.release hout _
  completed w i status returnParams h hout := h.release hout _
  expired w nowUs i timers h hpop :=
    h.released (h.expired_outstanding hpop) _ (h.expired_released hpop _)

end QueueInv

structure Submission where
  opcode : UInt16
  params : Option Bytes
  paramsLen : UInt8
  timeoutUs : ℕ
  hasCallback : Bool

structure QueueEnv where
  answers : ℕ → List (Bytes × ℕ) × Bool
  reactions : ℕ → List Submission
  fuel : ℕ

abbrev Queue := World Unit ℕ

inductive QueueInput where
  | submit (s : Submission)
  | pump (nowUs : ℕ)
  | onEvent (data : Bytes) (nowUs : ℕ)
  | tick (nowUs : ℕ)

variable (env : QueueEnv)

def submitOne (w : Queue) (s : Submission) : Queue :=
  (cmdqSubmit w s.opcode s.params s.paramsLen s.timeoutUs
    (if s.hasCallback then some () else none)).1

def resubmit : Callback Unit ℕ :=
  fun _ w _ => (env.reactions w.host).foldl submitOne { w with host := w.host + 1 }

def queueReentrant : Reentrant Queue Bytes Bool (Bytes × ℕ) where
  answer w := ({ w with calls := w.calls + 1 }, (env.answers w.calls).2, (env.answers w.calls).1)
  handle send w d := cmdqOnEvent (resubmit env) send env.fuel (w.emit (.received d.1)) d.1 d.2

def queueSend (depth : ℕ) : Send Unit ℕ := (queueReentrant env).port depth

def applyQueue (depth : ℕ) (w : Queue) : QueueInput → Queue
  | .submit s => submitOne w s
  | .pump nowUs => cmdqPump (resubmit env) (queueSend env depth) env.fuel w nowUs
  | .onEvent data nowUs => (queueReentrant env).handle (queueSend env depth) w (data, nowUs)
  | .tick nowUs => cmdqTick (resubmit env) (queueSend env depth) env.fuel w nowUs

def runQueue (depth : ℕ) (inputs : List QueueInput) : Queue :=
  inputs.foldl (applyQueue env depth) (.init 0)

section

variable {env : QueueEnv} {w : Queue}

lemma submitOne_inv (w : Queue) (s : Submission) (h : QueueInv w) : QueueInv (submitOne w s) :=
  h.submit ..

lemma resubmit_inv (cb : Unit) (w : Queue) (completion : Completion) (h : QueueInv w) :
    QueueInv (resubmit env cb w completion) :=
  foldl_invariant submitOne_inv _
    (h.quiet ⟨rfl, rfl, rfl, rfl, rfl⟩ rfl (fun _ => rfl) h.alone)

lemma handleEvent_inv {send : Send Unit ℕ}
    (sent : ∀ w command, QueueInv w → QueueInv (send w command).1) (w : Queue)
    (d : Bytes × ℕ) (h : QueueInv w) : QueueInv ((queueReentrant env).handle send w d) := by
  have hreceived : QueueInv (w.emit (.received d.1)) :=
    h.quiet ⟨rfl, rfl, rfl, rfl, rfl⟩ rfl (fun _ => rfl) (h.alone.cons nofun)
  exact (QueueInv.keeps resubmit_inv sent).onEvent env.fuel hreceived d.1

lemma queueSend_inv (depth : ℕ) (w : Queue) (command : Bytes) :
    QueueInv w → QueueInv (queueSend env depth w command).1 :=
  Reentrant.port_rel (C := queueReentrant env) (R := fun w w' => QueueInv w → QueueInv w')
    (fun _ => id) (fun h₁ h₂ => h₂ ∘ h₁)
    (fun _ h => h.quiet ⟨rfl, rfl, rfl, rfl, rfl⟩ rfl (fun _ => rfl) h.alone)
    (fun _ => handleEvent_inv) depth w command

lemma applyQueue_inv (depth : ℕ) (w : Queue) (input : QueueInput) (h : QueueInv w) :
    QueueInv (applyQueue env depth w input) := by
  have hkeeps : Keeps (resubmit env) (queueSend env depth) QueueInv :=
    QueueInv.keeps resubmit_inv (queueSend_inv depth)
  cases input with
  | submit s => exact submitOne_inv w s h
  | pump nowUs => exact hkeeps.pump env.fuel w nowUs h
  | onEvent data nowUs => exact handleEvent_inv (queueSend_inv depth) w (data, nowUs) h
  | tick nowUs => exact hkeeps.tick env.fuel h

lemma init_inv {κ σ : Type} (host : σ) : QueueInv (.init host : World κ σ) := by
  refine ⟨⟨fun i => ?_, ?_, .nil, fun i => ?_, rfl, always_nil⟩, ?_, fun _ _ => rfl, ?_⟩
  all_goals simp [World.init, Cmdq.init, World.slot, CmdSlot.init, World.timerPending,
    TimerList.empty, TimerList.timers, sentSerials]

end

/-- In every run of the queue, after every call: the slots in use are those that wait and the
outstanding one, only the latter has its timer pending, commands were handed to the transport in the
order of submission, one at a time and with a credit, and every accepted submission has been
completed once if it has left its slot and not at all otherwise. -/
theorem run_queue_sound (env : QueueEnv) (depth : ℕ) (inputs : List QueueInput) :
    QueueSound (runQueue env depth inputs) :=
  (foldl_invariant (applyQueue_inv depth) inputs (init_inv 0)).sound

end Bluzing.Controller
