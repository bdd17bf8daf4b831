import Bluzing.Lib.History
import Bluzing.L2cap.ChannelNames

/-! The life of a channel, `OPENED? DATA* CLOSED`, as the application is told of it, and what each
kind of assignment in the handlers does to it. -/
namespace Bluzing.L2cap

def Event.about (s : Slot) : Event → Option ChannelEvent
  | .fired t _ event => if t = s then some event else none
  | _ => none

def lifetime (s : Slot) (history : List Event) : List ChannelEvent :=
  (since (fun e => e = .claimed s) history).filterMap (Event.about s)

def occupied (s : Slot) : List Event → Bool
  | [] => false
  | .claimed t :: older => t = s || occupied s older
  | .released t :: older => t ≠ s && occupied s older
  | .sent _ :: older => occupied s older
  | .fired .. :: older => occupied s older

inductive Ongoing : List ChannelEvent → Prop
  | fresh : Ongoing []
  | opened : Ongoing [.opened]
  | data {payload : Bytes} {nowUs : ℕ} {events : List ChannelEvent} (h : Ongoing events) :
      Ongoing (.data payload nowUs :: events)

inductive LifeCycle : List ChannelEvent → Prop
  | ongoing {events : List ChannelEvent} (h : Ongoing events) : LifeCycle events
  | closed {reason : CloseReason} {events : List ChannelEvent} (h : Ongoing events) :
      LifeCycle (.closed reason :: events)

def InOrder : Event → List Event → Prop
  | .sent _, _ => True
  | .fired s _ event, older => LifeCycle (event :: lifetime s older)
  | .claimed s, older => occupied s older = false
  | .released s, older => occupied s older = true

def Fits : ChannelState → Bool → List ChannelEvent → Prop
  | .free, taken, events => taken = false ∧ LifeCycle events
  | .waitConnectRsp, taken, events => taken = true ∧ events = []
  | .config, taken, events => taken = true ∧ events = []
  | .opened, taken, events => taken = true ∧ Ongoing events
  | .waitDisconnectRsp, taken, events => taken = true ∧ Ongoing events

structure Orderly (w : World) : Prop where
  history : Always InOrder w.history
  slots : ∀ s, Fits (w.chan s).state (occupied s w.history) (lifetime s w.history)
  timers : ∀ s, w.timerPending s → (w.chan s).state ≠ .free

variable {s : Slot} {e : Event} {older : List Event}

def Event.slot : Event → Option Slot
  | .sent _ => none
  | .fired s _ _ => some s
  | .claimed s => some s
  | .released s => some s

lemma occupied_of_ne (h : e.slot ≠ some s) : occupied s (e :: older) = occupied s older := by
  cases e <;> simp_all [occupied, Event.slot]

lemma lifetime_of_ne (h : e.slot ≠ some s) : lifetime s (e :: older) = lifetime s older := by
  have hne : e ≠ .claimed s := by
    rintro rfl
    exact h rfl
  have hsince : since (fun e => e = .claimed s) (e :: older) =
      e :: since (fun e => e = .claimed s) older := since_cons (decide_eq_false hne)
  have habout : e.about s = none := by cases e <;> simp_all [Event.about, Event.slot]
  rw [lifetime, hsince, List.filterMap_cons_none habout, lifetime]

@[simp] lemma occupied_claimed : occupied s (.claimed s :: older) = true := by simp [occupied]
@[simp] lemma occupied_released : occupied s (.released s :: older) = false := by
  simp [occupied]
@[simp] lemma occupied_fired {cid : UInt16} {event : ChannelEvent} :
    occupied s (.fired s cid event :: older) = occupied s older := rfl
@[simp] lemma lifetime_claimed : lifetime s (.claimed s :: older) = [] := by
  simp [lifetime, since]
@[simp] lemma lifetime_released : lifetime s (.released s :: older) = lifetime s older := rfl
@[simp] lemma lifetime_fired {cid : UInt16} {event : ChannelEvent} :
    lifetime s (.fired s cid event :: older) = event :: lifetime s older := by
  simp [lifetime, since, Event.about]

lemma Fits.of_live {st : ChannelState} {taken : Bool} {events : List ChannelEvent}
    (h : Fits st taken events) (hlive : st ≠ .free) : taken = true ∧ Ongoing events := by
  cases st with
  | free => exact absurd rfl hlive
  | waitConnectRsp | config => exact ⟨h.1, h.2 ▸ .fresh⟩
  | opened | waitDisconnectRsp => exact h

lemma Fits.live_iff {st : ChannelState} {taken : Bool} {events : List ChannelEvent}
    (h : Fits st taken events) : st ≠ .free ↔ taken = true := by
  cases st <;> simp [h.1]

variable {w w' : World} {i : Slot} {f : Channel → Channel}

lemma orderly_init : Orderly World.init where
  history := always_nil
  slots _ := ⟨rfl, .ongoing .fresh⟩
  timers _ := nofun

lemma Orderly.of_same (h : Orderly w) (hist : w'.history = w.history)
    (hstates : ∀ s, (w'.chan s).state = (w.chan s).state)
    (htimers : ∀ s, w'.timerPending s → w.timerPending s) : Orderly w' where
  history := hist ▸ h.history
  slots s := by
    rw [hist, hstates]
    exact h.slots s
  timers s hs := by
    rw [hstates]
    exact h.timers s (htimers s hs)

lemma Orderly.received (h : Orderly w) (ra : Reassembler) : Orderly (w.received ra) :=
  h.of_same rfl (fun _ => rfl) fun _ => id

lemma Orderly.allocIdentifier (h : Orderly w) : Orderly (allocIdentifier w).2 :=
  h.of_same rfl (fun _ => rfl) fun _ => id

lemma Orderly.cancelTimer (h : Orderly w) (i : Slot) : Orderly (w.cancelTimer i) :=
  h.of_same rfl (fun _ => rfl) fun s hs => by
    simp only [World.timerPending, World.cancelTimer_mgr, TimerList.mem_timers_cancel] at hs
    exact hs.2

lemma cancelTimer_pending (w : World) (i : Slot) : ¬ (w.cancelTimer i).timerPending i := by
  simp [World.timerPending]

lemma Orderly.addTimer (h : Orderly w) (hlive : (w.chan i).state ≠ .free) (nowUs : ℕ) :
    Orderly (w.addTimer i nowUs) where
  history := h.history
  slots := h.slots
  timers s hs := by
    simp only [World.timerPending, World.addTimer_mgr, TimerList.mem_timers_add] at hs
    rcases hs with rfl | hs
    · exact hlive
    · exact h.timers s hs

lemma Orderly.of_slot (h : Orderly w) (hist : Always InOrder w'.history)
    (hothers : ∀ s, s ≠ i → w'.chan s = w.chan s ∧
      occupied s w'.history = occupied s w.history ∧ lifetime s w'.history = lifetime s w.history)
    (htimers : ∀ s, w'.timerPending s → w.timerPending s)
    (hfits : Fits (w'.chan i).state (occupied i w'.history) (lifetime i w'.history))
    (hfree : (w'.chan i).state = .free → ¬ w.timerPending i) : Orderly w' := by
  refine ⟨hist, fun s => ?_, fun s hpending => ?_⟩ <;> by_cases hs : s = i
  · exact hs ▸ hfits
  · obtain ⟨hchan, hoccupied, hlifetime⟩ := hothers s hs
    rw [hchan, hoccupied, hlifetime]
    exact h.slots s
  · subst hs
    exact fun hst => hfree hst (htimers s hpending)
  · rw [(hothers s hs).1]
    exact h.timers s (htimers s hpending)

lemma Orderly.update (h : Orderly w)
    (hfits : Fits (f (w.chan i)).state (occupied i w.history) (lifetime i w.history))
    (hfree : (f (w.chan i)).state = .free → ¬ w.timerPending i) : Orderly (w.update i f) := by
  rw [← World.update_chan w i f] at hfits hfree
  exact h.of_slot h.history (fun s hs => ⟨Function.update_of_ne hs .., rfl, rfl⟩) (fun _ => id)
    hfits hfree

lemma Orderly.emit_update (h : Orderly w) {e : Event} (he : e.slot = some i)
    (hin : InOrder e w.history)
    (hfits : Fits (f (w.chan i)).state (occupied i (e :: w.history)) (lifetime i (e :: w.history)))
    (hfree : (f (w.chan i)).state = .free → ¬ w.timerPending i) :
    Orderly ((w.emit e).update i f) := by
  have hchan : ((w.emit e).update i f).chan i = f (w.chan i) := World.update_chan ..
  rw [← hchan] at hfits hfree
  refine h.of_slot (Always.cons hin h.history) (fun s hs => ?_) (fun _ => id) hfits hfree
  have hne : e.slot ≠ some s := fun h => hs (Option.some.inj (h.symm.trans he))
  exact ⟨Function.update_of_ne hs .., occupied_of_ne hne, lifetime_of_ne hne⟩

lemma Orderly.update_same (h : Orderly w) (hf : (f (w.chan i)).state = (w.chan i).state) :
    Orderly (w.update i f) := by
  refine h.update ?_ fun hst hpending => ?_
  · rw [hf]
    exact h.slots i
  · exact h.timers i hpending (hf.symm.trans hst)

lemma Orderly.sent (h : Orderly w) (acl : Bytes) : Orderly (w.emit (.sent acl)) where
  history := Always.cons trivial h.history
  slots s := by
    exact h.slots s
  timers := h.timers

lemma Orderly.fire (h : Orderly w) {event : ChannelEvent}
    (hlife : LifeCycle (event :: lifetime i w.history))
    (hfits : Fits (w.chan i).state (occupied i w.history) (event :: lifetime i w.history)) :
    Orderly (fireEvent w i event) := by
  unfold fireEvent
  split
  · refine h.of_slot (i := i) (Always.cons hlife h.history) (fun s hs => ?_) (fun _ => id) ?_ ?_
    · have hne := fun h => hs (Option.some.inj h).symm
      exact ⟨rfl, occupied_of_ne hne, lifetime_of_ne hne⟩
    · rw [World.emit_chan, World.emit, occupied_fired, lifetime_fired]
      exact hfits
    · exact fun hst hpending => h.timers i hpending hst
  · exact h

lemma Orderly.release (h : Orderly w) (hf : (f (w.chan i)).state = .free)
    (hpending : ¬ w.timerPending i) : Orderly ((w.release i).update i f) := by
  unfold World.release
  split
  next hst => exact h.update_same (hf.trans hst.symm)
  next hst =>
    obtain ⟨htaken, hlife⟩ := (h.slots i).of_live hst
    refine h.emit_update rfl htaken ?_ fun _ => hpending
    rw [hf, occupied_released, lifetime_released]
    exact ⟨rfl, .ongoing hlife⟩

lemma lifetime_release : lifetime i (w.release i).history = lifetime i w.history := by
  unfold World.release
  split <;> rfl

lemma Orderly.disarm (h : Orderly w) :
    ∃ w₁, (if w.timerPending i then w.cancelTimer i else w) = w₁ ∧ Orderly w₁ ∧
      ¬ w₁.timerPending i ∧ w₁.history = w.history := by
  split
  · exact ⟨_, rfl, h.cancelTimer i, cancelTimer_pending w i, rfl⟩
  next hpending => exact ⟨_, rfl, h, hpending, rfl⟩

lemma Orderly.finishClose (h : Orderly w) (hlive : (w.chan i).state ≠ .free)
    (reason : CloseReason) : Orderly (finishClose w i reason) := by
  have hlife := ((h.slots i).of_live hlive).2
  obtain ⟨w₁, hw₁, horderly, hpending, hist⟩ := h.disarm (i := i)
  unfold L2cap.finishClose
  rw [hw₁]
  have hfree : Orderly ((w₁.release i).update i fun c =>
      { c with state := .free, pendingIdentifier := 0 }) := horderly.release rfl hpending
  have hclosed : LifeCycle (.closed reason :: lifetime i (w₁.release i).history) := by
    rw [lifetime_release, hist]
    exact .closed hlife
  refine hfree.fire hclosed ?_
  have hfits := hfree.slots i
  rw [World.update_chan] at hfits ⊢
  exact ⟨hfits.1, hclosed⟩

lemma Orderly.opens (h : Orderly w) (hst : (w.chan i).state = .config) :
    Orderly (fireEvent (w.update i fun c => { c with state := .opened }) i .opened) := by
  obtain ⟨htaken, hfresh⟩ : occupied i w.history = true ∧ lifetime i w.history = [] := by
    have hfits := h.slots i
    rwa [hst] at hfits
  have hopen : Ongoing (.opened :: lifetime i w.history) := hfresh ▸ .opened
  have hupdate : Orderly (w.update i fun c => { c with state := .opened }) :=
    h.update ⟨htaken, hfresh ▸ .fresh⟩ nofun
  refine hupdate.fire (.ongoing hopen) ?_
  rw [World.update_chan]
  exact ⟨htaken, hopen⟩

end Bluzing.L2cap
