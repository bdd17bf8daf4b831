import Bluzing.Smp.Deadline

/-! What a history says about completion: how often `complete` fired, whether a finished state was
assigned again, and which returns of `send` lead to that. -/
namespace Bluzing.Smp
open List

def stateOf : List Event → State
  | [] => .idle
  | .stateSet s :: _ => s
  | _ :: h => stateOf h

def Event.isComplete : Event → Bool
  | .complete _ _ => true
  | _ => false

def completes (h : List Event) : ℕ := h.countP Event.isComplete

def okStarts (h : List Event) : ℕ := h.count (.startReturned .ok)

def Settled (h : List Event) : Prop :=
  ∀ newer s older, h = newer ++ .stateSet s :: older → s.terminal = true →
    ∀ s', .stateSet s' ∉ newer

def finishesAfter (pdu : Bytes) : Bool :=
  match pdu.head? with
  | none => true
  | some o => o == 0x05 || (0x06 ≤ o && o ≤ 0x0A)

def Event.overruns : Event → Bool
  | .returned pdu st s => s.terminal && (st != .ok || finishesAfter pdu)
  | _ => false

/-- No `send` came back to a manager that had ended meanwhile and that is then ended again. -/
def NoOverrun (h : List Event) : Prop := ∀ e ∈ h, e.overruns = false

instance (h : List Event) : Decidable (NoOverrun h) :=
  inferInstanceAs (Decidable (∀ e ∈ h, e.overruns = false))

lemma NoOverrun.older {newer older : List Event} (h : NoOverrun (newer ++ older)) :
    NoOverrun older :=
  fun e hm => h e (mem_append_right newer hm)

lemma NoOverrun.tail {e : Event} {older : List Event} (h : NoOverrun (e :: older)) :
    NoOverrun older :=
  fun e' hm => h e' (mem_cons_of_mem e hm)

variable {h newer : List Event} {e : Event} {s : State}

lemma stateOf_cons (he : ∀ s, e ≠ .stateSet s) : stateOf (e :: h) = stateOf h := by
  cases e with
  | stateSet s => exact absurd rfl (he s)
  | _ => rfl

lemma stateOf_append (hn : ∀ s, .stateSet s ∉ newer) : stateOf (newer ++ h) = stateOf h := by
  induction newer with
  | nil => rfl
  | cons e newer ih =>
    have he : ∀ s, e ≠ .stateSet s := fun s hs => hn s (by simp [hs])
    rw [cons_append, stateOf_cons he]
    exact ih fun s hs => hn s (mem_cons_of_mem e hs)

lemma Settled.cons (hs : Settled h) (he : ∀ s, e ≠ .stateSet s) : Settled (e :: h) := by
  intro newer s older heq ht s'
  cases newer with
  | nil =>
    rw [nil_append, cons.injEq] at heq
    exact absurd heq.1 (he s)
  | cons e' newer =>
    rw [cons_append, cons.injEq] at heq
    obtain ⟨rfl, heq⟩ := heq
    rw [mem_cons, not_or]
    exact ⟨(he s').symm, hs newer s older heq ht s'⟩

lemma Settled.stateSet (hs : Settled h) (hn : (stateOf h).terminal = false) (s : State) :
    Settled (.stateSet s :: h) := by
  intro newer t older heq ht s'
  cases newer with
  | nil => simp
  | cons e' newer =>
    rw [cons_append, cons.injEq] at heq
    obtain ⟨-, rfl⟩ := heq
    -- the state before this assignment would already have been `t`
    rw [stateOf_append (hs newer t older rfl ht)] at hn
    simp only [stateOf] at hn
    rw [ht] at hn
    cases hn

lemma Settled.stateOf_eq (hs : Settled (newer ++ h)) (ht : (stateOf h).terminal = true) :
    stateOf (newer ++ h) = stateOf h := by
  induction h generalizing newer with
  | nil => cases ht
  | cons e h ih =>
    by_cases he : ∃ s, e = .stateSet s
    · obtain ⟨s, rfl⟩ := he
      exact stateOf_append (hs newer s h rfl ht)
    · have he := fun s hs => he ⟨s, hs⟩
      rw [stateOf_cons he] at ht ⊢
      rw [append_cons] at hs ⊢
      exact ih hs ht

structure Calm (w : World) : Prop where
  sync : stateOf w.history = w.m.state
  settled : Settled w.history
  once : completes w.history ≤ if w.m.state.terminal then 1 else 0

namespace Calm
variable {w : World} {e : Event} {s : State}

lemma init : Calm World.init where
  sync := rfl
  settled := by
    intro newer s older h
    simp [World.init] at h
  once := by simp [completes, World.init]

lemma emit (h : Calm w) (he : ∀ s, e ≠ .stateSet s) (hc : e.isComplete = false) :
    Calm (w.emit e) where
  sync := by
    rw [World.emit_history, stateOf_cons he]
    exact h.sync
  settled := h.settled.cons he
  once := by
    have heq : completes (w.emit e).history = completes w.history := by simp [completes, hc]
    rw [heq]
    exact h.once

lemma sameState {w' : World} (h : Calm w) (hs : w'.m.state = w.m.state)
    (hh : w'.history = w.history) : Calm w' := by
  obtain ⟨h₁, h₂, h₃⟩ := h
  exact ⟨by rw [hh, hs, h₁], by rw [hh]; exact h₂, by rw [hh, hs]; exact h₃⟩

lemma setState (h : Calm w) (hn : w.m.state.terminal = false) (s : State) :
    Calm (w.setState s) where
  sync := rfl
  settled := h.settled.stateSet (by rw [h.sync, hn]) s
  once := by
    have ho := h.once
    rw [hn] at ho
    have hz : completes w.history = 0 := by simpa using ho
    have hc : completes (w.setState s).history = completes w.history := by
      simp [completes, Event.isComplete]
    omega

lemma finish (h : Calm w) (hn : w.m.state.terminal = false) (su : Setup) (r : Result) :
    Calm (finish su w r) := by
  have ho := h.once
  rw [hn] at ho
  have hz : completes w.history = 0 := by simpa using ho
  have hd : Calm (w.modify fun m => { m with deadlineUs := 0 }) := h.sameState rfl rfl
  have hset := hd.setState hn (if r = .ok then .complete else .failed)
  have hterm : (if r = .ok then State.complete else .failed).terminal = true := by
    split <;> rfl
  unfold Smp.finish
  dsimp only
  split
  · refine ⟨hset.sync, hset.settled.cons nofun, ?_⟩
    have hc : completes w.history + 1 ≤ 1 := by omega
    simpa [completes, Event.isComplete, countP_cons, hterm] using hc
  · exact hset

end Calm

structure Calms (w w' : World) : Prop where
  grows : w.history <:+ w'.history
  calm : NoOverrun w'.history → Calm w → Calm w'

namespace Calms
variable {w w₁ w₂ : World}

lemma refl (w : World) : Calms w w := ⟨suffix_refl _, fun _ h => h⟩

lemma noOverrun (h : Calms w w₁) (hn : NoOverrun w₁.history) : NoOverrun w.history := by
  obtain ⟨newer, hh⟩ := h.grows
  rw [← hh] at hn
  exact hn.older

lemma trans (h : Calms w w₁) (h' : Calms w₁ w₂) : Calms w w₂ where
  grows := h.grows.trans h'.grows
  calm hn hc := h'.calm hn (h.calm (h'.noOverrun hn) hc)

lemma sameState (hs : w₁.m.state = w.m.state) (hh : w₁.history = w.history) : Calms w w₁ where
  grows := hh ▸ suffix_refl _
  calm _ hc := hc.sameState hs hh

lemma emit {e : Event} (he : ∀ s, e ≠ .stateSet s) (hc : e.isComplete = false) :
    Calms w (w.emit e) where
  grows := suffix_cons e w.history
  calm _ h := h.emit he hc

lemma setState (hn : w.m.state.terminal = false) (s : State) : Calms w (w.setState s) where
  grows := suffix_cons _ w.history
  calm _ h := h.setState hn s

lemma advance {s : State} (hn : w.m.state.terminal = false) (hs : w₁.m.state = s)
    (hh : w₁.history = .stateSet s :: w.history) : Calms w w₁ :=
  (setState hn s).trans (sameState hs hh)

lemma encrypting (hn : w.m.state.terminal = false) (hh : w₁.history = w.history) (nowUs : ℕ) :
    Calms w (encrypting w₁ nowUs) := by
  have hset : Calms w ((w₁.setState .waitEncryption).arm nowUs) := advance hn rfl (by simp [hh])
  have hcall := hset.trans (emit (e := .startEncryption w₁.m.stk
    w₁.m.negotiation.encryptionKeySize w₁.m.negotiation) nofun rfl)
  exact hcall.trans (sameState rfl rfl)

lemma finish_grows (su : Setup) (w : World) (r : Result) :
    w.history <:+ (Smp.finish su w r).history := by
  have hset : w.history <:+ .stateSet (if r = .ok then .complete else .failed) :: w.history :=
    suffix_cons _ _
  unfold Smp.finish
  dsimp only
  split
  · exact hset.trans (suffix_cons _ _)
  · exact hset

lemma finish (hn : NoOverrun w.history → w.m.state.terminal = false) (su : Setup) (r : Result) :
    Calms w (finish su w r) where
  grows := finish_grows su w r
  calm ho h := by
    obtain ⟨newer, hh⟩ := finish_grows su w r
    rw [← hh] at ho
    exact h.finish (hn ho.older) su r

lemma userAction (su : Setup) (w : World) (action : UserAction) (value : UInt32) :
    Calms w (userAction su w action value) := by
  unfold Smp.userAction
  split
  · exact emit nofun rfl
  · exact refl w

lemma scratch (h : Scratch w w₁) : Calms w w₁ := by
  obtain ⟨notes, hh, hn⟩ := h.history
  have hnotes : ∀ notes : List Event, (∀ e ∈ notes, e.isNote = true) → ∀ w : World,
      Calms w { w with history := notes ++ w.history } := by
    intro notes
    induction notes with
    | nil => exact fun _ w => refl w
    | cons e notes ih =>
      intro hn w
      have he := hn e (by simp)
      refine (ih (fun e he => hn e (mem_cons_of_mem _ he)) w).trans (emit (e := e) ?_ ?_)
      · rintro s rfl
        cases he
      · cases e <;> first | rfl | cases he
  exact (hnotes notes hn w).trans (sameState h.state hh)

end Calms

end Bluzing.Smp
