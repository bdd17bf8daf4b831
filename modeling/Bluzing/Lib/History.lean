import Mathlib

/-! Histories of events, newest first: properties of each event relative to the events before it,
and the part of a history since the last opening event. -/
namespace Bluzing
open List
variable {ε : Type*} {P : ε → List ε → Prop} {opens : ε → Bool} {newer h : List ε} {e : ε}

def Always (P : ε → List ε → Prop) (h : List ε) : Prop :=
  ∀ newer e older, h = newer ++ e :: older → P e older

lemma always_nil : Always P [] := by
  intro newer e older h
  simp at h

lemma Always.cons (h₁ : P e h) (h₂ : Always P h) : Always P (e :: h) := by
  intro newer e' older heq
  cases newer with
  | nil =>
    obtain ⟨rfl, rfl⟩ := heq
    exact h₁
  | cons e₀ newer =>
    rw [cons_append, cons.injEq] at heq
    exact h₂ newer e' older heq.2

lemma Always.head (h₁ : Always P (e :: h)) : P e h := h₁ [] e h rfl

lemma Always.tail (h₁ : Always P (e :: h)) : Always P h :=
  fun newer e' older heq => h₁ (e :: newer) e' older (congrArg (e :: ·) heq)

lemma Always.append (hn : ∀ e ∈ newer, ∀ older, P e older) (hh : Always P h) :
    Always P (newer ++ h) := by
  induction newer with
  | nil => exact hh
  | cons e newer ih =>
    have hrest := ih fun e' he => hn e' (mem_cons_of_mem e he)
    exact hrest.cons (hn e (mem_cons_self ..) _)

def since (opens : ε → Bool) (h : List ε) : List ε := h.takeWhile fun e => !opens e

lemma since_append (hn : ∀ e ∈ newer, opens e = false) :
    since opens (newer ++ h) = newer ++ since opens h :=
  takeWhile_append_of_pos fun e he => by rw [hn e he]; rfl

lemma since_cons (he : opens e = false) : since opens (e :: h) = e :: since opens h := by
  rw [since, takeWhile_cons_of_pos (by rw [he]; rfl)]
  rfl

inductive Extends (test : ε → Bool) (h : List ε) : List ε → Prop
  | refl : Extends test h h
  | cons {e : ε} {h' : List ε} (he : test e = true) (hh : Extends test h h') :
      Extends test h (e :: h')

namespace Extends
variable {test : ε → Bool} {h h' h'' : List ε}

lemma trans (h₁ : Extends test h h') (h₂ : Extends test h' h'') : Extends test h h'' := by
  induction h₂ with
  | refl => exact h₁
  | cons he _ ih => exact .cons he ih

lemma append {newer : List ε} (hn : ∀ e ∈ newer, test e = true) :
    Extends test h (newer ++ h) := by
  induction newer with
  | nil => exact .refl
  | cons e newer ih =>
    obtain ⟨he, hnewer⟩ := forall_mem_cons.mp hn
    exact .cons he (ih hnewer)

lemma mono {test' : ε → Bool} (ht : ∀ e, test e = true → test' e = true)
    (hx : Extends test h h') : Extends test' h h' := by
  induction hx with
  | refl => exact .refl
  | cons he _ ih => exact .cons (ht _ he) ih

lemma keeps {J : List ε → Prop} (step : ∀ e h, test e = true → J h → J (e :: h))
    (hx : Extends test h h') (hh : J h) : J h' := by
  induction hx with
  | refl => exact hh
  | cons he _ ih => exact step _ _ he ih

lemma exists_append (hx : Extends test h h') :
    ∃ newer, h' = newer ++ h ∧ ∀ e ∈ newer, test e = true := by
  induction hx with
  | refl => exact ⟨[], rfl, by simp⟩
  | @cons e h' he _ ih =>
    obtain ⟨newer, rfl, hn⟩ := ih
    exact ⟨e :: newer, rfl, forall_mem_cons.mpr ⟨he, hn⟩⟩

end Extends

def Unfolds (P : ε → List ε → List ε → Prop) (h h' : List ε) : Prop :=
  ∃ newer, h' = newer ++ h ∧
    ∀ after e before, newer = after ++ e :: before → P e (before ++ h) after

namespace Unfolds
variable {P : ε → List ε → List ε → Prop} {h h' h'' : List ε}

lemma refl (h : List ε) : Unfolds P h h :=
  ⟨[], rfl, fun after e before heq => absurd heq (by simp)⟩

lemma append {newer : List ε} (hn : ∀ e ∈ newer, ∀ older after, P e older after) :
    Unfolds P h (newer ++ h) := by
  refine ⟨newer, rfl, fun after e before heq => hn e ?_ _ _⟩
  rw [heq]
  exact mem_append_right after (mem_cons_self ..)

lemma cons (he : ∀ older after, P e older after) : Unfolds P h (e :: h) :=
  append (h := h) (forall_mem_singleton.mpr he)

lemma of_cons (hu : Unfolds P (e :: h) h') (he : ∀ newer, h' = newer ++ e :: h → P e h newer) :
    Unfolds P h h' := by
  obtain ⟨newer, rfl, hn⟩ := hu
  refine ⟨newer ++ [e], by simp, fun after e' before heq => ?_⟩
  obtain rfl | ⟨mid, last, rfl⟩ := before.eq_nil_or_concat
  · obtain ⟨rfl, hlast⟩ := append_inj' heq rfl
    obtain rfl := (cons.inj hlast).1
    exact he newer rfl
  · rw [concat_eq_append, ← cons_append, ← append_assoc] at heq
    obtain ⟨rfl, hlast⟩ := append_inj' heq rfl
    obtain rfl := (cons.inj hlast).1
    rw [concat_eq_append, append_assoc]
    exact hn after e' mid rfl

lemma trans (hmono : ∀ e older after later, P e older after → P e older (later ++ after))
    (h₁ : Unfolds P h h') (h₂ : Unfolds P h' h'') : Unfolds P h h'' := by
  obtain ⟨newer, rfl, hn⟩ := h₁
  obtain ⟨newer', rfl, hn'⟩ := h₂
  refine ⟨newer' ++ newer, (append_assoc ..).symm, fun after e before heq => ?_⟩
  obtain ⟨mid, rfl, hmid⟩ | ⟨mid, rfl, hmid⟩ := append_eq_append_iff.mp heq
  · exact hmono _ _ _ _ (hn mid e before hmid)
  · obtain ⟨rfl, hrest⟩ | ⟨mid', rfl, rfl⟩ := cons_eq_append_iff.mp hmid
    · have hlater := hmono _ _ [] after (hn [] e before hrest)
      rwa [append_nil] at hlater
    · rw [append_assoc]
      exact hn' after e mid' rfl

end Unfolds

inductive HeldSince (starts keeps : List ε → ε → Prop) : List ε → Prop
  | now {xs : List ε} {x : ε} (h : starts xs x) : HeldSince starts keeps (xs ++ [x])
  | later {xs : List ε} {x : ε} (h : HeldSince starts keeps xs) (hx : keeps xs x) :
      HeldSince starts keeps (xs ++ [x])

end Bluzing
