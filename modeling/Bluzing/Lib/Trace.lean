import Mathlib

/-! Runs of a labelled step relation, with the labels in order. -/
namespace Bluzing
variable {σ ι : Type*}

inductive Trace (R : ι → σ → σ → Prop) : σ → List ι → σ → Prop
  | nil (s : σ) : Trace R s [] s
  | cons {x : ι} {xs : List ι} {s s' s'' : σ} (step : R x s s') (rest : Trace R s' xs s'') :
      Trace R s (x :: xs) s''

namespace Trace
variable {R Q : ι → σ → σ → Prop} {s s' s'' : σ} {xs ys : List ι}

lemma append (h₁ : Trace R s xs s') (h₂ : Trace R s' ys s'') : Trace R s (xs ++ ys) s'' := by
  induction h₁ with
  | nil => exact h₂
  | cons step _ ih => exact .cons step (ih h₂)

lemma invariant {I : σ → Prop} (step : ∀ x s s', I s → R x s s' → I s' ∧ Q x s s')
    (h : Trace R s xs s') (hs : I s) : I s' ∧ Trace Q s xs s' := by
  induction h with
  | nil s => exact ⟨hs, .nil s⟩
  | cons hstep _ ih =>
    obtain ⟨hnext, hq⟩ := step _ _ _ hs hstep
    obtain ⟨hlast, hrest⟩ := ih hnext
    exact ⟨hlast, .cons hq hrest⟩

lemma rel {P : σ → σ → Prop} (refl : ∀ s, P s s) (trans : ∀ {a b c}, P a b → P b c → P a c)
    (step : ∀ x s s', R x s s' → P s s') (h : Trace R s xs s') : P s s' := by
  induction h with
  | nil s => exact refl s
  | cons hstep _ ih => exact trans (step _ _ _ hstep) ih

end Trace

end Bluzing
