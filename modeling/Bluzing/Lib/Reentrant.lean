import Mathlib

/-! Components whose output port may call them back before it returns. -/
namespace Bluzing
variable {σ ο ρ δ ι : Type*}

structure Reentrant (σ ο ρ δ : Type*) where
  /-- The state once the environment has been asked, its result and its deliveries. -/
  answer : σ → σ × ρ × List δ
  handle : (σ → ο → σ × ρ) → σ → δ → σ

namespace Reentrant

def port (C : Reentrant σ ο ρ δ) : ℕ → σ → ο → σ × ρ
  | 0, s, _ => ((C.answer s).1, (C.answer s).2.1)
  | n + 1, s, _ =>
      ((C.answer s).2.2.foldl (C.handle (C.port n)) (C.answer s).1, (C.answer s).2.1)

end Reentrant

lemma foldl_rel {R : σ → σ → Prop} (refl : ∀ s, R s s)
    (trans : ∀ {a b c}, R a b → R b c → R a c) {f : σ → ι → σ} (step : ∀ s x, R s (f s x))
    (xs : List ι) (s : σ) : R s (xs.foldl f s) := by
  induction xs generalizing s with
  | nil => exact refl s
  | cons x xs ih => exact trans (step s x) (ih (f s x))

lemma Reentrant.port_rel {C : Reentrant σ ο ρ δ} {R : σ → σ → Prop} (refl : ∀ s, R s s)
    (trans : ∀ {a b c}, R a b → R b c → R a c) (answer : ∀ s, R s (C.answer s).1)
    (handle : ∀ p : σ → ο → σ × ρ, (∀ s o, R s (p s o).1) → ∀ s d, R s (C.handle p s d))
    (n : ℕ) (s : σ) (o : ο) : R s (C.port n s o).1 := by
  induction n generalizing s o with
  | zero => exact answer s
  | succ n ih =>
    exact trans (answer s) (foldl_rel refl trans (handle (C.port n) ih) _ _)

lemma foldl_invariant {I : σ → Prop} {f : σ → ι → σ} (step : ∀ s x, I s → I (f s x))
    (xs : List ι) {s : σ} (h : I s) : I (xs.foldl f s) := by
  induction xs generalizing s with
  | nil => exact h
  | cons x xs ih => exact ih (step s x h)

lemma foldl_invariant_along {I : σ → Prop} {bad : σ → ι → Prop} {f : σ → ι → σ} {s : σ}
    {xs : List ι} (h : I s) (keeps : ∀ s, ∀ x ∈ xs, I s → ¬ bad s x → I (f s x))
    (good : ∀ done x rest, done ++ x :: rest = xs → ¬ bad (done.foldl f s) x) (done : List ι) :
    ∀ rest, done ++ rest = xs → I (done.foldl f s) := by
  induction done using List.reverseRecOn with
  | nil => exact fun _ _ => h
  | append_singleton done x ih =>
    intro rest hxs
    rw [List.append_assoc, List.singleton_append] at hxs
    have hmem : x ∈ xs := by rw [← hxs]; simp
    rw [List.foldl_append]
    exact keeps _ x hmem (ih _ hxs) (good done x rest hxs)

lemma foldl_good_of_along {P : σ → Prop} {bad : σ → ι → Prop} {f : σ → ι → σ} {s : σ}
    {xs : List ι}
    (breaks : ∀ (done : List ι) (x : ι), bad (done.foldl f s) x → ¬ P (f (done.foldl f s) x))
    (hP : ∀ done rest, done ++ rest = xs → P (done.foldl f s)) (done : List ι) (x : ι)
    (rest : List ι) (hxs : done ++ x :: rest = xs) : ¬ bad (done.foldl f s) x := by
  intro hbad
  have hnext := hP (done ++ [x]) rest (by simpa using hxs)
  rw [List.foldl_append] at hnext
  exact breaks done x hbad hnext

lemma foldl_invariant_iff {I : σ → Prop} {bad : σ → ι → Prop} {f : σ → ι → σ} {s : σ} (h : I s)
    (keeps : ∀ s x, I s → ¬ bad s x → I (f s x)) (breaks : ∀ s x, bad s x → ¬ I (f s x))
    (xs : List ι) :
    (∀ done rest, done ++ rest = xs → I (done.foldl f s)) ↔
      ∀ done x rest, done ++ x :: rest = xs → ¬ bad (done.foldl f s) x :=
  ⟨foldl_good_of_along fun done x => breaks (done.foldl f s) x,
    foldl_invariant_along h fun s x _ => keeps s x⟩

end Bluzing
