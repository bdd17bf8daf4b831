import Mathlib

/-! Cutting a list into chunks of at most `n` elements, `List.toChunks`. -/
namespace Bluzing.Chunks
open List
variable {α : Type} {n : ℕ}

lemma toChunks_cons_go (hn : 0 < n) (x : α) (xs : List α) :
    (x :: xs).toChunks n = toChunks.go n xs #[x] #[] := by
  cases n with
  | zero => exact absurd hn (Nat.lt_irrefl 0)
  | succ n => rfl

lemma toChunks_go (hn : 0 < n) (xs : List α) (acc : Array α) (done : Array (List α))
    (hacc : acc.size ≤ n) :
    toChunks.go n xs acc done =
      done.toList ++ (acc.toList ++ xs.take (n - acc.size)) ::
        (xs.drop (n - acc.size)).toChunks n := by
  induction xs generalizing acc done with
  | nil => simp [toChunks.go, toChunks]
  | cons x xs ih =>
    have hone : (#[x] : Array α).size ≤ n := hn
    rw [toChunks.go]
    split
    next hfull =>
      have hfull : acc.size = n := by simpa using hfull
      have hrest : (x :: xs).toChunks n = (#[x].toList ++ xs.take (n - #[x].size)) ::
          (xs.drop (n - #[x].size)).toChunks n := by
        rw [toChunks_cons_go hn, ih #[x] #[] hone, Array.toList_empty, nil_append]
      rw [show (Array.mkEmpty n).push x = #[x] from rfl, ih _ _ hone, hfull, Nat.sub_self,
        drop_zero, hrest]
      simp
    next hroom =>
      have hroom : acc.size < n := Nat.lt_of_le_of_ne hacc (by simpa using hroom)
      obtain ⟨k, hk⟩ : ∃ k, n - acc.size = k + 1 := ⟨n - acc.size - 1, by omega⟩
      have hk' : n - (acc.push x).size = k := by rw [Array.size_push]; omega
      rw [ih _ _ (by rw [Array.size_push]; exact hroom), hk, hk']
      simp

lemma toChunks_eq_cons (hn : 0 < n) {xs : List α} (hxs : xs ≠ []) :
    xs.toChunks n = xs.take n :: (xs.drop n).toChunks n := by
  obtain ⟨x, xs, rfl⟩ := exists_cons_of_ne_nil hxs
  obtain ⟨m, rfl⟩ : ∃ m, n = m + 1 := ⟨n - 1, by omega⟩
  rw [toChunks_cons_go hn, toChunks_go hn xs _ _ (by simp)]
  simp

lemma toChunks_induction (hn : 0 < n) {P : List α → List (List α) → Prop} (nil : P [] [])
    (cons : ∀ xs, xs ≠ [] → P (xs.drop n) ((xs.drop n).toChunks n) →
      P xs (xs.take n :: (xs.drop n).toChunks n)) (xs : List α) : P xs (xs.toChunks n) := by
  induction hlen : xs.length using Nat.strongRecOn generalizing xs with
  | _ len ih =>
  by_cases hxs : xs = []
  · subst hxs
    exact nil
  · have hpos := length_pos_iff.mpr hxs
    rw [toChunks_eq_cons hn hxs]
    exact cons xs hxs (ih _ (by rw [length_drop]; omega) _ rfl)

lemma flatten_toChunks (hn : 0 < n) (xs : List α) : (xs.toChunks n).flatten = xs := by
  refine toChunks_induction (P := fun xs chunks => chunks.flatten = xs) hn rfl
    (fun xs _ ih => ?_) xs
  rw [flatten_cons, ih, take_append_drop]

lemma length_of_mem_toChunks (hn : 0 < n) (xs : List α) :
    ∀ chunk ∈ xs.toChunks n, 0 < chunk.length ∧ chunk.length ≤ n := by
  refine toChunks_induction (P := fun _ chunks => ∀ chunk ∈ chunks,
    0 < chunk.length ∧ chunk.length ≤ n) hn nofun (fun xs hxs ih => ?_) xs
  have hpos := length_pos_iff.mpr hxs
  refine forall_mem_cons.mpr ⟨?_, ih⟩
  rw [length_take]
  omega

end Bluzing.Chunks
