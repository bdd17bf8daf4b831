import Mathlib

/-! Items laid end to end: each begins where the one before it ends. -/
namespace Bluzing
variable {α : Type*} (start size : α → ℕ)

def Tiles : ℕ → List α → ℕ → Prop
  | lo, [], hi => lo = hi
  | lo, a :: items, hi => start a = lo ∧ Tiles (lo + size a) items hi

variable {start size} {lo mid hi : ℕ} {a : α} {items items' : List α}

lemma Tiles.le (h : Tiles start size lo items hi) : lo ≤ hi := by
  induction items generalizing lo with
  | nil => exact Nat.le_of_eq h
  | cons a items ih =>
    have hrest := ih h.2
    omega

lemma Tiles.append (h : Tiles start size lo items mid) (h' : Tiles start size mid items' hi) :
    Tiles start size lo (items ++ items') hi := by
  induction items generalizing lo with
  | nil =>
    obtain rfl : lo = mid := h
    exact h'
  | cons a items ih => exact ⟨h.1, ih h.2⟩

lemma Tiles.mem_range (h : Tiles start size lo items hi) (ha : a ∈ items) :
    lo ≤ start a ∧ start a + size a ≤ hi := by
  induction items generalizing lo with
  | nil => cases ha
  | cons b items ih =>
    obtain ⟨hstart, hrest⟩ := h
    have hle := hrest.le
    rcases List.mem_cons.mp ha with rfl | hmem
    · omega
    · have hin := ih hrest hmem
      omega

lemma Tiles.pairwise (h : Tiles start size lo items hi) :
    items.Pairwise fun a b => start a + size a ≤ start b := by
  induction items generalizing lo with
  | nil => exact List.Pairwise.nil
  | cons a items ih =>
    obtain ⟨hstart, hrest⟩ := h
    refine List.pairwise_cons.mpr ⟨?_, ih hrest⟩
    intro b hb
    have hin := (hrest.mem_range hb).1
    omega

lemma Tiles.sum (h : Tiles start size lo items hi) : hi = lo + (items.map size).sum := by
  induction items generalizing lo with
  | nil => exact h.symm
  | cons a items ih =>
    rw [ih h.2, List.map_cons, List.sum_cons, Nat.add_assoc]

lemma tiles_range {f : ℕ → α} {n step : ℕ} (hstart : ∀ i < n, start (f i) = lo + i * step)
    (hsize : ∀ i < n, size (f i) = step) :
    Tiles start size lo ((List.range n).map f) (lo + n * step) := by
  induction n with
  | zero => simp [Tiles]
  | succ n ih =>
    have hrest := ih (fun i hi => hstart i (by omega)) fun i hi => hsize i (by omega)
    have hlast : Tiles start size (lo + n * step) [f n] (lo + (n + 1) * step) := by
      refine ⟨hstart n (by omega), ?_⟩
      rw [hsize n (by omega), Tiles, Nat.succ_mul]
      omega
    rw [List.range_succ, List.map_append]
    exact hrest.append hlast

end Bluzing
