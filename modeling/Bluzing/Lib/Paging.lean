import Mathlib

/-! Items with ascending spans, read page by page: a page is asked for from a cursor, and the cursor
moves behind the last item of the page. -/
namespace Bluzing
variable {α : Type*} (lo hi : α → ℕ)

structure Ascending (items : List α) : Prop where
  spans : ∀ a ∈ items, lo a ≤ hi a
  disjoint : items.Pairwise fun a b => hi a < lo b

def between (items : List α) (cursor bound : ℕ) : List α :=
  items.filter fun a => decide (cursor ≤ lo a ∧ lo a ≤ bound)

variable {lo hi} {items page rest : List α} {a : α} {cursor bound : ℕ}

lemma mem_between : a ∈ between lo items cursor bound ↔
    a ∈ items ∧ cursor ≤ lo a ∧ lo a ≤ bound := by
  simp [between]

lemma Ascending.sublist_between (h : Ascending lo hi items) (cursor bound : ℕ) :
    Ascending lo hi (between lo items cursor bound) :=
  ⟨fun a ha => h.spans a (mem_between.mp ha).1, h.disjoint.sublist List.filter_sublist⟩

lemma Ascending.between_next (h : Ascending lo hi items)
    (hpage : between lo items cursor bound = page ++ a :: rest) :
    between lo items (hi a + 1) bound = rest := by
  have hsome := h.sublist_between cursor bound
  rw [hpage] at hsome
  obtain ⟨hspans, hdisjoint⟩ := hsome
  have hmem : a ∈ between lo items cursor bound := by rw [hpage]; simp
  have hspan : lo a ≤ hi a := hspans a (by simp)
  have hcursor := (mem_between.mp hmem).2.1
  obtain ⟨-, htail, hbefore⟩ := List.pairwise_append.mp hdisjoint
  have hafter := (List.pairwise_cons.mp htail).1
  -- asking again among those of the first page gives the same
  have hagain : between lo items (hi a + 1) bound =
      between lo (between lo items cursor bound) (hi a + 1) bound := by
    unfold between
    rw [List.filter_filter]
    refine List.filter_congr fun b _ => ?_
    rw [← Bool.decide_and, decide_eq_decide]
    omega
  rw [hagain, hpage]
  have hnone : between lo page (hi a + 1) bound = [] := by
    refine List.filter_eq_nil_iff.mpr fun b hb => ?_
    have hlt := hbefore b hb a List.mem_cons_self
    have hle := hspans b (by simp [hb])
    simp only [decide_eq_true_eq]
    omega
  have hall : between lo rest (hi a + 1) bound = rest := by
    refine List.filter_eq_self.mpr fun b hb => ?_
    have hin : b ∈ between lo items cursor bound := by rw [hpage]; simp [hb]
    have hlt := hafter b hb
    have hbound := (mem_between.mp hin).2.2
    exact decide_eq_true ⟨hlt, hbound⟩
  have hself : ¬ (hi a + 1 ≤ lo a ∧ lo a ≤ bound) := by omega
  have hsplit : between lo (page ++ a :: rest) (hi a + 1) bound =
      between lo page (hi a + 1) bound ++ between lo rest (hi a + 1) bound := by
    unfold between
    rw [List.filter_append, List.filter_cons_of_neg (by simpa using hself)]
  rw [hsplit, hnone, hall, List.nil_append]

end Bluzing
