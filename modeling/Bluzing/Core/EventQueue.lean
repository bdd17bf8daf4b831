import Mathlib

/-! The intrusive queues of `core/event/queue.c`: the links are in the nodes, and several queues
share the nodes. -/
namespace Bluzing
open Function List

structure EventQueue (ι : Type) where
  head : Option ι
  tail : Option ι

/-- The queues `κ` and the `next` pointers of the nodes `ι`. -/
structure EventQueues (κ ι : Type) where
  queue : κ → EventQueue ι
  next : ι → Option ι

inductive QueueOp (κ ι : Type) where
  | push (k : κ) (node : ι)
  | pop (k : κ)

namespace EventQueues
variable {κ ι : Type}

def init : EventQueues κ ι := ⟨fun _ => ⟨none, none⟩, fun _ => none⟩

def Chain (next : ι → Option ι) : Option ι → List ι → Prop
  | head, [] => head = none
  | head, node :: rest => head = some node ∧ Chain next (next node) rest

variable {next next' : ι → Option ι} {head : Option ι} {list : List ι} {node last : ι}

lemma Chain.congr (h : Chain next head list) (hnext : ∀ i ∈ list, next' i = next i) :
    Chain next' head list := by
  induction list generalizing head with
  | nil => exact h
  | cons i list ih =>
    obtain ⟨hi, hlist⟩ := forall_mem_cons.mp hnext
    refine ⟨h.1, ?_⟩
    rw [hi]
    exact ih h.2 hlist

lemma Chain.snoc (h : Chain next head list) (hlast : list.getLast? = some last)
    (hnodup : list.Nodup) (hnext : ∀ i ∈ list, i ≠ last → next' i = next i)
    (hto : next' last = some node) (hend : next' node = none) :
    Chain next' head (list ++ [node]) := by
  induction list generalizing head with
  | nil => cases hlast
  | cons i list ih =>
    obtain ⟨hi, hlist⟩ := forall_mem_cons.mp hnext
    obtain ⟨hnot, hnodup⟩ := nodup_cons.mp hnodup
    refine ⟨h.1, ?_⟩
    cases list with
    | nil =>
      obtain rfl : i = last := Option.some.inj hlast
      exact ⟨hto, hend⟩
    | cons j list =>
      rw [getLast?_cons_cons] at hlast
      have hne : i ≠ last := fun heq => hnot (heq ▸ mem_of_getLast? hlast)
      rw [hi hne]
      exact ih h.2 hlast hnodup hlist

lemma Chain.eq_none_iff (h : Chain next head list) : head = none ↔ list = [] := by
  cases list with
  | nil => exact ⟨fun _ => rfl, fun _ => h⟩
  | cons i list => simp [h.1]

variable [DecidableEq κ] [DecidableEq ι]

def push (s : EventQueues κ ι) (k : κ) (node : ι) : EventQueues κ ι :=
  let next := update s.next node none
  match (s.queue k).tail with
  | some last => ⟨update s.queue k { s.queue k with tail := node }, update next last (some node)⟩
  | none => ⟨update s.queue k ⟨node, node⟩, next⟩

def pop (s : EventQueues κ ι) (k : κ) : Option ι × EventQueues κ ι :=
  match (s.queue k).head with
  | none => (none, s)
  | some node =>
      let tail := if s.next node = none then none else (s.queue k).tail
      (some node, ⟨update s.queue k ⟨s.next node, tail⟩, update s.next node none⟩)

/-- The state and what the pops have returned. -/
def step (r : EventQueues κ ι × List (Option ι)) : QueueOp κ ι → EventQueues κ ι × List (Option ι)
  | .push k node => (r.1.push k node, r.2)
  | .pop k => ((r.1.pop k).2, r.2 ++ [(r.1.pop k).1])

def run (ops : List (QueueOp κ ι)) : EventQueues κ ι × List (Option ι) := ops.foldl step (init, [])

/-- What the queues are for: a list for each of them. -/
def stepLists (r : (κ → List ι) × List (Option ι)) :
    QueueOp κ ι → (κ → List ι) × List (Option ι)
  | .push k node => (update r.1 k (r.1 k ++ [node]), r.2)
  | .pop k => (update r.1 k (r.1 k).tail, r.2 ++ [(r.1 k).head?])

def runLists (ops : List (QueueOp κ ι)) : (κ → List ι) × List (Option ι) :=
  ops.foldl stepLists (fun _ => [], [])

structure Holds (s : EventQueues κ ι) (lists : κ → List ι) : Prop where
  chain : ∀ k, Chain s.next (s.queue k).head (lists k)
  tail : ∀ k, (s.queue k).tail = (lists k).getLast?
  nodup : ∀ k, (lists k).Nodup
  apart : ∀ k k', k ≠ k' → (lists k).Disjoint (lists k')

variable {s : EventQueues κ ι} {lists : κ → List ι} {k : κ}

lemma Holds.push (h : Holds s lists) (hfresh : ∀ k', node ∉ lists k') :
    Holds (s.push k node) (update lists k (lists k ++ [node])) := by
  have hne {i : ι} {k' : κ} (hi : i ∈ lists k') : i ≠ node := fun heq => hfresh k' (heq ▸ hi)
  refine ⟨fun k' => ?_, fun k' => ?_, fun k' => ?_, fun k₁ k₂ hk => ?_⟩
  · unfold EventQueues.push
    by_cases hk : k' = k
    · subst hk
      cases htail : (s.queue k').tail with
      | none =>
        have hnil : lists k' = [] := getLast?_eq_none_iff.mp ((h.tail k').symm.trans htail)
        simp [hnil, Chain]
      | some last =>
        have hlast := (h.tail k').symm.trans htail
        have hmem := mem_of_getLast? hlast
        simp only [update_self]
        refine (h.chain k').snoc hlast (h.nodup k') (fun i hi hi' => ?_) (update_self ..) ?_
        · rw [update_of_ne hi', update_of_ne (hne hi)]
        · rw [update_of_ne (hne hmem).symm, update_self]
    · rw [update_of_ne hk]
      cases htail : (s.queue k).tail with
      | none =>
        simp only [update_of_ne hk]
        exact (h.chain k').congr fun i hi => update_of_ne (hne hi) ..
      | some last =>
        have hmem := mem_of_getLast? ((h.tail k).symm.trans htail)
        simp only [update_of_ne hk]
        refine (h.chain k').congr fun i hi => ?_
        have hlast : i ≠ last := fun heq => h.apart k' k hk hi (heq ▸ hmem)
        rw [update_of_ne hlast, update_of_ne (hne hi)]
  · unfold EventQueues.push
    by_cases hk : k' = k
    · subst hk
      cases (s.queue k').tail <;> simp
    · cases (s.queue k).tail <;> simp [update_of_ne hk, h.tail k']
  · by_cases hk : k' = k
    · subst hk
      simpa [nodup_append, h.nodup k'] using fun i hi => hne hi
    · rw [update_of_ne hk]
      exact h.nodup k'
  · simp only [update_apply]
    split_ifs with h₁ h₂ h₂
    · exact absurd (h₁.trans h₂.symm) hk
    · subst h₁
      simpa [disjoint_append_left, hfresh k₂] using h.apart _ _ hk
    · subst h₂
      simpa [disjoint_append_right, hfresh k₁] using h.apart _ _ hk
    · exact h.apart _ _ hk

lemma Holds.pop (h : Holds s lists) (k : κ) :
    (s.pop k).1 = (lists k).head? ∧ Holds (s.pop k).2 (update lists k (lists k).tail) := by
  have hchain := h.chain k
  cases hlist : lists k with
  | nil =>
    rw [hlist] at hchain
    have hpop : s.pop k = (none, s) := by
      rw [EventQueues.pop, show (s.queue k).head = none from hchain]
    rw [hpop, tail_nil, ← hlist, update_eq_self]
    exact ⟨by rw [hlist]; rfl, h⟩
  | cons node rest =>
    rw [hlist] at hchain
    obtain ⟨hhead, hrest⟩ := hchain
    have hnodup := h.nodup k
    rw [hlist, nodup_cons] at hnodup
    have hpop : s.pop k = (some node, ⟨update s.queue k
        ⟨s.next node, if s.next node = none then none else (s.queue k).tail⟩,
          update s.next node none⟩) := by rw [EventQueues.pop, hhead]
    rw [hpop]
    refine ⟨rfl, fun k' => ?_, fun k' => ?_, fun k' => ?_, fun k₁ k₂ hk => ?_⟩
    · by_cases hk : k' = k
      · subst hk
        simp only [update_self]
        refine hrest.congr fun i hi => update_of_ne ?_ ..
        rintro rfl
        exact hnodup.1 hi
      · simp only [update_of_ne hk]
        refine (h.chain k').congr fun i hi => update_of_ne (fun heq => ?_) ..
        exact h.apart k' k hk hi (by rw [hlist, heq]; exact mem_cons_self)
    · by_cases hk : k' = k
      · subst hk
        simp only [update_self, hrest.eq_none_iff, h.tail k', hlist, tail_cons]
        cases rest with
        | nil => rfl
        | cons j rest => rw [if_neg (cons_ne_nil _ _), getLast?_cons_cons]
      · simp only [update_of_ne hk]
        exact h.tail k'
    · by_cases hk : k' = k
      · subst hk
        rw [update_self]
        exact hnodup.2
      · rw [update_of_ne hk]
        exact h.nodup k'
    · have hsub (k' : κ) : update lists k rest k' ⊆ lists k' := by
        by_cases hk' : k' = k
        · subst hk'
          rw [update_self, hlist]
          exact subset_cons_self _ _
        · rw [update_of_ne hk']
          exact Subset.refl _
      exact disjoint_of_subset_left (hsub k₁) (disjoint_of_subset_right (hsub k₂) (h.apart _ _ hk))

/-- No node is pushed while it is in a queue. -/
def Fresh : (κ → List ι) → List (QueueOp κ ι) → Prop
  | _, [] => True
  | lists, .push k node :: ops =>
      (∀ k', node ∉ lists k') ∧ Fresh (update lists k (lists k ++ [node])) ops
  | lists, .pop k :: ops => Fresh (update lists k (lists k).tail) ops

lemma Holds.foldl (h : Holds s lists) {ops : List (QueueOp κ ι)} (hfresh : Fresh lists ops)
    (popped : List (Option ι)) :
    (ops.foldl step (s, popped)).2 = (ops.foldl stepLists (lists, popped)).2 ∧
      Holds (ops.foldl step (s, popped)).1 (ops.foldl stepLists (lists, popped)).1 := by
  induction ops generalizing s lists popped with
  | nil => exact ⟨rfl, h⟩
  | cons op ops ih =>
    rw [foldl_cons, foldl_cons]
    cases op with
    | push k node => exact ih (h.push hfresh.1) hfresh.2 popped
    | pop k =>
      obtain ⟨hhead, hpop⟩ := h.pop k
      rw [step, stepLists, hhead]
      exact ih hpop hfresh _

/-- In every sequence of operations in which no node is pushed while it is in a queue, the pops
return what those of lists return, and afterwards the links of each queue are its list. -/
theorem run_fifo (ops : List (QueueOp κ ι)) (hfresh : Fresh (fun _ => []) ops) :
    (run ops).2 = (runLists ops).2 ∧ Holds (run ops).1 (runLists ops).1 := by
  have hinit : Holds (init : EventQueues κ ι) fun _ => [] :=
    ⟨fun _ => rfl, fun _ => rfl, fun _ => nodup_nil, fun _ _ _ => disjoint_nil_left _⟩
  exact hinit.foldl hfresh []

/-- A node that moves from one queue to another. -/
def moved : List (QueueOp Bool ℕ) := [.push false 1, .push false 2, .pop false, .push true 1,
  .pop true, .pop false, .pop false]

theorem moved_fifo : Fresh (fun _ => []) moved ∧
    (run moved).2 = [some 1, some 1, some 2, none] := by
  have hfresh : Fresh (fun _ => []) moved := ⟨by decide, by decide, by decide, trivial⟩
  exact ⟨hfresh, (run_fifo moved hfresh).1.trans (by decide)⟩

end EventQueues

end Bluzing
