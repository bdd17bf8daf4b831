import Bluzing.Core.TimerLinks

/-! Several timer lists (`core/timer/timer.c`) over the timers of one program. -/
namespace Bluzing

structure TimerHeap (κ ι : Type) where
  heads : κ → Option ι
  next : ι → Option ι
  expiryUs : ι → ℕ
  pending : ι → Bool

variable {κ ι : Type}

namespace LinkedTimers
variable {t : LinkedTimers ι} {cur : Cursor ι} {list list' : List ι}

lemma Chain.unique (h : t.Chain cur list) (h' : t.Chain cur list') : list = list' := by
  induction list generalizing cur list' with
  | nil =>
    cases list' with
    | nil => rfl
    | cons j rest => cases h.symm.trans h'.1
  | cons i rest ih =>
    cases list' with
    | nil => cases h'.symm.trans h.1
    | cons j rest' =>
      obtain rfl := Option.some.inj (h.1.symm.trans h'.1)
      rw [ih h.2 h'.2]

variable [DecidableEq ι]

lemma unlink_absent {i : ι} {fuel : ℕ} (h : t.Chain cur list) (hi : i ∉ list)
    (hfuel : list.length < fuel) : t.unlink i fuel cur = some t := by
  induction list generalizing cur fuel with
  | nil =>
    obtain ⟨fuel, rfl⟩ := Nat.exists_eq_add_of_lt hfuel
    simp only [unlink, show t.load cur = none from h]
  | cons j rest ih =>
    obtain ⟨fuel, rfl⟩ : ∃ n, fuel = n + 1 := ⟨fuel - 1, by omega⟩
    obtain ⟨hij, hrest⟩ := not_or.mp (mt List.mem_cons.mpr hi)
    rw [unlink, h.1]
    exact (if_neg (Ne.symm hij)).trans (ih h.2 hrest (Nat.lt_of_succ_lt_succ hfuel))

lemma Chain.truncate {i : ι} {before after : List ι} (h : t.Chain cur (before ++ i :: after))
    (hcur : cur ≠ .next i) (hi : i ∉ before) :
    (t.store (.next i) none).Chain cur (before ++ [i]) := by
  have hload : (t.store (.next i) none).load cur = t.load cur := by
    rw [load_store, if_neg hcur]
  induction before generalizing cur with
  | nil => exact ⟨hload.trans h.1, (load_store ..).trans (if_pos rfl)⟩
  | cons j rest ih =>
    obtain ⟨hij, hrest⟩ := not_or.mp (mt List.mem_cons.mpr hi)
    have hnext : Cursor.next j ≠ .next i := fun heq => hij (Cursor.next.inj heq).symm
    refine ⟨hload.trans h.1, ih h.2 hnext hrest ?_⟩
    rw [load_store, if_neg hnext]

end LinkedTimers

namespace TimerHeap

def view (h : TimerHeap κ ι) (k : κ) : LinkedTimers ι :=
  ⟨h.heads k, h.next, h.expiryUs, h.pending⟩

structure Holds (h : TimerHeap κ ι) (k : κ) (list : List ι) : Prop where
  chain : (h.view k).Chain .head list
  nodup : list.Nodup
  sorted : list.Pairwise fun i j => h.expiryUs i ≤ h.expiryUs j
  pending : ∀ i ∈ list, h.pending i = true

variable [DecidableEq κ] [DecidableEq ι]

def put (h : TimerHeap κ ι) (k : κ) (t : LinkedTimers ι) : TimerHeap κ ι :=
  ⟨Function.update h.heads k t.head, t.next, t.expiryUs, t.pending⟩

def cancel (fuel : ℕ) (h : TimerHeap κ ι) (k : κ) (i : ι) : Option (TimerHeap κ ι) :=
  ((h.view k).cancel fuel i).map (h.put k)

def clear (h : TimerHeap κ ι) (i : ι) : TimerHeap κ ι :=
  { h with next := Function.update h.next i none, pending := Function.update h.pending i false }

/-- A timer that is pending in another list `b` is no longer pending, and `b` ends at it. -/
theorem cancel_foreign {h : TimerHeap κ ι} {a b : κ} {own before after : List ι} {i : ι}
    {fuel : ℕ} (ha : h.Holds a own) (hb : h.Holds b (before ++ i :: after))
    (hdisjoint : own.Disjoint (before ++ i :: after)) (hfuel : own.length < fuel) :
    h.cancel fuel a i = some (h.clear i) ∧ (h.clear i).Holds a own ∧
      (h.clear i).pending i = false ∧
      ∀ list, ((h.clear i).view b).Chain .head list ↔ list = before ++ [i] := by
  have hi : i ∉ own := fun hi => hdisjoint hi (List.mem_append_right _ List.mem_cons_self)
  have hpending := hb.pending i (List.mem_append_right _ List.mem_cons_self)
  have hbefore : i ∉ before := fun hmem =>
    (List.nodup_append.mp hb.nodup).2.2 i hmem i List.mem_cons_self rfl
  have hunlink := LinkedTimers.unlink_absent ha.chain hi hfuel
  refine ⟨?_, ⟨?_, ha.nodup, ha.sorted, ?_⟩, Function.update_self .., fun list => ?_⟩
  · rw [cancel, LinkedTimers.cancel, hunlink]
    simp [view, hpending, LinkedTimers.store, put, clear]
  · have hstore := ha.chain.store LinkedTimers.head_ne_next (LinkedTimers.apart_next hi) none
    exact hstore.congr rfl fun _ _ => rfl
  · intro j hj
    exact (Function.update_of_ne (ne_of_mem_of_not_mem hj hi) ..).trans (ha.pending j hj)
  · have hstore := hb.chain.truncate LinkedTimers.head_ne_next hbefore
    have hchain : ((h.clear i).view b).Chain .head (before ++ [i]) :=
      hstore.congr rfl fun _ _ => rfl
    exact ⟨fun hlist => hlist.unique hchain, fun hlist => hlist ▸ hchain⟩

def twoPending : TimerHeap (Fin 2) (Fin 2) where
  heads k := if k = 1 then some 0 else none
  next i := if i = 0 then some 1 else none
  expiryUs i := if i = 0 then 5 else 7
  pending _ := true

lemma twoPending_holds : twoPending.Holds 0 [] ∧ twoPending.Holds 1 [0, 1] := by
  constructor
  · exact ⟨rfl, List.nodup_nil, .nil, nofun⟩
  · exact ⟨⟨rfl, rfl, rfl⟩, by decide, by decide, by decide⟩

theorem twoPending_cancel :
    twoPending.cancel 1 0 0 = some (twoPending.clear 0) ∧
      ((twoPending.clear 0).view 1).Chain .head [0] :=
  have h := @cancel_foreign _ _ _ _ twoPending 0 1 [] [] [1] 0 1 twoPending_holds.1
    twoPending_holds.2 (List.disjoint_nil_left _) (by decide)
  ⟨h.1, (h.2.2.2 [0]).mpr rfl⟩

theorem twoPending_truncated :
    (twoPending.pending 0, twoPending.next 0) = (true, some 1) ∧
      (twoPending.cancel 1 0 0).map (fun h => (h.pending 0, h.next 0)) = some (false, none) := by
  decide

end TimerHeap

end Bluzing
