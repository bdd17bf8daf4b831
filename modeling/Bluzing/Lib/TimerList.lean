import Mathlib

/-! Lists of pending timers, the earliest expiry first. -/
namespace Bluzing
open List

structure TimerList (ι τ : Type*) [LinearOrder τ] where
  entries : List (ι × τ)
  sorted : entries.Pairwise fun a b => a.2 ≤ b.2
  nodup : (entries.map Prod.fst).Nodup

namespace TimerList
variable {ι τ : Type*} [LinearOrder τ]

def empty : TimerList ι τ := ⟨[], .nil, .nil⟩

def timers (l : TimerList ι τ) : List ι := l.entries.map Prod.fst

instance [DecidableEq ι] [DecidableEq τ] : DecidableEq (TimerList ι τ) := fun a b =>
  decidable_of_iff (a.entries = b.entries) (by cases a; cases b; simp)

def cancel [DecidableEq ι] (l : TimerList ι τ) (i : ι) : TimerList ι τ where
  entries := l.entries.filter fun e => e.1 ≠ i
  sorted := l.sorted.sublist filter_sublist
  nodup := l.nodup.sublist (filter_sublist.map _)

def insert (l : List (ι × τ)) (e : ι × τ) : List (ι × τ) :=
  l.orderedInsert (fun a b => a.2 < b.2) e

lemma insert_sorted {l : List (ι × τ)} (h : l.Pairwise fun a b => a.2 ≤ b.2) (e : ι × τ) :
    (insert l e).Pairwise fun a b => a.2 ≤ b.2 := by
  induction l with
  | nil => exact pairwise_singleton _ e
  | cons b l ih =>
    obtain ⟨hb, hl⟩ := pairwise_cons.mp h
    rw [insert, orderedInsert]
    split
    next hlt =>
      refine pairwise_cons.mpr ⟨forall_mem_cons.mpr ⟨hlt.le, ?_⟩, h⟩
      exact fun c hc => hlt.le.trans (hb c hc)
    next hge =>
      refine pairwise_cons.mpr ⟨fun c hc => ?_, ih hl⟩
      obtain rfl | hc := mem_orderedInsert _ |>.mp hc
      · exact not_lt.mp hge
      · exact hb c hc

lemma insert_perm (l : List (ι × τ)) (e : ι × τ) : (insert l e).Perm (e :: l) :=
  perm_orderedInsert _ e l

section

variable [DecidableEq ι] (l : TimerList ι τ) (i j : ι) (expiry now : τ)

@[simp] lemma mem_timers_cancel : j ∈ (l.cancel i).timers ↔ j ≠ i ∧ j ∈ l.timers := by
  simp only [timers, cancel, mem_map, mem_filter, decide_eq_true_eq]
  constructor
  · rintro ⟨e, ⟨he, hne⟩, rfl⟩
    exact ⟨hne, e, he, rfl⟩
  · rintro ⟨hne, e, he, rfl⟩
    exact ⟨e, ⟨he, hne⟩, rfl⟩

def add : TimerList ι τ where
  entries := insert (l.cancel i).entries (i, expiry)
  sorted := insert_sorted (l.cancel i).sorted _
  nodup := by
    have hp := (insert_perm (l.cancel i).entries (i, expiry)).map Prod.fst
    refine hp.nodup_iff.mpr (nodup_cons.mpr ⟨fun h => ?_, (l.cancel i).nodup⟩)
    exact ((mem_timers_cancel l i i).mp h).1 rfl

@[simp] lemma mem_timers_add : j ∈ (l.add i expiry).timers ↔ j = i ∨ j ∈ l.timers := by
  have hp := (insert_perm (l.cancel i).entries (i, expiry)).map Prod.fst
  have hm : j ∈ (l.add i expiry).timers ↔ j = i ∨ j ∈ (l.cancel i).timers := by
    rw [timers, add, hp.mem_iff, map_cons, mem_cons]
    rfl
  rw [hm, mem_timers_cancel]
  by_cases hj : j = i <;> simp [hj]

end

def expiry? [DecidableEq ι] (l : TimerList ι τ) (i : ι) : Option τ :=
  (l.entries.find? fun e => e.1 = i).map Prod.snd

lemma expiry?_of_mem [DecidableEq ι] {l : TimerList ι τ} {i : ι} {expiry : τ}
    (h : (i, expiry) ∈ l.entries) : l.expiry? i = some expiry := by
  have hfind : ∃ e, l.entries.find? (fun e => e.1 = i) = some e := by
    rw [← Option.isSome_iff_exists, find?_isSome]
    exact ⟨_, h, by simp⟩
  obtain ⟨e, he⟩ := hfind
  have hkey : e.1 = i := by simpa using find?_some he
  have heq := inj_on_of_nodup_map l.nodup (mem_of_find?_eq_some he) h hkey
  rw [expiry?, he, heq]
  rfl

lemma expiry?_add [DecidableEq ι] (l : TimerList ι τ) (i : ι) (expiry : τ) :
    (l.add i expiry).expiry? i = some expiry :=
  expiry?_of_mem ((insert_perm (l.cancel i).entries (i, expiry)).mem_iff.mpr
    (mem_cons_self ..))

def popExpired (l : TimerList ι τ) (now : τ) : Option (ι × TimerList ι τ) :=
  match h : l.entries with
  | [] => none
  | e :: rest =>
      if e.2 ≤ now then
        some (e.1, ⟨rest, (pairwise_cons.mp (h ▸ l.sorted)).2,
          (nodup_cons.mp (map_cons ▸ h ▸ l.nodup)).2⟩)
      else none

lemma popExpired_some {l l' : TimerList ι τ} {now : τ} {i : ι}
    (h : l.popExpired now = some (i, l')) : l.timers = i :: l'.timers := by
  unfold popExpired at h
  split at h
  · cases h
  next e rest he =>
    split at h
    · cases h
      exact congrArg (map Prod.fst) he
    · cases h

lemma popExpired_due [DecidableEq ι] {l l' : TimerList ι τ} {now expiry : τ} {i : ι}
    (h : l.popExpired now = some (i, l')) (hi : l.expiry? i = some expiry) : expiry ≤ now := by
  unfold popExpired at h
  split at h
  · cases h
  next e rest he =>
    split at h
    next hdue =>
      cases h
      have hmem : (e.1, e.2) ∈ l.entries := by
        rw [he]
        exact mem_cons_self ..
      rw [expiry?_of_mem hmem] at hi
      exact Option.some.inj hi ▸ hdue
    · cases h

end TimerList

end Bluzing
