import Bluzing.Lib.TimerList

/-! The timer lists of `core/timer/timer.c`: every timer has an expiry and a flag that says whether
it is pending, and the pending ones are linked in a list. -/
namespace Bluzing
open List

structure Timers (ι : Type) where
  list : List ι
  expiryUs : ι → ℕ
  pending : ι → Bool

namespace Timers
variable {ι : Type}

def init : Timers ι := ⟨[], fun _ => 0, fun _ => false⟩

def link (expiryUs : ι → ℕ) (i : ι) (expiry : ℕ) : List ι → List ι
  | [] => [i]
  | j :: rest =>
      if expiryUs j ≤ expiry then j :: link expiryUs i expiry rest else i :: j :: rest

section

variable [DecidableEq ι]

def cancel (t : Timers ι) (i : ι) : Timers ι :=
  if !t.pending i then t
  else { t with list := t.list.erase i, pending := Function.update t.pending i false }

def add (t : Timers ι) (i : ι) (expiry : ℕ) : Timers ι :=
  let t := t.cancel i
  let expiryUs := Function.update t.expiryUs i expiry
  ⟨link expiryUs i expiry t.list, expiryUs, Function.update t.pending i true⟩

def popExpired (t : Timers ι) (now : ℕ) : Option (ι × Timers ι) :=
  match t.list with
  | [] => none
  | i :: rest =>
      if t.expiryUs i > now then none
      else some (i, { t with list := rest, pending := Function.update t.pending i false })

end

structure Represents (t : Timers ι) (l : TimerList ι ℕ) : Prop where
  entries : l.entries = t.list.map fun i => (i, t.expiryUs i)
  pending : ∀ i, t.pending i = true ↔ i ∈ t.list

section

variable {t : Timers ι} {l : TimerList ι ℕ}

lemma Represents.timers (h : t.Represents l) : l.timers = t.list := by
  rw [TimerList.timers, h.entries, map_map]
  exact map_id t.list

lemma Represents.sound (h : t.Represents l) :
    t.list.Nodup ∧ t.list.Pairwise (fun i j => t.expiryUs i ≤ t.expiryUs j) ∧
      ∀ i, t.pending i = true ↔ i ∈ t.list := by
  refine ⟨h.timers ▸ l.nodup, ?_, h.pending⟩
  have hsorted := l.sorted
  rw [h.entries, pairwise_map] at hsorted
  exact hsorted

lemma init_represents : (init : Timers ι).Represents .empty :=
  ⟨rfl, fun i => by simp [init]⟩

lemma link_entries {expiryUs : ι → ℕ} {i : ι} {expiry : ℕ} (hi : expiryUs i = expiry)
    (list : List ι) : (link expiryUs i expiry list).map (fun j => (j, expiryUs j)) =
      TimerList.insert (list.map fun j => (j, expiryUs j)) (i, expiry) := by
  induction list with
  | nil => simp [link, TimerList.insert, hi]
  | cons j rest ih =>
    rw [link, map_cons, TimerList.insert, orderedInsert]
    split
    next hle => rw [if_neg (Nat.not_lt.mpr hle), map_cons, ih, TimerList.insert]
    next hgt => rw [if_pos (Nat.lt_of_not_le hgt), map_cons, map_cons, hi]

lemma mem_link {expiryUs : ι → ℕ} {i j : ι} {expiry : ℕ} {list : List ι} :
    j ∈ link expiryUs i expiry list ↔ j = i ∨ j ∈ list := by
  induction list with
  | nil => simp [link]
  | cons k rest ih =>
    rw [link]
    split
    · rw [mem_cons, ih, mem_cons]
      tauto
    · rw [mem_cons]

variable [DecidableEq ι]

lemma Represents.cancel (h : t.Represents l) (i : ι) : (t.cancel i).Represents (l.cancel i) := by
  have hnodup : t.list.Nodup := h.sound.1
  have hentries : (l.cancel i).entries =
      (t.list.filter fun j => j ≠ i).map fun j => (j, t.expiryUs j) := by
    change l.entries.filter _ = _
    rw [h.entries, filter_map]
    rfl
  unfold Timers.cancel
  split
  next hp =>
    have hmem : i ∉ t.list := fun hi => by simp [(h.pending i).mpr hi] at hp
    refine ⟨?_, h.pending⟩
    rw [hentries, filter_eq_self.mpr]
    exact fun j hj => decide_eq_true fun hji => hmem (hji ▸ hj)
  · constructor
    · rw [hentries, hnodup.erase_eq_filter]
      refine congrArg _ (filter_congr fun j _ => ?_)
      by_cases hj : j = i <;> simp [hj]
    · intro j
      rw [hnodup.mem_erase_iff]
      by_cases hj : j = i <;> simp [hj, h.pending]

lemma Represents.add (h : t.Represents l) (i : ι) (expiry : ℕ) :
    (t.add i expiry).Represents (l.add i expiry) := by
  have hc := h.cancel i
  have hmem : i ∉ (t.cancel i).list := by
    rw [← hc.timers, TimerList.mem_timers_cancel]
    exact fun hi => hi.1 rfl
  constructor
  · change TimerList.insert (l.cancel i).entries (i, expiry) = _
    rw [Timers.add, link_entries (Function.update_self ..), hc.entries]
    refine congrArg (TimerList.insert · (i, expiry)) (map_congr_left fun j hj => ?_)
    have hji : j ≠ i := fun hji => hmem (hji ▸ hj)
    rw [Function.update_of_ne hji]
  · intro j
    rw [Timers.add, mem_link, ← hc.pending]
    by_cases hj : j = i <;> simp [hj]

lemma Represents.popExpired (h : t.Represents l) (now : ℕ) :
    (t.popExpired now = none ∧ l.popExpired now = none) ∨
    ∃ i t' l', t.popExpired now = some (i, t') ∧ l.popExpired now = some (i, l') ∧
      t'.Represents l' := by
  have hentries := h.entries
  unfold Timers.popExpired TimerList.popExpired
  split
  next hnil =>
    rw [hnil, map_nil] at hentries
    refine .inl ⟨rfl, ?_⟩
    split
    · rfl
    next hcons => cases hentries.symm.trans hcons
  next i rest hcons =>
    rw [hcons, map_cons] at hentries
    have hnodup := hcons ▸ h.sound.1
    split
    next hlate =>
      refine .inl ⟨rfl, ?_⟩
      split
      · rfl
      next e rest' hl =>
        obtain ⟨rfl, -⟩ := cons.inj (hentries.symm.trans hl)
        rw [if_neg (Nat.not_le.mpr hlate)]
    next hdue =>
      split
      next hl => cases hentries.symm.trans hl
      next e rest' hl =>
        obtain ⟨rfl, rfl⟩ := cons.inj (hentries.symm.trans hl)
        refine .inr ⟨i, _, _, rfl, if_pos (Nat.le_of_not_lt hdue), rfl, fun j => ?_⟩
        have hj := h.pending j
        rw [hcons, mem_cons] at hj
        by_cases hji : j = i
        · subst hji
          simp [(nodup_cons.mp hnodup).1]
        · simp [hji, hj]

lemma exists_expiry {entries : List (ι × ℕ)} (h : (entries.map Prod.fst).Nodup) :
    ∃ expiryUs : ι → ℕ, entries = (entries.map Prod.fst).map fun i => (i, expiryUs i) := by
  induction entries with
  | nil => exact ⟨fun _ => 0, rfl⟩
  | cons e entries ih =>
    obtain ⟨hmem, hnodup⟩ := nodup_cons.mp h
    obtain ⟨expiryUs, hentries⟩ := ih hnodup
    refine ⟨Function.update expiryUs e.1 e.2, ?_⟩
    rw [map_cons, map_cons, Function.update_self]
    refine congrArg (e :: ·) (hentries.trans (map_congr_left fun i hi => ?_))
    have hne : i ≠ e.1 := fun hie => hmem (hie ▸ hi)
    rw [Function.update_of_ne hne]

lemma exists_represents (l : TimerList ι ℕ) : ∃ t : Timers ι, t.Represents l := by
  obtain ⟨expiryUs, hentries⟩ := exists_expiry l.nodup
  exact ⟨⟨l.timers, expiryUs, fun i => i ∈ l.timers⟩, hentries, fun i => decide_eq_true_iff⟩

end

end Timers

end Bluzing
