import Bluzing.Core.Timer

/-! The links of the timer lists of `core/timer/timer.c`. -/
namespace Bluzing
open Function (update update_apply)

inductive Cursor (ι : Type) where
  | head
  | next (i : ι)
  deriving DecidableEq

structure LinkedTimers (ι : Type) where
  head : Option ι
  next : ι → Option ι
  expiryUs : ι → ℕ
  pending : ι → Bool

namespace LinkedTimers
variable {ι : Type}

def init : LinkedTimers ι := ⟨none, fun _ => none, fun _ => 0, fun _ => false⟩

def load (t : LinkedTimers ι) : Cursor ι → Option ι
  | .head => t.head
  | .next i => t.next i

def seek (t : LinkedTimers ι) (expiry : ℕ) : ℕ → Cursor ι → Option (Cursor ι)
  | 0, _ => none
  | fuel + 1, cur =>
      match t.load cur with
      | none => some cur
      | some j => if t.expiryUs j ≤ expiry then t.seek expiry fuel (.next j) else some cur

def nextExpiry (t : LinkedTimers ι) : ℕ :=
  match t.head with
  | none => 2 ^ 64 - 1
  | some i => t.expiryUs i

variable [DecidableEq ι]

def store (t : LinkedTimers ι) (cur : Cursor ι) (value : Option ι) : LinkedTimers ι :=
  match cur with
  | .head => { t with head := value }
  | .next i => { t with next := update t.next i value }

def unlink (t : LinkedTimers ι) (i : ι) : ℕ → Cursor ι → Option (LinkedTimers ι)
  | 0, _ => none
  | fuel + 1, cur =>
      match t.load cur with
      | none => some t
      | some j => if j = i then some (t.store cur (t.next i)) else t.unlink i fuel (.next j)

def cancel (fuel : ℕ) (t : LinkedTimers ι) (i : ι) : Option (LinkedTimers ι) :=
  if !t.pending i then some t
  else do
    let t ← t.unlink i fuel .head
    return { t with pending := update t.pending i false }.store (.next i) none

def add (fuel : ℕ) (t : LinkedTimers ι) (i : ι) (expiry : ℕ) : Option (LinkedTimers ι) := do
  let t ← t.cancel fuel i
  let t := { t with
    expiryUs := update t.expiryUs i expiry
    pending := update t.pending i true }
  let cur ← t.seek expiry fuel .head
  return (t.store (.next i) (t.load cur)).store cur (some i)

def popExpired (t : LinkedTimers ι) (now : ℕ) : Option ι × LinkedTimers ι :=
  match t.head with
  | none => (none, t)
  | some i =>
      if t.expiryUs i > now then (none, t)
      else
        let t := { t with head := t.next i }.store (.next i) none
        (some i, { t with pending := update t.pending i false })

omit [DecidableEq ι] in
def Chain (t : LinkedTimers ι) : Cursor ι → List ι → Prop
  | cur, [] => t.load cur = none
  | cur, i :: rest => t.load cur = some i ∧ t.Chain (.next i) rest

def Apart (cur : Cursor ι) (list : List ι) : Prop := ∀ i ∈ list, cur ≠ .next i

section

variable {t t' : LinkedTimers ι} {cur c : Cursor ι} {list : List ι} {i : ι}

omit [DecidableEq ι] in
lemma Apart.cons (h : Apart cur (i :: list)) : cur ≠ .next i ∧ Apart cur list :=
  List.forall_mem_cons.mp h

omit [DecidableEq ι] in
lemma head_ne_next : Cursor.head ≠ .next i := fun h => nomatch h

omit [DecidableEq ι] in
lemma apart_head : Apart .head list := fun _ _ => head_ne_next

omit [DecidableEq ι] in
lemma apart_next (h : i ∉ list) : Apart (.next i) list := by
  rintro j hj heq
  cases heq
  exact h hj

lemma load_store (t : LinkedTimers ι) (c cur : Cursor ι) (value : Option ι) :
    (t.store c value).load cur = if cur = c then value else t.load cur := by
  cases c <;> cases cur <;> simp [store, load, update_apply]

@[simp] lemma store_expiryUs (t : LinkedTimers ι) (c : Cursor ι) (value : Option ι) :
    (t.store c value).expiryUs = t.expiryUs := by
  cases c <;> rfl

@[simp] lemma store_pending (t : LinkedTimers ι) (c : Cursor ι) (value : Option ι) :
    (t.store c value).pending = t.pending := by
  cases c <;> rfl

omit [DecidableEq ι] in
lemma Chain.congr (h : t.Chain cur list) (hstart : t'.load cur = t.load cur)
    (hnext : ∀ i ∈ list, t'.next i = t.next i) : t'.Chain cur list := by
  induction list generalizing cur with
  | nil => exact hstart.trans h
  | cons i rest ih =>
    obtain ⟨hi, hrest⟩ := List.forall_mem_cons.mp hnext
    exact ⟨hstart.trans h.1, ih h.2 hi hrest⟩

lemma Chain.store (h : t.Chain cur list) (hc : cur ≠ c) (hlist : Apart c list)
    (value : Option ι) : (t.store c value).Chain cur list := by
  refine h.congr (by rw [load_store, if_neg hc]) fun i hi => ?_
  have hload := load_store t c (.next i) value
  rwa [if_neg (hlist i hi).symm] at hload

lemma Chain.relink (h : t.Chain c list) (hlist : Apart cur list) :
    (t.store cur (t.load c)).Chain cur list := by
  cases list with
  | nil => exact (load_store ..).trans ((if_pos rfl).trans h)
  | cons i rest =>
    obtain ⟨hi, hrest⟩ := hlist.cons
    exact ⟨(load_store ..).trans ((if_pos rfl).trans h.1), h.2.store hi.symm hrest _⟩

lemma unlink_chain {fuel : ℕ} (h : t.Chain cur list) (hnodup : list.Nodup)
    (hcur : Apart cur list) (hfuel : list.length < fuel) :
    ∃ t', t.unlink i fuel cur = some t' ∧ t'.Chain cur (list.erase i) ∧
      t'.expiryUs = t.expiryUs ∧ t'.pending = t.pending ∧
      ∀ c, c ≠ cur → Apart c list → t'.load c = t.load c := by
  induction list generalizing cur fuel with
  | nil =>
    obtain ⟨fuel, rfl⟩ := Nat.exists_eq_add_of_lt hfuel
    exact ⟨t, by simp only [unlink, show t.load cur = none from h], h, rfl, rfl, fun _ _ _ => rfl⟩
  | cons j rest ih =>
    obtain ⟨hj, hrest⟩ := List.nodup_cons.mp hnodup
    obtain ⟨hcurj, hcurrest⟩ := hcur.cons
    obtain ⟨fuel, rfl⟩ : ∃ n, fuel = n + 1 := ⟨fuel - 1, by omega⟩
    rw [unlink, h.1]
    by_cases hji : j = i
    · subst hji
      refine ⟨_, if_pos rfl, ?_, store_expiryUs .., store_pending .., fun c hc _ => ?_⟩
      · rw [List.erase_cons_head]
        exact h.2.relink hcurrest
      · rw [load_store, if_neg hc]
    · obtain ⟨t', hunlink, hchain, hexpiry, hpending, hframe⟩ :=
        ih h.2 hrest (apart_next hj) (Nat.lt_of_succ_lt_succ hfuel)
      refine ⟨t', (if_neg hji).trans hunlink, ?_, hexpiry, hpending, fun c hc hapart => ?_⟩
      · rw [List.erase_cons_tail (by simpa using hji)]
        exact ⟨(hframe cur hcurj hcurrest).trans h.1, hchain⟩
      · exact hframe c hapart.cons.1 hapart.cons.2

lemma seek_chain {fuel : ℕ} (expiry : ℕ) (h : t.Chain cur list) (hnodup : list.Nodup)
    (hcur : Apart cur list) (hi : i ∉ list) (hne : cur ≠ .next i) (hfuel : list.length < fuel) :
    ∃ c, t.seek expiry fuel cur = some c ∧ (c = cur ∨ ∃ j ∈ list, c = .next j) ∧
      ((t.store (.next i) (t.load c)).store c (some i)).Chain cur
        (Timers.link t.expiryUs i expiry list) := by
  -- The loop stops at `cur`, and what follows hangs on the new timer.
  have hstop : ((t.store (.next i) (t.load cur)).store cur (some i)).Chain cur (i :: list) :=
    ⟨(load_store ..).trans (if_pos rfl), (h.relink (apart_next hi)).store hne.symm hcur _⟩
  induction list generalizing cur fuel with
  | nil =>
    obtain ⟨fuel, rfl⟩ := Nat.exists_eq_add_of_lt hfuel
    exact ⟨cur, by simp only [seek, show t.load cur = none from h], .inl rfl, hstop⟩
  | cons j rest ih =>
    obtain ⟨hj, hrest⟩ := List.nodup_cons.mp hnodup
    obtain ⟨hij, hirest⟩ := not_or.mp (mt List.mem_cons.mpr hi)
    obtain ⟨hcurj, hcurrest⟩ := hcur.cons
    obtain ⟨fuel, rfl⟩ : ∃ n, fuel = n + 1 := ⟨fuel - 1, by omega⟩
    rw [seek, h.1, Timers.link]
    by_cases hle : t.expiryUs j ≤ expiry
    · have hnext : Cursor.next j ≠ .next i := fun heq => hij (Cursor.next.inj heq).symm
      have hapart := apart_next hj
      obtain ⟨c, hseek, hc, hchain⟩ :=
        ih h.2 hrest hapart hirest hnext (Nat.lt_of_succ_lt_succ hfuel)
          ⟨(load_store ..).trans (if_pos rfl),
            (h.2.relink (apart_next hirest)).store hnext.symm hapart _⟩
      have hcc : cur ≠ c := by
        rcases hc with rfl | ⟨k, hk, rfl⟩
        · exact hcurj
        · exact hcurrest k hk
      refine ⟨c, (if_pos hle).trans hseek, .inr ?_, ?_⟩
      · rcases hc with rfl | ⟨k, hk, rfl⟩
        · exact ⟨j, List.mem_cons_self .., rfl⟩
        · exact ⟨k, List.mem_cons_of_mem j hk, rfl⟩
      · rw [if_pos hle]
        refine ⟨?_, hchain⟩
        rw [load_store, if_neg hcc, load_store, if_neg hne, h.1]
    · refine ⟨cur, if_neg hle, .inl rfl, ?_⟩
      rw [if_neg hle]
      exact hstop

end

structure Links (t : LinkedTimers ι) (s : Timers ι) : Prop where
  chain : t.Chain .head s.list
  expiryUs : t.expiryUs = s.expiryUs
  pending : t.pending = s.pending

section

variable {t : LinkedTimers ι} {s : Timers ι} {fuel : ℕ}

omit [DecidableEq ι] in
lemma init_links : (init : LinkedTimers ι).Links .init := ⟨rfl, rfl, rfl⟩

lemma Links.cancel (h : t.Links s) (hnodup : s.list.Nodup) (hfuel : s.list.length < fuel)
    (i : ι) : ∃ t', t.cancel fuel i = some t' ∧ t'.Links (s.cancel i) := by
  unfold LinkedTimers.cancel Timers.cancel
  rw [h.pending]
  by_cases hp : s.pending i
  · obtain ⟨t', hunlink, hchain, hexpiry, hpending, -⟩ :=
      unlink_chain (i := i) h.chain hnodup apart_head hfuel
    have hi : i ∉ s.list.erase i := hnodup.not_mem_erase
    simp only [hp, Bool.not_true, Bool.false_eq_true, if_false, hunlink, Option.bind_eq_bind,
      Option.bind_some]
    refine ⟨_, rfl, ?_, ?_, ?_⟩
    · exact (hchain.store (c := .next i) head_ne_next (apart_next hi) none).congr rfl
        fun _ _ => rfl
    · rw [store_expiryUs, hexpiry, h.expiryUs]
    · rw [store_pending, hpending, h.pending]
  · simp only [hp, Bool.not_false, if_true]
    exact ⟨t, rfl, h⟩

lemma Links.add {l : TimerList ι ℕ} (h : t.Links s) (hs : s.Represents l)
    (hfuel : s.list.length < fuel) (i : ι) (expiry : ℕ) :
    ∃ t', t.add fuel i expiry = some t' ∧ t'.Links (s.add i expiry) := by
  have hc := hs.cancel i
  have hi : i ∉ (s.cancel i).list := by
    rw [← hc.timers, TimerList.mem_timers_cancel]
    exact fun hi => hi.1 rfl
  have hlen : (s.cancel i).list.length < fuel := by
    refine lt_of_le_of_lt ?_ hfuel
    unfold Timers.cancel
    split
    · exact Nat.le_refl _
    · exact List.length_erase_le
  obtain ⟨t₁, hcancel, hlinks⟩ := h.cancel hs.sound.1 hfuel i
  let t₂ := { t₁ with
    expiryUs := update t₁.expiryUs i expiry
    pending := update t₁.pending i true }
  have hchain : t₂.Chain .head (s.cancel i).list := hlinks.chain.congr rfl fun _ _ => rfl
  obtain ⟨c, hseek, -, hlinked⟩ := seek_chain (i := i) expiry hchain hc.sound.1
    apart_head hi head_ne_next hlen
  refine ⟨(t₂.store (.next i) (t₂.load c)).store c (some i), ?_, ?_, ?_, ?_⟩
  · rw [LinkedTimers.add, hcancel]
    simp only [Option.bind_eq_bind, Option.bind_some]
    rw [show t₂.seek expiry fuel .head = some c from hseek]
    rfl
  · have hexpiry : t₂.expiryUs = update (s.cancel i).expiryUs i expiry :=
      congrArg (update · i expiry) hlinks.expiryUs
    rw [hexpiry] at hlinked
    exact hlinked
  · rw [store_expiryUs, store_expiryUs]
    exact congrArg (update · i expiry) hlinks.expiryUs
  · rw [store_pending, store_pending]
    exact congrArg (update · i true) hlinks.pending

lemma Links.popExpired (h : t.Links s) (hnodup : s.list.Nodup) (now : ℕ) :
    (t.popExpired now = (none, t) ∧ s.popExpired now = none) ∨
    ∃ i t' s', t.popExpired now = (some i, t') ∧ s.popExpired now = some (i, s') ∧
      t'.Links s' := by
  have hchain := h.chain
  unfold LinkedTimers.popExpired Timers.popExpired
  cases hlist : s.list with
  | nil =>
    rw [hlist] at hchain
    rw [show t.head = none from hchain]
    exact .inl ⟨rfl, rfl⟩
  | cons i rest =>
    rw [hlist] at hchain hnodup
    rw [show t.head = some i from hchain.1]
    have hexpiry := congrFun h.expiryUs i
    by_cases hlate : s.expiryUs i > now
    · exact .inl ⟨if_pos (hexpiry ▸ hlate), if_pos hlate⟩
    · have hrest := hchain.2.relink apart_head
      refine .inr ⟨i, _, _, if_neg (hexpiry ▸ hlate), if_neg hlate, ?_, h.expiryUs, ?_⟩
      · exact (hrest.store (c := .next i) head_ne_next
          (apart_next (List.nodup_cons.mp hnodup).1) none).congr rfl fun _ _ => rfl
      · exact congrArg (update · i false) h.pending

end

end LinkedTimers

end Bluzing
