import Bluzing.Lib.History
import Bluzing.Core.TimerLinks

/-! Sequences of calls on a timer list (`core/timer/timer.c`). -/
namespace Bluzing
open Function (update update_of_ne update_self update_idem)
open List

inductive TimerCall (ι : Type) where
  | add (i : ι) (expiry : ℕ)
  | cancel (i : ι)
  | popExpired (now : ℕ)
  deriving DecidableEq

abbrev TimerEvent (ι : Type) := TimerCall ι × Option ι

namespace LinkedTimers
variable {ι : Type} [DecidableEq ι]

def call (fuel : ℕ) (t : LinkedTimers ι) : TimerCall ι → Option (Option ι × LinkedTimers ι)
  | .add i expiry => (t.add fuel i expiry).map (none, ·)
  | .cancel i => (t.cancel fuel i).map (none, ·)
  | .popExpired now => some (t.popExpired now)

def next? (fuel : ℕ) (s : LinkedTimers ι × List (TimerEvent ι)) (c : TimerCall ι) :
    Option (LinkedTimers ι × List (TimerEvent ι)) :=
  (s.1.call fuel c).map fun r => (r.2, (c, r.1) :: s.2)

def run (fuel : ℕ) (calls : List (TimerCall ι)) :
    Option (LinkedTimers ι × List (TimerEvent ι)) :=
  calls.foldlM (next? fuel) (init, [])

def drain (now : ℕ) : ℕ → LinkedTimers ι → Option (List ι × LinkedTimers ι)
  | 0, _ => none
  | fuel + 1, t =>
      match t.popExpired now with
      | (none, t) => some ([], t)
      | (some i, t) => (drain now fuel t).map fun r => (i :: r.1, r.2)

end LinkedTimers

section

variable {ι : Type}

def scheduled [DecidableEq ι] : List (TimerEvent ι) → ι → Option (ℕ × ℕ)
  | [] => fun _ => none
  | (.add i expiry, _) :: older =>
      update (scheduled older) i (some (expiry, older.length))
  | (.cancel i, _) :: older => update (scheduled older) i none
  | (.popExpired _, none) :: older => scheduled older
  | (.popExpired _, some i) :: older => update (scheduled older) i none

structure InOrder (stamp : ι → Option (ℕ × ℕ)) (list : List ι) : Prop where
  mem : ∀ i, i ∈ list ↔ ∃ a, stamp i = some a
  sorted : list.Pairwise fun i j => ∀ a ∈ stamp i, ∀ b ∈ stamp j, toLex a < toLex b

def Earliest (stamp : ι → Option (ℕ × ℕ)) (now : ℕ) : Option ι → Prop
  | none => ∀ j b, stamp j = some b → now < b.1
  | some i => ∃ a, stamp i = some a ∧ a.1 ≤ now ∧
      ∀ j b, stamp j = some b → toLex a ≤ toLex b

variable {stamp : ι → Option (ℕ × ℕ)} {list : List ι} {i : ι}

lemma InOrder.head_le (h : InOrder stamp (i :: list)) {a : ℕ × ℕ} (ha : stamp i = some a)
    {j : ι} {b : ℕ × ℕ} (hb : stamp j = some b) : toLex a ≤ toLex b := by
  obtain rfl | hj := mem_cons.mp ((h.mem j).mpr ⟨b, hb⟩)
  · exact le_of_eq (congrArg toLex (Option.some.inj (ha.symm.trans hb)))
  · exact le_of_lt ((pairwise_cons.mp h.sorted).1 j hj a ha b hb)

lemma InOrder.earliest_cons (h : InOrder stamp (i :: list)) {a : ℕ × ℕ} (ha : stamp i = some a)
    (now : ℕ) : Earliest stamp now (if a.1 > now then none else some i) := by
  split
  next hlate =>
    intro j b hb
    have hle := Prod.Lex.toLex_le_toLex.mp (h.head_le ha hb)
    omega
  next hdue => exact ⟨a, ha, Nat.le_of_not_lt hdue, fun j b hb => h.head_le ha hb⟩

variable [DecidableEq ι]

lemma InOrder.filter (h : InOrder stamp list) (i : ι) :
    InOrder (update stamp i none) (list.filter (· ≠ i)) := by
  constructor
  · intro j
    rw [mem_filter, h.mem]
    by_cases hj : j = i <;> simp [hj]
  · refine (h.sorted.sublist filter_sublist).imp_of_mem fun {j k} hj hk hlt => ?_
    have hji : j ≠ i := of_decide_eq_true (mem_filter.mp hj).2
    have hki : k ≠ i := of_decide_eq_true (mem_filter.mp hk).2
    rw [update_of_ne hji, update_of_ne hki]
    exact hlt

lemma InOrder.tail (h : InOrder stamp (i :: list)) (hi : i ∉ list) :
    InOrder (update stamp i none) list := by
  have hne : ∀ j ∈ list, decide (j ≠ i) = true :=
    fun j hj => decide_eq_true fun hji => hi (hji ▸ hj)
  have hfilter := h.filter i
  rwa [filter_cons_of_neg (by simp), filter_eq_self.mpr hne] at hfilter

omit [DecidableEq ι] in
lemma length_link (expiryUs : ι → ℕ) (i : ι) (expiry : ℕ) (list : List ι) :
    (Timers.link expiryUs i expiry list).length = list.length + 1 := by
  induction list with
  | nil => rfl
  | cons j rest ih =>
    rw [Timers.link]
    split
    · rw [length_cons, ih, length_cons]
    · rfl

omit [DecidableEq ι] in
lemma link_pairwise {R : ι → ι → Prop} {expiryUs : ι → ℕ} {expiry : ℕ} (hlist : list.Pairwise R)
    (hbefore : ∀ j ∈ list, expiryUs j ≤ expiry → R j i)
    (hafter : ∀ j ∈ list, expiry < expiryUs j → R i j)
    (htrans : ∀ j ∈ list, ∀ k, R i j → R j k → R i k) :
    (Timers.link expiryUs i expiry list).Pairwise R := by
  induction list with
  | nil => exact pairwise_singleton R i
  | cons j rest ih =>
    obtain ⟨hj, hrest⟩ := pairwise_cons.mp hlist
    obtain ⟨hbeforej, hbefore⟩ := forall_mem_cons.mp hbefore
    obtain ⟨hafterj, hafter⟩ := forall_mem_cons.mp hafter
    obtain ⟨htransj, htrans⟩ := forall_mem_cons.mp htrans
    rw [Timers.link]
    split
    next hle =>
      refine pairwise_cons.mpr ⟨fun k hk => ?_, ih hrest hbefore hafter htrans⟩
      obtain rfl | hk := Timers.mem_link.mp hk
      · exact hbeforej hle
      · exact hj k hk
    next hgt =>
      have hij : R i j := hafterj (Nat.lt_of_not_le hgt)
      refine pairwise_cons.mpr ⟨forall_mem_cons.mpr ⟨hij, fun k hk => ?_⟩, hlist⟩
      exact htransj k hij (hj k hk)

lemma InOrder.link {expiryUs : ι → ℕ} {expiry latest : ℕ} (h : InOrder stamp list)
    (hi : stamp i = none) (hexpiry : ∀ j a, stamp j = some a → expiryUs j = a.1 ∧ a.2 < latest) :
    InOrder (update stamp i (some (expiry, latest)))
      (Timers.link expiryUs i expiry list) := by
  have hne : ∀ j a, stamp j = some a → j ≠ i := by
    rintro j a ha rfl
    cases ha.symm.trans hi
  have hself := update_self i (some (expiry, latest)) stamp
  have hother : ∀ j ∈ list, ∃ a, stamp j = some a ∧
      update stamp i (some (expiry, latest)) j = some a := fun j hj => by
    obtain ⟨a, ha⟩ := (h.mem j).mp hj
    exact ⟨a, ha, (update_of_ne (hne j a ha) ..).trans ha⟩
  constructor
  · intro j
    rw [Timers.mem_link, h.mem]
    by_cases hj : j = i <;> simp [hj]
  · refine link_pairwise ?_ (fun j hj hle => ?_) (fun j hj hlt => ?_) fun j hj k hij hjk => ?_
    · refine h.sorted.imp_of_mem fun {j k} hj hk hlt a ha b hb => ?_
      obtain ⟨a', ha', hja⟩ := hother j hj
      obtain ⟨b', hb', hkb⟩ := hother k hk
      cases hja.symm.trans ha
      cases hkb.symm.trans hb
      exact hlt a ha' b hb'
    · rintro a ha b hb
      obtain ⟨a', ha', hja⟩ := hother j hj
      cases hja.symm.trans ha
      cases hself.symm.trans hb
      have hja' := hexpiry j a ha'
      refine Prod.Lex.toLex_lt_toLex.mpr ?_
      omega
    · rintro a ha b hb
      obtain ⟨b', hb', hjb⟩ := hother j hj
      cases hjb.symm.trans hb
      cases hself.symm.trans ha
      have hjb' := hexpiry j b hb'
      exact Prod.Lex.toLex_lt_toLex.mpr (.inl (by omega))
    · rintro a ha c hc
      obtain ⟨b, -, hjb⟩ := hother j hj
      exact (hij a ha b hjb).trans (hjk b hjb c hc)

end

lemma Timers.popExpired_some {ι : Type} [DecidableEq ι] {s s' : Timers ι} {now : ℕ} {i : ι}
    (h : s.popExpired now = some (i, s')) :
    s.list = i :: s'.list ∧ s.expiryUs i ≤ now ∧ s'.expiryUs = s.expiryUs := by
  unfold popExpired at h
  split at h
  · cases h
  next j rest hlist =>
    split at h
    · cases h
    next hdue =>
      cases h
      exact ⟨hlist, Nat.le_of_not_lt hdue, rfl⟩

namespace LinkedTimers
variable {ι : Type} [DecidableEq ι] {t : LinkedTimers ι} {history : List (TimerEvent ι)}

def Answered : List (TimerEvent ι) → Prop :=
  Always fun e older => ∀ now, e.1 = .popExpired now → Earliest (scheduled older) now e.2

structure Follows (t : LinkedTimers ι) (s : Timers ι) (history : List (TimerEvent ι)) : Prop where
  links : t.Links s
  represents : ∃ l, s.Represents l
  ordered : InOrder (scheduled history) s.list
  stamps : ∀ i a, scheduled history i = some a → s.expiryUs i = a.1 ∧ a.2 < history.length
  length : s.list.length ≤ history.length
  answered : Answered history

variable {s : Timers ι}

lemma init_follows : Follows (init : LinkedTimers ι) .init [] where
  links := init_links
  represents := ⟨_, Timers.init_represents⟩
  ordered := ⟨fun i => by simp [Timers.init, scheduled], .nil⟩
  stamps := fun i a h => nomatch h
  length := Nat.le_refl 0
  answered := always_nil

lemma Follows.nodup (h : Follows t s history) : s.list.Nodup := h.represents.choose_spec.sound.1

lemma Follows.pending (h : Follows t s history) (i : ι) : s.pending i = true ↔ i ∈ s.list :=
  h.represents.choose_spec.pending i

lemma Follows.cancelled (h : Follows t s history) (i : ι) :
    InOrder (update (scheduled history) i none) (s.cancel i).list ∧
      (s.cancel i).expiryUs = s.expiryUs ∧ (s.cancel i).list.length ≤ s.list.length := by
  have hfilter := h.ordered.filter i
  unfold Timers.cancel
  split
  next hp =>
    have hi : i ∉ s.list := fun hi => by simp [(h.pending i).mpr hi] at hp
    have hne : ∀ j ∈ s.list, decide (j ≠ i) = true :=
      fun j hj => decide_eq_true fun hji => hi (hji ▸ hj)
    rw [filter_eq_self.mpr hne] at hfilter
    exact ⟨hfilter, rfl, Nat.le_refl _⟩
  · refine ⟨?_, rfl, length_erase_le⟩
    rw [h.nodup.erase_eq_filter]
    refine Eq.subst (motive := InOrder _) (filter_congr fun j _ => ?_) hfilter
    by_cases hj : j = i <;> simp [hj]

lemma Follows.stamps_cancelled (h : Follows t s history) {i j : ι} {a : ℕ × ℕ}
    (ha : update (scheduled history) i none j = some a) :
    j ≠ i ∧ s.expiryUs j = a.1 ∧ a.2 < history.length := by
  by_cases hj : j = i
  · rw [hj, update_self] at ha
    cases ha
  · rw [update_of_ne hj] at ha
    exact ⟨hj, h.stamps j a ha⟩

lemma Follows.cancel {fuel : ℕ} (h : Follows t s history) (hfuel : history.length < fuel)
    (i : ι) : ∃ t', t.call fuel (.cancel i) = some (none, t') ∧
      Follows t' (s.cancel i) ((.cancel i, none) :: history) := by
  obtain ⟨t', hcancel, hlinks⟩ := h.links.cancel h.nodup (h.length.trans_lt hfuel) i
  obtain ⟨hordered, hexpiry, hlength⟩ := h.cancelled i
  refine ⟨t', congrArg (Option.map (none, ·)) hcancel, ?_⟩
  exact {
    links := hlinks
    represents := ⟨_, h.represents.choose_spec.cancel i⟩
    ordered := hordered
    stamps := fun j a ha => by
      obtain ⟨-, hj, hlt⟩ := h.stamps_cancelled ha
      exact ⟨hexpiry ▸ hj, Nat.lt_succ_of_lt hlt⟩
    length := (hlength.trans h.length).trans (Nat.le_succ _)
    answered := h.answered.cons fun now hnow => nomatch hnow }

lemma Follows.add {fuel : ℕ} (h : Follows t s history) (hfuel : history.length < fuel)
    (i : ι) (expiry : ℕ) : ∃ t', t.call fuel (.add i expiry) = some (none, t') ∧
      Follows t' (s.add i expiry) ((.add i expiry, none) :: history) := by
  obtain ⟨l, hl⟩ := h.represents
  obtain ⟨t', hadd, hlinks⟩ := h.links.add hl (h.length.trans_lt hfuel) i expiry
  obtain ⟨hordered, hexpiry, hlength⟩ := h.cancelled i
  have hstamps : ∀ j a, update (scheduled history) i none j = some a →
      update (s.cancel i).expiryUs i expiry j = a.1 ∧ a.2 < history.length := by
    intro j a ha
    obtain ⟨hj, hja⟩ := h.stamps_cancelled ha
    rwa [update_of_ne hj, hexpiry]
  have hlink : InOrder (scheduled ((.add i expiry, none) :: history)) (s.add i expiry).list := by
    have hidem := update_idem (a := i) none (some (expiry, history.length))
      (scheduled history)
    rw [scheduled, ← hidem]
    exact hordered.link (update_self ..) hstamps
  refine ⟨t', congrArg (Option.map (none, ·)) hadd, ?_⟩
  exact {
    links := hlinks
    represents := ⟨_, hl.add i expiry⟩
    ordered := hlink
    stamps := fun j a ha => by
      by_cases hj : j = i
      · subst hj
        rw [scheduled, update_self] at ha
        cases ha
        exact ⟨update_self .., Nat.lt_succ_self _⟩
      · have hne : update (scheduled history) i none j = some a := by
          rw [scheduled, update_of_ne hj] at ha
          rwa [update_of_ne hj]
        obtain ⟨hja, hlt⟩ := hstamps j a hne
        exact ⟨hja, Nat.lt_succ_of_lt hlt⟩
    length := by
      rw [Timers.add, length_link]
      exact Nat.succ_le_succ (hlength.trans h.length)
    answered := h.answered.cons fun now hnow => nomatch hnow }

lemma Follows.earliest (h : Follows t s history) (now : ℕ) :
    Earliest (scheduled history) now ((s.popExpired now).map Prod.fst) := by
  have hordered := h.ordered
  unfold Timers.popExpired
  cases hlist : s.list with
  | nil => exact fun j b hb => absurd (((hlist ▸ hordered).mem j).mpr ⟨b, hb⟩) not_mem_nil
  | cons i rest =>
    rw [hlist] at hordered
    obtain ⟨a, ha⟩ := (hordered.mem i).mp (mem_cons_self ..)
    have hearliest := hordered.earliest_cons ha now
    rw [← (h.stamps i a ha).1] at hearliest
    split at hearliest
    next hlate =>
      simp only [if_pos hlate]
      exact hearliest
    next hdue =>
      simp only [if_neg hdue]
      exact hearliest

lemma Follows.popExpired (h : Follows t s history) (now : ℕ) :
    (t.popExpired now = (none, t) ∧ (∀ i ∈ s.list, now < s.expiryUs i) ∧
      Follows t s ((.popExpired now, none) :: history)) ∨
    ∃ i t' s', t.popExpired now = (some i, t') ∧ s.list = i :: s'.list ∧ s.expiryUs i ≤ now ∧
      s'.expiryUs = s.expiryUs ∧ Follows t' s' ((.popExpired now, some i) :: history) := by
  have hearliest := h.earliest now
  have hstamps : ∀ i a, scheduled history i = some a → s.expiryUs i = a.1 ∧
      a.2 < history.length + 1 :=
    fun i a ha => ⟨(h.stamps i a ha).1, Nat.lt_succ_of_lt (h.stamps i a ha).2⟩
  rcases h.links.popExpired h.nodup now with ⟨ht, hs⟩ | ⟨i, t', s', ht, hs, hlinks⟩
  · rw [hs] at hearliest
    refine .inl ⟨ht, fun i hi => ?_, ?_⟩
    · obtain ⟨a, ha⟩ := (h.ordered.mem i).mp hi
      exact (h.stamps i a ha).1 ▸ hearliest i a ha
    · exact { h with
        stamps := hstamps
        length := h.length.trans (Nat.le_succ _)
        answered := h.answered.cons fun now' hnow => by cases hnow; exact hearliest }
  · rw [hs] at hearliest
    obtain ⟨hlist, hdue, hexpiry⟩ := Timers.popExpired_some hs
    obtain ⟨l, hl⟩ := h.represents
    have hrepresents : ∃ l', s'.Represents l' := by
      rcases hl.popExpired now with ⟨hnone, -⟩ | ⟨j, s₁, l', hsome, -, hl'⟩
      · cases hnone.symm.trans hs
      · cases hsome.symm.trans hs
        exact ⟨l', hl'⟩
    have hordered := h.ordered
    have hnodup := h.nodup
    have hlength := h.length
    rw [hlist] at hordered hnodup hlength
    refine .inr ⟨i, t', s', ht, hlist, hdue, hexpiry, ?_⟩
    exact {
      links := hlinks
      represents := hrepresents
      ordered := hordered.tail (nodup_cons.mp hnodup).1
      stamps := fun j a ha => by
        obtain ⟨-, hj, hlt⟩ := h.stamps_cancelled ha
        exact ⟨hexpiry ▸ hj, Nat.lt_succ_of_lt hlt⟩
      length := (Nat.le_succ _).trans (hlength.trans (Nat.le_succ _))
      answered := h.answered.cons fun now' hnow => by cases hnow; exact hearliest }

lemma Follows.call {fuel : ℕ} (h : Follows t s history) (hfuel : history.length < fuel)
    (c : TimerCall ι) : ∃ r t' s', t.call fuel c = some (r, t') ∧
      Follows t' s' ((c, r) :: history) := by
  cases c with
  | add i expiry =>
    obtain ⟨t', hcall, hfollows⟩ := h.add hfuel i expiry
    exact ⟨none, t', _, hcall, hfollows⟩
  | cancel i =>
    obtain ⟨t', hcall, hfollows⟩ := h.cancel hfuel i
    exact ⟨none, t', _, hcall, hfollows⟩
  | popExpired now =>
    rcases h.popExpired now with ⟨hpop, -, hfollows⟩ | ⟨i, t', s', hpop, -, -, -, hfollows⟩
    · exact ⟨none, t, s, congrArg some hpop, hfollows⟩
    · exact ⟨some i, t', s', congrArg some hpop, hfollows⟩

lemma Follows.run {fuel : ℕ} (h : Follows t s history) (calls : List (TimerCall ι))
    (hfuel : history.length + calls.length ≤ fuel) :
    ∃ t' s' history', calls.foldlM (next? fuel) (t, history) = some (t', history') ∧
      history'.map Prod.fst = calls.reverse ++ history.map Prod.fst ∧ Follows t' s' history' := by
  induction calls generalizing t s history with
  | nil => exact ⟨t, s, history, rfl, rfl, h⟩
  | cons c calls ih =>
    rw [length_cons] at hfuel
    have hlt : history.length < fuel := by omega
    obtain ⟨r, t₁, s₁, hcall, hfollows⟩ := h.call hlt c
    obtain ⟨t', s', history', hrun, hcalls, hfollows'⟩ :=
      ih hfollows (by rw [length_cons]; omega)
    refine ⟨t', s', history', ?_, ?_, hfollows'⟩
    · rw [foldlM_cons, next?, hcall]
      exact hrun
    · rw [hcalls, reverse_cons, append_assoc]
      rfl

lemma Follows.drain (h : Follows t s history) (now : ℕ) {fuel : ℕ}
    (hfuel : s.list.length < fuel) : ∃ t', t.drain now fuel =
      some (s.list.filter (s.expiryUs · ≤ now), t') := by
  induction fuel generalizing t s history with
  | zero => exact absurd hfuel (Nat.not_lt_zero _)
  | succ fuel ih =>
    rcases h.popExpired now with ⟨hpop, hlate, -⟩ | ⟨i, t', s', hpop, hlist, hdue, hexpiry, h'⟩
    · refine ⟨t, ?_⟩
      rw [LinkedTimers.drain, hpop, filter_eq_nil_iff.mpr]
      exact fun i hi => by simpa using hlate i hi
    · rw [hlist, length_cons] at hfuel
      obtain ⟨t'', hdrain⟩ := ih h' (Nat.lt_of_succ_lt_succ hfuel)
      refine ⟨t'', ?_⟩
      rw [LinkedTimers.drain, hpop]
      simp only [hdrain]
      rw [hlist, filter_cons_of_pos (by simpa using hdue), hexpiry]
      rfl

lemma Follows.nextExpiry (h : Follows t s history) :
    (s.list = [] → t.nextExpiry = 2 ^ 64 - 1) ∧
      (s.list ≠ [] → IsLeast {e | ∃ i ∈ s.list, t.expiryUs i = e} t.nextExpiry) := by
  have hchain := h.links.chain
  have hsorted := h.represents.choose_spec.sound.2.1
  cases hlist : s.list with
  | nil =>
    rw [hlist] at hchain
    rw [LinkedTimers.nextExpiry, show t.head = none from hchain]
    exact ⟨fun _ => rfl, fun hne => absurd rfl hne⟩
  | cons i rest =>
    rw [hlist] at hchain hsorted
    rw [LinkedTimers.nextExpiry, show t.head = some i from hchain.1]
    refine ⟨fun hnil => (nomatch hnil), fun _ => ⟨⟨i, mem_cons_self .., rfl⟩, ?_⟩⟩
    rintro e ⟨j, hj, rfl⟩
    simp only [h.links.expiryUs]
    obtain rfl | hj := mem_cons.mp hj
    · exact Nat.le_refl _
    · exact (pairwise_cons.mp hsorted).1 j hj

/-- After any sequence of calls the links hold the pending timers, each once, by expiry and then by
the call that added them; every call of `bt_timer_list_pop_expired` has returned the first one if it
was due; popping until nothing is due returns all that are, in that order, and
`bt_timer_list_next_expiry` is the least expiry. -/
theorem run_ordered (calls : List (TimerCall ι)) (fuel : ℕ) (hfuel : calls.length ≤ fuel) :
    ∃ (t : LinkedTimers ι) (history : List (TimerEvent ι)) (list : List ι),
      run fuel calls = some (t, history) ∧ history.map Prod.fst = calls.reverse ∧
      t.Chain .head list ∧ list.Nodup ∧ (∀ i, t.pending i = true ↔ i ∈ list) ∧
      InOrder (scheduled history) list ∧
      (∀ i a, scheduled history i = some a → t.expiryUs i = a.1) ∧
      Answered history ∧
      (∀ now, ∃ t', t.drain now (list.length + 1) =
        some (list.filter (t.expiryUs · ≤ now), t')) ∧
      (list = [] → t.nextExpiry = 2 ^ 64 - 1) ∧
      (list ≠ [] → IsLeast {e | ∃ i ∈ list, t.expiryUs i = e} t.nextExpiry) := by
  have hrounds : ([] : List (TimerEvent ι)).length + calls.length ≤ fuel := by simpa using hfuel
  obtain ⟨t, s, history, hrun, hcalls, h⟩ := init_follows.run calls hrounds
  have hexpiry := h.links.expiryUs
  refine ⟨t, history, s.list, hrun, by simpa using hcalls, h.links.chain, h.nodup, ?_, h.ordered,
    ?_, h.answered, ?_, h.nextExpiry⟩
  · rw [h.links.pending]
    exact h.pending
  · rw [hexpiry]
    exact fun i a ha => (h.stamps i a ha).1
  · rw [hexpiry]
    exact fun now => h.drain now (Nat.lt_succ_self _)

theorem run_ordered_ties : ∃ (t : LinkedTimers (Fin 2)) (history : List (TimerEvent (Fin 2)))
    (list : List (Fin 2)),
      run 4 [.add 0 5, .add 1 5, .add 0 5, .popExpired 5] = some (t, history) ∧
      t.Chain .head list ∧ list.Nodup ∧ InOrder (scheduled history) list ∧ Answered history := by
  obtain ⟨t, history, list, hrun, -, hchain, hnodup, -, hordered, -, hanswered, -⟩ :=
    run_ordered [.add (0 : Fin 2) 5, .add 1 5, .add 0 5, .popExpired 5] 4 (by decide)
  exact ⟨t, history, list, hrun, hchain, hnodup, hordered, hanswered⟩

end LinkedTimers

end Bluzing
