import Mathlib

/-! Shift registers with feedback, as checksums use them: the bits of a message go in at the low end
and come out below, and each one that comes out is fed back by a polynomial. -/
namespace Bluzing.ShiftRegister
open List
variable {w : ℕ}

def word (w : ℕ) (bits : List Bool) : BitVec w := (BitVec.ofBoolListLE bits).setWidth w

lemma getLsbD_word (bits : List Bool) (i : ℕ) :
    (word w bits).getLsbD i = (decide (i < w) && bits.getD i false) := by
  rw [word, BitVec.getLsbD_setWidth, BitVec.getLsbD_ofBoolListLE]

lemma word_injective {a b : List Bool} (hlen : a.length = b.length) (hfits : a.length ≤ w)
    (h : word w a = word w b) : a = b := by
  apply ext_getElem hlen
  intro i hia hib
  have hbit := congrArg (·.getLsbD i) h
  simp only [getLsbD_word, decide_eq_true (show i < w by omega), Bool.true_and] at hbit
  rwa [getD_eq_getElem _ _ hia, getD_eq_getElem _ _ hib] at hbit

lemma word_cons (b : Bool) (bits : List Bool) :
    word w (b :: bits) = word w [b] ^^^ (word w bits <<< 1) := by
  apply BitVec.eq_of_getLsbD_eq
  intro i hi
  rw [BitVec.getLsbD_xor, BitVec.getLsbD_shiftLeft]
  simp only [getLsbD_word]
  cases i with
  | zero => simp [hi]
  | succ i =>
    have hi' : i < w := by omega
    simp [hi, hi']

variable (poly : BitVec w)

def shift (s : BitVec w) : BitVec w := (s >>> 1) ^^^ (if s.getLsbD 0 then poly else 0#w)

def feed (s : BitVec w) (b : Bool) : BitVec w := shift poly (s ^^^ word w [b])

lemma shift_xor (s t : BitVec w) : shift poly (s ^^^ t) = shift poly s ^^^ shift poly t := by
  apply BitVec.eq_of_getLsbD_eq
  simp only [shift, BitVec.getLsbD_xor, BitVec.getLsbD_ushiftRight]
  cases s.getLsbD 0 <;> cases t.getLsbD 0 <;> simp [Bool.xor_comm, Bool.xor_left_comm]

lemma shift_shiftLeft {s : BitVec w} (htop : s.getLsbD (w - 1) = false) :
    shift poly (s <<< 1) = s := by
  apply BitVec.eq_of_getLsbD_eq
  intro i hi
  have hlow : (s <<< 1).getLsbD 0 = false := by simp
  rw [shift, hlow, BitVec.getLsbD_xor, BitVec.getLsbD_ushiftRight, BitVec.getLsbD_shiftLeft]
  by_cases hlast : 1 + i < w
  · simp [hlast]
  · obtain rfl : i = w - 1 := by omega
    simp [htop, hlast]

lemma foldl_feed_eq (s : BitVec w) {bits : List Bool} (hfits : bits.length ≤ w) :
    bits.foldl (feed poly) s = (shift poly)^[bits.length] (s ^^^ word w bits) := by
  induction bits generalizing s with
  | nil =>
    have hzero : word w [] = 0#w := by
      apply BitVec.eq_of_getLsbD_eq
      simp [getLsbD_word]
    simp [hzero]
  | cons b bits ih =>
    rw [length_cons] at hfits
    have htop : (word w bits).getLsbD (w - 1) = false := by
      rw [getLsbD_word, getD_eq_default _ _ (by omega), Bool.and_false]
    calc (b :: bits).foldl (feed poly) s
        = (shift poly)^[bits.length] (shift poly (s ^^^ word w [b]) ^^^ word w bits) :=
          ih _ (by omega)
      _ = (shift poly)^[bits.length] (shift poly (s ^^^ word w (b :: bits))) := by
          rw [word_cons b bits, ← BitVec.xor_assoc, shift_xor poly (s ^^^ word w [b]),
            shift_shiftLeft poly htop]
      _ = (shift poly)^[(b :: bits).length] (s ^^^ word w (b :: bits)) := rfl

section

variable {poly} (hpoly : poly.getLsbD (w - 1) = true)

include hpoly

lemma shift_injective : Function.Injective (shift poly) := by
  intro s t h
  have htop (u : BitVec w) : (shift poly u).getLsbD (w - 1) = u.getLsbD 0 := by
    rw [shift, BitVec.getLsbD_xor, BitVec.getLsbD_ushiftRight, BitVec.getLsbD_of_ge u _ (by omega)]
    cases u.getLsbD 0 <;> simp [hpoly]
  have hlow : s.getLsbD 0 = t.getLsbD 0 := by rw [← htop s, h, htop t]
  have hrest : s >>> 1 = t >>> 1 := by
    rw [shift, shift, hlow] at h
    exact (BitVec.xor_left_inj _).mp h
  apply BitVec.eq_of_getLsbD_eq
  intro i _
  cases i with
  | zero => exact hlow
  | succ i =>
    have hbit := congrArg (·.getLsbD i) hrest
    simpa [BitVec.getLsbD_ushiftRight, Nat.add_comm 1 i] using hbit

lemma foldl_feed_injective (bits : List Bool) :
    Function.Injective fun s => bits.foldl (feed poly) s := by
  induction bits with
  | nil => exact fun s t h => h
  | cons b bits ih =>
    intro s t h
    exact (BitVec.xor_left_inj _).mp (shift_injective hpoly (ih h))

lemma foldl_feed_ne {front a b tail : List Bool} (hlen : a.length = b.length)
    (hfits : a.length ≤ w) (hne : a ≠ b) (s : BitVec w) :
    (front ++ (a ++ tail)).foldl (feed poly) s ≠ (front ++ (b ++ tail)).foldl (feed poly) s := by
  intro h
  simp only [foldl_append] at h
  have hparts := foldl_feed_injective hpoly tail h
  generalize front.foldl (feed poly) s = t at hparts
  rw [foldl_feed_eq poly t hfits, foldl_feed_eq poly t (hlen ▸ hfits), ← hlen] at hparts
  have hwords := (shift_injective hpoly).iterate a.length hparts
  exact hne (word_injective hlen hfits ((BitVec.xor_right_inj t).mp hwords))

lemma foldl_feed_window {a b : List Bool} (hlen : a.length = b.length) (k : ℕ)
    (hagree : ∀ i, i < k ∨ k + w ≤ i → a[i]? = b[i]?) (hne : a ≠ b) (s : BitVec w) :
    a.foldl (feed poly) s ≠ b.foldl (feed poly) s := by
  have hsplit (l : List Bool) : l = l.take k ++ ((l.drop k).take w ++ l.drop (k + w)) := by
    rw [← drop_drop, take_append_drop, take_append_drop]
  have hfront : a.take k = b.take k := by
    apply ext_getElem?
    intro i
    rw [getElem?_take, getElem?_take]
    split
    next hi => exact hagree i (.inl hi)
    · rfl
  have htail : a.drop (k + w) = b.drop (k + w) := by
    apply ext_getElem?
    intro i
    rw [getElem?_drop, getElem?_drop]
    exact hagree _ (.inr (by omega))
  have hpart : (a.drop k).take w ≠ (b.drop k).take w := by
    intro h
    apply hne
    rw [hsplit a, hsplit b, hfront, h, htail]
  rw [hsplit a, hsplit b, hfront, htail]
  refine foldl_feed_ne hpoly ?_ (length_take_le ..) hpart s
  rw [length_take, length_take, length_drop, length_drop, hlen]

end

end Bluzing.ShiftRegister
