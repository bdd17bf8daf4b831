import Mathlib

/-! Octet strings of a fixed length. -/
namespace Bluzing
open List

lemma forall_octet {P : UInt8 → Prop} (h : ∀ n : Fin 256, P (UInt8.ofFin n)) (x : UInt8) : P x :=
  h x.toFin

/-- An octet string of any length. -/
abbrev Bytes := List UInt8

@[ext] structure Octets (n : ℕ) where
  bytes : Bytes
  length_eq : bytes.length = n
  deriving DecidableEq

namespace Octets

attribute [simp] length_eq

variable {n m k l : ℕ}

def zero (n : ℕ) : Octets n := ⟨replicate n 0, by simp⟩

instance : Inhabited (Octets n) := ⟨zero n⟩

def ofFun (n : ℕ) (f : ℕ → UInt8) : Octets n := ⟨(range n).map f, by simp⟩

def set (x : Octets n) (i : ℕ) (v : UInt8) : Octets n := ⟨x.bytes.set i v, by simp⟩

def writeAt (x : Octets n) (k : ℕ) : Bytes → Octets n
  | [] => x
  | b :: data => (x.set k b).writeAt (k + 1) data

lemma writeAt_bytes (x : Octets n) (k : ℕ) (data : Bytes) (h : k + data.length ≤ n) :
    (x.writeAt k data).bytes = x.bytes.take k ++ data ++ x.bytes.drop (k + data.length) := by
  induction data generalizing x k with
  | nil => simp [writeAt]
  | cons b data ih =>
    rw [length_cons] at h ⊢
    have hk : k < x.bytes.length := by rw [x.length_eq]; omega
    have hset : (x.set k b).bytes.take (k + 1) = x.bytes.take k ++ [b] := by
      rw [take_add_one, set, getElem?_set_self hk, take_set_of_le (Nat.le_refl k)]
      rfl
    have hdrop : (x.set k b).bytes.drop (k + 1 + data.length) =
        x.bytes.drop (k + 1 + data.length) := drop_set_of_lt (by omega)
    rw [writeAt, ih (x.set k b) (k + 1) (by omega), hset, hdrop, append_assoc,
      append_assoc, append_assoc, Nat.add_assoc, Nat.add_comm 1]
    rfl

lemma writeAt_take (x : Octets n) (k : ℕ) (data : Bytes) (h : k + data.length ≤ n) :
    (x.writeAt k data).bytes.take (k + data.length) = x.bytes.take k ++ data := by
  have hlen : (x.bytes.take k ++ data).length = k + data.length := by
    rw [length_append, length_take, x.length_eq]
    omega
  rw [writeAt_bytes x k data h, take_left' hlen]

lemma writeAt_concat (x : Octets n) (k : ℕ) (part : Bytes) (v : UInt8) :
    x.writeAt k (part ++ [v]) = (x.writeAt k part).set (k + part.length) v := by
  induction part generalizing x k with
  | nil => rfl
  | cons b part ih =>
    rw [cons_append, Octets.writeAt, Octets.writeAt, ih, length_cons]
    congr 1
    omega

def rev (x : Octets n) : Octets n := ⟨x.bytes.reverse, by simp⟩

@[simp] lemma rev_bytes (x : Octets n) : x.rev.bytes = x.bytes.reverse := rfl

@[simp] lemma rev_rev (x : Octets n) : x.rev.rev = x := by
  ext1
  simp

def xor (x y : Octets n) : Octets n :=
  ⟨zipWith (· ^^^ ·) x.bytes y.bytes, by simp⟩

def xorAt (x : Octets n) (k : ℕ) (y : Octets m) (h : k + m ≤ n) : Octets n :=
  ⟨x.bytes.take k ++ zipWith (· ^^^ ·) (x.bytes.drop k) y.bytes ++ x.bytes.drop (k + m), by
    simp only [length_append, length_take, length_zipWith, length_drop,
      length_eq]
    omega⟩

lemma xor_comm (x y : Octets n) : x.xor y = y.xor x := by
  ext1
  exact zipWith_comm_of_comm fun a b => UInt8.xor_comm a b

def padded (k : ℕ) (a : Octets m) (b : Octets l) : Octets (k + m + l) :=
  ⟨replicate k 0 ++ a.bytes ++ b.bytes, by simp [Nat.add_assoc]⟩

private lemma zipWith_xor_zeros (p : Bytes) :
    zipWith (· ^^^ ·) p (replicate p.length 0) = p := by
  induction p with
  | nil => rfl
  | cons v p ih => simp [replicate_succ, ih]

private lemma zipWith_xor_left (q s as : Bytes) (h : q.length = as.length) :
    zipWith (· ^^^ ·) (q ++ s) as = zipWith (· ^^^ ·) q as := by
  induction q generalizing as with
  | nil =>
    have has : as = [] := length_eq_zero_iff.mp h.symm
    simp [has]
  | cons v q ih =>
    cases as with
    | nil => cases h
    | cons a as => simp [ih as (by simpa using h)]

lemma xorAt_xorAt (x : Octets (k + m + l)) (a : Octets m) (b : Octets l) :
    (x.xorAt k a (by omega)).xorAt (k + m) b (by omega) = x.xor (padded k a b) := by
  obtain ⟨xs, hx⟩ := x
  obtain ⟨as, rfl⟩ := a
  obtain ⟨bs, rfl⟩ := b
  obtain ⟨p, q, s, rfl, rfl, hq, hs⟩ : ∃ p q s, xs = p ++ (q ++ s) ∧ p.length = k ∧
      q.length = as.length ∧ s.length = bs.length := by
    refine ⟨xs.take k, (xs.drop k).take as.length, (xs.drop k).drop as.length, ?_, ?_, ?_, ?_⟩
    · rw [take_append_drop, take_append_drop]
    all_goals simp; omega
  have hz : (p ++ zipWith (· ^^^ ·) q as).length = p.length + as.length := by simp [hq]
  ext1
  simp only [xorAt, xor, padded, take_left, drop_left, zipWith_xor_left q s as hq]
  rw [show (p ++ (q ++ s)).drop (p.length + as.length) = s by
    rw [← append_assoc, ← hq, ← length_append, drop_left]]
  rw [take_left' hz, drop_left' hz]
  rw [drop_of_length_le (by simp [hq, hs, Nat.add_assoc]), append_nil]
  rw [append_assoc (replicate _ _), zipWith_append (by simp),
    zipWith_append hq, zipWith_xor_zeros, append_assoc]

def clear (k : ℕ) (x : Octets n) : Octets n :=
  ⟨replicate (min k n) 0 ++ x.bytes.drop k, by simp; omega⟩

lemma clear_bytes_getElem? (k : ℕ) (x : Octets n) (i : ℕ) (hi : i < min k n) :
    (clear k x).bytes[i]? = some 0 := by
  have hlen : i < (replicate (min k n) (0 : UInt8)).length := by simpa using hi
  rw [clear, getElem?_append_left hlen]
  simp only [getElem?_replicate, hi, ↓reduceIte]

end Octets
end Bluzing
