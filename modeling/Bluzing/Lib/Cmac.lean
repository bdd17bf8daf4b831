import Bluzing.Lib.Octets
import Bluzing.Lib.Chunks

/-! Cipher-based message authentication over blocks of `n` octets. -/
namespace Bluzing.Cmac
open Polynomial

noncomputable def octet (v : UInt8) : (ZMod 2)[X] :=
  ∑ i ∈ Finset.range 8, if v.toNat.testBit i then X ^ i else 0

variable (v : UInt8)

lemma coeff_octet {i : ℕ} (hi : i < 8) :
    (octet v).coeff i = if v.toNat.testBit i then 1 else 0 := by
  have hterm : ∀ j, (if v.toNat.testBit j then (X : (ZMod 2)[X]) ^ j else 0).coeff i =
      if j = i then (if v.toNat.testBit i then 1 else 0) else 0 := by
    intro j
    by_cases hj : j = i
    · subst hj
      split <;> simp
    · split <;> simp [coeff_X_pow, Ne.symm hj]
  simp only [octet, finsetSum_coeff, hterm, Finset.sum_ite_eq', Finset.mem_range, hi, ↓reduceIte]

lemma degree_octet : (octet v).degree < (8 : ℕ) := by
  rw [← mem_degreeLT]
  refine Submodule.sum_mem _ fun i hi => ?_
  split
  · rw [mem_degreeLT, degree_X_pow]
    exact_mod_cast Finset.mem_range.mp hi
  · exact Submodule.zero_mem _

lemma octet_injective : Function.Injective octet := by
  intro v w h
  refine UInt8.toNat_inj.mp (Nat.eq_of_testBit_eq fun i => ?_)
  by_cases hi : i < 8
  · have hcoeff := congrArg (coeff · i) h
    simp only [coeff_octet _ hi] at hcoeff
    by_cases hv : v.toNat.testBit i <;> by_cases hw : w.toNat.testBit i <;> simp_all
  · have hsmall (u : UInt8) :=
      u.toNat_lt.trans_le (Nat.pow_le_pow_right (by decide) (Nat.not_lt.mp hi))
    rw [Nat.testBit_lt_two_pow (hsmall v), Nat.testBit_lt_two_pow (hsmall w)]

lemma octet_zero : octet 0 = 0 := by
  simp [octet]

lemma octet_of_le_one (hv : v ≤ 1) :
    octet v = if v.toNat.testBit 0 then 1 else 0 := by
  have hbits := forall_octet (P := fun v => v ≤ 1 → ∀ i < 7, v.toNat.testBit (i + 1) = false)
      (by decide +kernel) v hv
  rw [octet, Finset.sum_range_succ', Finset.sum_eq_zero, zero_add, pow_zero]
  intro i hi
  rw [hbits i (Finset.mem_range.mp hi)]
  rfl

lemma testBit_shift (carry : UInt8) (hcarry : carry ≤ 1) :
    (v <<< 1 ||| carry).toNat.testBit 0 = carry.toNat.testBit 0 ∧
      ∀ i < 7, (v <<< 1 ||| carry).toNat.testBit (i + 1) = v.toNat.testBit i := by
  obtain rfl | rfl : carry = 0 ∨ carry = 1 :=
    forall_octet (P := fun c => c ≤ 1 → c = 0 ∨ c = 1) (by decide +kernel) carry hcarry
  · exact forall_octet (P := fun v => (v <<< 1 ||| 0).toNat.testBit 0 = _ ∧
      ∀ i < 7, (v <<< 1 ||| 0).toNat.testBit (i + 1) = v.toNat.testBit i) (by decide +kernel) v
  · exact forall_octet (P := fun v => (v <<< 1 ||| 1).toNat.testBit 0 = _ ∧
      ∀ i < 7, (v <<< 1 ||| 1).toNat.testBit (i + 1) = v.toNat.testBit i) (by decide +kernel) v

lemma octet_shift (carry : UInt8) (hcarry : carry ≤ 1) :
    octet (v <<< 1 ||| carry) + X ^ 8 * octet (v >>> 7) = X * octet v + octet carry := by
  obtain ⟨hone, hout⟩ : v >>> 7 ≤ 1 ∧ (v >>> 7).toNat.testBit 0 = v.toNat.testBit 7 :=
    forall_octet (P := fun v => v >>> 7 ≤ 1 ∧ (v >>> 7).toNat.testBit 0 = v.toNat.testBit 7)
      (by decide +kernel) v
  obtain ⟨hlow, hhigh⟩ := testBit_shift v carry hcarry
  have hv : octet v = (∑ i ∈ Finset.range 7, if v.toNat.testBit i then X ^ i else 0) +
      if v.toNat.testBit 7 then X ^ 7 else 0 := Finset.sum_range_succ _ 7
  have hshift : octet (v <<< 1 ||| carry) =
      (∑ i ∈ Finset.range 7, X * if v.toNat.testBit i then X ^ i else 0) +
        if carry.toNat.testBit 0 then 1 else 0 := by
    rw [octet, Finset.sum_range_succ', hlow, pow_zero]
    refine congrArg (· + _) (Finset.sum_congr rfl fun i hi => ?_)
    rw [hhigh i (Finset.mem_range.mp hi), mul_ite, mul_zero, pow_succ']
  rw [octet_of_le_one _ hone, octet_of_le_one _ hcarry, hout, hshift, hv, mul_add, Finset.mul_sum,
    mul_ite, mul_ite, mul_zero, mul_zero, mul_one, ← pow_succ']
  ring

lemma octet_xor (w : UInt8) : octet (v ^^^ w) = octet v + octet w := by
  rw [octet, octet, octet, ← Finset.sum_add_distrib]
  refine Finset.sum_congr rfl fun i _ => ?_
  rw [UInt8.toNat_xor, Nat.testBit_xor]
  cases v.toNat.testBit i <;> cases w.toNat.testBit i <;> simp [CharTwo.add_self_eq_zero]

noncomputable def poly : Bytes → (ZMod 2)[X]
  | [] => 0
  | v :: xs => poly xs + X ^ (8 * xs.length) * octet v

lemma poly_concat (xs : Bytes) (v : UInt8) :
    poly (xs ++ [v]) = octet v + X ^ 8 * poly xs := by
  induction xs with
  | nil => simp [poly]
  | cons w xs ih =>
    rw [List.cons_append, poly, poly, ih, List.length_append, List.length_singleton, Nat.mul_succ,
      pow_add]
    ring

lemma degree_poly (xs : Bytes) : (poly xs).degree < (8 * xs.length : ℕ) := by
  induction xs with
  | nil => simp [poly]
  | cons v xs ih =>
    rw [poly, ← mem_degreeLT]
    refine Submodule.add_mem _ ?_ ?_
    · rw [mem_degreeLT]
      refine ih.trans_le ?_
      exact_mod_cast Nat.mul_le_mul_left 8 (Nat.le_succ xs.length)
    · rw [mem_degreeLT, degree_mul, degree_X_pow, List.length_cons, Nat.mul_succ, Nat.cast_add]
      exact WithBot.add_lt_add_left (WithBot.natCast_ne_bot _) (degree_octet v)

lemma poly_injective {xs ys : Bytes} (hlen : xs.length = ys.length)
    (h : poly xs = poly ys) : xs = ys := by
  induction xs generalizing ys with
  | nil => exact (List.length_eq_zero_iff.mp hlen.symm).symm
  | cons v xs ih =>
    obtain _ | ⟨w, ys⟩ := ys
    · cases hlen
    have htail := Nat.succ.inj hlen
    have hdegree (zs : Bytes) (hz : zs.length = xs.length) :
        (poly zs).degree < (X ^ (8 * xs.length) : (ZMod 2)[X]).degree := by
      rw [degree_X_pow, ← hz]
      exact degree_poly zs
    -- The top octet is the quotient by the power of `X`, the other octets the remainder.
    obtain ⟨hq, hr⟩ := div_modByMonic_unique (octet v) (poly xs) (monic_X_pow _)
      ⟨rfl, hdegree xs rfl⟩
    obtain ⟨hq', hr'⟩ := div_modByMonic_unique (octet w) (poly ys) (monic_X_pow (8 * xs.length))
      ⟨rfl, hdegree ys htail.symm⟩
    have hsum : poly xs + X ^ (8 * xs.length) * octet v =
        poly ys + X ^ (8 * xs.length) * octet w := by
      rw [poly, poly, ← htail] at h
      exact h
    rw [hsum] at hq hr
    rw [octet_injective (hq.symm.trans hq'), ih htail (hr.symm.trans hr')]

section

variable (n : ℕ) (tail : UInt8)

noncomputable def modulus : (ZMod 2)[X] := X ^ (8 * n) + octet tail

lemma modulus_degree (hn : 1 ≤ n) : (modulus n tail).degree = (8 * n : ℕ) := by
  rw [modulus, degree_add_eq_left_of_degree_lt, degree_X_pow]
  rw [degree_X_pow]
  refine (degree_octet tail).trans_le ?_
  exact_mod_cast (by omega : 8 ≤ 8 * n)

variable {n}

noncomputable def element (x : Octets n) : AdjoinRoot (modulus n tail) :=
  AdjoinRoot.mk (modulus n tail) (poly x.bytes)

lemma element_injective (hn : 1 ≤ n) : Function.Injective (element (n := n) tail) := by
  intro x y h
  have hdvd := AdjoinRoot.mk_eq_mk.mp h
  have hdegree : (poly x.bytes - poly y.bytes).degree < (modulus n tail).degree := by
    rw [modulus_degree n tail hn]
    refine (degree_sub_le _ _).trans_lt (max_lt ?_ ?_)
    · simpa using degree_poly x.bytes
    · simpa using degree_poly y.bytes
  have hzero := eq_zero_of_dvd_of_degree_lt hdvd hdegree
  exact Octets.ext (poly_injective (by simp) (sub_eq_zero.mp hzero))

lemma mk_X_pow : AdjoinRoot.mk (modulus n tail) (X ^ (8 * n)) =
    AdjoinRoot.mk (modulus n tail) (octet tail) := by
  refine AdjoinRoot.mk_eq_mk.mpr ?_
  rw [CharTwo.sub_eq_add]
  exact dvd_rfl

end

variable {n : ℕ}

def split (n : ℕ) (message : Bytes) : List Bytes :=
  if message = [] then [[]] else message.toChunks n

lemma split_of_le (hn : 0 < n) {message : Bytes} (h : message.length ≤ n) :
    split n message = [message] := by
  rw [split]
  split
  next hempty => rw [hempty]
  next hempty =>
    rw [Chunks.toChunks_eq_cons hn hempty, List.take_of_length_le h, List.drop_of_length_le h]
    rfl

lemma split_of_lt (hn : 0 < n) {message : Bytes} (h : n < message.length) :
    split n message = message.take n :: split n (message.drop n) := by
  have hempty : message ≠ [] := List.ne_nil_of_length_pos (by omega)
  have hdrop : message.drop n ≠ [] := List.ne_nil_of_length_pos (by rw [List.length_drop]; omega)
  rw [split, split, if_neg hempty, if_neg hdrop, Chunks.toChunks_eq_cons hn hempty]

def block (part : Bytes) : Octets n := (Octets.zero n).writeAt 0 part

@[simp] lemma block_bytes (x : Octets n) : block x.bytes = x := by
  ext1
  rw [block, Octets.writeAt_bytes _ _ _ (by simp)]
  simp [Octets.zero]

def lastBlock (k1 k2 : Octets n) (part : Bytes) : Octets n :=
  if part.length = n then (block part).xor k1 else (block (part ++ [0x80])).xor k2

def format (k1 k2 : Octets n) : List Bytes → List (Octets n)
  | [] => []
  | [part] => [lastBlock k1 k2 part]
  | part :: rest => block part :: format k1 k2 rest

def chain (encrypt : Octets n → Octets n) (x : Octets n) (blocks : List (Octets n)) : Octets n :=
  blocks.foldl (fun x b => encrypt (x.xor b)) x

def mac (encrypt : Octets n → Octets n) (k1 k2 : Octets n) (message : Bytes) : Octets n :=
  chain encrypt (Octets.zero n) (format k1 k2 (split n message))

variable (encrypt : Octets n → Octets n) (k1 k2 x : Octets n)

lemma chain_last (hn : 0 < n) {message : Bytes} (h : message.length ≤ n) :
    chain encrypt x (format k1 k2 (split n message)) =
      encrypt (x.xor (lastBlock k1 k2 message)) := by
  rw [split_of_le hn h]
  rfl

lemma chain_block (hn : 0 < n) {message : Bytes} (h : n < message.length) :
    chain encrypt x (format k1 k2 (split n message)) =
      chain encrypt (encrypt (x.xor (block (message.take n))))
        (format k1 k2 (split n (message.drop n))) := by
  obtain ⟨part, rest, hrest⟩ : ∃ part rest, split n (message.drop n) = part :: rest := by
    by_cases hle : (message.drop n).length ≤ n
    · exact ⟨_, _, split_of_le hn hle⟩
    · exact ⟨_, _, split_of_lt hn (Nat.not_le.mp hle)⟩
  rw [split_of_lt hn h, hrest]
  rfl

end Bluzing.Cmac
