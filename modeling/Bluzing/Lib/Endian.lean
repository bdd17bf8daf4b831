import Mathlib

/-! Numbers as octet strings, least significant octet first. -/
namespace Bluzing

def leValue : List UInt8 → ℕ
  | [] => 0
  | b :: octets => b.toNat + 256 * leValue octets

def leOctets : ℕ → ℕ → List UInt8
  | 0, _ => []
  | k + 1, n => UInt8.ofNat n :: leOctets k (n / 256)

lemma leOctets_leValue (octets : List UInt8) :
    leOctets octets.length (leValue octets) = octets := by
  induction octets with
  | nil => rfl
  | cons b octets ih =>
    have hb : b.toNat < 256 := b.toNat_lt
    have hlow : UInt8.ofNat (leValue (b :: octets)) = b := by
      apply UInt8.toNat_inj.mp
      rw [UInt8.toNat_ofNat', leValue]
      omega
    have hhigh : leValue (b :: octets) / 256 = leValue octets := by
      rw [leValue]
      omega
    rw [List.length_cons, leOctets, hlow, hhigh, ih]

lemma leValue_leOctets (k n : ℕ) : leValue (leOctets k n) = n % 256 ^ k := by
  induction k generalizing n with
  | zero => simp [leValue, leOctets, Nat.mod_one]
  | succ k ih =>
    rw [leOctets, leValue, ih, UInt8.toNat_ofNat', show 256 ^ (k + 1) = 256 * 256 ^ k from
      Nat.pow_succ', Nat.mod_mul]

lemma or_shiftLeft {k a : ℕ} (h : a < 2 ^ k) (b : ℕ) : a ||| b <<< k = a + 2 ^ k * b := by
  rw [Nat.shiftLeft_eq, Nat.mul_comm b, Nat.or_comm, ← Nat.two_pow_add_eq_or_of_lt h, Nat.add_comm]

lemma octet_shiftLeft_mod {k w : ℕ} (h : k + 8 ≤ w) (b : UInt8) :
    b.toNat <<< k % 2 ^ w = b.toNat <<< k := by
  apply Nat.mod_eq_of_lt
  calc b.toNat <<< k = b.toNat * 2 ^ k := Nat.shiftLeft_eq ..
    _ < 2 ^ 8 * 2 ^ k := Nat.mul_lt_mul_of_pos_right b.toNat_lt (Nat.two_pow_pos k)
    _ = 2 ^ (k + 8) := by rw [← Nat.pow_add, Nat.add_comm]
    _ ≤ 2 ^ w := Nat.pow_le_pow_right (by omega) h

end Bluzing
