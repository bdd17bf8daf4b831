import Mathlib

/-! Fields of bits in a string of octets: bit `k` is bit `k % 8` of octet `k / 8`, and the first bit
of a field is its least significant one. -/
namespace Bluzing

def bitAt (data : List UInt8) (k : ℕ) : Bool := (data.getD (k / 8) 0).toNat.testBit (k % 8)

def readBits (data : List UInt8) (off n : ℕ) : ℕ := Nat.ofBits fun i : Fin n => bitAt data (off + i)

def withBit (octet : UInt8) (i : ℕ) (bit : Bool) : UInt8 :=
  UInt8.ofNat (Nat.ofBits fun m : Fin 8 => if m.val = i then bit else octet.toNat.testBit m)

def setBit (data : List UInt8) (k : ℕ) (bit : Bool) : List UInt8 :=
  data.modify (k / 8) fun octet => withBit octet (k % 8) bit

def writeBits (data : List UInt8) (off value : ℕ) : ℕ → List UInt8
  | 0 => data
  | n + 1 => setBit (writeBits data off value n) (off + n) (value.testBit n)

variable {data : List UInt8} {off value n k j : ℕ} {bit : Bool}

lemma readBits_lt : readBits data off n < 2 ^ n := Nat.ofBits_lt_two_pow _

@[simp] lemma testBit_readBits (i : ℕ) :
    (readBits data off n).testBit i = (decide (i < n) && bitAt data (off + i)) := by
  rw [readBits, Nat.testBit_ofBits]
  by_cases hi : i < n <;> simp [hi]

lemma readBits_succ (data : List UInt8) (off n : ℕ) : readBits data off (n + 1) =
    readBits data off n ||| if bitAt data (off + n) then 2 ^ n else 0 := by
  apply Nat.eq_of_testBit_eq
  intro i
  rw [Nat.testBit_or, testBit_readBits, testBit_readBits]
  rcases Nat.lt_trichotomy i n with hi | rfl | hi
  · have hne : n ≠ i := by omega
    cases bitAt data (off + n) <;> simp [hi, Nat.lt_succ_of_lt hi, hne]
  · cases bitAt data (off + i) <;> simp
  · have hne : n ≠ i := by omega
    have hle : ¬ i < n := by omega
    have hle' : ¬ i < n + 1 := by omega
    cases bitAt data (off + n) <;> simp [hle, hle', hne]

@[simp] lemma length_setBit : (setBit data k bit).length = data.length := by simp [setBit]

@[simp] lemma length_writeBits : (writeBits data off value n).length = data.length := by
  induction n with
  | zero => rfl
  | succ n ih => simp [writeBits, ih]

lemma testBit_withBit (octet : UInt8) (i : ℕ) {m : ℕ} (hm : m < 8) :
    (withBit octet i bit).toNat.testBit m = if m = i then bit else octet.toNat.testBit m := by
  have hlt : (Nat.ofBits fun m : Fin 8 => if m.val = i then bit else octet.toNat.testBit m) <
      2 ^ 8 := Nat.ofBits_lt_two_pow _
  rw [withBit, UInt8.toNat_ofNat', Nat.mod_eq_of_lt hlt, Nat.testBit_ofBits_lt _ _ hm]

lemma bitAt_setBit (hk : k < data.length * 8) :
    bitAt (setBit data k bit) j = if j = k then bit else bitAt data j := by
  have hoctet : k / 8 < data.length := by omega
  unfold bitAt setBit
  by_cases hsame : j / 8 = k / 8
  · have hj : j % 8 < 8 := Nat.mod_lt _ (by decide)
    have heq : j = k ↔ j % 8 = k % 8 := by omega
    simp [hsame, hoctet, testBit_withBit _ _ hj, heq]
  · have hne : j ≠ k := fun h => hsame (h ▸ rfl)
    have hother : k / 8 ≠ j / 8 := fun h => hsame h.symm
    simp [hne, hother]

lemma bitAt_writeBits (h : off + n ≤ data.length * 8) :
    bitAt (writeBits data off value n) j =
      if off ≤ j ∧ j < off + n then value.testBit (j - off) else bitAt data j := by
  induction n with
  | zero =>
    rw [writeBits, if_neg (by omega)]
  | succ n ih =>
    rw [writeBits, bitAt_setBit (by rw [length_writeBits]; omega), ih (by omega)]
    by_cases hj : j = off + n
    · simp [hj]
    · have hiff : (off ≤ j ∧ j < off + n) ↔ (off ≤ j ∧ j < off + (n + 1)) := by omega
      simp [hj, hiff]

lemma readBits_congr {data' : List UInt8} (h : ∀ i < n, bitAt data (off + i) =
    bitAt data' (off + i)) : readBits data off n = readBits data' off n := by
  apply Nat.eq_of_testBit_eq
  intro i
  by_cases hi : i < n <;> simp [hi, h]

lemma readBits_writeBits (h : off + n ≤ data.length * 8) :
    readBits (writeBits data off value n) off n = value % 2 ^ n := by
  apply Nat.eq_of_testBit_eq
  intro i
  rw [testBit_readBits, bitAt_writeBits h, Nat.testBit_mod_two_pow]
  by_cases hi : i < n <;> simp [hi]

structure BitWrite where
  off : ℕ
  size : ℕ
  value : ℕ

def writeAll (data : List UInt8) (writes : List BitWrite) : List UInt8 :=
  writes.foldl (fun data f => writeBits data f.off f.value f.size) data

variable {writes : List BitWrite}

@[simp] lemma length_writeAll : (writeAll data writes).length = data.length := by
  induction writes generalizing data with
  | nil => rfl
  | cons f writes ih => exact ih.trans length_writeBits

lemma readBits_writeAll_of_disjoint (hfits : ∀ f ∈ writes, f.off + f.size ≤ data.length * 8)
    (hdisjoint : ∀ f ∈ writes, f.off + f.size ≤ off ∨ off + n ≤ f.off) :
    readBits (writeAll data writes) off n = readBits data off n := by
  induction writes generalizing data with
  | nil => rfl
  | cons f writes ih =>
    obtain ⟨hf, hfits⟩ := List.forall_mem_cons.mp hfits
    obtain ⟨hfirst, hrest⟩ := List.forall_mem_cons.mp hdisjoint
    calc readBits (writeAll data (f :: writes)) off n
        = readBits (writeBits data f.off f.value f.size) off n := by
          apply ih _ hrest
          rw [length_writeBits]
          exact hfits
      _ = readBits data off n := by
        apply readBits_congr
        intro i hi
        rw [bitAt_writeBits hf, if_neg (by omega)]

lemma readBits_writeAll (hfits : ∀ f ∈ writes, f.off + f.size ≤ data.length * 8)
    (horder : writes.Pairwise fun f g => f.off + f.size ≤ g.off) :
    ∀ f ∈ writes, readBits (writeAll data writes) f.off f.size = f.value % 2 ^ f.size := by
  induction writes generalizing data with
  | nil => nofun
  | cons f writes ih =>
    obtain ⟨hf, hfits⟩ := List.forall_mem_cons.mp hfits
    obtain ⟨hfirst, hrest⟩ := List.pairwise_cons.mp horder
    have hfits' : ∀ g ∈ writes,
        g.off + g.size ≤ (writeBits data f.off f.value f.size).length * 8 := by
      rw [length_writeBits]
      exact hfits
    intro g hg
    rcases List.mem_cons.mp hg with rfl | hg
    · calc readBits (writeAll data (g :: writes)) g.off g.size
          = readBits (writeBits data g.off g.value g.size) g.off g.size :=
            readBits_writeAll_of_disjoint hfits' fun h hh => .inr (hfirst h hh)
        _ = g.value % 2 ^ g.size := readBits_writeBits hf
    · exact ih hfits' hrest g hg

end Bluzing
