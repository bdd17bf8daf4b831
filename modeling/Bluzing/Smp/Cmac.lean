import Bluzing.Lib.Cmac
import Bluzing.Smp.Crypto

/-! The message authentication code built on the block cipher (`core/security/smp_crypto.c`): what
it returns is the code of its message with the two subkeys that field multiplication gives. -/
namespace Bluzing.Smp
open Polynomial

def cmacShift : Bytes → Bytes × UInt8
  | [] => ([], 0)
  | v :: rest =>
      let (out, carry) := cmacShift rest
      ((v <<< 1 ||| carry) :: out, v >>> 7)

lemma cmacShift_length (xs : Bytes) : (cmacShift xs).1.length = xs.length := by
  induction xs with
  | nil => rfl
  | cons v xs ih => exact congrArg (· + 1) ih

def cmacDouble (x : Octets 16) : Octets 16 :=
  let out : Octets 16 := ⟨(cmacShift x.bytes).1, by rw [cmacShift_length, x.length_eq]⟩
  if (cmacShift x.bytes).2 ≠ 0 then out.set 15 (out.bytes.getD 15 0 ^^^ 0x87) else out

def encryptBlock (encrypt : Aes128) (key x : Octets 16) : Access (Octets 16) :=
  match encrypt key x with
  | .ok y => .ok y
  | .error st => .error (.status st)

def cmacChain (encrypt : Aes128) (key : Octets 16) (message : Bytes) :
    ℕ → ℕ → Octets 16 → Access (Octets 16)
  | 0, _, x => .ok x
  | full + 1, offset, x => do
      let part ← octetsAt message offset 16
      let x ← encryptBlock encrypt key (x.xor part)
      cmacChain encrypt key message full (offset + 16) x

def cmacLast (k1 k2 : Octets 16) (message : Bytes) (offset lastLen : ℕ) :
    Access (Octets 16) :=
  if lastLen = 16 then do
    let part ← octetsAt message offset 16
    return ((Octets.zero 16).writeAt 0 part.bytes).xor k1
  else if lastLen ≠ 0 then do
    let part ← octetsAt message offset lastLen
    return (((Octets.zero 16).writeAt 0 part.bytes).set lastLen 0x80).xor k2
  else
    return ((Octets.zero 16).set lastLen 0x80).xor k2

def cmacCalculate (aes : Option Aes128) (key : Octets 16) (message : Bytes) :
    Access (Octets 16) :=
  match aes with
  | none => .error (.status .invalidArgument)
  | some encrypt => do
      let l ← encryptBlock encrypt key (Octets.zero 16)
      let k1 := cmacDouble l
      let k2 := cmacDouble k1
      let blockCount := if message.length = 0 then 1 else (message.length + 15) / 16
      let fullBeforeLast := blockCount - 1
      let x ← cmacChain encrypt key message fullBeforeLast 0 (Octets.zero 16)
      let lastLen := message.length - fullBeforeLast * 16
      let block ← cmacLast k1 k2 message (fullBeforeLast * 16) lastLen
      encryptBlock encrypt key (block.xor x)

lemma cmacShift_poly (xs : Bytes) :
    (cmacShift xs).2 ≤ 1 ∧
      Cmac.poly (cmacShift xs).1 + X ^ (8 * xs.length) * Cmac.octet (cmacShift xs).2 =
        X * Cmac.poly xs := by
  induction xs with
  | nil => exact ⟨by decide, by simp [cmacShift, Cmac.poly, Cmac.octet_zero]⟩
  | cons v xs ih =>
    obtain ⟨hcarry, hpoly⟩ := ih
    refine ⟨?_, ?_⟩
    · exact forall_octet (P := fun v => v >>> 7 ≤ 1) (by decide +kernel) v
    · have hstep := Cmac.octet_shift v (cmacShift xs).2 hcarry
      simp only [cmacShift, Cmac.poly, cmacShift_length, List.length_cons, Nat.mul_succ, pow_add]
      linear_combination hpoly + X ^ (8 * xs.length) * hstep

lemma poly_set_last (x : Octets 16) (v : UInt8) :
    Cmac.poly (x.set 15 (x.bytes.getD 15 0 ^^^ v)).bytes = Cmac.poly x.bytes + Cmac.octet v := by
  obtain ⟨xs, hlen⟩ := x
  obtain rfl | ⟨init, last, rfl⟩ := xs.eq_nil_or_concat
  · cases hlen
  have hinit : init.length = 15 := by simpa using hlen
  have hset : (init ++ [last]).set 15 (last ^^^ v) = init ++ [last ^^^ v] := by
    rw [← hinit]
    simp
  have hget : (init ++ [last]).getD 15 0 = last := by
    rw [← hinit]
    simp
  simp only [Octets.set, List.concat_eq_append, hget, hset, Cmac.poly_concat, Cmac.octet_xor]
  ring

lemma element_cmacDouble (x : Octets 16) :
    Cmac.element 0x87 (cmacDouble x) = AdjoinRoot.root _ * Cmac.element 0x87 x := by
  obtain ⟨hcarry, hpoly⟩ := cmacShift_poly x.bytes
  have hmk := congrArg (AdjoinRoot.mk (Cmac.modulus 16 0x87)) hpoly
  rw [map_add, map_mul, map_mul, AdjoinRoot.mk_X, x.length_eq, Cmac.mk_X_pow] at hmk
  have hone := forall_octet (P := fun c => c ≤ 1 → c = 0 ∨ c = 1) (by decide +kernel) _ hcarry
  rw [cmacDouble]
  obtain hzero | hone := hone
  · rw [if_neg (not_not.mpr hzero)]
    rw [hzero, Cmac.octet_zero, map_zero, mul_zero, add_zero] at hmk
    exact hmk
  · rw [if_pos (by rw [hone]; decide), Cmac.element, poly_set_last, map_add]
    have hbit : Cmac.octet 1 = 1 := by
      rw [Cmac.octet_of_le_one 1 (by decide)]
      rfl
    rw [hone, hbit, map_one, mul_one] at hmk
    exact hmk

lemma octetsAt_block {message : Bytes} {offset n : ℕ} (h : offset + n ≤ message.length) :
    ∃ part, octetsAt message offset n = .ok part ∧
      (Octets.zero 16).writeAt 0 part.bytes = Cmac.block ((message.drop offset).take n) := by
  obtain ⟨part, hpart, hbytes⟩ := octetsAt_ok h
  exact ⟨part, hpart, by rw [hbytes, Cmac.block]⟩

lemma cmacLast_eq (k1 k2 : Octets 16) {message : Bytes} {offset lastLen : ℕ}
    (hlen : message.length = offset + lastLen) :
    cmacLast k1 k2 message offset lastLen = .ok (Cmac.lastBlock k1 k2 (message.drop offset)) := by
  have hdrop : (message.drop offset).length = lastLen := by rw [List.length_drop]; omega
  obtain ⟨part, hpart, hblock⟩ := octetsAt_block (n := lastLen) hlen.ge
  rw [List.take_of_length_le hdrop.le] at hblock
  have hpartLen := part.length_eq
  rw [cmacLast, Cmac.lastBlock, hdrop]
  split
  next hfull =>
    subst hfull
    rw [hpart]
    exact congrArg (fun b => Except.ok (Octets.xor b k1)) hblock
  · rw [Cmac.block, Octets.writeAt_concat, ← Cmac.block, ← hblock, hdrop, Nat.zero_add]
    split
    · rw [hpart]; rfl
    next hempty =>
      have hnil : part.bytes = [] := List.length_eq_zero_iff.mp (by omega)
      rw [hnil]
      rfl

variable (encrypt : Octets 16 → Octets 16 → Octets 16) (key k1 k2 : Octets 16)

lemma cmacChain_eq {message : Bytes} {full offset lastLen : ℕ} (x : Octets 16)
    (hlen : message.length = offset + 16 * full + lastLen) (hle : lastLen ≤ 16)
    (hlast : 0 < full → 0 < lastLen) :
    ∃ y, cmacChain (fun key x => .ok (encrypt key x)) key message full offset x = .ok y ∧
      encrypt key (y.xor (Cmac.lastBlock k1 k2 (message.drop (offset + 16 * full)))) =
        Cmac.chain (encrypt key) x (Cmac.format k1 k2 (Cmac.split 16 (message.drop offset))) := by
  induction full generalizing offset x with
  | zero =>
    have hrest : (message.drop offset).length ≤ 16 := by rw [List.length_drop]; omega
    exact ⟨x, rfl, (Cmac.chain_last (encrypt key) k1 k2 x (by decide) hrest).symm⟩
  | succ full ih =>
    have hpos := hlast (Nat.succ_pos full)
    have hrest : 16 < (message.drop offset).length := by rw [List.length_drop]; omega
    have hfits : offset + 16 ≤ message.length := by omega
    obtain ⟨part, hpart, hbytes⟩ := octetsAt_ok hfits
    obtain ⟨y, hy, hchain⟩ := ih (encrypt key (x.xor part)) (by omega : _ = offset + 16 + _ + _)
      fun _ => hpos
    refine ⟨y, ?_, ?_⟩
    · rw [cmacChain, hpart]
      exact hy
    · have hblock : Cmac.block ((message.drop offset).take 16) = part := by
        rw [← hbytes, Cmac.block_bytes]
      have hoffset : offset + 16 * (full + 1) = offset + 16 + 16 * full := by omega
      rw [Cmac.chain_block (encrypt key) k1 k2 x (by decide) hrest, hblock, List.drop_drop,
        ← hchain, hoffset]

lemma modulus_eq : Cmac.modulus 16 0x87 = X ^ 128 + X ^ 7 + X ^ 2 + X + 1 := by
  have hbits : ∀ i < 8, (0x87 : UInt8).toNat.testBit i = decide (i ∈ [0, 1, 2, 7]) := by decide
  have htail : Cmac.octet 0x87 =
      ∑ i ∈ Finset.range 8, if decide (i ∈ [0, 1, 2, 7]) then X ^ i else 0 :=
    Finset.sum_congr rfl fun i hi => by rw [hbits i (Finset.mem_range.mp hi)]
  rw [Cmac.modulus, htail]
  simp [Finset.sum_range_succ]
  ring

/-- For a block cipher that always succeeds the returned code is the cipher-based authentication
code of the message: the subkeys are the encrypted zero block multiplied once and twice by `X`
modulo `X ^ 128 + X ^ 7 + X ^ 2 + X + 1`. -/
theorem cmacCalculate_mac (encrypt : Octets 16 → Octets 16 → Octets 16) (key : Octets 16)
    (message : Bytes) :
    Cmac.modulus 16 0x87 = X ^ 128 + X ^ 7 + X ^ 2 + X + 1 ∧
      ∃ k1 k2 : Octets 16,
        (∀ k, Cmac.element 0x87 k =
          AdjoinRoot.root _ * Cmac.element 0x87 (encrypt key (Octets.zero 16)) ↔ k = k1) ∧
        (∀ k, Cmac.element 0x87 k =
          AdjoinRoot.root _ ^ 2 * Cmac.element 0x87 (encrypt key (Octets.zero 16)) ↔ k = k2) ∧
        cmacCalculate (some fun key x => .ok (encrypt key x)) key message =
          .ok (Cmac.mac (encrypt key) k1 k2 message) := by
  have hinj := Cmac.element_injective (n := 16) 0x87 (by decide)
  let l := encrypt key (Octets.zero 16)
  have hone := element_cmacDouble l
  have htwo : Cmac.element 0x87 (cmacDouble (cmacDouble l)) =
      AdjoinRoot.root _ ^ 2 * Cmac.element 0x87 l := by
    rw [element_cmacDouble, hone, pow_two, mul_assoc]
  refine ⟨modulus_eq, cmacDouble l, cmacDouble (cmacDouble l), ?_, ?_, ?_⟩
  · exact fun k => by rw [← hone, hinj.eq_iff]
  · exact fun k => by rw [← htwo, hinj.eq_iff]
  obtain ⟨full, lastLen, hfull, hlen, hle, hlast⟩ : ∃ full lastLen,
      (if message.length = 0 then 1 else (message.length + 15) / 16) - 1 = full ∧
        message.length = 0 + 16 * full + lastLen ∧ lastLen ≤ 16 ∧ (0 < full → 0 < lastLen) := by
    refine ⟨(if message.length = 0 then 1 else (message.length + 15) / 16) - 1, message.length -
      16 * ((if message.length = 0 then 1 else (message.length + 15) / 16) - 1), rfl, ?_⟩
    split <;> omega
  obtain ⟨y, hy, hmac⟩ := cmacChain_eq encrypt key (cmacDouble l) (cmacDouble (cmacDouble l))
    (Octets.zero 16) hlen hle hlast
  have hblock := cmacLast_eq (cmacDouble l) (cmacDouble (cmacDouble l))
    (by omega : message.length = full * 16 + (message.length - full * 16))
  rw [Nat.zero_add, Nat.mul_comm] at hmac
  simp only [cmacCalculate, encryptBlock, hfull]
  change (cmacChain _ key message full 0 _ >>= fun x => cmacLast _ _ message _ _ >>= _) = _
  rw [hy]
  rw [hblock]
  change Except.ok _ = _
  rw [Octets.xor_comm, hmac]
  rfl

end Bluzing.Smp
