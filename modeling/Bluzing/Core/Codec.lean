import Bluzing.Lib.Endian
import Bluzing.Core.Buffer

/-! Reads that undo an encoding and accept nothing else: a value that was written is read back, and
what is read determines the octets it came from. -/
namespace Bluzing
open List
variable (b0 b1 : UInt8)

lemma readLe16_toNat : (readLe16 b0 b1).toNat = leValue [b0, b1] := by
  have h0 : b0.toNat < 256 := b0.toNat_lt
  simp only [readLe16, UInt16.toNat_or, UInt16.toNat_shiftLeft, UInt8.toNat_toUInt16,
    UInt16.reduceToNat, Nat.reduceMod]
  rw [octet_shiftLeft_mod (by decide), or_shiftLeft (k := 8) (by omega)]
  simp only [leValue]
  omega

variable {r : Reader} (v : UInt32) (b2 : UInt8)

lemma readLe24_toNat : (readLe24 b0 b1 b2).toNat = leValue [b0, b1, b2] := by
  have h0 : b0.toNat < 256 := b0.toNat_lt
  have h1 : b1.toNat < 256 := b1.toNat_lt
  simp only [readLe24, UInt32.toNat_or, UInt32.toNat_shiftLeft, UInt8.toNat_toUInt32,
    UInt32.reduceToNat, Nat.reduceMod]
  rw [octet_shiftLeft_mod (by decide), octet_shiftLeft_mod (by decide),
    or_shiftLeft (k := 8) (by omega), or_shiftLeft (k := 16) (by omega)]
  simp only [leValue]
  omega

variable (b3 : UInt8)

lemma readLe32_toNat : (readLe32 b0 b1 b2 b3).toNat = leValue [b0, b1, b2, b3] := by
  have h := readLe24_toNat b0 b1 b2
  have h0 : b0.toNat < 256 := b0.toNat_lt
  have h1 : b1.toNat < 256 := b1.toNat_lt
  have h2 : b2.toNat < 256 := b2.toNat_lt
  rw [readLe32, ← readLe24, UInt32.toNat_or, h]
  simp only [UInt32.toNat_shiftLeft, UInt8.toNat_toUInt32, UInt32.reduceToNat, Nat.reduceMod,
    leValue]
  rw [octet_shiftLeft_mod (by decide), or_shiftLeft (k := 24) (by omega)]
  omega

lemma readLe64_toNat (b4 b5 b6 b7 : UInt8) :
    (readLe64 b0 b1 b2 b3 b4 b5 b6 b7).toNat = leValue [b0, b1, b2, b3, b4, b5, b6, b7] := by
  have hlow := (readLe32 b0 b1 b2 b3).toNat_lt
  have hhigh := (readLe32 b4 b5 b6 b7).toNat_lt
  have hshift : (readLe32 b4 b5 b6 b7).toNat <<< 32 % 2 ^ 64 =
      (readLe32 b4 b5 b6 b7).toNat <<< 32 := by
    omega
  simp only [readLe64, UInt64.toNat_or, UInt64.toNat_shiftLeft, UInt32.toNat_toUInt64,
    UInt64.reduceToNat, Nat.reduceMod]
  rw [hshift, or_shiftLeft hlow, readLe32_toNat, readLe32_toNat]
  simp only [leValue]
  omega

lemma toUInt8_shiftRight (s : UInt32) :
    (v >>> s).toUInt8 = UInt8.ofNat (v.toNat / 2 ^ (s.toNat % 32)) := by
  apply UInt8.toNat_inj.mp
  rw [UInt32.toNat_toUInt8, UInt32.toNat_shiftRight, Nat.shiftRight_eq_div_pow, UInt8.toNat_ofNat']

lemma writeLe16_eq (v : UInt16) : writeLe16 v = leOctets 2 v.toNat := by
  have hhigh : (v >>> 8).toUInt8 = UInt8.ofNat (v.toNat / 256) := by
    apply UInt8.toNat_inj.mp
    rw [UInt16.toNat_toUInt8, UInt16.toNat_shiftRight, Nat.shiftRight_eq_div_pow,
      UInt8.toNat_ofNat']
    rfl
  simp [writeLe16, leOctets, hhigh]

lemma writeLe24_eq : writeLe24 v = leOctets 3 v.toNat := by
  simp [writeLe24, leOctets, toUInt8_shiftRight, Nat.div_div_eq_div_mul]

lemma writeLe32_eq : writeLe32 v = leOctets 4 v.toNat := by
  simp [writeLe32, leOctets, toUInt8_shiftRight, Nat.div_div_eq_div_mul]

lemma writeLe64_eq (v : UInt64) : writeLe64 v = leOctets 8 v.toNat := by
  have hv := v.toNat_lt
  have hlow : (v &&& 0xffffffff).toUInt32.toNat = v.toNat % 2 ^ 32 := by
    rw [UInt64.toNat_toUInt32, UInt64.toNat_and, show (0xffffffff : UInt64).toNat = 2 ^ 32 - 1 from
      rfl, Nat.and_two_pow_sub_one_eq_mod, Nat.mod_mod]
  have hhigh : (v >>> 32).toUInt32.toNat = v.toNat / 2 ^ 32 := by
    rw [UInt64.toNat_toUInt32, UInt64.toNat_shiftRight, Nat.shiftRight_eq_div_pow]
    simp only [UInt64.reduceToNat, Nat.reduceMod]
    omega
  rw [writeLe64, writeLe32_eq, writeLe32_eq, hlow, hhigh]
  simp only [leOctets, cons_append, nil_append, cons.injEq, and_true,
    ← UInt8.toNat_inj, UInt8.toNat_ofNat']
  omega

lemma readLe16_writeLe16 (v : UInt16) : readLe16 v.toUInt8 (v >>> 8).toUInt8 = v := by
  apply UInt16.toNat_inj.mp
  rw [readLe16_toNat, ← writeLe16, writeLe16_eq, leValue_leOctets]
  exact Nat.mod_eq_of_lt v.toNat_lt

lemma readLe24_writeLe24 :
    readLe24 v.toUInt8 (v >>> 8).toUInt8 (v >>> 16).toUInt8 = v % 2 ^ 24 := by
  apply UInt32.toNat_inj.mp
  rw [readLe24_toNat, ← writeLe24, writeLe24_eq, leValue_leOctets, UInt32.toNat_mod]
  rfl

lemma readLe32_writeLe32 :
    readLe32 v.toUInt8 (v >>> 8).toUInt8 (v >>> 16).toUInt8 (v >>> 24).toUInt8 = v := by
  apply UInt32.toNat_inj.mp
  rw [readLe32_toNat, ← writeLe32, writeLe32_eq, leValue_leOctets]
  exact Nat.mod_eq_of_lt v.toNat_lt

lemma readLe64_writeLe64 {v : UInt64} {b0 b1 b2 b3 b4 b5 b6 b7 : UInt8}
    (h : writeLe64 v = [b0, b1, b2, b3, b4, b5, b6, b7]) :
    readLe64 b0 b1 b2 b3 b4 b5 b6 b7 = v := by
  apply UInt64.toNat_inj.mp
  rw [readLe64_toNat, ← h, writeLe64_eq, leValue_leOctets]
  exact Nat.mod_eq_of_lt v.toNat_lt

lemma writeLe16_readLe16 : writeLe16 (readLe16 b0 b1) = [b0, b1] := by
  rw [writeLe16_eq, readLe16_toNat]
  exact leOctets_leValue [b0, b1]

lemma writeLe32_readLe32 : writeLe32 (readLe32 b0 b1 b2 b3) = [b0, b1, b2, b3] := by
  rw [writeLe32_eq, readLe32_toNat]
  exact leOctets_leValue [b0, b1, b2, b3]

lemma readBe16_eq : readBe16 b0 b1 = readLe16 b1 b0 := UInt16.or_comm _ _

lemma readBe24_eq : readBe24 b0 b1 b2 = readLe24 b2 b1 b0 := by
  unfold readBe24 readLe24
  rw [UInt32.or_comm _ b2.toUInt32, UInt32.or_comm (b0.toUInt32 <<< 16), ← UInt32.or_assoc]

lemma readBe32_eq : readBe32 b0 b1 b2 b3 = readLe32 b3 b2 b1 b0 := by
  unfold readBe32 readLe32
  rw [UInt32.or_comm _ b3.toUInt32, UInt32.or_comm _ (b2.toUInt32 <<< 8),
    UInt32.or_comm (b0.toUInt32 <<< 24), ← UInt32.or_assoc, ← UInt32.or_assoc]

lemma readBe64_eq (b4 b5 b6 b7 : UInt8) :
    readBe64 b0 b1 b2 b3 b4 b5 b6 b7 = readLe64 b7 b6 b5 b4 b3 b2 b1 b0 := by
  unfold readBe64 readLe64
  rw [readBe32_eq, readBe32_eq, UInt64.or_comm]

lemma writeBe16_eq (v : UInt16) : writeBe16 v = (writeLe16 v).reverse := rfl

lemma writeBe32_eq : writeBe32 v = (writeLe32 v).reverse := rfl

variable {α β : Type}

lemma bind_eq_ok {ε : Type} {x : Except ε α} {f : α → Except ε β} {b : β}
    (h : x >>= f = .ok b) : ∃ a, x = .ok a ∧ f a = .ok b := by
  cases x with
  | error e => cases h
  | ok a => exact ⟨a, rfl, h⟩

lemma Access.bind_ok {x : Access α} {f : α → Access β} {b : β} (h : x >>= f = .ok b) :
    ∃ a, x = .ok a ∧ f a = .ok b :=
  bind_eq_ok h

lemma Reader.skip_rest {p tail : Bytes} (h : r.rest = p ++ tail) :
    ∃ r', r.skip p.length = .ok r' ∧ r'.rest = tail := by
  have hlen : p.length ≤ r.remaining := by
    rw [← r.length_rest, h, length_append]
    omega
  refine ⟨r.advance p.length hlen, dif_pos hlen, ?_⟩
  rw [r.rest_advance, h, drop_left]

lemma Reader.skip_exact {r' : Reader} {n : ℕ} (h : r.skip n = .ok r') :
    ∃ p : Bytes, p.length = n ∧ r.rest = p ++ r'.rest := by
  unfold skip at h
  split at h
  next hroom =>
    obtain rfl := Except.ok.inj h
    refine ⟨r.rest.take n, ?_, ?_⟩
    · rw [length_take, r.length_rest]
      exact Nat.min_eq_left hroom
    · rw [r.rest_advance, take_append_drop]
  · cases h

lemma Reader.peek_skip {r' : Reader} {n : ℕ} {p : Bytes} (hpeek : r.peek n = some p)
    (hskip : r.skip n = .ok r') : p.length = n ∧ r.rest = p ++ r'.rest := by
  unfold peek at hpeek
  split at hpeek
  next hroom =>
    obtain rfl := Option.some.inj hpeek
    rw [skip, dif_pos hroom] at hskip
    obtain rfl := Except.ok.inj hskip
    rw [r.rest_advance, ← rest, take_append_drop, length_take, r.length_rest]
    exact ⟨Nat.min_eq_left hroom, rfl⟩
  · cases hpeek

structure Reads (read : Reader → Access (α × Reader)) (dom : α → Prop)
    (encode : α → Bytes) : Prop where
  accepts : ∀ {r : Reader} {v : α} {tail : Bytes}, dom v → r.rest = encode v ++ tail →
    ∃ r', read r = .ok (v, r') ∧ r'.rest = tail
  exact : ∀ {r r' : Reader} {v : α}, read r = .ok (v, r') → dom v ∧ r.rest = encode v ++ r'.rest

lemma Reader.Fetches.reads {read : Reader → Access (α × Reader)} {encode : α → Bytes}
    {n : ℕ} {decode : Bytes → α} (hread : Fetches read n decode)
    (hlen : ∀ v, (encode v).length = n) (hdecode : ∀ v, decode (encode v) = v)
    (hencode : ∀ l, l.length = n → encode (decode l) = l) :
    Reads read (fun _ => True) encode where
  accepts := by
    intro r v tail _ hrest
    have hroom : n ≤ r.remaining := by
      rw [← r.length_rest, hrest, length_append, hlen]
      omega
    refine ⟨r.advance n hroom, ?_, ?_⟩
    · rw [hread, dif_pos hroom, hrest, take_left' (hlen v), hdecode]
    · rw [r.rest_advance, hrest, drop_left' (hlen v)]
  exact := by
    intro r r' v h
    rw [hread] at h
    split at h
    next hroom =>
      obtain ⟨rfl, rfl⟩ := Prod.mk.inj (Except.ok.inj h)
      have htake : (r.rest.take n).length = n := by
        rw [length_take, r.length_rest]
        omega
      rw [hencode _ htake, r.rest_advance, take_append_drop]
      exact ⟨trivial, rfl⟩
    · cases h

def Local (read : Reader → Access (α × Reader)) : Prop :=
  ∀ ⦃r r' s : Reader⦄ ⦃v : α⦄ ⦃more : Bytes⦄, read r = .ok (v, r') →
    s.rest = r.rest ++ more → ∃ s', read s = .ok (v, s') ∧ s'.rest = r'.rest ++ more

lemma Reads.isLocal {read : Reader → Access (α × Reader)} {dom : α → Prop}
    {encode : α → Bytes} (h : Reads read dom encode) : Local read := by
  intro r r' s v more hread hrest
  obtain ⟨hdom, hencoded⟩ := h.exact hread
  rw [hencoded, append_assoc] at hrest
  exact h.accepts hdom hrest

lemma local_ok (v : α) : Local fun r => .ok (v, r) := by
  intro r r' s v' more hread hrest
  cases hread
  exact ⟨s, rfl, hrest⟩

lemma local_error (e : ReadError) : Local fun _ => (.error e : Access (α × Reader)) := by
  intro r r' s v more hread
  cases hread

lemma Local.bind {f : Reader → Access (α × Reader)} {g : α × Reader → Access (β × Reader)}
    (hf : Local f) (hg : ∀ a, Local fun r => g (a, r)) : Local fun r => f r >>= g := by
  intro r r' s v more hread hrest
  obtain ⟨⟨a, r₁⟩, hfirst, hsecond⟩ := Access.bind_ok hread
  obtain ⟨s₁, hs₁, hrest₁⟩ := hf hfirst hrest
  obtain ⟨s₂, hs₂, hrest₂⟩ := hg a hsecond hrest₁
  refine ⟨s₂, ?_, hrest₂⟩
  simp only [hs₁]
  exact hs₂

lemma Local.ite {c : Prop} [Decidable c] {f g : Reader → Access (α × Reader)} (hf : Local f)
    (hg : Local g) : Local fun r => if c then f r else g r := by
  by_cases h : c
  · simpa only [if_pos h] using hf
  · simpa only [if_neg h] using hg

lemma reads_u8 : Reads Reader.readU8 (fun _ => True) fun v => [v] := by
  refine Reader.fetches_u8.reads (fun _ => rfl) (fun _ => rfl) fun l hl => ?_
  obtain ⟨b, rfl⟩ := length_eq_one_iff.mp hl
  rfl

lemma reads_le16 : Reads Reader.readLe16 (fun _ => True) writeLe16 := by
  refine Reader.fetches_le16.reads (fun _ => rfl) readLe16_writeLe16 fun l hl => ?_
  obtain ⟨b0, b1, rfl⟩ := length_eq_two.mp hl
  exact writeLe16_readLe16 b0 b1

lemma reads_le32 : Reads Reader.readLe32 (fun _ => True) writeLe32 := by
  refine Reader.fetches_le32.reads (fun _ => rfl) readLe32_writeLe32 fun l hl => ?_
  match l, hl with
  | [b0, b1, b2, b3], _ => exact writeLe32_readLe32 b0 b1 b2 b3

lemma reads_be16 : Reads Reader.readBe16 (fun _ => True) writeBe16 := by
  refine Reader.fetches_be16.reads (fun _ => rfl) (fun v => ?_) fun l hl => ?_
  · exact (readBe16_eq ..).trans (readLe16_writeLe16 v)
  · obtain ⟨b0, b1, rfl⟩ := length_eq_two.mp hl
    rw [readBe16_eq, writeBe16_eq]
    exact congrArg reverse (writeLe16_readLe16 b1 b0)

lemma reads_be32 : Reads Reader.readBe32 (fun _ => True) writeBe32 := by
  refine Reader.fetches_be32.reads (fun _ => rfl) (fun v => ?_) fun l hl => ?_
  · exact (readBe32_eq ..).trans (readLe32_writeLe32 v)
  · match l, hl with
    | [b0, b1, b2, b3], _ =>
      rw [readBe32_eq, writeBe32_eq]
      exact congrArg reverse (writeLe32_readLe32 b3 b2 b1 b0)

lemma reads_bytes (n : ℕ) : Reads (Reader.readBytes · n) (fun _ => True) Octets.bytes := by
  refine (Reader.fetches_bytes n).reads (fun v => v.length_eq) (fun v => ?_) fun l hl => ?_
  · rw [dif_pos v.length_eq]
  · rw [dif_pos hl]

end Bluzing
