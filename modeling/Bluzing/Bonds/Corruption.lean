import Bluzing.Lib.ShiftRegister
import Bluzing.Bonds.RoundTrip

/-! Damaged databases. -/
namespace Bluzing.Bonds
open List
open ShiftRegister (shift feed word)

def crcPoly : BitVec 32 := 0xEDB88320#32

lemma crcBit_toBitVec (crc : UInt32) : (crcBit crc).toBitVec = shift crcPoly crc.toBitVec := by
  have hlow : crc.toBitVec &&& 1#32 = if crc.toBitVec.getLsbD 0 then 1#32 else 0#32 := by
    apply BitVec.eq_of_getLsbD_eq
    intro i _
    cases i with
    | zero => cases hbit : crc.toBitVec.getLsbD 0 <;> simp_all
    | succ i => cases crc.toBitVec.getLsbD 0 <;> simp
  have hmask : crcPoly &&& (0#32 - (crc.toBitVec &&& 1#32)) =
      if crc.toBitVec.getLsbD 0 then crcPoly else 0#32 := by
    rw [hlow]
    cases crc.toBitVec.getLsbD 0 <;> rfl
  rw [shift, ← hmask]
  rfl

def octetBits (b : UInt8) : List Bool := (range 8).map b.toBitVec.getLsbD

def bits (data : Bytes) : List Bool := data.flatMap octetBits

lemma length_octetBits (b : UInt8) : (octetBits b).length = 8 := by
  simp [octetBits]

lemma crcOctet_toBitVec (crc : UInt32) (b : UInt8) :
    (crcOctet crc b).toBitVec = (octetBits b).foldl (feed crcPoly) crc.toBitVec := by
  have hbits (n : ℕ) (c : UInt32) := (Function.Semiconj.iterate_right crcBit_toBitVec n).eq c
  have hword : (crc ^^^ b.toUInt32).toBitVec = crc.toBitVec ^^^ word 32 (octetBits b) := by
    rw [UInt32.toBitVec_xor, UInt8.toBitVec_toUInt32]
    congr 1
    apply BitVec.eq_of_getLsbD_eq
    intro i hi
    rw [ShiftRegister.getLsbD_word, BitVec.getLsbD_setWidth]
    by_cases hoctet : i < 8
    · rw [getD_eq_getElem _ _ (by rwa [length_octetBits])]
      simp [octetBits]
    · rw [getD_eq_default _ _ (by rw [length_octetBits]; omega),
        BitVec.getLsbD_of_ge _ _ (by omega)]
  have hfits : (octetBits b).length ≤ 32 := by rw [length_octetBits]; decide
  rw [ShiftRegister.foldl_feed_eq crcPoly _ hfits, length_octetBits, ← hword, ← hbits, crcOctet,
    foldl_const, length_range]

lemma foldl_crcOctet_toBitVec (data : Bytes) (crc : UInt32) :
    (data.foldl crcOctet crc).toBitVec = (bits data).foldl (feed crcPoly) crc.toBitVec := by
  induction data generalizing crc with
  | nil => rfl
  | cons b data ih =>
    rw [foldl_cons, ih, crcOctet_toBitVec, bits, bits, flatMap_cons, foldl_append]

lemma getElem?_bits (data : Bytes) (i : ℕ) :
    (bits data)[i]? = data[i / 8]?.map fun b => b.toBitVec.getLsbD (i % 8) := by
  induction data generalizing i with
  | nil => simp [bits]
  | cons b data ih =>
    rw [bits, flatMap_cons]
    by_cases hi : i < 8
    · rw [getElem?_append_left (by rwa [length_octetBits])]
      have hdiv : i / 8 = 0 := by omega
      have hmod : i % 8 = i := by omega
      simp [hdiv, hmod, octetBits, hi]
    · rw [getElem?_append_right (by rw [length_octetBits]; omega), length_octetBits]
      have hdiv : i / 8 = (i - 8) / 8 + 1 := by omega
      have hmod : i % 8 = (i - 8) % 8 := by omega
      rw [hdiv, hmod, getElem?_cons_succ]
      exact ih (i - 8)

lemma length_bits (data : Bytes) : (bits data).length = 8 * data.length := by
  induction data with
  | nil => rfl
  | cons b data ih =>
    rw [bits, flatMap_cons, length_append, length_octetBits, ← bits, ih,
      length_cons]
    omega

lemma octetBits_injective {a b : UInt8} (h : octetBits a = octetBits b) : a = b := by
  apply UInt8.eq_of_toBitVec_eq
  apply BitVec.eq_of_getLsbD_eq
  intro i hi
  have hbit := congrArg (·[i]?) h
  simpa [octetBits, hi] using hbit

variable {a b : Bytes}

lemma bits_injective (hlen : a.length = b.length) (h : bits a = bits b) : a = b := by
  induction a generalizing b with
  | nil => exact (eq_nil_of_length_eq_zero hlen.symm).symm
  | cons x a ih =>
    cases b with
    | nil => cases hlen
    | cons y b =>
      obtain ⟨hhead, htail⟩ := append_inj h (by rw [length_octetBits, length_octetBits])
      rw [octetBits_injective hhead, ih (Nat.succ.inj hlen) htail]

lemma take_eq_of_bits (hlen : a.length = b.length) {n : ℕ}
    (hagree : ∀ i < 8 * n, (bits a)[i]? = (bits b)[i]?) : a.take n = b.take n := by
  apply bits_injective (by rw [length_take, length_take, hlen])
  apply ext_getElem?
  intro i
  rw [getElem?_bits, getElem?_bits, getElem?_take, getElem?_take]
  split
  next hi =>
    have hbit := hagree i (by omega)
    rwa [getElem?_bits, getElem?_bits] at hbit
  · rfl

lemma getElem?_bits_drop (data : Bytes) (n i : ℕ) :
    (bits (data.drop n))[i]? = (bits data)[8 * n + i]? := by
  have hdiv : (8 * n + i) / 8 = n + i / 8 := by omega
  have hmod : (8 * n + i) % 8 = i % 8 := by omega
  rw [getElem?_bits, getElem?_bits, getElem?_drop, hdiv, hmod]

lemma crc32_burst (hlen : a.length = b.length) (k : ℕ)
    (hagree : ∀ i, i < k ∨ k + 32 ≤ i → (bits a)[i]? = (bits b)[i]?) (hne : a ≠ b) :
    crc32 a ≠ crc32 b := by
  intro h
  have hcrc : a.foldl crcOctet 0xFFFFFFFF = b.foldl crcOctet 0xFFFFFFFF := by
    have hnot := congrArg (~~~ ·) h
    simpa [crc32] using hnot
  have hpoly : crcPoly.getLsbD (32 - 1) = true := rfl
  have hbits : (bits a).length = (bits b).length := by rw [length_bits, length_bits, hlen]
  have hremainder := congrArg UInt32.toBitVec hcrc
  rw [foldl_crcOctet_toBitVec, foldl_crcOctet_toBitVec] at hremainder
  exact ShiftRegister.foldl_feed_window hpoly hbits k hagree
    (fun heq => hne (bits_injective hlen heq))
    _ hremainder

lemma take_sealed (count : ℕ) (payload : Bytes) :
    (sealed count payload).take dbHeaderLen =
      header (UInt16.ofNat count) (UInt32.ofNat payload.length) (crc32 payload) :=
  take_left' (length_header ..)

lemma writeLe32_injective {a b : UInt32} (h : writeLe32 a = writeLe32 b) : a = b := by
  simp only [writeLe32, cons.injEq, and_true] at h
  obtain ⟨h₀, h₁, h₂, h₃⟩ := h
  rw [← readLe32_writeLe32 a, ← readLe32_writeLe32 b, h₀, h₁, h₂, h₃]

lemma header_injective {count count' : UInt16} {len len' checksum checksum' : UInt32}
    (h : header count len checksum = header count' len' checksum') :
    len = len' ∧ checksum = checksum' := by
  have hfields (l c : UInt32) (n : UInt16) :
      (header n l c).drop 12 = writeLe32 l ++ writeLe32 c := rfl
  have hlast := congrArg (drop 12) h
  rw [hfields, hfields] at hlast
  obtain ⟨hlen, hchecksum⟩ := append_inj hlast rfl
  exact ⟨writeLe32_injective hlen, writeLe32_injective hchecksum⟩

variable {data data' : Bytes} {s s' : Store}

lemma eq_of_payload (h : deserialize data = .ok s) (h' : deserialize data' = .ok s')
    (hpayload : data'.drop dbHeaderLen = data.drop dbHeaderLen) : data' = data := by
  obtain ⟨recs, hwf, -, rfl, hentries⟩ := deserialize_exact h
  obtain ⟨recs', hwf', -, rfl, hentries'⟩ := deserialize_exact h'
  simp only [database, drop_sealed] at hpayload ⊢
  have hfits : 0 + (entriesOf recs).length ≤ maxEntries := by
    rw [← hentries, Nat.zero_add]
    exact s.fits
  have hfits' : 0 + (entriesOf recs').length ≤ maxEntries := by
    rw [← hentries', Nat.zero_add]
    exact s'.fits
  -- the first pass finds as many entries in one payload, whichever records it came from
  have hcount := validateRecords_encode hwf (Reader.rest_init _) (remaining_init _) hfits
  have hcount' := validateRecords_encode hwf' (Reader.rest_init _) (remaining_init _) hfits'
  rw [hpayload] at hcount' ⊢
  have hsame := Except.ok.inj (hcount'.symm.trans hcount)
  rw [Nat.add_left_cancel hsame]

lemma checksum_of_header (h : deserialize data = .ok s) (h' : deserialize data' = .ok s')
    (hheader : data'.take dbHeaderLen = data.take dbHeaderLen) :
    data'.length = data.length ∧
      crc32 (data'.drop dbHeaderLen) = crc32 (data.drop dbHeaderLen) := by
  obtain ⟨recs, -, hsmall, rfl, -⟩ := deserialize_exact h
  obtain ⟨recs', -, hsmall', rfl, -⟩ := deserialize_exact h'
  simp only [database, drop_sealed, take_sealed] at hheader ⊢
  obtain ⟨hlen, hchecksum⟩ := header_injective hheader
  have hnat := congrArg UInt32.toNat hlen
  rw [UInt32.toNat_ofNat', UInt32.toNat_ofNat', Nat.mod_eq_of_lt hsmall,
    Nat.mod_eq_of_lt hsmall'] at hnat
  refine ⟨?_, hchecksum⟩
  rw [sealed, sealed, length_append, length_append, length_header, length_header, hnat]

def flipBit (data : Bytes) (i : ℕ) : Bytes :=
  data.modify (i / 8) (· ^^^ UInt8.ofNat (2 ^ (i % 8)))

lemma length_flipBit (data : Bytes) (i : ℕ) : (flipBit data i).length = data.length :=
  length_modify ..

lemma getElem?_flipBit (data : Bytes) (i k : ℕ) :
    (bits (flipBit data i))[k]? = (bits data)[k]?.map fun b => b ^^ decide (i = k) := by
  rw [getElem?_bits, getElem?_bits, flipBit, getElem?_modify, Option.map_eq_map,
    Option.map_map, Option.map_map]
  congr 1
  funext b
  have hk : k % 8 < 8 := Nat.mod_lt _ (by decide)
  by_cases hoctet : i / 8 = k / 8
  · have hmask : (UInt8.ofNat (2 ^ (i % 8))).toBitVec.getLsbD (k % 8) = decide (i = k) := by
      have hsame : i % 8 = k % 8 ↔ i = k := by omega
      rw [UInt8.toBitVec_ofNat', BitVec.getLsbD_ofNat, Nat.testBit_two_pow]
      simp [hk, hsame]
    simp [hoctet, hmask]
  · have hne : i ≠ k := fun h => hoctet (congrArg (· / 8) h)
    simp [hoctet, hne]

inductive Corrupted (data : Bytes) : Bytes → Prop
  | flipped {i : ℕ} (hi : i < 8 * data.length) : Corrupted data (flipBit data i)
  | burst {data' : Bytes} {k : ℕ} (hlen : data'.length = data.length)
      (hpayload : 8 * dbHeaderLen ≤ k)
      (hagree : ∀ i, i < k ∨ k + 32 ≤ i → (bits data')[i]? = (bits data)[i]?)
      (hne : data' ≠ data) : Corrupted data data'
  | truncated {n : ℕ} (hn : n < data.length) : Corrupted data (data.take n)

lemma not_burst (h : deserialize data = .ok s) {k : ℕ} (hlen : data'.length = data.length)
    (hpayload : 8 * dbHeaderLen ≤ k)
    (hagree : ∀ i, i < k ∨ k + 32 ≤ i → (bits data')[i]? = (bits data)[i]?)
    (hne : data' ≠ data) : deserialize data' ≠ .ok s' := by
  intro h'
  have hheader : data'.take dbHeaderLen = data.take dbHeaderLen :=
    take_eq_of_bits hlen fun i hi => hagree i (.inl (by omega))
  have hpayloadNe : data'.drop dbHeaderLen ≠ data.drop dbHeaderLen := by
    intro heq
    apply hne
    rw [← take_append_drop dbHeaderLen data', hheader, heq, take_append_drop]
  have hwindow : ∀ i, i < k - 8 * dbHeaderLen ∨ k - 8 * dbHeaderLen + 32 ≤ i →
      (bits (data'.drop dbHeaderLen))[i]? = (bits (data.drop dbHeaderLen))[i]? := by
    intro i hi
    rw [getElem?_bits_drop, getElem?_bits_drop]
    exact hagree _ (by omega)
  refine crc32_burst ?_ _ hwindow hpayloadNe (checksum_of_header h h' hheader).2
  rw [length_drop, length_drop, hlen]

lemma flipBit_ne {i : ℕ} (hi : i < 8 * data.length) : flipBit data i ≠ data := by
  intro h
  have hbit := getElem?_flipBit data i i
  rw [h, getElem?_eq_getElem (by rwa [length_bits])] at hbit
  simp at hbit

lemma not_flipped (h : deserialize data = .ok s) {i : ℕ} (hi : i < 8 * data.length) :
    deserialize (flipBit data i) ≠ .ok s' := by
  have hothers {k : ℕ} (hk : i ≠ k) : (bits (flipBit data i))[k]? = (bits data)[k]? := by
    simp [getElem?_flipBit, hk]
  have hlen := length_flipBit data i
  by_cases hheader : i < 8 * dbHeaderLen
  · -- the payload is whole, and it determines the header
    intro h'
    refine flipBit_ne hi (eq_of_payload h h' ?_)
    apply bits_injective (by rw [length_drop, length_drop, hlen])
    apply ext_getElem?
    intro k
    rw [getElem?_bits_drop, getElem?_bits_drop]
    exact hothers (by omega)
  · exact not_burst h hlen (Nat.le_of_not_lt hheader) (fun k hk => hothers (by omega))
      (flipBit_ne hi)

lemma not_truncated (h : deserialize data = .ok s) {n : ℕ} (hn : n < data.length) :
    deserialize (data.take n) ≠ .ok s' := by
  intro h'
  have hlen := length_take_of_le (Nat.le_of_lt hn)
  by_cases hshort : n < dbHeaderLen
  · rw [deserialize, checkDatabase, if_pos (by rwa [hlen])] at h'
    cases h'
  · have hheader : (data.take n).take dbHeaderLen = data.take dbHeaderLen := by
      rw [take_take, Nat.min_eq_left (Nat.le_of_not_lt hshort)]
    have hsame := (checksum_of_header h h' hheader).1
    omega

lemma Corrupted.refused (h : deserialize data = .ok s) (hdata : Corrupted data data') :
    deserialize data' ≠ .ok s' := by
  cases hdata with
  | flipped hi => exact not_flipped h hi
  | burst hlen hpayload hagree hne => exact not_burst h hlen hpayload hagree hne
  | truncated hn => exact not_truncated h hn

def Refuses {α : Type} (x : Access α) : Prop := ∀ e, x = .error e → e = .status .invalidArgument

variable {α β : Type}

lemma refuses_ok (a : α) : Refuses (.ok a) := nofun

lemma refuses_invalid : Refuses (.error (.status .invalidArgument) : Access α) := by
  intro e h
  exact (Except.error.inj h).symm

lemma refuses_orInvalid {x : Access α} (hx : InRange x) : Refuses (orInvalid x) := by
  intro e h
  cases x with
  | ok a => cases h
  | error e' =>
    cases e' with
    | status st => exact (Except.error.inj h).symm
    | outOfRange => exact absurd rfl hx

lemma Refuses.bind {x : Access α} {f : α → Access β} (hx : Refuses x)
    (hf : ∀ a, x = .ok a → Refuses (f a)) : Refuses (x >>= f) := by
  intro e h
  cases hcase : x with
  | ok a =>
    rw [hcase] at h
    exact hf a hcase e h
  | error e' =>
    rw [hcase] at h
    obtain rfl := Except.error.inj h
    exact hx _ hcase

lemma Refuses.inRange {x : Access α} (hx : Refuses x) : InRange x := by
  intro h
  cases hx _ h

lemma readAddr_inRange (r : Reader) : InRange (readAddr r) := by
  refine (refuses_orInvalid r.readU8_inRange).inRange.bind fun ⟨type, r⟩ _ => ?_
  dsimp only
  split
  · exact inRange_status _
  · exact (r.readBytes_inRange _).bind fun _ _ => inRange_ok _

lemma readEntry_inRange (data : Bytes) : InRange (readEntry data) := by
  unfold readEntry
  split
  · exact inRange_status _
  · refine (readAddr_inRange _).bind fun ⟨_, r⟩ _ => (readAddr_inRange r).bind fun ⟨_, r⟩ _ => ?_
    refine r.readU8_inRange.bind fun ⟨_, r⟩ _ => r.readU8_inRange.bind fun ⟨_, r⟩ _ => ?_
    refine (r.readBytes_inRange _).bind fun ⟨_, r⟩ _ => r.readU8_inRange.bind fun ⟨_, r⟩ _ => ?_
    refine (r.readBytes_inRange _).bind fun ⟨_, r⟩ _ =>
      (r.readBytes_inRange _).bind fun ⟨_, r⟩ _ => ?_
    refine r.readLe16_inRange.bind fun ⟨_, r⟩ _ => r.readU8_inRange.bind fun ⟨_, r⟩ _ => ?_
    refine (r.readBytes_inRange _).bind fun ⟨_, r⟩ _ =>
      (r.readBytes_inRange _).bind fun ⟨_, r⟩ _ => ?_
    dsimp only
    split
    · exact inRange_ok _
    · exact inRange_status _

lemma readRecord_inRange (r : Reader) : InRange (readRecord r) := by
  refine r.readU8_inRange.bind fun ⟨_, r⟩ _ => r.readU8_inRange.bind fun ⟨_, r⟩ _ =>
    r.readLe16_inRange.bind fun ⟨len, r⟩ _ => ?_
  dsimp only
  split
  · exact inRange_status _
  · exact (r.skip_inRange _).bind fun _ _ => inRange_ok _

lemma validateRecords_refuses (fuel known : ℕ) (r : Reader) :
    Refuses (validateRecords fuel known r) := by
  induction fuel generalizing known r with
  | zero => exact refuses_ok _
  | succ fuel ih =>
    rw [validateRecords]
    split
    · exact refuses_ok _
    · have hrecord := refuses_orInvalid (readRecord_inRange r)
      refine hrecord.bind fun x _ => ?_
      obtain ⟨⟨type, reserved, record⟩, r⟩ := x
      dsimp only
      split
      · exact refuses_invalid
      · split
        · refine (refuses_orInvalid (readEntry_inRange record)).bind fun _ _ => ?_
          split
          · exact refuses_invalid
          · exact ih _ _
        · exact ih _ _

lemma validatePayload_refuses (payload : Bytes) (count : UInt16) :
    Refuses (validatePayload payload count) := by
  refine (validateRecords_refuses _ _ _).bind fun known _ => ?_
  split
  · exact refuses_ok _
  · exact refuses_invalid

lemma checkDatabase_refuses (data : Bytes) : Refuses (checkDatabase data) := by
  unfold checkDatabase
  split
  · exact refuses_invalid
  · refine (refuses_orInvalid (Reader.readBytes_inRange _ 4)).bind fun ⟨_, r⟩ _ => ?_
    refine (refuses_orInvalid r.readLe16_inRange).bind fun ⟨_, r⟩ _ => ?_
    refine (refuses_orInvalid r.readLe16_inRange).bind fun ⟨_, r⟩ _ => ?_
    refine (refuses_orInvalid r.readLe16_inRange).bind fun ⟨count, r⟩ _ => ?_
    refine (refuses_orInvalid r.readLe16_inRange).bind fun ⟨_, r⟩ _ => ?_
    refine (refuses_orInvalid r.readLe32_inRange).bind fun ⟨_, r⟩ _ => ?_
    refine (refuses_orInvalid r.readLe32_inRange).bind fun ⟨_, r⟩ _ => ?_
    dsimp only
    split
    · exact refuses_invalid
    · split
      · exact refuses_invalid
      · split
        · exact refuses_invalid
        · exact (refuses_orInvalid (validatePayload_refuses _ _).inRange).bind fun _ _ =>
            refuses_ok _

lemma deserializeInto_eq (out : Store) (data : Bytes) :
    deserializeInto out data = .ok (match deserialize data with
      | .ok s => (.ok, s)
      | .error _ => (.invalidArgument, out)) := by
  unfold deserializeInto deserialize
  cases hcheck : checkDatabase data with
  | error e =>
    obtain rfl := checkDatabase_refuses data e hcheck
    rfl
  | ok payload =>
    obtain ⟨-, -, -, -, s, -, hload⟩ := checkDatabase_exact hcheck
    simp only [bind, Except.bind, hload]
    rfl

/-- Every damage to a written database is noticed, and a call that fails, on whatever octets, leaves
the store alone. -/
theorem deserializeInto_corrupted :
    (∀ (s : Store) (w w' : Writer) (out : Store) (data : Bytes), serialize s w = .ok w' →
      Corrupted (w'.data.drop w.data.length) data →
      deserializeInto out data = .ok (.invalidArgument, out)) ∧
    ∀ (out : Store) (data : Bytes), ∃ status out',
      deserializeInto out data = .ok (status, out') ∧ (status ≠ .ok → out' = out) := by
  constructor
  · intro s w w' out data hwritten hdamage
    obtain ⟨hvalid, hdata⟩ := serialize_ok hwritten
    rw [hdata, drop_left] at hdamage
    have hrefused {s'} : deserialize data ≠ .ok s' := hdamage.refused (deserialize_records hvalid)
    rw [deserializeInto_eq]
    cases h : deserialize data with
    | ok s' => exact absurd h hrefused
    | error e => rfl
  · intro out data
    rw [deserializeInto_eq]
    cases deserialize data with
    | ok s => exact ⟨.ok, s, rfl, fun h => absurd rfl h⟩
    | error e => exact ⟨.invalidArgument, out, rfl, fun _ => rfl⟩

end Bluzing.Bonds
