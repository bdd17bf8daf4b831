import Bluzing.Gatt.Att

/-! What the iterators see in a response whose entries all have the same length. -/
namespace Bluzing.Gatt
open List

def GroupEntry.octets (e : GroupEntry) : Bytes :=
  writeLe16 e.handle ++ (writeLe16 e.endGroupHandle ++ e.value)

def TypeEntry.octets (e : TypeEntry) : Bytes := writeLe16 e.handle ++ e.value

lemma takeValue_rest {r : Reader} {p tail : Bytes} (h : r.rest = p ++ tail) :
    ∃ r', takeValue r p.length = .ok (p, r') ∧ r'.rest = tail := by
  obtain ⟨r', hskip, hrest⟩ := Reader.skip_rest h
  refine ⟨r', ?_, hrest⟩
  rw [takeValue, Reader.peek_rest h]
  rw [hskip]
  rfl

variable {ε : Type} {next : Iter → Access (ε × Iter)} {octets : ε → Bytes} {entryLen : UInt8}

lemma drain_octets {entries : List ε}
    (hnext : ∀ e ∈ entries, ∀ (r : Reader) tail, r.rest = octets e ++ tail →
      ∃ r', next ⟨r, entryLen⟩ = .ok (e, ⟨r', entryLen⟩) ∧ r'.rest = tail)
    (hstop : ∀ r : Reader, r.remaining = 0 → ∃ err, next ⟨r, entryLen⟩ = .error err) {fuel : ℕ}
    (hfuel : entries.length ≤ fuel) {r : Reader} (hr : r.rest = (entries.map octets).flatten) :
    drain next fuel ⟨r, entryLen⟩ = entries := by
  induction entries generalizing fuel r with
  | nil =>
    cases fuel with
    | zero => rfl
    | succ fuel =>
      obtain ⟨err, herr⟩ := hstop r (by rw [← r.length_rest, hr]; rfl)
      rw [drain, herr]
  | cons e entries ih =>
    obtain ⟨hhead, htail⟩ := forall_mem_cons.mp hnext
    cases fuel with
    | zero => cases hfuel
    | succ fuel =>
      obtain ⟨r', hok, hrest⟩ := hhead r _ hr
      rw [drain, hok]
      dsimp only
      rw [ih htail (Nat.le_of_succ_le_succ hfuel) hrest]

lemma length_le_flatten {entries : List ε} (h : ∀ e ∈ entries, 0 < (octets e).length) :
    entries.length ≤ (entries.map octets).flatten.length := by
  have hlengths : ∀ n ∈ (entries.map octets).map length, 1 ≤ n :=
    forall_mem_map.mpr (forall_mem_map.mpr h)
  have hsum := length_le_sum_of_one_le _ hlengths
  rw [length_map, length_map] at hsum
  rw [length_flatten]
  exact hsum

lemma flatten_length {entries : List ε} {n : ℕ} (h : ∀ e ∈ entries, (octets e).length = n) :
    (entries.map octets).flatten.length = entries.length * n := by
  have hlengths : ∀ k ∈ (entries.map octets).map length, k = n :=
    forall_mem_map.mpr (forall_mem_map.mpr h)
  rw [length_flatten, sum_eq_card_nsmul _ n hlengths, length_map, length_map,
    Nat.nsmul_eq_mul]

lemma toNat_sub_of_add {entryLen k : UInt8} {n : ℕ} (h : k.toNat + n = entryLen.toNat) :
    (entryLen - k).toNat = n := by
  rw [UInt8.toNat_sub_of_le _ _ (UInt8.le_iff_toNat_le.mpr (by omega))]
  omega

lemma Reader.remaining_of_rest {r : Reader} {p tail : Bytes} (h : r.rest = p ++ tail) :
    p.length ≤ r.remaining := by
  rw [← r.length_rest, h, length_append]
  exact Nat.le_add_right _ _

lemma readByGroupTypeResponseIterNext_rest {entryLen : UInt8} {e : GroupEntry} {r : Reader}
    {tail : Bytes} (hlen : 4 + e.value.length = entryLen.toNat)
    (h : r.rest = e.octets ++ tail) :
    ∃ r', readByGroupTypeResponseIterNext ⟨r, entryLen⟩ = .ok (e, ⟨r', entryLen⟩) ∧
      r'.rest = tail := by
  have hroom := Reader.remaining_of_rest h
  have hoctets : e.octets.length = 4 + e.value.length := by
    simp only [GroupEntry.octets, writeLe16, length_append, length_cons,
      length_nil]
    omega
  unfold GroupEntry.octets at h
  rw [append_assoc, append_assoc] at h
  obtain ⟨r₁, hhandle, hrest₁⟩ := reads_le16.accepts trivial h
  obtain ⟨r₂, hend, hrest₂⟩ := reads_le16.accepts trivial hrest₁
  obtain ⟨r₃, hvalue, hrest₃⟩ := takeValue_rest hrest₂
  have hvalueLen : (entryLen - 4).toNat = e.value.length := toNat_sub_of_add hlen
  refine ⟨r₃, ?_, hrest₃⟩
  unfold readByGroupTypeResponseIterNext
  dsimp only
  rw [if_neg (by omega), if_neg (by omega)]
  simp only [hhandle, hend, hvalueLen, hvalue, bind, Except.bind, pure, Except.pure]

lemma typeEntry_rest {entryLen : UInt8} {e : TypeEntry} {r : Reader} {tail : Bytes}
    (hlen : 2 + e.value.length = entryLen.toNat) (h : r.rest = e.octets ++ tail) :
    entryLen.toNat ≤ r.remaining ∧ ∃ r₁ r', r.readLe16 = .ok (e.handle, r₁) ∧
      takeValue r₁ (entryLen - 2).toNat = .ok (e.value, r') ∧ r'.rest = tail := by
  have hroom := Reader.remaining_of_rest h
  have hoctets : e.octets.length = 2 + e.value.length := by
    simp only [TypeEntry.octets, writeLe16, length_append, length_cons, length_nil]
  unfold TypeEntry.octets at h
  rw [append_assoc] at h
  obtain ⟨r₁, hhandle, hrest₁⟩ := reads_le16.accepts trivial h
  obtain ⟨r₂, hvalue, hrest₂⟩ := takeValue_rest hrest₁
  have hvalueLen : (entryLen - 2).toNat = e.value.length := toNat_sub_of_add hlen
  rw [← hvalueLen] at hvalue
  exact ⟨by omega, r₁, r₂, hhandle, hvalue, hrest₂⟩

lemma readByTypeResponseIterNext_rest {entryLen : UInt8} {e : TypeEntry} {r : Reader}
    {tail : Bytes} (hlen : 2 + e.value.length = entryLen.toNat)
    (h : r.rest = e.octets ++ tail) :
    ∃ r', readByTypeResponseIterNext ⟨r, entryLen⟩ = .ok (e, ⟨r', entryLen⟩) ∧
      r'.rest = tail := by
  obtain ⟨hroom, r₁, r', hhandle, hvalue, hrest⟩ := typeEntry_rest hlen h
  refine ⟨r', ?_, hrest⟩
  unfold readByTypeResponseIterNext
  dsimp only
  rw [if_neg (by omega), if_neg (by omega)]
  simp only [hhandle, hvalue, bind, Except.bind, pure, Except.pure]

lemma findInformationResponseIterNext_rest {entryLen : UInt8} {e : TypeEntry} {r : Reader}
    {tail : Bytes} (hlen : 2 + e.value.length = entryLen.toNat)
    (h : r.rest = e.octets ++ tail) :
    ∃ r', findInformationResponseIterNext ⟨r, entryLen⟩ = .ok (e, ⟨r', entryLen⟩) ∧
      r'.rest = tail := by
  obtain ⟨hroom, r₁, r', hhandle, hvalue, hrest⟩ := typeEntry_rest hlen h
  refine ⟨r', ?_, hrest⟩
  unfold findInformationResponseIterNext
  dsimp only
  rw [if_neg (by omega)]
  simp only [hhandle, hvalue, bind, Except.bind, pure, Except.pure]

lemma entriesOf_octets {ε : Type} {init : Bytes → Access Iter}
    {next : Iter → Access (ε × Iter)} {octets : ε → Bytes} {lead entryLen : UInt8}
    {entries : List ε} {r : Reader}
    (hinit : init (lead :: (entries.map octets).flatten) = .ok ⟨r, entryLen⟩)
    (hr : r.rest = (entries.map octets).flatten)
    (hlen : ∀ e ∈ entries, 0 < (octets e).length)
    (hnext : ∀ e ∈ entries, ∀ (r : Reader) tail, r.rest = octets e ++ tail →
      ∃ r', next ⟨r, entryLen⟩ = .ok (e, ⟨r', entryLen⟩) ∧ r'.rest = tail)
    (hstop : ∀ r : Reader, r.remaining = 0 → ∃ err, next ⟨r, entryLen⟩ = .error err) :
    entriesOf init next (lead :: (entries.map octets).flatten) = some entries := by
  have hfuel : entries.length ≤ (lead :: (entries.map octets).flatten).length :=
    Nat.le_succ_of_le (length_le_flatten hlen)
  rw [entriesOf, hinit]
  dsimp only
  rw [drain_octets hnext hstop hfuel hr]

lemma lengthIterInit_ok {least entryLen : UInt8} (h : least ≤ entryLen) (tail : Bytes) :
    ∃ r, lengthIterInit least (entryLen :: tail) = .ok ⟨r, entryLen⟩ ∧ r.rest = tail := by
  obtain ⟨r, hread, hrest⟩ := reads_u8.accepts trivial
    (show (Reader.init (entryLen :: tail)).rest = [entryLen] ++ tail from rfl)
  refine ⟨r, ?_, hrest⟩
  simp only [lengthIterInit, hread, bind, Except.bind, if_neg (UInt8.not_lt.mpr h), pure,
    Except.pure]

lemma readByGroupTypeResponse_entries {entryLen : UInt8} {entries : List GroupEntry}
    (hleast : 4 ≤ entryLen) (hlen : ∀ e ∈ entries, 4 + e.value.length = entryLen.toNat) :
    entriesOf readByGroupTypeResponseIterInit readByGroupTypeResponseIterNext
      (entryLen :: (entries.map GroupEntry.octets).flatten) = some entries := by
  obtain ⟨r, hinit, hrest⟩ := lengthIterInit_ok hleast (entries.map GroupEntry.octets).flatten
  refine entriesOf_octets hinit hrest (fun e _ => Nat.succ_pos _)
    (fun e he r tail h => readByGroupTypeResponseIterNext_rest (hlen e he) h) fun r hempty => ?_
  exact ⟨_, if_pos hempty⟩

lemma readByTypeResponse_entries {entryLen : UInt8} {entries : List TypeEntry}
    (hleast : 2 ≤ entryLen) (hlen : ∀ e ∈ entries, 2 + e.value.length = entryLen.toNat) :
    entriesOf readByTypeResponseIterInit readByTypeResponseIterNext
      (entryLen :: (entries.map TypeEntry.octets).flatten) = some entries := by
  obtain ⟨r, hinit, hrest⟩ := lengthIterInit_ok hleast (entries.map TypeEntry.octets).flatten
  refine entriesOf_octets hinit hrest (fun e _ => Nat.succ_pos _)
    (fun e he r tail h => readByTypeResponseIterNext_rest (hlen e he) h) fun r hempty => ?_
  exact ⟨_, if_pos hempty⟩

lemma findInformationResponse_entries {format : UInt8} {entries : List TypeEntry}
    (hne : entries ≠ []) (hformat : format = 1 ∧ (∀ e ∈ entries, e.value.length = 2) ∨
      format = 2 ∧ ∀ e ∈ entries, e.value.length = 16) :
    entriesOf findInformationResponseIterInit findInformationResponseIterNext
      (format :: (entries.map TypeEntry.octets).flatten) = some entries := by
  obtain ⟨r, hread, hrest⟩ := reads_u8.accepts trivial
    (show (Reader.init (format :: (entries.map TypeEntry.octets).flatten)).rest =
      [format] ++ (entries.map TypeEntry.octets).flatten from rfl)
  let entryLen : UInt8 := if format = 1 then 4 else 18
  have hknown : ¬ (format ≠ 1 ∧ format ≠ 2) := by
    obtain ⟨h, -⟩ | ⟨h, -⟩ := hformat
    · exact fun hno => hno.1 h
    · exact fun hno => hno.2 h
  have hlen : ∀ e ∈ entries, 2 + e.value.length = entryLen.toNat := by
    intro e he
    obtain ⟨rfl, hvalue⟩ | ⟨rfl, hvalue⟩ := hformat
    · rw [hvalue e he]; rfl
    · rw [hvalue e he]; rfl
  have hoctets : ∀ e ∈ entries, e.octets.length = entryLen.toNat := by
    intro e he
    rw [← hlen e he]
    exact length_append
  have htotal : r.remaining = entries.length * entryLen.toNat := by
    rw [← r.length_rest, hrest, flatten_length hoctets]
  have hpos := length_pos_of_ne_nil hne
  have hentry : 0 < entryLen.toNat := by
    dsimp only [entryLen]
    split <;> decide
  have hfilled : ¬ (r.remaining = 0 ∨ r.remaining % entryLen.toNat ≠ 0) := by
    rw [htotal, Nat.mul_mod_left, not_or]
    exact ⟨Nat.ne_of_gt (Nat.mul_pos hpos hentry), fun h => h rfl⟩
  have hinit : findInformationResponseIterInit (format :: (entries.map TypeEntry.octets).flatten) =
      .ok ⟨r, entryLen⟩ := by
    simp only [findInformationResponseIterInit, hread, bind, Except.bind, if_neg hknown]
    exact if_neg hfilled
  refine entriesOf_octets hinit hrest (fun e _ => Nat.succ_pos _)
    (fun e he r tail h => findInformationResponseIterNext_rest (hlen e he) h) fun r hempty => ?_
  exact ⟨_, if_pos hempty⟩

end Bluzing.Gatt
