import Bluzing.Hid.Values

/-! Reports made from values: whatever is packed into the variable fields of a report at their bit
offsets is what the decoder reads there. -/
namespace Bluzing.Hid
open List

def Descriptor.variableFields (d : Descriptor) (reportId : UInt8) : List Field :=
  (d.fieldsOf reportId).filter fun f => isVariable f.flags && f.flags &&& inputConstant == 0

def Field.Holds (f : Field) (x : ℤ) : Prop :=
  if f.logicalMin < 0 then -2 ^ f.bitSize.toNat ≤ 2 * x ∧ 2 * x < 2 ^ f.bitSize.toNat
  else 0 ≤ x ∧ x < 2 ^ f.bitSize.toNat

def Field.encode (f : Field) (x : ℤ) : ℕ := (x % 2 ^ f.bitSize.toNat).toNat

def toWrite (a : Field × ℤ) : BitWrite := ⟨a.1.start, a.1.bitSize.toNat, a.1.encode a.2⟩

def pack (payload : Bytes) (assigned : List (Field × ℤ)) : Bytes :=
  writeAll payload (assigned.map toWrite)

def withId (d : Descriptor) (reportId : UInt8) (payload : Bytes) : Bytes :=
  if d.usesReportIds then reportId :: payload else payload

variable {bitSize : UInt8}

lemma signMask_toNat {k : ℕ} (hk : k < 32) :
    ((0xFFFFFFFF : UInt32) <<< UInt32.ofNat k).toNat = 2 ^ k * (2 ^ (32 - k) - 1) := by
  have hall : ∀ k : Fin 32, ((0xFFFFFFFF : UInt32) <<< UInt32.ofNat k).toNat =
      2 ^ k.val * (2 ^ (32 - k.val) - 1) := by decide
  exact hall ⟨k, hk⟩

lemma int32_ofInt_add (x : ℤ) : Int32.ofInt (x + 2 ^ 32) = Int32.ofInt x := by
  rw [Int32.ofInt_add]
  exact Int32.add_zero _

lemma signBit_iff (value : UInt32) {k : ℕ} (hk : bitSize.toNat = k + 1) (hlt : k < 32) :
    (value &&& (1 <<< (bitSize.toUInt32 - 1)) ≠ 0) ↔ value.toNat.testBit k = true := by
  have hshift : bitSize.toUInt32 - 1 = UInt32.ofNat k := by
    have hle : (1 : UInt32) ≤ bitSize.toUInt32 := by
      rw [UInt32.le_iff_toNat_le, UInt8.toNat_toUInt32, hk]
      exact Nat.le_add_left 1 k
    rw [← UInt32.toNat_inj, UInt32.toNat_sub_of_le _ _ hle, UInt8.toNat_toUInt32, hk,
      UInt32.toNat_ofNat', Nat.mod_eq_of_lt (by omega)]
    rfl
  rw [hshift, and_bit_ne_zero _ hlt]

lemma signValue_nonneg {raw : ℕ} (hsmall : 2 * raw < 2 ^ bitSize.toNat)
    (hsize : bitSize.toNat ≤ 32) : signValue (UInt32.ofNat raw) bitSize = Int32.ofNat raw := by
  rw [signValue, if_neg, UInt32.toInt32_ofNat']
  rintro ⟨hne, -, hbit⟩
  have hpos := fun h => hne (UInt8.toNat_inj.mp h)
  obtain ⟨k, hk⟩ := Nat.exists_eq_succ_of_ne_zero hpos
  rw [signBit_iff _ hk (by omega), UInt32.toNat_ofNat'] at hbit
  rw [hk, Nat.pow_succ] at hsmall
  rw [Nat.testBit_lt_two_pow (by omega)] at hbit
  cases hbit

lemma signValue_neg {k raw : ℕ} (hk : bitSize.toNat = k + 1) (hsize : k < 32)
    (hlow : 2 ^ k ≤ raw) (hhigh : raw < 2 ^ (k + 1)) :
    signValue (UInt32.ofNat raw) bitSize = Int32.ofInt (raw - 2 ^ (k + 1)) := by
  have hraw : raw < 2 ^ 32 := hhigh.trans_le (Nat.pow_le_pow_right (by decide) hsize)
  rw [signValue]
  by_cases hwide : k = 31
  · subst hwide
    rw [if_neg, UInt32.toInt32_ofNat', ← Int32.ofInt_eq_ofNat,
      ← int32_ofInt_add (raw - 2 ^ (31 + 1)), Int.sub_add_cancel]
    · rintro ⟨-, hlt, -⟩
      rw [UInt8.lt_iff_toNat_lt, hk] at hlt
      exact absurd hlt (by decide)
  · have hne : bitSize ≠ 0 := by
      rintro rfl
      cases hk
    have hlt : bitSize < 32 := by
      rw [UInt8.lt_iff_toNat_lt, hk]
      change k + 1 < 32
      omega
    have hbit : raw.testBit k = true := by
      rw [Nat.testBit_eq_decide_div_mod_eq, decide_eq_true_iff]
      have hdiv : raw / 2 ^ k = 1 := by
        rw [Nat.div_eq_iff (Nat.two_pow_pos k), Nat.pow_succ] at *
        omega
      rw [hdiv]
    have hvalue : (UInt32.ofNat raw).toNat = raw := by
      rw [UInt32.toNat_ofNat', Nat.mod_eq_of_lt hraw]
    have hshift : bitSize.toUInt32 = UInt32.ofNat (k + 1) := by
      rw [← UInt32.toNat_inj, UInt8.toNat_toUInt32, hk, UInt32.toNat_ofNat',
        Nat.mod_eq_of_lt (by omega)]
    have hmask : 2 ^ (k + 1) * (2 ^ (32 - (k + 1)) - 1) = 2 ^ 32 - 2 ^ (k + 1) := by
      rw [Nat.mul_sub, ← Nat.pow_add, Nat.mul_one]
      congr 2
      omega
    have hextended : UInt32.ofNat raw ||| (0xFFFFFFFF <<< bitSize.toUInt32) =
        UInt32.ofNat (2 ^ (k + 1) * (2 ^ (32 - (k + 1)) - 1) + raw) := by
      rw [← UInt32.toNat_inj, UInt32.toNat_or, hvalue, hshift, signMask_toNat (by omega),
        Nat.or_comm, ← Nat.two_pow_add_eq_or_of_lt hhigh, UInt32.toNat_ofNat',
        Nat.mod_eq_of_lt (by omega)]
    rw [if_pos ⟨hne, hlt, (signBit_iff _ hk hsize).mpr (hvalue.symm ▸ hbit)⟩, hextended,
      UInt32.toInt32_ofNat', ← Int32.ofInt_eq_ofNat, ← int32_ofInt_add (raw - 2 ^ (k + 1))]
    have hle : 2 ^ (k + 1) ≤ 2 ^ 32 := Nat.pow_le_pow_right (by decide) hsize
    rw [hmask, Int.natCast_add, Int.ofNat_sub hle]
    congr 1
    push_cast
    omega

variable {f : Field} {x : ℤ} {payload : Bytes} {reportId : UInt8}

lemma Field.encode_lt (f : Field) (x : ℤ) : f.encode x < 2 ^ f.bitSize.toNat := by
  have hpos : (0 : ℤ) < 2 ^ f.bitSize.toNat := Int.pow_pos (by decide)
  have hlt := Int.emod_lt_of_pos x hpos
  have hnonneg := Int.emod_nonneg x (Int.ne_of_gt hpos)
  rw [Field.encode, Int.toNat_lt hnonneg]
  exact_mod_cast hlt

lemma Field.encode_of_nonneg (hlow : 0 ≤ x) (hhigh : x < 2 ^ f.bitSize.toNat) :
    f.encode x = x.toNat := by
  rw [Field.encode, Int.emod_eq_of_lt hlow hhigh]

lemma Field.encode_of_neg (hlow : -2 ^ f.bitSize.toNat ≤ x) (hhigh : x < 0) :
    (f.encode x : ℤ) = x + 2 ^ f.bitSize.toNat := by
  rw [Field.encode, ← Int.add_emod_right, Int.emod_eq_of_lt (by omega) (by omega),
    Int.toNat_of_nonneg (by omega)]

lemma elementValue_encode (hvariable : isVariable f.flags = true) (hsize : f.bitSize.toNat ≤ 32)
    (hx : f.Holds x) :
    elementValue f reportId (UInt32.ofNat (f.encode x)) =
      some ⟨reportId, f.usagePage, f.usageMin, Int32.ofInt x, f.flags, false⟩ := by
  unfold Field.Holds at hx
  rw [elementValue, if_pos hvariable]
  split at hx
  next hsigned =>
    rw [if_pos hsigned]
    obtain ⟨hlow, hhigh⟩ := hx
    rcases Int.lt_or_le x 0 with hneg | hnonneg
    · have hencode := Field.encode_of_neg (f := f) (by omega) hneg
      have hlt := f.encode_lt x
      -- the sign bit is the highest one, so that there is one
      obtain hzero | ⟨k, hk⟩ : f.bitSize.toNat = 0 ∨ ∃ k, f.bitSize.toNat = k + 1 := by
        cases f.bitSize.toNat with
        | zero => exact .inl rfl
        | succ k => exact .inr ⟨k, rfl⟩
      · rw [hzero] at hlow
        omega
      · rw [hk] at hlow hencode hlt
        have hhalf : 2 ^ k ≤ f.encode x := by
          have hle : (2 : ℤ) ^ k ≤ f.encode x := by omega
          exact_mod_cast hle
        rw [signValue_neg hk (by omega) hhalf hlt, hencode, Int.add_sub_cancel]
    · have hsmall : 2 * x.toNat < 2 ^ f.bitSize.toNat := by
        have hcast : (2 : ℤ) * (x.toNat : ℤ) < 2 ^ f.bitSize.toNat := by
          rwa [Int.toNat_of_nonneg hnonneg]
        exact_mod_cast hcast
      rw [Field.encode_of_nonneg hnonneg (by omega), signValue_nonneg hsmall hsize,
        ← Int32.ofInt_eq_ofNat, Int.toNat_of_nonneg hnonneg]
  next hunsigned =>
    rw [if_neg hunsigned, UInt32.toInt32_ofNat', Field.encode_of_nonneg hx.1 hx.2,
      ← Int32.ofInt_eq_ofNat, Int.toNat_of_nonneg hx.1]

lemma fieldValues_filter (payload : Bytes) (reportId : UInt8) (f : Field) :
    (fieldValues payload reportId f).filter (fun v => !v.isArray) =
      if isVariable f.flags then fieldValues payload reportId f else [] := by
  have hkind : ∀ v ∈ fieldValues payload reportId f, v.isArray = !isVariable f.flags := by
    intro v hv
    obtain ⟨element, -, hv⟩ := mem_filterMap.mp hv
    unfold elementValue at hv
    split at hv
    next hvariable =>
      cases hv
      simp [hvariable]
    next harray =>
      split at hv
      · cases hv
      · cases hv
        simp [harray]
  split
  next hvariable =>
    rw [filter_eq_self]
    intro v hv
    simp [hkind v hv, hvariable]
  next harray =>
    rw [filter_eq_nil_iff]
    intro v hv
    simp [hkind v hv, harray]

lemma filter_flatMap_fieldValues (payload : Bytes) (reportId : UInt8) (fields : List Field) :
    (fields.flatMap (fieldValues payload reportId)).filter (fun v => !v.isArray) =
      (fields.filter fun f => isVariable f.flags).flatMap (fieldValues payload reportId) := by
  induction fields with
  | nil => rfl
  | cons f fields ih =>
    rw [flatMap_cons, filter_append, fieldValues_filter, ih]
    cases hvariable : isVariable f.flags <;> simp [hvariable]

lemma fieldValues_single (hcount : f.count = 1) {v : Value}
    (hv : elementValue f reportId (UInt32.ofNat (readBits payload f.start f.bitSize.toNat)) =
      some v) : fieldValues payload reportId f = [v] := by
  rw [fieldValues, hcount]
  simp [rawElement, hv]

variable {data : Bytes} {d : Descriptor} {r : ReportInfo} {assigned : List (Field × ℤ)}

lemma decoded_withId (hparse : reportParse data = .ok d) (hr : r ∈ d.reports) :
    decoded d (withId d r.reportId payload) = fieldsValues payload r.reportId d.fields := by
  unfold decoded payloadOf reportIdOf withId
  cases huses : d.usesReportIds with
  | true => simp
  | false => simp [reportParse_unnumbered hparse huses r hr]

lemma mem_variableFields_bits (hparse : reportParse data = .ok d) {reportId : UInt8} {f : Field}
    (hf : f ∈ d.variableFields reportId) :
    isVariable f.flags = true ∧ f.count = 1 ∧ f.bits = f.bitSize.toNat := by
  obtain ⟨hmem, hkind⟩ := mem_filter.mp hf
  have hvariable : isVariable f.flags = true := by
    simp only [Bool.and_eq_true] at hkind
    exact hkind.1
  have hcount := reportParse_single hparse f (mem_of_mem_filter hmem) hvariable
  refine ⟨hvariable, hcount, ?_⟩
  rw [Field.bits, hcount]
  exact Nat.mul_one _

lemma readBits_pack (hparse : reportParse data = .ok d) (hr : r ∈ d.reports)
    (hfields : assigned.map Prod.fst = d.variableFields r.reportId)
    (hroom : r.inputBits.toNat ≤ payload.length * 8) :
    ∀ a ∈ assigned, readBits (pack payload assigned) a.1.start a.1.bitSize.toNat =
      a.1.encode a.2 := by
  have hlayout := reportParse_ok hparse
  have hmem (a : Field × ℤ) (ha : a ∈ assigned) : a.1 ∈ d.variableFields r.reportId := by
    rw [← hfields]
    exact mem_map_of_mem ha
  have hbits (a : Field × ℤ) (ha : a ∈ assigned) := (mem_variableFields_bits hparse (hmem a ha)).2.2
  have hfits : ∀ f ∈ assigned.map toWrite, f.off + f.size ≤ payload.length * 8 := by
    intro f hf
    obtain ⟨a, ha, rfl⟩ := mem_map.mp hf
    have hend := ((hlayout.tiles r hr).mem_range (mem_of_mem_filter (hmem a ha))).2
    rw [hbits a ha] at hend
    exact hend.trans hroom
  have horder : (assigned.map toWrite).Pairwise fun f g => f.off + f.size ≤ g.off := by
    have hpairwise := (hlayout.pairwise r.reportId).filter fun f =>
      isVariable f.flags && f.flags &&& inputConstant == 0
    rw [← Descriptor.variableFields, ← hfields, pairwise_map] at hpairwise
    rw [pairwise_map]
    apply hpairwise.imp_of_mem
    intro a b ha _ hle
    rwa [hbits a ha] at hle
  intro a ha
  have hread := readBits_writeAll hfits horder (toWrite a) (mem_map_of_mem ha)
  exact hread.trans (Nat.mod_eq_of_lt (a.1.encode_lt a.2))

/-- Values packed into the variable fields of a report are read back from it. -/
theorem decodeInput_pack (hparse : reportParse data = .ok d) (hr : r ∈ d.reports)
    (hfields : assigned.map Prod.fst = d.variableFields r.reportId)
    (hvalues : ∀ a ∈ assigned, a.1.Holds a.2) (hroom : r.inputBits.toNat ≤ payload.length * 8) :
    ∃ values, decodeInput (fun (seen : List Value) v => (seen ++ [v], true)) d
        (withId d r.reportId (pack payload assigned)) [] = .ok (.ok, values) ∧
      values.filter (fun v => !v.isArray) = assigned.map fun a =>
        ⟨r.reportId, a.1.usagePage, a.1.usageMin, Int32.ofInt a.2, a.1.flags, false⟩ := by
  have hlayout := reportParse_ok hparse
  have hfits : ∀ f ∈ d.fields, f.reportId = r.reportId →
      f.start + f.bits ≤ (pack payload assigned).length * 8 := by
    intro f hf hid
    have hmem : f ∈ d.fieldsOf r.reportId := mem_filter.mpr ⟨hf, by simp [hid]⟩
    rw [pack, length_writeAll]
    exact ((hlayout.tiles r hr).mem_range hmem).2.trans hroom
  have hfield : ∀ a ∈ assigned, fieldValues (pack payload assigned) r.reportId a.1 =
      [⟨r.reportId, a.1.usagePage, a.1.usageMin, Int32.ofInt a.2, a.1.flags, false⟩] := by
    intro a ha
    have hmem : a.1 ∈ d.variableFields r.reportId := by
      rw [← hfields]
      exact mem_map_of_mem ha
    obtain ⟨hvariable, hcount, -⟩ := mem_variableFields_bits hparse hmem
    have hsize := reportParse_narrow hparse a.1
      (mem_of_mem_filter (mem_of_mem_filter hmem))
    apply fieldValues_single hcount
    rw [readBits_pack hparse hr hfields hroom a ha]
    exact elementValue_encode hvariable hsize (hvalues a ha)
  have hvariable : ((d.fieldsOf r.reportId).filter fun f => f.flags &&& inputConstant == 0).filter
      (fun f => isVariable f.flags) = assigned.map Prod.fst := by
    rw [hfields, Descriptor.variableFields, filter_filter]
  have hcollect := decodeInput_collect (reportParse_readable hparse)
    (withId d r.reportId (pack payload assigned))
  rw [decoded_withId hparse hr, fieldsValues_of_fits hfits] at hcollect
  refine ⟨_, hcollect, ?_⟩
  rw [filter_flatMap_fieldValues, ← Descriptor.fieldsOf, hvariable, flatMap_map,
    flatMap_congr hfield]
  exact map_eq_flatMap.symm

def mouseDescriptor : Bytes :=
  [0x05, 0x01, 0x09, 0x02, 0xA1, 0x01, 0x09, 0x01, 0xA1, 0x00, 0x05, 0x09, 0x19, 0x01, 0x29, 0x03,
    0x15, 0x00, 0x25, 0x01, 0x95, 0x03, 0x75, 0x01, 0x81, 0x02, 0x95, 0x01, 0x75, 0x05, 0x81, 0x01,
    0x05, 0x01, 0x09, 0x30, 0x09, 0x31, 0x15, 0x81, 0x25, 0x7F, 0x75, 0x08, 0x95, 0x02, 0x81, 0x06,
    0xC0, 0xC0]

def mouseButton (n : UInt16) : Field := ⟨0, n - 1, 1, 1, 2, 9, n, n, 0, 1⟩

def mouseX : Field := ⟨0, 8, 8, 1, 6, 1, 0x30, 0x30, -127, 127⟩
def mouseY : Field := ⟨0, 16, 8, 1, 6, 1, 0x31, 0x31, -127, 127⟩

def mouse : Descriptor :=
  ⟨[mouseButton 1, mouseButton 2, mouseButton 3, ⟨0, 3, 5, 1, 1, 9, 0, 0xFFFF, 0, 1⟩, mouseX,
    mouseY], [⟨0, 24⟩], false⟩

def mouseValues : List (Field × ℤ) :=
  [(mouseButton 1, 1), (mouseButton 2, 0), (mouseButton 3, 1), (mouseX, -2), (mouseY, 127)]

theorem mouse_pack :
    pack [0xFF, 0, 0xFF] mouseValues = [0xFD, 0xFE, 0x7F] ∧
      ∃ values, decodeInput (fun (seen : List Value) v => (seen ++ [v], true)) mouse
          (withId mouse 0 (pack [0xFF, 0, 0xFF] mouseValues)) [] = .ok (.ok, values) ∧
        values.filter (fun v => !v.isArray) = mouseValues.map fun a =>
          ⟨0, a.1.usagePage, a.1.usageMin, Int32.ofInt a.2, a.1.flags, false⟩ := by
  have hparse : reportParse mouseDescriptor = .ok mouse := by decide +kernel
  have hreport : (⟨0, 24⟩ : ReportInfo) ∈ mouse.reports := mem_singleton_self _
  have hholds : ∀ a ∈ mouseValues, a.1.Holds a.2 := by
    unfold Field.Holds
    decide +kernel
  exact ⟨by decide +kernel, decodeInput_pack hparse hreport (by decide +kernel) hholds (by decide)⟩

end Bluzing.Hid
