import Bluzing.Hid.Packing

/-! Array fields: an element of an array is an index into the usages of its field, which begin with
Usage Minimum at Logical Minimum. -/
namespace Bluzing.Hid
open List

def Field.index (f : Field) (raw : UInt32) : ℤ :=
  if f.logicalMin < 0 then (signValue raw f.bitSize).toInt else raw.toNat

def Field.InLogicalRange (f : Field) (x : ℤ) : Prop :=
  f.logicalMin.toInt ≤ x ∧ x ≤ f.logicalMax.toInt

instance (f : Field) (x : ℤ) : Decidable (f.InLogicalRange x) :=
  inferInstanceAs (Decidable (f.logicalMin.toInt ≤ x ∧ x ≤ f.logicalMax.toInt))

def Field.usageAt (f : Field) (x : ℤ) : UInt16 :=
  UInt16.ofInt (f.usageMin.toNat + (x - f.logicalMin.toInt))

def indexedValue (f : Field) (reportId : UInt8) (raw : UInt32) : Option Value :=
  if raw ≠ 0 ∧ f.InLogicalRange (f.index raw) then
    some ⟨reportId, f.usagePage, f.usageAt (f.index raw), 1, f.flags, true⟩
  else none

def indexedValues (payload : Bytes) (reportId : UInt8) (f : Field) : List Value :=
  (range f.count.toNat).filterMap fun element =>
    indexedValue f reportId (rawElement payload f element)

variable {α β : Type} {f g : α → Option β} {l : List α}

lemma length_filterMap_le_of_dom (hdom : ∀ a ∈ l, f a = none → g a = none) :
    (l.filterMap g).length ≤ (l.filterMap f).length := by
  induction l with
  | nil => exact le_rfl
  | cons a l ih =>
    obtain ⟨ha, hrest⟩ := forall_mem_cons.mp hdom
    have hle := ih hrest
    cases hf : f a with
    | none => simpa [hf, ha hf] using hle
    | some b =>
      cases hg : g a with
      | none => simpa [hf, hg] using hle.trans (Nat.le_succ _)
      | some c => simpa [hf, hg] using hle

lemma filterMap_eq_iff (hdom : ∀ a ∈ l, f a = none → g a = none) :
    l.filterMap f = l.filterMap g ↔ ∀ a ∈ l, f a = g a := by
  induction l with
  | nil => simp
  | cons a l ih =>
    obtain ⟨ha, hrest⟩ := forall_mem_cons.mp hdom
    rw [forall_mem_cons, ← ih hrest]
    cases hf : f a with
    | none => simp [hf, ha hf]
    | some b =>
      cases hg : g a with
      | some c => simp [hf, hg]
      | none =>
        -- one more on the left than there can be on the right
        have hle := length_filterMap_le_of_dom hrest
        simp only [filterMap_cons, hf, hg, reduceCtorEq, false_and, iff_false]
        intro heq
        have hlength := congrArg length heq
        rw [length_cons] at hlength
        omega

section

variable {f : Field} {payload : Bytes} {reportId : UInt8} {raw : UInt32}

lemma elementValue_eq_indexedValue_iff (harray : isVariable f.flags = false) :
    elementValue f reportId raw = indexedValue f reportId raw ↔
      (raw ≠ 0 → f.InLogicalRange (f.index raw) ∧ raw.toUInt16 = f.usageAt (f.index raw)) := by
  unfold elementValue indexedValue
  by_cases hraw : raw = 0
  · simp [harray, hraw]
  · by_cases hrange : f.InLogicalRange (f.index raw)
    · simp [harray, hraw, hrange]
    · simp [harray, hraw, hrange]

lemma fieldValues_eq_indexedValues_iff (harray : isVariable f.flags = false) :
    fieldValues payload reportId f = indexedValues payload reportId f ↔
      ∀ element < f.count.toNat, rawElement payload f element ≠ 0 →
        f.InLogicalRange (f.index (rawElement payload f element)) ∧
          (rawElement payload f element).toUInt16 =
            f.usageAt (f.index (rawElement payload f element)) := by
  rw [fieldValues, indexedValues, filterMap_eq_iff]
  · simp only [mem_range, elementValue_eq_indexedValue_iff harray]
  · intro element _ hnone
    have hzero : rawElement payload f element = 0 := by
      by_contra hraw
      simp [elementValue, harray, hraw] at hnone
    simp [indexedValue, hzero]

lemma fieldsValues_append {fields later : List Field} (hfits : ∀ f ∈ fields,
      f.reportId = reportId → f.start + f.bits ≤ payload.length * 8) :
    fieldsValues payload reportId (fields ++ later) =
      ((fieldsValues payload reportId fields).1 ++ (fieldsValues payload reportId later).1,
        (fieldsValues payload reportId later).2) := by
  induction fields with
  | nil => rfl
  | cons f fields ih =>
    obtain ⟨hf, hrest⟩ := forall_mem_cons.mp hfits
    rw [cons_append, fieldsValues, fieldsValues, ih hrest]
    by_cases hid : f.reportId = reportId
    · by_cases hconstant : f.flags &&& inputConstant = 0
      · simp [hid, hconstant, Nat.not_lt.mpr (hf hid)]
      · simp [hid, hconstant, Nat.not_lt.mpr (hf hid)]
    · simp [hid]

end

section

variable {data : Bytes} {d : Descriptor} {f : Field} {pre post : List Field}
  {payload : Bytes}

lemma fits_before (hparse : reportParse data = .ok d) (hfields : d.fields = pre ++ f :: post)
    (hfits : f.start + f.bits ≤ payload.length * 8) :
    ∀ g ∈ pre, g.reportId = f.reportId → g.start + g.bits ≤ payload.length * 8 := by
  intro g hg hid
  have horder := (reportParse_ok hparse).pairwise f.reportId
  rw [Descriptor.fieldsOf, hfields, filter_append, filter_cons_of_pos (by simp),
    pairwise_append] at horder
  have hle := horder.2.2 g (mem_filter.mpr ⟨hg, by simp [hid]⟩) f mem_cons_self
  omega

/-- The values that the decoder yields for an array field are those that its elements stand for,
exactly if each element that is not zero is in the logical range and, as an index, stands for the
usage of the same number. -/
theorem arrayField_indexed_iff (hparse : reportParse data = .ok d)
    (hfields : d.fields = pre ++ f :: post) (harray : isVariable f.flags = false)
    (hdata : f.flags &&& inputConstant = 0) (hfits : f.start + f.bits ≤ payload.length * 8) :
    ∃ before after status,
      decodeInput (fun (seen : List Value) v => (seen ++ [v], true)) d
        (withId d f.reportId payload) [] =
          .ok (status, before ++ fieldValues payload f.reportId f ++ after) ∧
      (fieldValues payload f.reportId f = indexedValues payload f.reportId f ↔
        ∀ element < f.count.toNat, rawElement payload f element ≠ 0 →
          f.InLogicalRange (f.index (rawElement payload f element)) ∧
            (rawElement payload f element).toUInt16 =
              f.usageAt (f.index (rawElement payload f element))) := by
  have hmem : f ∈ d.fields := by
    rw [hfields]
    exact mem_append_right _ mem_cons_self
  obtain ⟨r, hr, hid⟩ := (reportParse_ok hparse).known f hmem
  have hcollect := decodeInput_collect (reportParse_readable hparse)
    (withId d f.reportId payload)
  rw [← hid, decoded_withId hparse hr, hid, hfields,
    fieldsValues_append (fits_before hparse hfields hfits), fieldsValues,
    if_neg (not_not_intro rfl), if_neg (Nat.not_lt.mpr hfits), if_neg (not_not_intro hdata),
    ← append_assoc] at hcollect
  exact ⟨_, _, _, hcollect, fieldValues_eq_indexedValues_iff harray⟩

end

theorem keyboard_indexed :
    ∃ before after status,
      decodeInput (fun (seen : List Value) v => (seen ++ [v], true)) keyboard
        (withId keyboard 0 [4, 5]) [] = .ok (status, before ++
          indexedValues [4, 5] 0 ⟨0, 0, 8, 2, 0, 7, 0, 0x65, 0, 0x65⟩ ++ after) := by
  have hparse : reportParse keyboardDescriptor = .ok keyboard := by decide +kernel
  have hfields : keyboard.fields = [] ++ ⟨0, 0, 8, 2, 0, 7, 0, 0x65, 0, 0x65⟩ :: [] := rfl
  have hfits : Field.start ⟨0, 0, 8, 2, 0, 7, 0, 0x65, 0, 0x65⟩ +
      Field.bits ⟨0, 0, 8, 2, 0, 7, 0, 0x65, 0, 0x65⟩ ≤ ([4, 5] : Bytes).length * 8 := by
    decide
  obtain ⟨before, after, status, hdecode, hiff⟩ := arrayField_indexed_iff hparse hfields (by decide)
    (by decide) hfits
  rw [hiff.mpr (by decide)] at hdecode
  exact ⟨before, after, status, hdecode⟩

def offsetKeysDescriptor : Bytes :=
  [0x05, 0x07, 0x19, 0x04, 0x29, 0x65, 0x15, 0x01, 0x25, 0x62, 0x75, 0x08, 0x95, 0x01, 0x81, 0x00]

def offsetKeys : Field := ⟨0, 0, 8, 1, 0, 7, 4, 0x65, 1, 0x62⟩

/-- Index 1 is usage 4, and is reported as usage 1; index 0x70 is no usage, and is reported. -/
theorem offsetKeys_misread :
    reportParse offsetKeysDescriptor = .ok ⟨[offsetKeys], [⟨0, 8⟩], false⟩ ∧
      decodeInput (fun (seen : List Value) v => (seen ++ [v], true))
        ⟨[offsetKeys], [⟨0, 8⟩], false⟩ [1] [] = .ok (.ok, [⟨0, 7, 1, 1, 0, true⟩]) ∧
      indexedValues [1] 0 offsetKeys = [⟨0, 7, 4, 1, 0, true⟩] ∧
      decodeInput (fun (seen : List Value) v => (seen ++ [v], true))
        ⟨[offsetKeys], [⟨0, 8⟩], false⟩ [0x70] [] = .ok (.ok, [⟨0, 7, 0x70, 1, 0, true⟩]) ∧
      indexedValues [0x70] 0 offsetKeys = [] := by
  decide +kernel

end Bluzing.Hid
