import Bluzing.Hid.Reading

/-! Report Size and Report Count items hold numbers of up to thirty-two bits, of which the parser
keeps the low sixteen before it checks any limit. -/
namespace Bluzing.Hid
open List

def InputItem.Exact (i : InputItem) : Prop := i.sizes.size < 65536 ∧ i.sizes.count < 65536

variable {i : InputItem} {inputs : List InputItem} {slots : List Slot} {offset : ℕ}

lemma InputItem.Exact.reduced (h : i.Exact) : i.reduced = i := by
  rw [InputItem.reduced, Sizes.reduced, Nat.mod_eq_of_lt h.1, Nat.mod_eq_of_lt h.2]

lemma place_reduced (h : ∀ i ∈ inputs, i.Exact) (slots : List Slot) :
    place (inputs.map InputItem.reduced) slots = place inputs slots := by
  have hsame : inputs.map InputItem.reduced = inputs.map id :=
    map_congr_left fun i hi => (h i hi).reduced
  rw [hsame, map_id]

lemma prefix_place (inputs : List InputItem) (slots : List Slot) :
    slots <+: place inputs slots := by
  induction inputs generalizing slots with
  | nil => exact prefix_rfl
  | cons i inputs ih => exact (prefix_append _ _).trans (ih _)

lemma InputItem.length_slots (i : InputItem) (offset : ℕ) :
    (i.slots offset).length = if isVariable i.flags then i.sizes.count else 1 := by
  unfold InputItem.slots
  split <;> simp

lemma InputItem.head_slots (hcount : i.sizes.count ≠ 0) :
    (i.slots offset).head? = some ⟨i.sizes.reportId, offset, i.sizes.size,
      if isVariable i.flags then 1 else i.sizes.count⟩ := by
  unfold InputItem.slots
  cases hvariable : isVariable i.flags with
  | true =>
    obtain ⟨n, hn⟩ := Nat.exists_eq_succ_of_ne_zero hcount
    simp [hn, range_succ_eq_map]
  | false => simp

lemma exact_of_common {all : List Slot} (hcount : i.sizes.reduced.count ≠ 0)
    (hlength : all.length ≤ maxFields) (hreduced : i.reduced.slots offset <+: all)
    (hexact : i.slots offset <+: all) : i.Exact := by
  have hcount' : i.sizes.count ≠ 0 := by
    intro hzero
    exact hcount (by simp [Sizes.reduced, hzero])
  have hfirst {slots : List Slot} {s : Slot} (hstart : slots <+: all)
      (hs : slots.head? = some s) : all.head? = some s := by
    obtain ⟨later, rfl⟩ := hstart
    rw [head?_append, hs]
    rfl
  have hsame := (hfirst hreduced (i.reduced.head_slots hcount)).symm.trans
    (hfirst hexact (i.head_slots hcount'))
  have hlong := hexact.length_le
  rw [InputItem.length_slots] at hlong
  simp only [InputItem.reduced, Sizes.reduced, Option.some.injEq, Slot.mk.injEq, true_and] at hsame
  obtain ⟨hsize, helements⟩ := hsame
  have hsize' : i.sizes.size < 65536 := by omega
  refine ⟨hsize', ?_⟩
  cases hvariable : isVariable i.flags with
  | true =>
    simp only [hvariable, if_true] at hlong
    exact Nat.lt_of_le_of_lt (Nat.le_trans hlong hlength) (by decide)
  | false =>
    simp only [hvariable, Bool.false_eq_true, if_false] at helements
    omega

lemma exact_of_place_eq (hcounts : ∀ i ∈ inputs, i.sizes.reduced.count ≠ 0)
    (hlength : (place (inputs.map InputItem.reduced) slots).length ≤ maxFields)
    (heq : place (inputs.map InputItem.reduced) slots = place inputs slots) :
    ∀ i ∈ inputs, i.Exact := by
  induction inputs generalizing slots with
  | nil => nofun
  | cons i inputs ih =>
    obtain ⟨hcount, hrest⟩ := forall_mem_cons.mp hcounts
    have hreduced := prefix_place (inputs.map InputItem.reduced)
      (slots ++ i.reduced.slots (bitsIn slots i.sizes.reportId))
    have hexact := prefix_place inputs (slots ++ i.slots (bitsIn slots i.sizes.reportId))
    change place (inputs.map InputItem.reduced)
      (slots ++ i.reduced.slots (bitsIn slots i.sizes.reportId)) =
        place inputs (slots ++ i.slots (bitsIn slots i.sizes.reportId)) at heq
    change (place (inputs.map InputItem.reduced)
      (slots ++ i.reduced.slots (bitsIn slots i.sizes.reportId))).length ≤ maxFields at hlength
    rw [← heq] at hexact
    -- both begin with what was there and go on with the fields of this item
    obtain ⟨all, hall⟩ := (prefix_append slots _).trans hreduced
    have hi : i.Exact := by
      rw [← hall, length_append] at hlength
      rw [← hall] at hreduced hexact
      exact exact_of_common hcount (by omega) ((prefix_append_right_inj slots).mp hreduced)
        ((prefix_append_right_inj slots).mp hexact)
    refine forall_mem_cons.mpr ⟨hi, ?_⟩
    rw [hi.reduced] at heq hlength
    exact ih hrest hlength heq

/-- The fields of an accepted descriptor have the sizes, counts and offsets that its items give
them, exactly if the Report Size and Report Count of each Input item fit into sixteen bits. -/
theorem reportParse_exact_iff {data : Bytes} {d : Descriptor}
    (hparse : reportParse data = .ok d) :
    d.fields.map Field.slot = place (inputItems data) [] ↔
      ∀ i ∈ inputItems data, i.sizes.size < 65536 ∧ i.sizes.count < 65536 := by
  obtain ⟨hslots, -, hcounts⟩ := reportParse_reading hparse
  have hlength := (reportParse_ok hparse).fieldCount
  rw [← length_map Field.slot, hslots] at hlength
  rw [hslots]
  constructor
  · exact exact_of_place_eq hcounts hlength
  · intro hexact
    exact place_reduced hexact []

theorem mouseAxes_exact :
    ∃ d, reportParse [0x05, 0x01, 0x09, 0x30, 0x09, 0x31, 0x75, 0x08, 0x95, 0x02, 0x81, 0x06] =
        .ok d ∧
      d.fields.map Field.slot = [⟨0, 0, 8, 1⟩, ⟨0, 8, 8, 1⟩] := by
  have hparse : reportParse [0x05, 0x01, 0x09, 0x30, 0x09, 0x31, 0x75, 0x08, 0x95, 0x02, 0x81,
      0x06] = .ok ⟨[⟨0, 0, 8, 1, 6, 1, 0x30, 0x30, 0, 0⟩, ⟨0, 8, 8, 1, 6, 1, 0x31, 0x31, 0, 0⟩],
        [⟨0, 16⟩], false⟩ := by decide +kernel
  refine ⟨_, hparse, ((reportParse_exact_iff hparse).mpr ?_).trans ?_⟩
  · decide +kernel
  · decide +kernel

def wideDescriptor : Bytes :=
  [0x05, 0x01, 0x09, 0x30, 0x77, 0x08, 0x00, 0x01, 0x00, 0x95, 0x01, 0x81, 0x02]

/-- The descriptor is accepted, with a field of eight bits. -/
theorem wideDescriptor_reduced :
    reportParse wideDescriptor =
        .ok ⟨[⟨0, 0, 8, 1, 2, 1, 0x30, 0x30, 0, 0⟩], [⟨0, 8⟩], false⟩ ∧
      place (inputItems wideDescriptor) [] = [⟨0, 0, 65544, 1⟩] := by
  decide +kernel

end Bluzing.Hid
