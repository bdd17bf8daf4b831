import Bluzing.Hid.Layout

/-! A report descriptor read without limits: the Input items with the Report Size and Report Count
in force as full numbers and the usages named since the Main item before, and where the fields of
such items lie. -/
namespace Bluzing.Hid
open List

inductive UseKind where
  | usage
  | minimum
  | maximum
  deriving DecidableEq

structure Use where
  kind : UseKind
  data : Bytes
  deriving DecidableEq

structure Sizes where
  size : ℕ
  count : ℕ
  reportId : UInt8
  deriving DecidableEq

structure InputItem where
  sizes : Sizes
  flags : UInt16
  uses : List Use
  deriving DecidableEq

structure Reading where
  sizes : Sizes
  stack : List Sizes
  uses : List Use
  inputs : List InputItem
  deriving DecidableEq

def Reading.init : Reading := ⟨⟨0, 0, 0⟩, [], [], []⟩

def Reading.item (r : Reading) (item : ShortItem) : Reading :=
  match item.kind with
  | .input => { r with
      uses := []
      inputs := r.inputs ++ [⟨r.sizes, (readUnsigned item.data).toUInt16, r.uses⟩] }
  | .main => { r with uses := [] }
  | .reportSize => { r with sizes := { r.sizes with size := (readUnsigned item.data).toNat } }
  | .reportCount => { r with sizes := { r.sizes with count := (readUnsigned item.data).toNat } }
  | .reportId => { r with sizes := { r.sizes with reportId := (readUnsigned item.data).toUInt8 } }
  | .push => { r with stack := r.sizes :: r.stack }
  | .pop =>
      match r.stack with
      | [] => r
      | sizes :: stack => { r with sizes, stack }
  | .usage => { r with uses := r.uses ++ [⟨.usage, item.data⟩] }
  | .usageMinimum => { r with uses := r.uses ++ [⟨.minimum, item.data⟩] }
  | .usageMaximum => { r with uses := r.uses ++ [⟨.maximum, item.data⟩] }
  | .other => r

def inputItems (data : Bytes) : List InputItem :=
  ((shortItems data.length data).getD []).foldl Reading.item .init |>.inputs

structure Slot where
  reportId : UInt8
  offset : ℕ
  size : ℕ
  count : ℕ
  deriving DecidableEq

def Slot.bits (s : Slot) : ℕ := s.size * s.count

def Field.slot (f : Field) : Slot := ⟨f.reportId, f.start, f.bitSize.toNat, f.count.toNat⟩

def bitsIn (slots : List Slot) (reportId : UInt8) : ℕ :=
  ((slots.filter fun s => s.reportId == reportId).map Slot.bits).sum

def InputItem.slots (i : InputItem) (offset : ℕ) : List Slot :=
  if isVariable i.flags then
    (range i.sizes.count).map fun k =>
      ⟨i.sizes.reportId, offset + k * i.sizes.size, i.sizes.size, 1⟩
  else [⟨i.sizes.reportId, offset, i.sizes.size, i.sizes.count⟩]

def place (inputs : List InputItem) (slots : List Slot) : List Slot :=
  inputs.foldl (fun slots i => slots ++ i.slots (bitsIn slots i.sizes.reportId)) slots

def Sizes.reduced (s : Sizes) : Sizes := ⟨s.size % 65536, s.count % 65536, s.reportId⟩

def InputItem.reduced (i : InputItem) : InputItem := { i with sizes := i.sizes.reduced }

def Use.value (u : Use) : UInt16 := (readUnsigned u.data).toUInt16

def valuesOf (kind : UseKind) (uses : List Use) : List UInt16 :=
  (uses.filter fun u => u.kind = kind).map Use.value

def localsOf (uses : List Use) : Locals :=
  ⟨valuesOf .usage uses, (valuesOf .minimum uses).getLast?, (valuesOf .maximum uses).getLast?⟩

def InputItem.recordedUsages (i : InputItem) : List UInt16 :=
  if isVariable i.flags then (range i.sizes.count).map (usageForIndex (localsOf i.uses))
  else [(localsOf i.uses).usageMin.getD 0]

structure Tracking (r : Reading) (p : Parser) : Prop where
  sizes : r.sizes.reduced = ⟨p.globals.reportSize.toNat, p.globals.reportCount.toNat,
    p.globals.reportId⟩
  stack : r.stack.map Sizes.reduced = p.stack.map fun g =>
    ⟨g.reportSize.toNat, g.reportCount.toNat, g.reportId⟩
  locals : p.locals = localsOf r.uses
  layout : Layout p.out
  slots : p.out.fields.map Field.slot = place (r.inputs.map InputItem.reduced) []
  usages : p.out.fields.map Field.usageMin =
    (r.inputs.map InputItem.reduced).flatMap InputItem.recordedUsages
  counts : ∀ i ∈ r.inputs, i.sizes.reduced.count ≠ 0

variable {r : Reading} {p p' : Parser} {item : ShortItem}

lemma place_concat (inputs : List InputItem) (i : InputItem) (slots : List Slot) :
    place (inputs ++ [i]) slots =
      place inputs slots ++ i.slots (bitsIn (place inputs slots) i.sizes.reportId) := by
  rw [place, foldl_append]
  rfl

lemma bitsIn_fields (fields : List Field) (reportId : UInt8) :
    bitsIn (fields.map Field.slot) reportId =
      ((fields.filter fun f => f.reportId == reportId).map Field.bits).sum := by
  rw [bitsIn, filter_map, map_map]
  rfl

lemma addInput_places {out out' : Descriptor} {g : Globals} {l : Locals} {flags : UInt16}
    (h : Layout out) (hadd : addInput out g l flags = .ok out') :
    ∃ inputBits : UInt16, inputBits.toNat = bitsIn (out.fields.map Field.slot) g.reportId ∧
      (g.reportSize.toNat ≤ 32 ∧ g.reportCount ≠ 0 ∧
        inputBits.toNat + g.reportSize.toNat * g.reportCount.toNat ≤ 65535) ∧
      out'.fields = out.fields ++
        (range (emitted g flags)).map (inputField g l flags inputBits) := by
  obtain ⟨out₁, i, r, hget, hr, hid, ⟨hsize, hcount, hfits, -⟩, hfields, -⟩ := addInput_cases hadd
  refine ⟨r.inputBits, ?_, ⟨hsize, hcount, hfits⟩, hfields⟩
  have htiles := (getReport_layout h hget).tiles r (mem_of_getElem? hr)
  rw [htiles.sum, Nat.zero_add, bitsIn_fields, ← (getReport_fields hget).1, hid,
    Descriptor.fieldsOf]

variable {g : Globals}

lemma slot_inputField {l : Locals} {flags inputBits : UInt16} {k : ℕ}
    (hsize : g.reportSize.toNat ≤ 32)
    (hfits : inputBits.toNat + k * g.reportSize.toNat ≤ 65535) :
    (inputField g l flags inputBits k).slot = ⟨g.reportId, inputBits.toNat + k * g.reportSize.toNat,
      g.reportSize.toNat, if isVariable flags then 1 else g.reportCount.toNat⟩ := by
  have hoffset : (inputField g l flags inputBits k).start =
      inputBits.toNat + k * g.reportSize.toNat := by
    rw [Field.start, inputField, UInt16.toNat_ofNat', Nat.mod_eq_of_lt (by omega)]
  have hbits : (inputField g l flags inputBits k).bitSize.toNat = g.reportSize.toNat := by
    rw [inputField, UInt16.toNat_toUInt8, Nat.mod_eq_of_lt (by omega)]
  rw [Field.slot, hoffset, hbits]
  cases hvariable : isVariable flags <;> simp [inputField, hvariable]

lemma map_slot_inputFields {l : Locals} {flags inputBits : UInt16} {s : Sizes}
    (hs : s.reduced = ⟨g.reportSize.toNat, g.reportCount.toNat, g.reportId⟩) (uses : List Use)
    (hsize : g.reportSize.toNat ≤ 32)
    (hfits : inputBits.toNat + g.reportSize.toNat * g.reportCount.toNat ≤ 65535) :
    ((range (emitted g flags)).map (inputField g l flags inputBits)).map Field.slot =
      (InputItem.reduced ⟨s, flags, uses⟩).slots inputBits.toNat := by
  simp only [InputItem.slots, InputItem.reduced, hs, map_map, emitted]
  cases hvariable : isVariable flags with
  | true =>
    apply map_congr_left
    intro k hk
    have hle : k * g.reportSize.toNat ≤ g.reportSize.toNat * g.reportCount.toNat := by
      rw [Nat.mul_comm]
      exact Nat.mul_le_mul_left _ (Nat.le_of_lt (mem_range.mp hk))
    rw [Function.comp_apply, slot_inputField hsize (by omega), hvariable, if_pos rfl]
  | false =>
    have hslot : (inputField g l flags inputBits 0).slot = _ := slot_inputField hsize (by omega)
    simpa [hvariable] using hslot

lemma map_usageMin_inputFields {flags inputBits : UInt16} {s : Sizes}
    (hs : s.reduced = ⟨g.reportSize.toNat, g.reportCount.toNat, g.reportId⟩) (uses : List Use) :
    ((range (emitted g flags)).map (inputField g (localsOf uses) flags inputBits)).map
        Field.usageMin = (InputItem.reduced ⟨s, flags, uses⟩).recordedUsages := by
  simp only [InputItem.recordedUsages, InputItem.reduced, hs, map_map, emitted]
  cases hvariable : isVariable flags with
  | true => simp [Function.comp_def, inputField, hvariable]
  | false => simp [inputField, hvariable]

lemma Tracking.input {out : Descriptor} (h : Tracking r p) (flags : UInt16)
    (hadd : addInput p.out p.globals p.locals flags = .ok out) :
    Tracking { r with uses := [], inputs := r.inputs ++ [⟨r.sizes, flags, r.uses⟩] }
      { p with locals := .none, out } := by
  obtain ⟨inputBits, hbits, ⟨hsize, hcount, hfits⟩, hfields⟩ := addInput_places h.layout hadd
  have hid : r.sizes.reportId = p.globals.reportId := congrArg Sizes.reportId h.sizes
  constructor
  · exact h.sizes
  · exact h.stack
  · rfl
  · exact addInput_layout h.layout hadd
  · rw [hfields, map_append, map_slot_inputFields h.sizes r.uses hsize hfits, hbits, h.slots,
      map_append, map_singleton, place_concat, ← hid]
    rfl
  · rw [hfields, map_append, h.usages, h.locals, map_usageMin_inputFields h.sizes r.uses]
    simp
  · intro i hi
    rcases mem_append.mp hi with hi | hi
    · exact h.counts i hi
    · rw [mem_singleton.mp hi]
      rw [h.sizes]
      exact fun hzero => hcount (UInt16.toNat_inj.mp hzero)

lemma valuesOf_concat (kind : UseKind) (uses : List Use) (u : Use) :
    valuesOf kind (uses ++ [u]) =
      valuesOf kind uses ++ if u.kind = kind then [u.value] else [] := by
  by_cases hkind : u.kind = kind <;> simp [valuesOf, hkind]

lemma Sizes.reduced_mk (value : UInt32) (s : Sizes) :
    Sizes.reduced { s with size := value.toNat } =
        { s.reduced with size := value.toUInt16.toNat } ∧
      Sizes.reduced { s with count := value.toNat } =
        { s.reduced with count := value.toUInt16.toNat } := by
  simp [Sizes.reduced]

lemma Tracking.step (h : Tracking r p) (hitem : Parsed item p p') :
    Tracking (r.item item) p' := by
  unfold Reading.item
  cases hitem.effect with
  | input kind added =>
    rw [kind]
    exact h.input _ added
  | main kind =>
    rw [kind]
    exact ⟨h.sizes, h.stack, rfl, h.layout, h.slots, h.usages, h.counts⟩
  | reportSize kind =>
    rw [kind]
    refine ⟨?_, h.stack, h.locals, h.layout, h.slots, h.usages, h.counts⟩
    rw [(Sizes.reduced_mk _ _).1, h.sizes]
  | reportCount kind =>
    rw [kind]
    refine ⟨?_, h.stack, h.locals, h.layout, h.slots, h.usages, h.counts⟩
    rw [(Sizes.reduced_mk _ _).2, h.sizes]
  | reportId kind =>
    rw [kind]
    refine ⟨?_, h.stack, h.locals, h.layout.congr rfl rfl, h.slots, h.usages, h.counts⟩
    have hsizes := h.sizes
    simp only [Sizes.reduced, Sizes.mk.injEq] at hsizes ⊢
    exact ⟨hsizes.1, hsizes.2.1, trivial⟩
  | push kind =>
    rw [kind]
    refine ⟨h.sizes, ?_, h.locals, h.layout, h.slots, h.usages, h.counts⟩
    rw [map_cons, map_cons, h.sizes, h.stack]
  | pop kind top =>
    rw [kind]
    have hstack := h.stack
    rw [top, map_cons] at hstack
    cases hr : r.stack with
    | nil => simp [hr] at hstack
    | cons sizes stack =>
      rw [hr, map_cons] at hstack
      obtain ⟨hsizes, hstack⟩ := cons.inj hstack
      exact ⟨hsizes, hstack, h.locals, h.layout, h.slots, h.usages, h.counts⟩
  | usage kind | usageMinimum kind | usageMaximum kind =>
    rw [kind]
    refine ⟨h.sizes, h.stack, ?_, h.layout, h.slots, h.usages, h.counts⟩
    rw [h.locals]
    simp [localsOf, valuesOf_concat, Use.value]
  | other kind size count id =>
    rw [kind]
    refine ⟨?_, h.stack, h.locals, h.layout, h.slots, h.usages, h.counts⟩
    rw [size, count, id]
    exact h.sizes

lemma Tracking.run {items : List ShortItem} (h : Tracking r p)
    (htrace : Trace Parsed p items p') : Tracking (items.foldl Reading.item r) p' := by
  induction htrace generalizing r with
  | nil => exact h
  | cons hitem _ ih => exact ih (h.step hitem)

lemma Tracking.init : Tracking .init .init where
  sizes := rfl
  stack := rfl
  locals := rfl
  layout := ⟨Nat.zero_le _, Nat.zero_le _, nodup_nil, nofun, nofun⟩
  slots := rfl
  usages := rfl
  counts := nofun

lemma reportParse_reading {data : Bytes} {d : Descriptor}
    (hparse : reportParse data = .ok d) :
    d.fields.map Field.slot = place ((inputItems data).map InputItem.reduced) [] ∧
      d.fields.map Field.usageMin =
        ((inputItems data).map InputItem.reduced).flatMap InputItem.recordedUsages ∧
      ∀ i ∈ inputItems data, i.sizes.reduced.count ≠ 0 := by
  obtain ⟨items, p, hitems, htrace, rfl⟩ := reportParse_trace hparse
  have htracking := Tracking.init.run htrace
  have hinputs : (items.foldl Reading.item .init).inputs = inputItems data := by
    rw [inputItems, hitems]
    rfl
  rw [← hinputs]
  exact ⟨htracking.slots, htracking.usages, htracking.counts⟩

end Bluzing.Hid
