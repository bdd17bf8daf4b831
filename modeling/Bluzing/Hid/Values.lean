import Bluzing.Lib.BitField
import Bluzing.Hid.Layout
import Bluzing.Hid.Input

/-! What `bt_hid_report_decode_input` hands to its callback, as a list: the values of the fields in
order, up to the first field that the report is too short for. -/
namespace Bluzing.Hid
open List

def rawElement (payload : Bytes) (field : Field) (element : ℕ) : UInt32 :=
  UInt32.ofNat (readBits payload (field.start + element * field.bitSize.toNat)
    field.bitSize.toNat)

def fieldValues (payload : Bytes) (reportId : UInt8) (field : Field) : List Value :=
  (range field.count.toNat).filterMap fun element =>
    elementValue field reportId (rawElement payload field element)

def fieldsValues (payload : Bytes) (reportId : UInt8) : List Field → List Value × Status
  | [] => ([], .ok)
  | field :: fields =>
      if field.reportId ≠ reportId then fieldsValues payload reportId fields
      else if payload.length * 8 < field.start + field.bits then ([], .invalidArgument)
      else if field.flags &&& inputConstant ≠ 0 then fieldsValues payload reportId fields
      else
        let later := fieldsValues payload reportId fields
        (fieldValues payload reportId field ++ later.1, later.2)

def payloadOf (d : Descriptor) (report : Bytes) : Bytes :=
  if d.usesReportIds then report.tail else report

def decoded (d : Descriptor) (report : Bytes) : List Value × Status :=
  if d.usesReportIds ∧ report = [] then ([], .invalidArgument)
  else fieldsValues (payloadOf d report) (reportIdOf d report) d.fields

variable {σ : Type} (callback : σ → Value → σ × Bool)

def feed : σ → List Value → σ × Bool
  | s, [] => (s, true)
  | s, v :: values => if (callback s v).2 then feed (callback s v).1 values
      else ((callback s v).1, false)

def accepted : σ → List Value → List Value
  | _, [] => []
  | s, v :: values => if (callback s v).2 then v :: accepted (callback s v).1 values else []

lemma toNat_one_shiftLeft {k : ℕ} (hk : k < 32) :
    ((1 : UInt32) <<< UInt32.ofNat k).toNat = 2 ^ k := by
  have hlt : 2 ^ k < 2 ^ 32 := Nat.pow_lt_pow_right (by decide) hk
  have hmod : k % 2 ^ 32 % 32 = k := by omega
  rw [UInt32.toNat_shiftLeft, UInt32.toNat_ofNat', hmod, Nat.shiftLeft_eq]
  simpa using hlt

lemma and_bit_ne_zero (value : UInt32) {k : ℕ} (hk : k < 32) :
    (value &&& (1 <<< UInt32.ofNat k) ≠ 0) ↔ value.toNat.testBit k = true := by
  rw [Ne, ← UInt32.toNat_inj, UInt32.toNat_and, toNat_one_shiftLeft hk, Nat.and_two_pow]
  cases value.toNat.testBit k <;> simp

lemma and_mask_ne_zero (b : UInt8) {k : ℕ} (hk : k < 8) :
    (b.toUInt32 &&& (1 <<< UInt32.ofNat k) ≠ 0) ↔ b.toNat.testBit k = true := by
  rw [and_bit_ne_zero _ (by omega), UInt8.toNat_toUInt32]

variable {payload : Bytes} {bitOffset : UInt16} {bitSize : UInt8}

lemma toNat_ofNat_readBits (payload : Bytes) (off : ℕ) {n : ℕ} (hn : n ≤ 32) :
    (UInt32.ofNat (readBits payload off n)).toNat = readBits payload off n := by
  have hlt : readBits payload off n < 2 ^ 32 :=
    readBits_lt.trans_le (Nat.pow_le_pow_right (by decide) hn)
  rw [UInt32.toNat_ofNat', Nat.mod_eq_of_lt hlt]

lemma extractBits_loop (hfits : bitOffset.toNat + bitSize.toNat ≤ payload.length * 8)
    (hsize : bitSize.toNat ≤ 32) {n : ℕ} (hn : n ≤ bitSize.toNat) :
    ((range n).foldlM (fun (value : UInt32) i => do
      let bit := bitOffset.toNat + i
      let b ← octetAt payload (bit / 8)
      return if b.toUInt32 &&& (1 <<< UInt32.ofNat (bit % 8)) ≠ 0 then
        value ||| (1 <<< UInt32.ofNat i) else value) 0 : Access UInt32) =
      .ok (UInt32.ofNat (readBits payload bitOffset.toNat n)) := by
  induction n with
  | zero => rfl
  | succ n ih =>
    have hoctet : (bitOffset.toNat + n) / 8 < payload.length := by omega
    have hbit' : (payload[(bitOffset.toNat + n) / 8]).toNat.testBit ((bitOffset.toNat + n) % 8) =
        bitAt payload (bitOffset.toNat + n) := by
      simp [bitAt, hoctet]
    rw [range_succ, foldlM_append, ih (by omega)]
    simp only [bind, Except.bind, foldlM_cons, foldlM_nil, octetAt_ok hoctet, pure,
      Except.pure, and_mask_ne_zero _ (Nat.mod_lt (bitOffset.toNat + n) (by decide : 0 < 8))]
    congr 1
    rw [hbit', ← UInt32.toNat_inj, toNat_ofNat_readBits _ _ (by omega), readBits_succ]
    have hraw := toNat_ofNat_readBits payload bitOffset.toNat (by omega : n ≤ 32)
    cases bitAt payload (bitOffset.toNat + n) with
    | false => simpa using hraw
    | true => rw [if_pos rfl, if_pos rfl, UInt32.toNat_or, hraw, toNat_one_shiftLeft (by omega)]

lemma extractBits_eq (hfits : bitOffset.toNat + bitSize.toNat ≤ payload.length * 8)
    (hsize : bitSize.toNat ≤ 32) :
    extractBits payload bitOffset bitSize =
      .ok (UInt32.ofNat (readBits payload bitOffset.toNat bitSize.toNat)) :=
  extractBits_loop hfits hsize le_rfl

def Field.Readable (field : Field) : Prop :=
  field.start + field.bits < 65536 ∧ field.bitSize.toNat ≤ 32

lemma reportParse_readable {data : Bytes} {d : Descriptor}
    (hparse : reportParse data = .ok d) : ∀ f ∈ d.fields, f.Readable := by
  intro f hf
  exact ⟨(reportParse_ok hparse).field_end hf, reportParse_narrow hparse f hf⟩

section

variable {σ : Type} {callback : σ → Value → σ × Bool} {payload : Bytes} {field : Field}
  {reportId : UInt8}

@[simp] lemma feed_append (s : σ) (values later : List Value) :
    feed callback s (values ++ later) =
      if (feed callback s values).2 then feed callback (feed callback s values).1 later
      else ((feed callback s values).1, false) := by
  induction values generalizing s with
  | nil => simp [feed]
  | cons v values ih =>
    simp only [cons_append, feed]
    by_cases hgoes : (callback s v).2 = true <;> simp [hgoes, ih]

lemma decodeElements_eq (hfield : field.Readable)
    (hfits : field.start + field.bits ≤ payload.length * 8)
    {elements : List ℕ} (helements : ∀ e ∈ elements, e < field.count.toNat) (s : σ) :
    decodeElements callback payload field reportId elements s =
      .ok (feed callback s (elements.filterMap fun element =>
        elementValue field reportId (rawElement payload field element))).swap := by
  obtain ⟨hend, hsize⟩ := hfield
  induction elements generalizing s with
  | nil => rfl
  | cons e elements ih =>
    obtain ⟨he, hrest⟩ := forall_mem_cons.mp helements
    have hspan : e * field.bitSize.toNat + field.bitSize.toNat ≤ field.bits := by
      rw [Field.bits, ← Nat.succ_mul, Nat.mul_comm]
      exact Nat.mul_le_mul_left _ he
    have hoffset : (UInt16.ofNat (field.bitOffset.toNat + e * field.bitSize.toNat)).toNat =
        field.start + e * field.bitSize.toNat := by
      rw [Field.start] at hend ⊢
      rw [UInt16.toNat_ofNat', Nat.mod_eq_of_lt (by omega)]
    rw [decodeElements, extractBits_eq (by omega) hsize, hoffset,
      filterMap_cons]
    simp only [bind, Except.bind]
    rw [← rawElement]
    cases elementValue field reportId (rawElement payload field e) with
    | none => exact ih hrest s
    | some v =>
      dsimp only
      rw [feed]
      split
      · exact ih hrest _
      · rfl

def outcome (callback : σ → Value → σ × Bool) (s : σ) (values : List Value × Status) : Status × σ :=
  (if (feed callback s values.1).2 then values.2 else .ok, (feed callback s values.1).1)

variable {fields : List Field}

lemma decodeFields_eq (hfields : ∀ f ∈ fields, f.Readable) (s : σ) :
    decodeFields callback payload reportId fields s =
      .ok (outcome callback s (fieldsValues payload reportId fields)) := by
  induction fields generalizing s with
  | nil => rfl
  | cons f fields ih =>
    obtain ⟨hf, hrest⟩ := forall_mem_cons.mp hfields
    rw [decodeFields, fieldsValues, ← Field.start]
    split
    · exact ih hrest s
    · split
      · rfl
      next hfits =>
        split
        · exact ih hrest s
        · rw [decodeElements_eq hf (Nat.le_of_not_lt hfits) (fun _ => mem_range.mp),
            ← fieldValues]
          simp only [bind, Except.bind, Prod.fst_swap, Prod.snd_swap, outcome, feed_append]
          split
          · exact ih hrest _
          · rfl

variable {d : Descriptor}

lemma decodeInput_eq (hfields : ∀ f ∈ d.fields, f.Readable) (report : Bytes) (s : σ) :
    decodeInput callback d report s = .ok (outcome callback s (decoded d report)) := by
  unfold decodeInput decoded payloadOf reportIdOf
  cases d.usesReportIds with
  | false => simpa using decodeFields_eq hfields s
  | true =>
    cases report with
    | nil => rfl
    | cons reportId payload => simpa using decodeFields_eq hfields s

lemma feed_cases {I : σ → List Value → Prop} {S : σ → Prop} {values : List Value}
    (hstep : ∀ s seen, ∀ v ∈ values, I s seen →
      ((callback s v).2 = true ∧ I (callback s v).1 (seen ++ [v])) ∨
        ((callback s v).2 = false ∧ S (callback s v).1))
    {s : σ} {seen : List Value} (h : I s seen) :
    ((feed callback s values).2 = true ∧ I (feed callback s values).1 (seen ++ values)) ∨
      ((feed callback s values).2 = false ∧ S (feed callback s values).1) := by
  induction values generalizing s seen with
  | nil =>
    simpa [feed] using h
  | cons v values ih =>
    rw [feed]
    rcases hstep s seen v mem_cons_self h with ⟨hgoes, hnext⟩ | ⟨hstops, hstopped⟩
    · rw [if_pos hgoes, append_cons]
      exact ih (fun s seen u hu => hstep s seen u (mem_cons_of_mem _ hu)) hnext
    · rw [if_neg (by simp [hstops])]
      exact .inr ⟨rfl, hstopped⟩

lemma feed_invariant {I : σ → Prop} {values : List Value}
    (hstep : ∀ s, ∀ v ∈ values, I s → I (callback s v).1) {s : σ} (h : I s) :
    I (feed callback s values).1 := by
  induction values generalizing s with
  | nil => exact h
  | cons v values ih =>
    have hnext := hstep s v mem_cons_self h
    rw [feed]
    split
    · exact ih (fun s u hu => hstep s u (mem_cons_of_mem _ hu)) hnext
    · exact hnext

@[simp] lemma feed_collect (seen values : List Value) :
    feed (fun (values : List Value) v => (values ++ [v], true)) seen values =
      (seen ++ values, true) := by
  induction values generalizing seen with
  | nil => simp [feed]
  | cons v values ih => simp [feed, ih]

lemma decodeInput_collect (hfields : ∀ f ∈ d.fields, f.Readable) (report : Bytes) :
    decodeInput (fun (values : List Value) v => (values ++ [v], true)) d report [] =
      .ok ((decoded d report).2, (decoded d report).1) := by
  rw [decodeInput_eq hfields]
  simp [outcome]

lemma mem_fieldsValues {v : Value} (hv : v ∈ (fieldsValues payload reportId fields).1) :
    ∃ field ∈ fields, field.reportId = reportId ∧ v ∈ fieldValues payload reportId field := by
  induction fields with
  | nil => cases hv
  | cons f fields ih =>
    have hlater (hv : v ∈ (fieldsValues payload reportId fields).1) :
        ∃ field ∈ f :: fields, field.reportId = reportId ∧
          v ∈ fieldValues payload reportId field := by
      obtain ⟨field, hfield, hv⟩ := ih hv
      exact ⟨field, mem_cons_of_mem _ hfield, hv⟩
    rw [fieldsValues] at hv
    split at hv
    · exact hlater hv
    next hid =>
      split at hv
      · cases hv
      · split at hv
        · exact hlater hv
        · rcases mem_append.mp hv with hv | hv
          · exact ⟨f, mem_cons_self, not_not.mp hid, hv⟩
          · exact hlater hv

lemma fieldsValues_of_fits (hfits : ∀ f ∈ fields, f.reportId = reportId →
      f.start + f.bits ≤ payload.length * 8) :
    fieldsValues payload reportId fields =
      (((fields.filter fun f => f.reportId == reportId).filter fun f =>
        f.flags &&& inputConstant == 0).flatMap (fieldValues payload reportId), .ok) := by
  induction fields with
  | nil => rfl
  | cons f fields ih =>
    obtain ⟨hf, hrest⟩ := forall_mem_cons.mp hfits
    rw [fieldsValues, ih hrest]
    by_cases hid : f.reportId = reportId
    · by_cases hconstant : f.flags &&& inputConstant = 0
      · simp [hid, hconstant, Nat.not_lt.mpr (hf hid)]
      · simp [hid, hconstant, Nat.not_lt.mpr (hf hid)]
    · simp [hid]

lemma decoded_reportId {report : Bytes} :
    ∀ v ∈ (decoded d report).1, v.reportId = reportIdOf d report := by
  intro v hv
  unfold decoded at hv
  split at hv
  · cases hv
  · obtain ⟨field, -, -, hv⟩ := mem_fieldsValues hv
    obtain ⟨element, -, hv⟩ := mem_filterMap.mp hv
    unfold elementValue at hv
    split at hv
    · obtain rfl := Option.some.inj hv
      rfl
    · split at hv
      · cases hv
      · obtain rfl := Option.some.inj hv
        rfl

end

/-- A descriptor that is accepted is laid out in order, each report from bit 0 to its end; and
whatever the report and the callback, no bit outside the report is read. -/
theorem reportParse_layout {data : Bytes} {d : Descriptor}
    (hparse : reportParse data = .ok d) :
    Layout d ∧
      (∀ reportId, (d.fieldsOf reportId).Pairwise fun f g => f.start + f.bits ≤ g.start) ∧
      ∀ {σ : Type} (callback : σ → Value → σ × Bool) (report : Bytes) (s : σ),
        InRange (decodeInput callback d report s) := by
  have hlayout := reportParse_ok hparse
  refine ⟨hlayout, hlayout.pairwise, ?_⟩
  intro σ callback report s
  rw [decodeInput_eq (reportParse_readable hparse)]
  exact (returns_ok _).inRange

def keyboardDescriptor : Bytes :=
  [0x05, 0x07, 0x19, 0x00, 0x29, 0x65, 0x15, 0x00, 0x25, 0x65, 0x75, 0x08, 0x95, 0x02, 0x81, 0x00]

def keyboard : Descriptor :=
  ⟨[⟨0, 0, 8, 2, 0, 7, 0, 0x65, 0, 0x65⟩], [⟨0, 16⟩], false⟩

theorem keyboard_layout :
    reportParse keyboardDescriptor = .ok keyboard ∧ Layout keyboard ∧
      InRange (decodeInput (fun (s : List Value) v => (v :: s, true)) keyboard [4] []) :=
  have hparse : reportParse keyboardDescriptor = .ok keyboard := by decide
  ⟨hparse, (reportParse_layout hparse).1, (reportParse_layout hparse).2.2 _ [4] []⟩

lemma process_eq {d : Descriptor} (hfields : ∀ f ∈ d.fields, f.Readable) (callback : ℕ → Bool)
    (w : World) (report : Bytes) :
    process callback d w report =
      let r := outcome (decodedValue callback) ⟨w, [], .ok⟩ (decoded d report)
      .ok (if r.1 ≠ .ok then (r.2.world, r.1)
        else if r.2.status ≠ .ok then (r.2.world, r.2.status)
        else updateArrays callback r.2.world (reportIdOf d report) r.2.current) := by
  unfold process
  split
  next hempty =>
    obtain ⟨huses, hlength⟩ := hempty
    obtain rfl := length_eq_zero_iff.mp hlength
    simp [decoded, huses, outcome, feed]
  · rw [decodeInput_eq hfields]
    simp only [bind, Except.bind]
    split
    · rfl
    · split
      · rfl
      · rfl

end Bluzing.Hid
