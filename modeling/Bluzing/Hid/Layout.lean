import Bluzing.Lib.Tiling
import Bluzing.Hid.Items

/-! The layout of a parsed report descriptor: the fields of each report lie end to end from bit 0 to
the end of the report. -/
namespace Bluzing.Hid
open List

def Field.start (f : Field) : ℕ := f.bitOffset.toNat

def Descriptor.fieldsOf (d : Descriptor) (reportId : UInt8) : List Field :=
  d.fields.filter fun f => f.reportId == reportId

structure Layout (d : Descriptor) : Prop where
  fieldCount : d.fields.length ≤ maxFields
  reportCount : d.reports.length ≤ maxReports
  distinct : (d.reports.map ReportInfo.reportId).Nodup
  known : ∀ f ∈ d.fields, ∃ r ∈ d.reports, r.reportId = f.reportId
  tiles : ∀ r ∈ d.reports, Tiles Field.start Field.bits 0 (d.fieldsOf r.reportId) r.inputBits.toNat

namespace Layout
variable {d : Descriptor}

lemma congr {d' : Descriptor} (h : Layout d) (hfields : d'.fields = d.fields)
    (hreports : d'.reports = d.reports) : Layout d' := by
  obtain ⟨fields, reports, uses⟩ := d
  obtain rfl := hfields
  obtain rfl := hreports
  exact ⟨h.fieldCount, h.reportCount, h.distinct, h.known, h.tiles⟩

lemma field_end (h : Layout d) {f : Field} (hf : f ∈ d.fields) : f.start + f.bits < 65536 := by
  obtain ⟨r, hr, hid⟩ := h.known f hf
  have hmem : f ∈ d.fieldsOf r.reportId := mem_filter.mpr ⟨hf, by simp [hid]⟩
  have hend := ((h.tiles r hr).mem_range hmem).2
  have hbits := r.inputBits.toNat_lt
  omega

lemma pairwise (h : Layout d) (reportId : UInt8) :
    (d.fieldsOf reportId).Pairwise fun f g => f.start + f.bits ≤ g.start := by
  by_cases hknown : ∃ r ∈ d.reports, r.reportId = reportId
  · obtain ⟨r, hr, rfl⟩ := hknown
    exact (h.tiles r hr).pairwise
  · have hempty : d.fieldsOf reportId = [] := by
      apply filter_eq_nil_iff.mpr
      intro f hf hfid
      obtain ⟨r, hr, hid⟩ := h.known f hf
      exact hknown ⟨r, hr, hid.trans (by simpa using hfid)⟩
    rw [hempty]
    exact List.Pairwise.nil

lemma report_ext (h : Layout d) {i k : ℕ} {r s : ReportInfo} (hi : d.reports[i]? = some r)
    (hk : d.reports[k]? = some s) (hid : r.reportId = s.reportId) : i = k := by
  have hi' : (d.reports.map ReportInfo.reportId)[i]? = some r.reportId := by simp [hi]
  have hk' : (d.reports.map ReportInfo.reportId)[k]? = some r.reportId := by simp [hk, hid]
  exact (getElem?_inj (List.getElem?_eq_some_iff.mp hi').1 h.distinct).mp
    (hi'.trans hk'.symm)

end Layout

variable {out out' : Descriptor} {i : ℕ} {g : Globals} {l : Locals} {flags : UInt16}

variable {data : Bytes} {reportId : UInt8}

lemma getReport_cases (hget : getReport out reportId = some (out', i)) :
    (out' = out ∧ ∃ r, out.reports[i]? = some r ∧ r.reportId = reportId) ∨
      out.reports.length ≠ maxReports ∧
        (∀ r ∈ out.reports, r.reportId ≠ reportId) ∧ i = out.reports.length ∧
        out' = { out with reports := out.reports ++ [⟨reportId, 0⟩] } := by
  unfold getReport at hget
  split at hget
  next k hfind =>
    obtain ⟨rfl, rfl⟩ := Prod.mk.inj (Option.some.inj hget)
    obtain ⟨hlt, hid, -⟩ := findIdx?_eq_some_iff_getElem.mp hfind
    exact .inl ⟨rfl, _, getElem?_eq_getElem hlt, by simpa using hid⟩
  next hnone =>
    split at hget
    · cases hget
    next hroom =>
      obtain ⟨rfl, rfl⟩ := Prod.mk.inj (Option.some.inj hget)
      refine .inr ⟨hroom, ?_, rfl, rfl⟩
      intro r hr
      simpa using findIdx?_eq_none_iff.mp hnone r hr

lemma getReport_fields (hget : getReport out reportId = some (out', i)) :
    out'.fields = out.fields ∧ ∃ r, out'.reports[i]? = some r ∧ r.reportId = reportId := by
  rcases getReport_cases hget with ⟨rfl, hr⟩ | ⟨-, -, rfl, rfl⟩
  · exact ⟨rfl, hr⟩
  · exact ⟨rfl, ⟨reportId, 0⟩, by simp, rfl⟩

lemma getReport_layout (h : Layout out)
    (hget : getReport out reportId = some (out', i)) : Layout out' := by
  rcases getReport_cases hget with ⟨rfl, -⟩ | ⟨hroom, hnew, rfl, rfl⟩
  · exact h
  · have hcount := h.reportCount
    constructor
    · exact h.fieldCount
    · rw [length_append, length_singleton]
      omega
    · rw [map_append, nodup_append]
      refine ⟨h.distinct, nodup_singleton _, ?_⟩
      intro a ha b hb
      obtain ⟨r, hr, rfl⟩ := mem_map.mp ha
      rw [map_singleton, mem_singleton] at hb
      rw [hb]
      exact hnew r hr
    · intro f hf
      obtain ⟨r, hr, hid⟩ := h.known f hf
      exact ⟨r, mem_append_left _ hr, hid⟩
    · intro r hr
      rcases mem_append.mp hr with hr | hr
      · exact h.tiles r hr
      · -- a new report has no fields yet
        obtain rfl := mem_singleton.mp hr
        have hempty : out.fieldsOf reportId = [] := by
          apply filter_eq_nil_iff.mpr
          intro f hf hfid
          obtain ⟨r, hr, hid⟩ := h.known f hf
          exact hnew r hr (hid.trans (by simpa using hfid))
        change Tiles _ _ 0 (out.fieldsOf reportId) 0
        rw [hempty]
        rfl

def emitted (g : Globals) (flags : UInt16) : ℕ :=
  if isVariable flags then g.reportCount.toNat else 1

lemma inputFields_tile {inputBits : UInt16} (hsize : g.reportSize.toNat ≤ 32)
    (hfits : inputBits.toNat + g.reportSize.toNat * g.reportCount.toNat ≤ 65535) :
    Tiles Field.start Field.bits inputBits.toNat
      ((range (emitted g flags)).map (inputField g l flags inputBits))
      (inputBits.toNat + g.reportSize.toNat * g.reportCount.toNat) := by
  have hbitSize : g.reportSize.toUInt8.toNat = g.reportSize.toNat := by
    rw [UInt16.toNat_toUInt8]
    omega
  cases hvar : isVariable flags with
  | true =>
    rw [emitted, if_pos hvar, Nat.mul_comm]
    refine tiles_range ?_ ?_
    · intro i hi
      have hle : i * g.reportSize.toNat ≤ g.reportSize.toNat * g.reportCount.toNat := by
        rw [Nat.mul_comm]
        exact Nat.mul_le_mul_left _ (Nat.le_of_lt hi)
      rw [Field.start, inputField, UInt16.toNat_ofNat', Nat.mod_eq_of_lt (by omega)]
    · simp [Field.bits, inputField, hvar, hbitSize]
  | false =>
    rw [emitted, if_neg (by simp [hvar])]
    constructor
    · rw [Field.start, inputField, Nat.zero_mul, UInt16.toNat_ofNat', Nat.mod_eq_of_lt (by omega)]
      rfl
    · simp [Field.bits, inputField, hvar, hbitSize, Tiles]

lemma map_reportId_modify (reports : List ReportInfo) (i : ℕ) (bits : UInt16) :
    (reports.modify i fun r => { r with inputBits := bits }).map ReportInfo.reportId =
      reports.map ReportInfo.reportId := by
  apply ext_getElem?
  intro k
  simp only [getElem?_map, getElem?_modify, Option.map_eq_map, Option.map_map]
  congr 1
  funext s
  by_cases hk : i = k <;> simp [hk]

lemma Layout.extend {r : ReportInfo} {fields : List Field} {bits : UInt16} (h : Layout out)
    (hr : out.reports[i]? = some r) (hids : ∀ f ∈ fields, f.reportId = r.reportId)
    (htiles : Tiles Field.start Field.bits r.inputBits.toNat fields bits.toNat)
    (hroom : out.fields.length + fields.length ≤ maxFields)
    (hfields : out'.fields = out.fields ++ fields)
    (hreports : out'.reports = out.reports.modify i fun r => { r with inputBits := bits }) :
    Layout out' := by
  have hnames : out'.reports.map ReportInfo.reportId = out.reports.map ReportInfo.reportId := by
    rw [hreports, map_reportId_modify]
  refine ⟨by rwa [hfields, length_append], ?_, by rw [hnames]; exact h.distinct, ?_, ?_⟩
  · rw [hreports, length_modify]
    exact h.reportCount
  · intro f hf
    have hmem : f.reportId ∈ out.reports.map ReportInfo.reportId := by
      rw [hfields] at hf
      rcases mem_append.mp hf with hf | hf
      · obtain ⟨s, hs, hsid⟩ := h.known f hf
        exact mem_map.mpr ⟨s, hs, hsid⟩
      · rw [hids f hf]
        exact mem_map.mpr ⟨r, mem_of_getElem? hr, rfl⟩
    rw [← hnames] at hmem
    exact mem_map.mp hmem
  · intro s hs
    obtain ⟨k, hk⟩ := mem_iff_getElem?.mp hs
    rw [hreports, getElem?_modify] at hk
    rw [Descriptor.fieldsOf, hfields, filter_append]
    by_cases hik : i = k
    · -- the report that the fields belong to
      subst hik
      rw [hr] at hk
      obtain rfl : ReportInfo.mk r.reportId bits = s := by simpa using hk
      have hall : fields.filter (fun f => f.reportId == r.reportId) = fields :=
        filter_eq_self.mpr fun f hf => by simp [hids f hf]
      rw [hall]
      exact (h.tiles r (mem_of_getElem? hr)).append htiles
    · have hs' : out.reports[k]? = some s := by simpa [hik] using hk
      have hother : fields.filter (fun f => f.reportId == s.reportId) = [] := by
        apply filter_eq_nil_iff.mpr
        intro f hf hfid
        rw [beq_iff_eq, hids f hf] at hfid
        exact hik (h.report_ext hr hs' hfid)
      rw [hother, append_nil]
      exact h.tiles s (mem_of_getElem? hs')

lemma addInput_cases (hadd : addInput out g l flags = .ok out') :
    ∃ out₁ i r, getReport out g.reportId = some (out₁, i) ∧
      out₁.reports[i]? = some r ∧ r.reportId = g.reportId ∧
      (g.reportSize.toNat ≤ 32 ∧ g.reportCount ≠ 0 ∧
        r.inputBits.toNat + g.reportSize.toNat * g.reportCount.toNat ≤ 65535 ∧
        out.fields.length + emitted g flags ≤ maxFields) ∧
      out'.fields = out.fields ++
        (range (emitted g flags)).map (inputField g l flags r.inputBits) ∧
      out'.usesReportIds = out₁.usesReportIds ∧
      out'.reports = out₁.reports.modify i fun s =>
        { s with inputBits :=
          UInt16.ofNat (r.inputBits.toNat + g.reportSize.toNat * g.reportCount.toNat) } := by
  unfold addInput at hadd
  split at hadd
  · cases hadd
  next out₁ i hget =>
    obtain ⟨hfields, r, hr, hid⟩ := getReport_fields hget
    rw [hr, ← emitted] at hadd
    dsimp only [Option.map_some, Option.getD_some] at hadd
    split at hadd
    · cases hadd
    next hchecks =>
      simp only [not_or, Nat.not_lt, hfields] at hchecks
      obtain ⟨hsize, hcount, hadded, hbits, hroom⟩ := hchecks
      obtain rfl := Except.ok.inj hadd
      refine ⟨out₁, i, r, hget, hr, hid, ⟨hsize, hcount, by omega, hroom⟩, ?_, rfl, rfl⟩
      rw [hfields]

lemma addInput_layout (h : Layout out) (hadd : addInput out g l flags = .ok out') :
    Layout out' := by
  obtain ⟨out₁, i, r, hget, hr, hid, ⟨hsize, -, hfits, hroom⟩, hfields, -, hreports⟩ :=
    addInput_cases hadd
  have hend : (UInt16.ofNat (r.inputBits.toNat +
      g.reportSize.toNat * g.reportCount.toNat)).toNat =
        r.inputBits.toNat + g.reportSize.toNat * g.reportCount.toNat := by
    rw [UInt16.toNat_ofNat', Nat.mod_eq_of_lt (by omega)]
  have hsame := (getReport_fields hget).1
  rw [← hsame] at hfields hroom
  refine (getReport_layout h hget).extend hr ?_ (hend.symm ▸ inputFields_tile hsize hfits) ?_
    hfields hreports
  · intro f hf
    obtain ⟨k, -, rfl⟩ := mem_map.mp hf
    exact hid.symm
  · rwa [length_map, length_range]

variable {d : Descriptor}

lemma reportParse_ok (hparse : reportParse data = .ok d) : Layout d := by
  refine reportParse_invariant ?_ ?_ ?_ hparse
  · exact ⟨Nat.zero_le _, Nat.zero_le _, nodup_nil, nofun, nofun⟩
  · intro out out' hfields hreports h
    exact h.congr hfields hreports
  · intro out out' g l flags h hadd
    exact addInput_layout h hadd

lemma reportParse_fields {P : Field → Prop}
    (hinput : ∀ (g : Globals) l flags inputBits k, g.reportSize.toNat ≤ 32 →
      P (inputField g l flags inputBits k))
    {data : Bytes} {d : Descriptor} (hparse : reportParse data = .ok d) :
    ∀ f ∈ d.fields, P f := by
  refine reportParse_invariant (I := fun d => ∀ f ∈ d.fields, P f) ?_ ?_ ?_ hparse
  · intro f hf
    cases hf
  · intro out out' hfields _ h
    rw [hfields]
    exact h
  · intro out out' g l flags h hadd f hf
    obtain ⟨out₁, i, r, -, -, -, ⟨hsize, -⟩, hfields, -⟩ := addInput_cases hadd
    rw [hfields, mem_append] at hf
    rcases hf with hf | hf
    · exact h f hf
    · obtain ⟨k, -, rfl⟩ := mem_map.mp hf
      exact hinput g l flags r.inputBits k hsize

lemma reportParse_narrow
    (hparse : reportParse data = .ok d) : ∀ f ∈ d.fields, f.bitSize.toNat ≤ 32 := by
  refine reportParse_fields (P := fun f => f.bitSize.toNat ≤ 32) ?_ hparse
  intro g l flags inputBits k hsize
  exact Nat.le_trans (Nat.mod_le _ _) hsize

lemma reportParse_single (hparse : reportParse data = .ok d) :
    ∀ f ∈ d.fields, isVariable f.flags = true → f.count = 1 := by
  refine reportParse_fields (P := fun f => isVariable f.flags = true → f.count = 1) ?_ hparse
  intro g l flags inputBits k _ hvariable
  exact if_pos hvariable

structure Unnumbered (p : Parser) : Prop where
  current : p.globals.reportId = 0
  stack : ∀ g ∈ p.stack, g.reportId = 0
  reports : ∀ r ∈ p.out.reports, r.reportId = 0

lemma addInput_reportIds {out out' : Descriptor} {g : Globals} {l : Locals} {flags : UInt16}
    (hadd : addInput out g l flags = .ok out') :
    out'.usesReportIds = out.usesReportIds ∧
      ∀ r ∈ out'.reports, r.reportId = g.reportId ∨ ∃ s ∈ out.reports, r.reportId = s.reportId := by
  obtain ⟨out₁, i, r, hget, -, -, -, -, huses, hreports⟩ := addInput_cases hadd
  have hold : out₁.usesReportIds = out.usesReportIds ∧
      ∀ s ∈ out₁.reports, s.reportId = g.reportId ∨ s ∈ out.reports := by
    rcases getReport_cases hget with ⟨rfl, -⟩ | ⟨-, -, -, rfl⟩
    · exact ⟨rfl, fun s hs => .inr hs⟩
    · refine ⟨rfl, fun s hs => ?_⟩
      rcases mem_append.mp hs with hs | hs
      · exact .inr hs
      · rw [mem_singleton.mp hs]
        exact .inl rfl
  refine ⟨huses.trans hold.1, ?_⟩
  intro r hr
  have hname : r.reportId ∈ out₁.reports.map ReportInfo.reportId := by
    rw [← map_reportId_modify, ← hreports]
    exact mem_map_of_mem hr
  obtain ⟨s, hs, hid⟩ := mem_map.mp hname
  rcases hold.2 s hs with hs | hs
  · exact .inl (hid.symm.trans hs)
  · exact .inr ⟨s, hs, hid.symm⟩

lemma reportParse_unnumbered
    (hparse : reportParse data = .ok d) (huses : d.usesReportIds = false) :
    ∀ r ∈ d.reports, r.reportId = 0 := by
  obtain ⟨items, p, -, htrace, rfl⟩ := reportParse_trace hparse
  have hstep (item : ShortItem) (p p' : Parser)
      (h : p.out.usesReportIds = false → Unnumbered p) (hitem : Parsed item p p') :
      (p'.out.usesReportIds = false → Unnumbered p') ∧ True := by
    refine ⟨fun huses => ?_, trivial⟩
    cases hitem.effect with
    | input _ added =>
      obtain ⟨hsame, hids⟩ := addInput_reportIds added
      obtain ⟨hcurrent, hstack, hreports⟩ := h (hsame.symm.trans huses)
      refine ⟨hcurrent, hstack, ?_⟩
      intro r hr
      rcases hids r hr with hr | ⟨s, hs, hr⟩
      · exact hr.trans hcurrent
      · exact hr.trans (hreports s hs)
    | reportId _ => cases huses
    | push _ =>
      obtain ⟨hcurrent, hstack, hreports⟩ := h huses
      exact ⟨hcurrent, forall_mem_cons.mpr ⟨hcurrent, hstack⟩, hreports⟩
    | pop _ top =>
      obtain ⟨-, hstack, hreports⟩ := h huses
      rw [top] at hstack
      obtain ⟨hcurrent, hstack⟩ := forall_mem_cons.mp hstack
      exact ⟨hcurrent, hstack, hreports⟩
    | other _ _ _ id =>
      obtain ⟨hcurrent, hstack, hreports⟩ := h huses
      exact ⟨id.trans hcurrent, hstack, hreports⟩
    | _ =>
      obtain ⟨hcurrent, hstack, hreports⟩ := h huses
      exact ⟨hcurrent, hstack, hreports⟩
  have hinit : Parser.init.out.usesReportIds = false → Unnumbered .init :=
    fun _ => ⟨rfl, nofun, nofun⟩
  exact ((htrace.invariant hstep hinit).1 huses).reports

end Bluzing.Hid
