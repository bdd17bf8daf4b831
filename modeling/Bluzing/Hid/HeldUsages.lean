import Bluzing.Lib.Reentrant
import Bluzing.Core.Codec
import Bluzing.Hid.Variables

/-! The usages held in array fields, over any sequence of reports: pressed and released in turn, and
after each report exactly those that the latest reports hold, as long as they fit in the table. -/
namespace Bluzing.Hid
open List

structure Session where
  world : World
  calls : List (Bytes × Access Status)
  deriving DecidableEq

def Session.init : Session := ⟨⟨inputInit, []⟩, []⟩

def Session.report (d : Descriptor) (s : Session) (report : Bytes) : Session :=
  match process (fun _ => true) d s.world report with
  | .ok (w, status) => ⟨w, (report, .ok status) :: s.calls⟩
  | .error e => ⟨s.world, (report, .error e) :: s.calls⟩

def Session.run (d : Descriptor) (reports : List Bytes) : Session :=
  reports.foldl (Session.report d) .init

/-- The values of all events for this usage, the newest first. -/
def World.arrayValues (w : World) (u : ArrayUsage) : List Int32 :=
  w.events.filterMap fun (_, e) =>
    if (⟨e.reportId, e.usagePage, e.usage⟩ : ArrayUsage) = u then some e.value else none

/-- A variable field gives rise to events for this usage. -/
def VariableKey (d : Descriptor) (u : ArrayUsage) : Prop :=
  ∃ f ∈ d.fields, isVariable f.flags = true ∧
    (⟨f.reportId, f.usagePage, f.usageMin⟩ : ArrayUsage) = u

def Alternating : List Int32 → Prop
  | [] => True
  | v :: values => v = (if values.head? = some 1 then 0 else 1) ∧ Alternating values

def World.Held (w : World) (u : ArrayUsage) : Prop := (w.arrayValues u).head? = some 1

def arrayUsages (d : Descriptor) (report : Bytes) : List ArrayUsage :=
  match decodeInput (fun (values : List Value) v => (values ++ [v], true)) d report [] with
  | .ok (_, values) => (values.filter Value.isArray).map Value.arrayUsage
  | .error _ => []

def latest (d : Descriptor) (calls : List (Bytes × Access Status)) (reportId : UInt8) :
    Option Bytes :=
  calls.findSome? fun (report, status) =>
    if status = .ok .ok ∧ reportIdOf d report = reportId then some report else none

def Session.Expected (d : Descriptor) (s : Session) (u : ArrayUsage) : Prop :=
  ∃ report, latest d s.calls u.reportId = some report ∧ u ∈ arrayUsages d report

def Session.lastOk (s : Session) : Bool := s.calls.head?.map Prod.snd == some (.ok .ok)

/-- After these reports, for the array usages they are decoded to: the events of each alternate, and
after a successful call just those are held that the latest reports hold. -/
def Consistent (d : Descriptor) (reports : List Bytes) : Prop :=
  ∀ report ∈ reports, ∀ u ∈ arrayUsages d report,
    Alternating ((Session.run d reports).world.arrayValues u) ∧
    ((Session.run d reports).lastOk = true →
      ((Session.run d reports).world.Held u ↔ (Session.run d reports).Expected d u))

def Session.overflows (d : Descriptor) (s : Session) (report : Bytes) : Bool :=
  match decodeInput (decodedValue fun _ => true) d report ⟨s.world, [], .ok⟩ with
  | .ok (.ok, c) =>
      decide (c.status = .ok) && decide (maxArrayUsages <
        (s.world.input.arrays.filter fun u => u.reportId != reportIdOf d report).length +
          c.current.length)
  | _ => false

variable {d : Descriptor} {w : World} {report : Bytes}

structure SameArrays (d : Descriptor) (w w' : World) : Prop where
  arrays : w'.input.arrays = w.input.arrays
  events : w.events <:+ w'.events
  values : ∀ u, ¬ VariableKey d u → w'.arrayValues u = w.arrayValues u

structure Gathers (d : Descriptor) (w : World) (reportId : UInt8) (c : Context)
    (values : List Value) : Prop where
  same : SameArrays d w c.world
  status : c.status = .ok
  nodup : c.current.Nodup
  mem : ∀ u, u ∈ c.current ↔ u ∈ (values.filter Value.isArray).map Value.arrayUsage
  ids : ∀ u ∈ c.current, u.reportId = reportId

lemma SameArrays.trans {w₁ w₂ w₃ : World} (h₁ : SameArrays d w₁ w₂) (h₂ : SameArrays d w₂ w₃) :
    SameArrays d w₁ w₃ :=
  ⟨h₂.arrays.trans h₁.arrays, h₁.events.trans h₂.events,
    fun u hu => (h₂.values u hu).trans (h₁.values u hu)⟩

lemma Taken.sameArrays {v : Value} {w' : World} (h : Taken v w w')
    (hkey : VariableKey d v.arrayUsage) : SameArrays d w w' := by
  refine ⟨h.arrays, h.events ▸ suffix_append .., fun u hu => ?_⟩
  have hother : ¬ v.arrayUsage = u := fun heq => hu (heq ▸ hkey)
  rw [World.arrayValues, h.events]
  split
  · exact filterMap_cons_none (if_neg hother)
  · rfl

lemma decoded_variableKey {v : Value} (hv : v ∈ (decoded d report).1)
    (hvariable : v.isArray = false) : VariableKey d v.arrayUsage := by
  unfold decoded at hv
  split at hv
  · cases hv
  · obtain ⟨field, hfield, hid, hv⟩ := mem_fieldsValues hv
    obtain ⟨element, -, hv⟩ := mem_filterMap.mp hv
    unfold elementValue at hv
    split at hv
    next hflag =>
      obtain rfl := Option.some.inj hv
      exact ⟨field, hfield, hflag, by rw [hid]; rfl⟩
    · split at hv
      · cases hv
      · obtain rfl := Option.some.inj hv
        cases hvariable

lemma Gathers.step {reportId : UInt8} {c : Context} {values : List Value}
    (h : Gathers d w reportId c values) {v : Value} (hid : v.reportId = reportId)
    (hkey : v.isArray = false → VariableKey d v.arrayUsage) :
    ((decodedValue (fun _ => true) c v).2 = true ∧
        Gathers d w reportId (decodedValue (fun _ => true) c v).1 (values ++ [v])) ∨
      ((decodedValue (fun _ => true) c v).2 = false ∧
        SameArrays d w (decodedValue (fun _ => true) c v).1.world ∧
        (decodedValue (fun _ => true) c v).1.status = .noResources) := by
  have hhandled := decodedValue_handled c v
  generalize decodedValue (fun _ => true) c v = r at hhandled ⊢
  cases hhandled with
  | full => exact .inr ⟨rfl, h.same, rfl⟩
  | array isArray gathered =>
    left
    have hnext : (((values ++ [v]).filter Value.isArray).map Value.arrayUsage) =
        (values.filter Value.isArray).map Value.arrayUsage ++ [v.arrayUsage] := by
      simp [isArray]
    split at gathered
    next hmem =>
      subst gathered
      refine ⟨rfl, { h with mem := fun u => ?_ }⟩
      rw [hnext, mem_append, ← h.mem u, mem_singleton]
      constructor
      · exact .inl
      · rintro (hu | rfl)
        · exact hu
        · exact hmem
    next hnew =>
      subst gathered
      refine ⟨rfl, h.same, h.status, ?_, fun u => ?_, ?_⟩
      · exact h.nodup.append (nodup_singleton _) (disjoint_singleton.mpr hnew)
      · rw [hnext, mem_append, mem_append, h.mem u]
      · intro u hu
        obtain hu | hu := mem_append.mp hu
        · exact h.ids u hu
        · rw [mem_singleton.mp hu]
          exact hid
  | scalar isVariable taken =>
    refine .inl ⟨rfl, h.same.trans (taken.sameArrays (hkey isVariable)), h.status, h.nodup,
      fun u => ?_, h.ids⟩
    rw [h.mem u, filter_append, filter_singleton, isVariable, cond_false,
      append_nil]

structure ReportUsages (d : Descriptor) (report : Bytes) (current : List ArrayUsage) :
    Prop where
  nodup : current.Nodup
  mem : ∀ u, u ∈ current ↔ u ∈ arrayUsages d report
  ids : ∀ u ∈ current, u.reportId = reportIdOf d report

lemma arrayUsages_eq (hfields : ∀ f ∈ d.fields, f.Readable) (report : Bytes) :
    arrayUsages d report = ((decoded d report).1.filter Value.isArray).map Value.arrayUsage := by
  rw [arrayUsages, decodeInput_collect hfields]

abbrev takeIn (d : Descriptor) (w : World) (report : Bytes) : Context × Bool :=
  feed (decodedValue fun _ => true) ⟨w, [], .ok⟩ (decoded d report).1

lemma feed_gathers (d : Descriptor) (w : World) (report : Bytes) :
    ((takeIn d w report).2 = true ∧
      Gathers d w (reportIdOf d report) (takeIn d w report).1 (decoded d report).1) ∨
    ((takeIn d w report).2 = false ∧ SameArrays d w (takeIn d w report).1.world ∧
      (takeIn d w report).1.status = .noResources) := by
  have hstart : Gathers d w (reportIdOf d report) ⟨w, [], .ok⟩ [] :=
    ⟨⟨rfl, suffix_rfl, fun _ _ => rfl⟩, rfl, nodup_nil, fun u => Iff.rfl,
      fun u hu => absurd hu not_mem_nil⟩
  exact feed_cases (I := Gathers d w (reportIdOf d report))
    (S := fun c => SameArrays d w c.world ∧ c.status = .noResources)
    (fun c seen v hv h => h.step (decoded_reportId v hv) (decoded_variableKey hv)) hstart

lemma decodeInput_gathers (hfields : ∀ f ∈ d.fields, f.Readable) (w : World)
    (report : Bytes) :
    ∃ status c, outcome (decodedValue fun _ => true) ⟨w, [], .ok⟩ (decoded d report) = (status, c) ∧
      SameArrays d w c.world ∧
      (status = .ok → c.status = .ok → ReportUsages d report c.current) := by
  refine ⟨_, _, rfl, ?_⟩
  rcases feed_gathers d w report with ⟨-, hgathers⟩ | ⟨-, hsame, hfull⟩
  · refine ⟨hgathers.same, fun _ _ => ⟨hgathers.nodup, fun u => ?_, hgathers.ids⟩⟩
    rw [arrayUsages_eq hfields]
    exact hgathers.mem u
  · refine ⟨hsame, fun _ hok => ?_⟩
    rw [hfull] at hok
    cases hok

lemma emitEach_spec (value : Int32) (chosen : ArrayUsage → Bool) {usages : List ArrayUsage}
    (hnodup : usages.Nodup) (w : World) :
    ∃ w', emitEach (fun _ => true) value chosen w usages = (w', true) ∧ w'.input = w.input ∧
      ∀ u, w'.arrayValues u =
        if u ∈ usages ∧ chosen u = true then value :: w.arrayValues u else w.arrayValues u := by
  induction usages generalizing w with
  | nil => exact ⟨w, rfl, rfl, fun u => by simp⟩
  | cons v usages ih =>
    obtain ⟨hv, hrest⟩ := nodup_cons.mp hnodup
    rw [emitEach]
    by_cases hchosen : chosen v = true
    · rw [if_pos hchosen]
      simp only [emit, if_true]
      obtain ⟨w', hcall, hinput, hvalues⟩ := ih hrest _
      refine ⟨w', hcall, hinput, fun u => ?_⟩
      rw [hvalues u]
      by_cases huv : u = v
      · subst huv
        simp [hv, hchosen, World.arrayValues]
      · have hvu : ¬ v = u := fun h => huv h.symm
        simp [huv, hvu, World.arrayValues]
    · rw [if_neg hchosen]
      obtain ⟨w', hcall, hinput, hvalues⟩ := ih hrest w
      refine ⟨w', hcall, hinput, fun u => ?_⟩
      rw [hvalues u]
      by_cases huv : u = v
      · subst huv
        simp [hv, hchosen]
      · simp [huv]

def change (arrays current : List ArrayUsage) (reportId : UInt8) (u : ArrayUsage) : List Int32 :=
  if u ∈ arrays ∧ u.reportId = reportId ∧ u ∉ current then [0]
  else if u ∈ current ∧ u ∉ arrays then [1]
  else []

def retained (arrays : List ArrayUsage) (reportId : UInt8) : List ArrayUsage :=
  arrays.filter fun u => u.reportId != reportId

lemma updateArrays_spec {w : World} {current : List ArrayUsage} (harrays : w.input.arrays.Nodup)
    (hcurrent : current.Nodup) (reportId : UInt8) :
    ∃ w', w'.input = w.input ∧
      (∀ u, w'.arrayValues u = change w.input.arrays current reportId u ++ w.arrayValues u) ∧
      updateArrays (fun _ => true) w reportId current =
        if maxArrayUsages < (retained w.input.arrays reportId).length + current.length then
          (w', .noResources)
        else ({ w' with input := { w'.input with
          arrays := retained w.input.arrays reportId ++ current } }, .ok) := by
  obtain ⟨w₁, hcall₁, hinput₁, hvalues₁⟩ := emitEach_spec 0
    (fun u => u.reportId == reportId && !decide (u ∈ current)) harrays w
  obtain ⟨w₂, hcall₂, hinput₂, hvalues₂⟩ := emitEach_spec 1
    (fun u => !decide (u ∈ w.input.arrays)) hcurrent w₁
  refine ⟨w₂, hinput₂.trans hinput₁, fun u => ?_, ?_⟩
  · rw [hvalues₂ u, hvalues₁ u, change]
    by_cases ha : u ∈ w.input.arrays
    · by_cases hc : u ∈ current
      · simp [ha, hc]
      · by_cases hid : u.reportId = reportId
        · simp [ha, hc, hid]
        · simp [ha, hc, hid]
    · by_cases hc : u ∈ current
      · simp [ha, hc]
      · simp [ha, hc]
  · unfold updateArrays
    dsimp only
    rw [hcall₁]
    rw [hcall₂]
    rfl

variable {s s' : Session}

inductive Processed (d : Descriptor) (s : Session) (report : Bytes) : Session → Prop where
  | refused {w : World} {status : Status} (same : SameArrays d s.world w) (failed : status ≠ .ok)
      (fits : s.overflows d report = false) :
      Processed d s report ⟨w, (report, .ok status) :: s.calls⟩
  | overflowed {w : World} {current : List ArrayUsage} (usages : ReportUsages d report current)
      (full : maxArrayUsages <
        (retained s.world.input.arrays (reportIdOf d report)).length + current.length)
      (arrays : w.input.arrays = s.world.input.arrays)
      (values : ∀ u, ¬ VariableKey d u → w.arrayValues u =
        change s.world.input.arrays current (reportIdOf d report) u ++ s.world.arrayValues u)
      (overflow : s.overflows d report = true) :
      Processed d s report ⟨w, (report, .ok .noResources) :: s.calls⟩
  | stored {w : World} {current : List ArrayUsage} (usages : ReportUsages d report current)
      (fits : s.overflows d report = false)
      (room : (retained s.world.input.arrays (reportIdOf d report)).length + current.length ≤
        maxArrayUsages)
      (arrays : w.input.arrays =
        retained s.world.input.arrays (reportIdOf d report) ++ current)
      (values : ∀ u, ¬ VariableKey d u → w.arrayValues u =
        change s.world.input.arrays current (reportIdOf d report) u ++ s.world.arrayValues u) :
      Processed d s report ⟨w, (report, .ok .ok) :: s.calls⟩

lemma overflows_eq (hfields : ∀ f ∈ d.fields, f.Readable) {status : Status} {c : Context}
    (hdecode : outcome (decodedValue fun _ => true) ⟨s.world, [], .ok⟩ (decoded d report) =
      (status, c)) :
    s.overflows d report = (decide (status = .ok) && (decide (c.status = .ok) &&
      decide (maxArrayUsages <
        (retained s.world.input.arrays (reportIdOf d report)).length + c.current.length))) := by
  unfold Session.overflows
  rw [decodeInput_eq hfields, hdecode]
  cases status <;> rfl

lemma report_processed (hfields : ∀ f ∈ d.fields, f.Readable)
    (hnodup : s.world.input.arrays.Nodup) (report : Bytes) :
    Processed d s report (s.report d report) := by
  obtain ⟨status, c, hdecode, hsame, husages⟩ := decodeInput_gathers hfields s.world report
  have hoverflows := overflows_eq hfields hdecode
  rw [Session.report, process_eq hfields, hdecode]
  dsimp only
  by_cases hstatus : status = .ok
  · rw [if_neg (not_not_intro hstatus)]
    by_cases hcontext : c.status = .ok
    · rw [if_neg (not_not_intro hcontext)]
      have hc := husages hstatus hcontext
      obtain ⟨w', hinput, hvalues, hupdate⟩ := updateArrays_spec (w := c.world)
        (by rwa [hsame.arrays]) hc.nodup (reportIdOf d report)
      rw [hsame.arrays] at hvalues hupdate
      have hvalues := fun u hu => (hvalues u).trans (congrArg _ (hsame.values u hu))
      simp only [hstatus, hcontext, decide_true, Bool.true_and] at hoverflows
      rw [hupdate]
      by_cases hfull : maxArrayUsages <
          (retained s.world.input.arrays (reportIdOf d report)).length + c.current.length
      · rw [decide_eq_true hfull] at hoverflows
        rw [if_pos hfull]
        exact .overflowed hc hfull (by rw [hinput, hsame.arrays]) hvalues hoverflows
      · rw [decide_eq_false hfull] at hoverflows
        rw [if_neg hfull]
        exact .stored hc hoverflows (Nat.le_of_not_lt hfull) rfl hvalues
    · rw [if_pos hcontext]
      rw [decide_eq_false hcontext, Bool.false_and, Bool.and_false] at hoverflows
      exact .refused hsame hcontext hoverflows
  · rw [if_pos hstatus]
    rw [decide_eq_false hstatus, Bool.false_and] at hoverflows
    exact .refused hsame hstatus hoverflows

lemma latest_cons_ok (report : Bytes) (calls : List (Bytes × Access Status))
    (reportId : UInt8) :
    latest d ((report, .ok .ok) :: calls) reportId =
      if reportIdOf d report = reportId then some report else latest d calls reportId := by
  rw [latest, findSome?_cons]
  by_cases hid : reportIdOf d report = reportId
  · simp [hid]
  · simp [hid, latest]

lemma latest_cons_failed {status : Status} (hfailed : status ≠ .ok) (report : Bytes)
    (calls : List (Bytes × Access Status)) (reportId : UInt8) :
    latest d ((report, .ok status) :: calls) reportId = latest d calls reportId := by
  simp [hfailed, latest]

structure Table (d : Descriptor) (s : Session) : Prop where
  nodup : s.world.input.arrays.Nodup
  room : s.world.input.arrays.length ≤ maxArrayUsages
  expected : ∀ u, u ∈ s.world.input.arrays ↔ s.Expected d u

lemma Table.init : Table d .init := by
  refine ⟨nodup_nil, Nat.zero_le _, fun u => ?_⟩
  constructor
  · intro hu
    cases hu
  · rintro ⟨report, hlatest, -⟩
    cases hlatest

variable {arrays : List ArrayUsage}

lemma mem_retained {reportId : UInt8} {u : ArrayUsage} :
    u ∈ retained arrays reportId ↔ u ∈ arrays ∧ u.reportId ≠ reportId := by
  rw [retained, mem_filter, bne_iff_ne]

lemma Table.failed (h : Table d s) {w : World} {status : Status} (hfailed : status ≠ .ok)
    (harrays : w.input.arrays = s.world.input.arrays) :
    Table d ⟨w, (report, .ok status) :: s.calls⟩ := by
  constructor
  · rw [harrays]
    exact h.nodup
  · rw [harrays]
    exact h.room
  · intro u
    rw [harrays, h.expected u]
    simp only [Session.Expected, latest_cons_failed hfailed]

lemma Table.step (h : Table d s) (hstep : Processed d s report s') : Table d s' := by
  cases hstep with
  | refused same failed fits => exact h.failed failed same.arrays
  | overflowed usages full arrays values overflow => exact h.failed (by decide) arrays
  | @stored w current usages fits room arrays values =>
    constructor
    · rw [arrays]
      refine (h.nodup.filter _).append usages.nodup fun u hu hcurrent => ?_
      exact (mem_retained.mp hu).2 (usages.ids u hcurrent)
    · rw [arrays, length_append]
      exact room
    · intro u
      rw [arrays, mem_append, mem_retained, h.expected u]
      simp only [Session.Expected, latest_cons_ok]
      by_cases hid : reportIdOf d report = u.reportId
      · simp [hid, usages.mem u]
      · have hcurrent : u ∉ current := fun hu => hid (usages.ids u hu).symm
        have hid' : u.reportId ≠ reportIdOf d report := fun h => hid h.symm
        simp [hid, hid', hcurrent]

lemma alternating_of_append {newer older : List Int32} (h : Alternating (newer ++ older)) :
    Alternating older := by
  induction newer with
  | nil => exact h
  | cons v newer ih => exact ih h.2

def Tracks (d : Descriptor) (s : Session) : Prop :=
  ∀ u, ¬ VariableKey d u →
    Alternating (s.world.arrayValues u) ∧ (s.world.Held u ↔ u ∈ s.world.input.arrays)

lemma change_tracks {current : List ArrayUsage} {reportId : UInt8}
    (hids : ∀ u ∈ current, u.reportId = reportId) {u : ArrayUsage} {values : List Int32}
    (halternating : Alternating values) (hheld : values.head? = some 1 ↔ u ∈ arrays) :
    Alternating (change arrays current reportId u ++ values) ∧
      ((change arrays current reportId u ++ values).head? = some 1 ↔
        u ∈ retained arrays reportId ++ current) := by
  have hcurrent := hids u
  rw [mem_append, mem_retained, change]
  by_cases ha : u ∈ arrays
  · by_cases hc : u ∈ current
    · simp [ha, hc, halternating, hheld]
    · by_cases hid : u.reportId = reportId
      · simp [ha, hc, hid, Alternating, halternating, hheld]
      · simp [ha, hc, hid, halternating, hheld]
  · by_cases hc : u ∈ current
    · simp [ha, hc, Alternating, halternating, hheld]
    · simp [ha, hc, halternating, hheld]

lemma Tracks.step (h : Tracks d s) (hstep : Processed d s report s')
    (hfits : s.overflows d report = false) : Tracks d s' := by
  intro u hu
  obtain ⟨halternating, hheld⟩ := h u hu
  cases hstep with
  | refused same failed fits =>
    rw [World.Held, same.values u hu, same.arrays]
    exact ⟨halternating, hheld⟩
  | overflowed usages full arrays values overflow => cases hfits.symm.trans overflow
  | stored usages fits room arrays values =>
    rw [World.Held, values u hu, arrays]
    exact change_tracks usages.ids halternating hheld

def Lost (s : Session) (u : ArrayUsage) : Prop :=
  ¬ Alternating (s.world.arrayValues u) ∨ (s.world.Held u ∧ u ∉ s.world.input.arrays)

variable {u : ArrayUsage}

lemma Lost.change (h : Lost s u) {current : List ArrayUsage} {reportId : UInt8}
    {values : List Int32}
    (hvalues : values = change s.world.input.arrays current reportId u ++ s.world.arrayValues u) :
    ¬ Alternating values ∨ (values.head? = some 1 ∧ u ∉ s.world.input.arrays ∧ u ∉ current) := by
  subst hvalues
  obtain hnot | ⟨hheld, habsent⟩ := h
  · exact .inl fun h => hnot (alternating_of_append h)
  · unfold World.Held at hheld
    rw [Hid.change, if_neg fun h => habsent h.1]
    by_cases hc : u ∈ current
    · rw [if_pos ⟨hc, habsent⟩, singleton_append]
      left
      rintro ⟨hvalue, -⟩
      rw [if_pos hheld] at hvalue
      exact absurd hvalue (by decide)
    · rw [if_neg fun h => hc h.1]
      exact .inr ⟨hheld, habsent, hc⟩

lemma Lost.step (h : Lost s u) (hu : ¬ VariableKey d u) (hstep : Processed d s report s') :
    Lost s' u := by
  cases hstep with
  | refused same failed fits =>
    unfold Lost World.Held
    rw [same.values u hu, same.arrays]
    exact h
  | overflowed usages full arrays values overflow =>
    obtain hnot | ⟨hheld, habsent, -⟩ := h.change (values u hu)
    · exact .inl hnot
    · rw [← arrays] at habsent
      exact .inr ⟨hheld, habsent⟩
  | stored usages fits room arrays values =>
    obtain hnot | ⟨hheld, habsent, hcurrent⟩ := h.change (values u hu)
    · exact .inl hnot
    · refine .inr ⟨hheld, ?_⟩
      rw [arrays, mem_append, mem_retained]
      rintro (hu | hu)
      · exact habsent hu.1
      · exact hcurrent hu

lemma exists_new_usage {current : List ArrayUsage} (hroom : arrays.length ≤ maxArrayUsages)
    (husages : ReportUsages d report current)
    (hfull : maxArrayUsages < (retained arrays (reportIdOf d report)).length + current.length) :
    ∃ u ∈ current, u ∉ arrays := by
  by_contra hnone
  simp only [not_exists, not_and, not_not] at hnone
  have hslots : current ⊆ arrays.filter fun u => u.reportId == reportIdOf d report := by
    intro u hu
    exact mem_filter.mpr ⟨hnone u hu, beq_iff_eq.mpr (husages.ids u hu)⟩
  have hcurrent := (subperm_of_subset husages.nodup hslots).length_le
  have hsplit := length_eq_length_filter_add (l := arrays)
    fun u => u.reportId == reportIdOf d report
  rw [retained] at hfull
  simp only [bne] at hfull
  omega

lemma lost_of_overflow (h : Table d s) (hstep : Processed d s report s')
    (hapart : ∀ u ∈ arrayUsages d report, ¬ VariableKey d u)
    (hoverflow : s.overflows d report = true) : ∃ u ∈ arrayUsages d report, Lost s' u := by
  cases hstep with
  | refused same failed fits | stored usages fits => cases hoverflow.symm.trans fits
  | @overflowed w current usages full arrays values overflow =>
    obtain ⟨u, hu, hnew⟩ := exists_new_usage h.room usages full
    have hreport := (usages.mem u).mp hu
    refine ⟨u, hreport, .inr ⟨?_, ?_⟩⟩
    · rw [World.Held, values u (hapart u hreport), change, if_neg fun h => hnew h.1,
        if_pos ⟨hu, hnew⟩]
      rfl
    · rw [arrays]
      exact hnew

lemma run_table (hfields : ∀ f ∈ d.fields, f.Readable) (reports : List Bytes) :
    Table d (Session.run d reports) := by
  apply foldl_invariant (I := Table d) _ reports Table.init
  intro s report h
  exact h.step (report_processed hfields h.nodup report)

/-- If no array usage of the reports is also that of a variable field: as long as the usages held
fit in the table, the events of each alternate and after each successful call those are held that
the latest reports hold; once they did not fit, this is false after every successful call. -/
theorem run_consistent {data : Bytes} (hparse : reportParse data = .ok d)
    (reports : List Bytes)
    (hapart : ∀ report ∈ reports, ∀ u ∈ arrayUsages d report, ¬ VariableKey d u) :
    ((∀ done report rest, done ++ report :: rest = reports →
        (Session.run d done).overflows d report = false) →
      ∀ done rest, done ++ rest = reports → Consistent d done) ∧
    ∀ done report rest, done ++ report :: rest = reports →
      (Session.run d done).overflows d report = true → (Session.run d reports).lastOk = true →
      ¬ Consistent d reports := by
  have hfields := reportParse_readable hparse
  constructor
  · intro hfits done rest hdone
    have hkeeps : ∀ s, ∀ report ∈ reports, Table d s ∧ Tracks d s → ¬ s.overflows d report = true →
        Table d (s.report d report) ∧ Tracks d (s.report d report) := by
      intro s report _ h hgood
      have hstep := report_processed hfields h.1.nodup report
      exact ⟨h.1.step hstep, h.2.step hstep (Bool.eq_false_iff.mpr hgood)⟩
    have htracks : Table d (Session.run d done) ∧ Tracks d (Session.run d done) := by
      apply foldl_invariant_along (I := fun s => Table d s ∧ Tracks d s) ⟨Table.init, ?_⟩ hkeeps
        ?_ done rest hdone
      · intro u _
        exact ⟨trivial, by simp [Session.init, World.Held, World.arrayValues, inputInit]⟩
      · intro done report rest hreports
        exact Bool.eq_false_iff.mp (hfits done report rest hreports)
    intro report hreport u hu
    have hother := hapart report (by rw [← hdone]; exact mem_append_left rest hreport) u hu
    obtain ⟨halternating, hheld⟩ := htracks.2 u hother
    exact ⟨halternating, fun _ => hheld.trans (htracks.1.expected u)⟩
  · intro done report rest hreports hoverflow hok
    have hreport : report ∈ reports := by rw [← hreports]; simp
    have htable := run_table hfields done
    have hstep := report_processed hfields htable.nodup report
    obtain ⟨u, hu, hlost⟩ := lost_of_overflow htable hstep (hapart report hreport) hoverflow
    have hother := hapart report hreport u hu
    have hafter : Table d (Session.run d reports) ∧ Lost (Session.run d reports) u := by
      rw [← hreports, Session.run, foldl_append, foldl_cons]
      apply foldl_invariant (I := fun s => Table d s ∧ Lost s u) _ rest ⟨htable.step hstep, hlost⟩
      intro s report h
      have hstep := report_processed hfields h.1.nodup report
      exact ⟨h.1.step hstep, h.2.step hother hstep⟩
    intro hconsistent
    obtain ⟨halternating, hheld⟩ := hconsistent report hreport u hu
    obtain hnot | ⟨hpressed, habsent⟩ := hafter.2
    · exact hnot halternating
    · exact habsent ((hafter.1.expected u).mpr ((hheld hok).mp hpressed))

theorem keyboard_consistent :
    reportParse keyboardDescriptor = .ok keyboard ∧
      ∀ done rest, done ++ rest = [[4, 5], [5, 0]] →
        Consistent keyboard done := by
  have hparse : reportParse keyboardDescriptor = .ok keyboard := by decide +kernel
  have hapart : ∀ report ∈ [[4, 5], [5, 0]], ∀ u ∈ arrayUsages keyboard report,
      ¬ VariableKey keyboard u := by
    rintro report - u - ⟨f, hf, hvariable, -⟩
    rw [mem_singleton.mp hf] at hvariable
    exact absurd hvariable (by decide)
  refine ⟨hparse, (run_consistent hparse [[4, 5], [5, 0]] hapart).1
    fun done report rest hreports => ?_⟩
  match done, hreports with
  | [], hreports =>
    obtain ⟨rfl, -⟩ := cons.inj hreports
    decide +kernel
  | [first], hreports =>
    obtain ⟨rfl, hrest⟩ := cons.inj hreports
    obtain ⟨rfl, -⟩ := cons.inj hrest
    decide +kernel
  | first :: second :: done, hreports => simp at hreports

def keypadsDescriptor : Bytes :=
  [0x05, 0x07, 0x15, 0x00, 0x25, 0x65, 0x75, 0x08, 0x95, 0x11,
    0x85, 0x01, 0x19, 0x00, 0x29, 0x65, 0x81, 0x00,
    0x85, 0x02, 0x19, 0x00, 0x29, 0x65, 0x81, 0x00]

def keypads : Descriptor :=
  ⟨[⟨1, 0, 8, 17, 0, 7, 0, 0x65, 0, 0x65⟩, ⟨2, 0, 8, 17, 0, 7, 0, 0x65, 0, 0x65⟩],
    [⟨1, 136⟩, ⟨2, 136⟩], true⟩

def pressedKeypad (reportId : UInt8) : Bytes :=
  [reportId, 4, 5, 6, 7, 8, 9, 10, 11, 12, 13, 14, 15, 16, 17, 18, 19, 20]

def releasedKeypad (reportId : UInt8) : Bytes := reportId :: replicate 17 0

def stuckReports : List Bytes := [pressedKeypad 1, pressedKeypad 2, releasedKeypad 1]

/-- The keys of the second keypad are pressed but get no slot. -/
theorem keypads_stuck :
    reportParse keypadsDescriptor = .ok keypads ∧
      (Session.run keypads stuckReports).calls.map Prod.snd = [.ok .ok, .ok .noResources, .ok .ok] ∧
      (Session.run keypads stuckReports).world.arrayValues ⟨2, 7, 4⟩ = [1] ∧
      latest keypads (Session.run keypads stuckReports).calls 2 = none ∧
      ¬ Consistent keypads stuckReports ∧
      ¬ Alternating ((Session.run keypads (stuckReports ++ [pressedKeypad 2])).world.arrayValues
        ⟨2, 7, 4⟩) := by
  have hvalues : (Session.run keypads stuckReports).world.arrayValues ⟨2, 7, 4⟩ = [1] := by
    decide +kernel
  have hlatest : latest keypads (Session.run keypads stuckReports).calls 2 = none := by
    decide +kernel
  have hagain : (Session.run keypads (stuckReports ++ [pressedKeypad 2])).world.arrayValues
      ⟨2, 7, 4⟩ = [1, 1] := by decide +kernel
  refine ⟨by decide +kernel, by decide +kernel, hvalues, hlatest, ?_, ?_⟩
  · intro hconsistent
    obtain ⟨-, hheld⟩ := hconsistent (pressedKeypad 2) (by decide) ⟨2, 7, 4⟩ (by decide +kernel)
    have hpressed : (Session.run keypads stuckReports).world.Held ⟨2, 7, 4⟩ := by
      rw [World.Held, hvalues]
      rfl
    obtain ⟨report, hreport, -⟩ := (hheld (by decide +kernel)).mp hpressed
    cases hlatest.symm.trans hreport
  · rw [hagain]
    rintro ⟨hvalue, -⟩
    exact absurd hvalue (by decide)

end Bluzing.Hid
