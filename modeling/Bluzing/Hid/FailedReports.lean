import Bluzing.Hid.HeldUsages

/-! What a report that is refused has done by then: nothing, unless a value decoded before the error
was not in the table as it is, or the array usages were found too many only once they had been
pressed. -/
namespace Bluzing.Hid
open List

inductive Reached : World → Prop where
  | init : Reached ⟨inputInit, []⟩
  | reset {w : World} (before : Reached w) : Reached { w with input := inputInit }
  | process {w w' : World} {data : Bytes} {d : Descriptor} {callback : ℕ → Bool}
      {report : Bytes} {status : Status} (before : Reached w)
      (parsed : reportParse data = .ok d)
      (processed : process callback d w report = .ok (w', status)) : Reached w'

structure Tidy (arrays : List ArrayUsage) : Prop where
  nodup : arrays.Nodup
  room : arrays.length ≤ maxArrayUsages

structure Gathered (w : World) (reportId : UInt8) (c : Context) : Prop where
  arrays : c.world.input.arrays = w.input.arrays
  nodup : c.current.Nodup
  ids : ∀ u ∈ c.current, u.reportId = reportId

variable {w w' : World} {callback : ℕ → Bool} {d : Descriptor} {report : Bytes}
  {reportId : UInt8} {status : Status}

lemma decodedVariable_frame (callback : ℕ → Bool) (c : Context) (v : Value) :
    (decodedVariable callback c v).1.world.input.arrays = c.world.input.arrays ∧
      (decodedVariable callback c v).1.current = c.current := by
  unfold decodedVariable
  split
  · exact ⟨rfl, rfl⟩
  · dsimp only [emit]
    repeat' split
    all_goals exact ⟨rfl, rfl⟩

lemma Gathered.step {c : Context} (h : Gathered w reportId c) {v : Value}
    (hid : v.reportId = reportId) : Gathered w reportId (decodedValue callback c v).1 := by
  unfold decodedValue
  split
  · unfold decodedArray
    split
    · exact h
    next hnew =>
      split
      · exact ⟨h.arrays, h.nodup, h.ids⟩
      · refine ⟨h.arrays, ?_, ?_⟩
        · exact h.nodup.append (nodup_singleton _) (disjoint_singleton.mpr hnew)
        · intro u hu
          rcases mem_append.mp hu with hu | hu
          · exact h.ids u hu
          · rw [mem_singleton.mp hu]
            exact hid
  · obtain ⟨harrays, hcurrent⟩ := decodedVariable_frame callback c v
    constructor
    · rw [harrays, h.arrays]
    · rw [hcurrent]
      exact h.nodup
    · rw [hcurrent]
      exact h.ids

@[simp] lemma emitEach_input (value : Int32) (chosen : ArrayUsage → Bool) (w : World)
    (usages : List ArrayUsage) :
    (emitEach callback value chosen w usages).1.input = w.input := by
  induction usages generalizing w with
  | nil => rfl
  | cons u usages ih =>
    rw [emitEach]
    split
    · dsimp only
      split
      · rw [ih]
        rfl
      · rfl
    · exact ih w

lemma updateArrays_tidy {current : List ArrayUsage} (h : Tidy w.input.arrays)
    (hnodup : current.Nodup) (hids : ∀ u ∈ current, u.reportId = reportId) :
    Tidy (updateArrays callback w reportId current).1.input.arrays := by
  unfold updateArrays
  dsimp only
  split
  · simpa using h
  · split
    · simpa using h
    · split
      · simpa using h
      next hroom =>
        constructor
        · apply (h.nodup.filter _).append hnodup
          intro u hu hcurrent
          exact (mem_retained.mp hu).2 (hids u hcurrent)
        · simpa using Nat.le_of_not_lt hroom

lemma process_tidy (hfields : ∀ f ∈ d.fields, f.Readable) (h : Tidy w.input.arrays)
    (hprocess : process callback d w report = .ok (w', status)) : Tidy w'.input.arrays := by
  have hgathered : Gathered w (reportIdOf d report)
      (outcome (decodedValue callback) ⟨w, [], .ok⟩ (decoded d report)).2 := by
    apply feed_invariant (I := Gathered w (reportIdOf d report))
    · intro c v hv hc
      exact hc.step (decoded_reportId v hv)
    · exact ⟨rfl, nodup_nil, nofun⟩
  rw [process_eq hfields] at hprocess
  generalize outcome (decodedValue callback) ⟨w, [], .ok⟩ (decoded d report) = r
    at hgathered hprocess
  have hsame : Tidy r.2.world.input.arrays := by
    rw [hgathered.arrays]
    exact h
  dsimp only at hprocess
  split at hprocess
  · cases hprocess
    exact hsame
  · split at hprocess
    · cases hprocess
      exact hsame
    · have hworld := congrArg Prod.fst (Except.ok.inj hprocess)
      dsimp only at hworld
      rw [← hworld]
      exact updateArrays_tidy hsame hgathered.nodup hgathered.ids

lemma Reached.tidy (h : Reached w) : Tidy w.input.arrays := by
  induction h with
  | init | reset _ _ => exact ⟨nodup_nil, Nat.zero_le _⟩
  | process _ parsed processed ih => exact process_tidy (reportParse_readable parsed) ih processed

def Settled (input : Input) (v : Value) : Prop :=
  v.isArray = true ∨ ∃ previous, lookup input.variableStates v.key = some previous ∧
    v.emits previous = false

def World.size (w : World) : ℕ := w.events.length + w.input.variableStates.length

variable {v : Value}

lemma Taken.eq_of_settled (h : Taken v w w') {previous : Int32}
    (hslot : lookup w.input.variableStates v.key = some previous)
    (hquiet : v.emits previous = false) : w' = w := by
  have hevents : w'.events = w.events := by simpa [hslot, hquiet] using h.events
  have hstates : w'.input.variableStates = w.input.variableStates := by
    apply h.same previous hslot
    unfold Value.emits at hquiet
    cases hrelative : v.relative with
    | true => exact .inl rfl
    | false => exact .inr (by simpa [hrelative] using hquiet)
  obtain ⟨⟨states', arrays'⟩, events'⟩ := w'
  have harrays := h.arrays
  simp_all

lemma Taken.size_lt (h : Taken v w w')
    (hnot : ∀ previous, lookup w.input.variableStates v.key = some previous →
      v.emits previous = true) : w.size < w'.size := by
  have hevents := congrArg length h.events
  unfold World.size
  cases hslot : lookup w.input.variableStates v.key with
  | none =>
    have hgrows := h.grows hslot
    rw [length_append] at hevents
    omega
  | some previous =>
    -- the slot is kept, whatever is stored in it
    have hslots := h.states_le
    simp only [hslot, Option.getD_some, hnot previous hslot, if_true, length_append,
      length_singleton] at hevents
    omega

variable (c : Context)

lemma decodedValue_cases (v : Value) :
    ((decodedValue (fun _ => true) c v).2 = false ∧
      (decodedValue (fun _ => true) c v).1.world = c.world) ∨
    ((decodedValue (fun _ => true) c v).2 = true ∧ Settled c.world.input v ∧
      (decodedValue (fun _ => true) c v).1.world = c.world) ∨
    ((decodedValue (fun _ => true) c v).2 = true ∧ ¬ Settled c.world.input v ∧
      c.world.size < (decodedValue (fun _ => true) c v).1.world.size) := by
  have hhandled := decodedValue_handled c v
  generalize decodedValue (fun _ => true) c v = r at hhandled ⊢
  cases hhandled with
  | full => exact .inl ⟨rfl, rfl⟩
  | array isArray _ => exact .inr (.inl ⟨rfl, .inl isArray, rfl⟩)
  | scalar isVariable taken =>
    right
    by_cases hsettled : Settled c.world.input v
    · left
      refine ⟨rfl, hsettled, ?_⟩
      rcases hsettled with harray | ⟨previous, hslot, hquiet⟩
      · cases isVariable.symm.trans harray
      · exact taken.eq_of_settled hslot hquiet
    · right
      refine ⟨rfl, hsettled, taken.size_lt ?_⟩
      intro previous hslot
      by_contra hquiet
      exact hsettled (.inr ⟨previous, hslot, Bool.eq_false_iff.mpr hquiet⟩)

lemma size_le_feed (values : List Value) :
    c.world.size ≤ (feed (decodedValue fun _ => true) c values).1.world.size := by
  apply feed_invariant (I := fun c' : Context => c.world.size ≤ c'.world.size)
  · intro c' v _ h
    rcases decodedValue_cases c' v with ⟨-, hsame⟩ | ⟨-, -, hsame⟩ | ⟨-, -, hlt⟩
    · rwa [hsame]
    · rwa [hsame]
    · exact h.trans hlt.le
  · exact le_rfl

lemma feed_world_eq_iff (values : List Value) :
    (feed (decodedValue fun _ => true) c values).1.world = c.world ↔
      ∀ v ∈ accepted (decodedValue fun _ => true) c values, Settled c.world.input v := by
  induction values generalizing c with
  | nil => simp [feed, accepted]
  | cons v values ih =>
    rw [feed, accepted]
    rcases decodedValue_cases c v with ⟨hstops, hsame⟩ | ⟨hgoes, hsettled, hsame⟩ |
      ⟨hgoes, hnot, hlt⟩
    · simp [hstops, hsame]
    · have hrest := ih (decodedValue (fun _ => true) c v).1
      rw [hsame] at hrest
      simp only [hgoes, if_true, hrest, forall_mem_cons, hsettled, true_and]
    · have hle := size_le_feed (decodedValue (fun _ => true) c v).1 values
      simp only [hgoes, if_true, forall_mem_cons, hnot, false_and, iff_false]
      intro hworld
      rw [hworld] at hle
      omega

variable {data : Bytes}

/-- A report that is refused has emitted nothing and changed nothing exactly if each value taken in
before the error was in the table as it is, and the report was not refused for its array usages
after they had been pressed. -/
theorem process_failed_iff (hparse : reportParse data = .ok d) (hreached : Reached w)
    (hprocess : process (fun _ => true) d w report = .ok (w', status)) (hfailed : status ≠ .ok) :
    (w'.events = w.events ∧ w'.input = w.input) ↔
      Session.overflows d ⟨w, []⟩ report = false ∧
        ∀ v ∈ accepted (decodedValue fun _ => true) ⟨w, [], .ok⟩ (decoded d report).1,
          Settled w.input v := by
  have hfields := reportParse_readable hparse
  obtain ⟨decodeStatus, c, hdecode, hsame, husages⟩ := decodeInput_gathers hfields w report
  have hoverflows := overflows_eq (s := ⟨w, []⟩) hfields hdecode
  have hfeed := feed_world_eq_iff ⟨w, [], .ok⟩ (decoded d report).1
  have hworld : (feed (decodedValue fun _ => true) ⟨w, [], .ok⟩ (decoded d report).1).1 = c :=
    congrArg Prod.snd hdecode
  rw [hworld] at hfeed
  have hsplit : (w'.events = w.events ∧ w'.input = w.input) ↔ w' = w := by
    constructor
    · rintro ⟨hevents, hinput⟩
      cases w
      cases hevents
      cases hinput
      rfl
    · rintro rfl
      exact ⟨rfl, rfl⟩
  rw [hsplit, ← hfeed]
  rw [process_eq hfields, hdecode] at hprocess
  dsimp only at hprocess
  by_cases hdecoded : decodeStatus = .ok
  · by_cases hcontext : c.status = .ok
    · -- everything was decoded, and the array usages are too many
      rw [if_neg (not_not_intro hdecoded), if_neg (not_not_intro hcontext)] at hprocess
      have hc := husages hdecoded hcontext
      have harrays : c.world.input.arrays.Nodup := by
        rw [hsame.arrays]
        exact hreached.tidy.nodup
      obtain ⟨w₁, hinput, hvalues, hupdate⟩ := updateArrays_spec harrays hc.nodup
        (reportIdOf d report)
      rw [hupdate, hsame.arrays] at hprocess
      rw [hsame.arrays] at hvalues
      simp only [hdecoded, hcontext, decide_true, Bool.true_and] at hoverflows
      split at hprocess
      next hfull =>
        cases hprocess
        rw [hoverflows, decide_eq_true hfull]
        simp only [Bool.true_eq_false, false_and, iff_false]
        rintro rfl
        obtain ⟨u, hu, hnew⟩ := exists_new_usage hreached.tidy.room hc hfull
        have hpressed := congrArg length (hvalues u)
        rw [change, if_neg fun h => hnew h.1, if_pos ⟨hu, hnew⟩] at hpressed
        have hkept : (w'.arrayValues u).length ≤ (c.world.arrayValues u).length :=
          (hsame.events.filterMap _).length_le
        rw [singleton_append, length_cons] at hpressed
        omega
      · cases hprocess
        exact absurd rfl hfailed
    · rw [if_neg (not_not_intro hdecoded), if_pos hcontext] at hprocess
      cases hprocess
      simp [hoverflows, hcontext]
  · rw [if_pos hdecoded] at hprocess
    cases hprocess
    simp [hoverflows, hdecoded]

def axesDescriptor : Bytes :=
  [0x05, 0x01, 0x09, 0x30, 0x09, 0x31, 0x15, 0x00, 0x25, 0x7F, 0x75, 0x08, 0x95, 0x02, 0x81, 0x02]

def axes : Descriptor :=
  ⟨[⟨0, 0, 8, 1, 2, 1, 0x30, 0x30, 0, 0x7F⟩, ⟨0, 8, 8, 1, 2, 1, 0x31, 0x31, 0, 0x7F⟩], [⟨0, 16⟩],
    false⟩

theorem axes_empty_unchanged :
    ∃ w', process (fun _ => true) axes ⟨inputInit, []⟩ [] = .ok (w', .invalidArgument) ∧
      w'.events = [] ∧ w'.input = inputInit := by
  have hparse : reportParse axesDescriptor = .ok axes := by decide +kernel
  have hprocess : process (fun _ => true) axes ⟨inputInit, []⟩ [] =
      .ok (⟨inputInit, []⟩, .invalidArgument) := by decide +kernel
  refine ⟨_, hprocess, (process_failed_iff hparse .init hprocess (by decide)).mpr ⟨?_, ?_⟩⟩
  · decide +kernel
  · intro v hv
    cases hv

/-- A report with the first axis only is refused at the second, after the first was reported. -/
theorem axes_short_emits :
    reportParse axesDescriptor = .ok axes ∧
      process (fun _ => true) axes ⟨inputInit, []⟩ [5] =
        .ok (⟨⟨[⟨0, 1, 0x30, 5⟩], []⟩, [(.fromVariable, ⟨.axis, 0, 1, 0x30, 5, false⟩)]⟩,
          .invalidArgument) := by
  decide +kernel

end Bluzing.Hid
