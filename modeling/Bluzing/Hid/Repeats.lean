import Bluzing.Hid.FailedReports

/-! A report that is processed twice in a row. -/
namespace Bluzing.Hid
open List

def Value.Absolute (v : Value) : Prop := v.isArray = false ∧ v.relative = false

def Agreeing (values : List Value) : Prop :=
  ∀ a ∈ values, ∀ b ∈ values, a.Absolute → b.Absolute → a.key = b.key → a.value = b.value

def World.stored (w : World) (k : ArrayUsage) : Int32 := (lookup w.input.variableStates k).getD 0

variable {w w' : World} {c : Context} {v : Value} {values seen : List Value}

lemma Taken.stored (h : Taken v w w') (k : ArrayUsage) :
    w'.stored k = if k = v.key ∧ v.relative = false then v.value else w.stored k := by
  unfold World.stored
  rw [h.slots k]
  by_cases hk : k = v.key
  · cases hrelative : v.relative <;> simp [hk]
  · simp [hk]

structure Slots (c : Context) (seen : List Value) : Prop where
  made : ∀ v ∈ seen, v.isArray = false → (lookup c.world.input.variableStates v.key).isSome
  last : ∀ v ∈ seen, v.Absolute →
    ∃ a ∈ seen, a.Absolute ∧ a.key = v.key ∧ c.world.stored v.key = a.value

lemma Slots.array (h : Slots c seen) (harray : v.isArray = true) {current : List ArrayUsage} :
    Slots { c with current } (seen ++ [v]) := by
  constructor
  · intro u hu hvariable
    rcases mem_append.mp hu with hu | hu
    · exact h.made u hu hvariable
    · obtain rfl := mem_singleton.mp hu
      cases hvariable.symm.trans harray
  · intro u hu habsolute
    rcases mem_append.mp hu with hu | hu
    · obtain ⟨a, ha, hlast⟩ := h.last u hu habsolute
      exact ⟨a, mem_append_left _ ha, hlast⟩
    · obtain rfl := mem_singleton.mp hu
      cases habsolute.1.symm.trans harray

lemma Slots.taken (h : Slots c seen) (hvariable : v.isArray = false)
    (htaken : Taken v c.world w') : Slots { c with world := w' } (seen ++ [v]) := by
  constructor
  · intro u hu hu'
    dsimp only
    rw [htaken.slots]
    by_cases hkey : u.key = v.key
    · simp [hkey]
    · rcases mem_append.mp hu with hu | hu
      · simpa [hkey] using h.made u hu hu'
      · exact absurd (congrArg Value.key (mem_singleton.mp hu)) hkey
  · intro u hu habsolute
    have hstored := htaken.stored u.key
    by_cases hlast : u.key = v.key ∧ v.relative = false
    · rw [if_pos hlast] at hstored
      exact ⟨v, by simp, ⟨hvariable, hlast.2⟩, hlast.1.symm, hstored⟩
    · rw [if_neg hlast] at hstored
      rcases mem_append.mp hu with hu | hu
      · obtain ⟨a, ha, ha', hkey, hvalue⟩ := h.last u hu habsolute
        exact ⟨a, mem_append_left _ ha, ha', hkey, hstored.trans hvalue⟩
      · obtain rfl := mem_singleton.mp hu
        exact absurd ⟨rfl, habsolute.2⟩ hlast

lemma feed_slots (c : Context) (hgoes : (feed (decodedValue fun _ => true) c values).2 = true) :
    Slots (feed (decodedValue fun _ => true) c values).1 values := by
  have hstep (c : Context) (seen : List Value) (v : Value) (_ : v ∈ values) (h : Slots c seen) :
      ((decodedValue (fun _ => true) c v).2 = true ∧
        Slots (decodedValue (fun _ => true) c v).1 (seen ++ [v])) ∨
      ((decodedValue (fun _ => true) c v).2 = false ∧ True) := by
    have hhandled := decodedValue_handled c v
    generalize decodedValue (fun _ => true) c v = r at hhandled ⊢
    cases hhandled with
    | full => exact .inr ⟨rfl, trivial⟩
    | array isArray _ => exact .inl ⟨rfl, h.array isArray⟩
    | scalar isVariable taken => exact .inl ⟨rfl, h.taken isVariable taken⟩
  have hstart : Slots c [] := ⟨nofun, nofun⟩
  rcases feed_cases (S := fun _ => True) hstep hstart with ⟨-, hslots⟩ | ⟨hstops, -⟩
  · exact hslots
  · cases hgoes.symm.trans hstops

variable {c' : Context}

lemma decodedArray_congr (hcurrent : c'.current = c.current) (v : Value) :
    (decodedArray c' v).2 = (decodedArray c v).2 ∧
      (decodedArray c' v).1.current = (decodedArray c v).1.current ∧
      (decodedArray c' v).1.world = c'.world := by
  unfold decodedArray
  rw [hcurrent]
  by_cases hmem : v.arrayUsage ∈ c.current
  · simp [hmem, hcurrent]
  · by_cases hfull : c.current.length = maxArrayUsages
    · simp [hmem, hfull]
    · simp [hmem, hfull]

lemma decodedValue_again (hcurrent : c'.current = c.current)
    (hgoes : (decodedValue (fun _ => true) c v).2 = true)
    (hmade : v.isArray = false → (lookup c'.world.input.variableStates v.key).isSome) :
    (decodedValue (fun _ => true) c' v).2 = true ∧
      (decodedValue (fun _ => true) c' v).1.current =
        (decodedValue (fun _ => true) c v).1.current ∧
      ∀ k, (lookup c'.world.input.variableStates k).isSome →
        (lookup (decodedValue (fun _ => true) c' v).1.world.input.variableStates k).isSome := by
  unfold decodedValue at hgoes ⊢
  split
  next harray =>
    rw [if_pos harray] at hgoes
    obtain ⟨hsame, hnext, hworld⟩ := decodedArray_congr hcurrent v
    rw [hworld]
    exact ⟨hsame.trans hgoes, hnext, fun _ hk => hk⟩
  next hvariable =>
    rw [if_neg hvariable] at hgoes
    have hslot := hmade (Bool.eq_false_iff.mpr hvariable)
    rcases decodedVariable_cases c v with ⟨-, hc⟩ | ⟨w, -, hc⟩
    · rw [hc] at hgoes
      cases hgoes
    · rcases decodedVariable_cases c' v with ⟨hnone, -⟩ | ⟨w', htaken, hc'⟩
      · rw [hnone] at hslot
        cases hslot
      · rw [hc, hc']
        refine ⟨rfl, hcurrent, ?_⟩
        intro k hk
        rw [htaken.slots]
        split
        · rfl
        · exact hk

lemma feed_again (hcurrent : c'.current = c.current)
    (hgoes : (feed (decodedValue fun _ => true) c values).2 = true)
    (hmade : ∀ v ∈ values, v.isArray = false →
      (lookup c'.world.input.variableStates v.key).isSome) :
    (feed (decodedValue fun _ => true) c' values).2 = true ∧
      (feed (decodedValue fun _ => true) c' values).1.current =
        (feed (decodedValue fun _ => true) c values).1.current := by
  induction values generalizing c c' with
  | nil => exact ⟨rfl, hcurrent⟩
  | cons v values ih =>
    obtain ⟨hv, hrest⟩ := forall_mem_cons.mp hmade
    rw [feed] at hgoes
    have hfirst : (decodedValue (fun _ => true) c v).2 = true := by
      by_contra hstops
      simp [hstops] at hgoes
    obtain ⟨hsecond, hnext, hslots⟩ := decodedValue_again hcurrent hfirst hv
    rw [if_pos hfirst] at hgoes
    rw [feed, feed, if_pos hfirst, if_pos hsecond]
    apply ih hnext hgoes
    intro u hu hvariable
    exact hslots _ (hrest u hu hvariable)

lemma feed_events (hgoes : (feed (decodedValue fun _ => true) c values).2 = true) :
    ∃ new, (feed (decodedValue fun _ => true) c values).1.world.events =
        new ++ c.world.events ∧
      ((∀ e ∈ new, e.2.relative = true ∧ e.2.value ≠ 0) ↔
        ∀ v ∈ values, v.Absolute → c.world.stored v.key = v.value) := by
  induction values generalizing c with
  | nil => exact ⟨[], by simp [feed]⟩
  | cons v values ih =>
    have hhandled := decodedValue_handled c v
    rw [feed] at hgoes ⊢
    generalize decodedValue (fun _ => true) c v = r at hhandled hgoes ⊢
    cases hhandled with
    | full => cases hgoes
    | array isArray _ =>
      obtain ⟨new, hevents, hnew⟩ := ih hgoes
      refine ⟨new, hevents, ?_⟩
      rw [hnew, forall_mem_cons]
      have hnot : ¬ v.Absolute := fun h => by cases isArray.symm.trans h.1
      simp [hnot]
    | @scalar isVariable w taken =>
      obtain ⟨new, hevents, hnew⟩ := ih hgoes
      have hv := taken.events
      rw [← World.stored] at hv
      refine ⟨new ++ if v.emits (c.world.stored v.key) then [v.event] else [], ?_, ?_⟩
      · rw [append_assoc, ← hv]
        exact hevents
      · rw [forall_mem_cons, forall_mem_append, hnew]
        dsimp only
        simp only [taken.stored]
        cases hrelative : v.relative with
        | true =>
          have hnot : ¬ v.Absolute := fun h => by cases hrelative.symm.trans h.2
          simp [hnot, Value.emits, Value.event, hrelative]
        | false =>
          have habsolute : v.Absolute := ⟨isVariable, hrelative⟩
          by_cases hsame : c.world.stored v.key = v.value
          · have hkept (k : ArrayUsage) :
                (if k = v.key then v.value else c.world.stored k) = c.world.stored k := by
              split
              next hk => rw [hk, hsame]
              · rfl
            simp [Value.emits, hrelative, hsame, hkept]
          · simp [Value.emits, Value.event, hrelative, hsame, habsolute]

variable {reportId : UInt8} {current : List ArrayUsage}

lemma emitEach_goes (value : Int32) (chosen : ArrayUsage → Bool) (w : World)
    (usages : List ArrayUsage) :
    (emitEach (fun _ => true) value chosen w usages).2 = true := by
  induction usages generalizing w with
  | nil => rfl
  | cons u usages ih =>
    rw [emitEach]
    split
    · exact ih _
    · exact ih w

lemma emitEach_none {value : Int32} {chosen : ArrayUsage → Bool} {usages : List ArrayUsage}
    (hnone : ∀ u ∈ usages, chosen u = false) (w : World) :
    emitEach (fun _ => true) value chosen w usages = (w, true) := by
  induction usages with
  | nil => rfl
  | cons u usages ih =>
    obtain ⟨hu, hrest⟩ := forall_mem_cons.mp hnone
    rw [emitEach, if_neg (by simp [hu])]
    exact ih hrest

lemma updateArrays_ok (h : updateArrays (fun _ => true) w reportId current = (w', .ok)) :
    w'.input = { w.input with arrays := retained w.input.arrays reportId ++ current } ∧
      (retained w.input.arrays reportId).length + current.length ≤ maxArrayUsages := by
  unfold updateArrays at h
  dsimp only at h
  rw [emitEach_goes, emitEach_goes, ← retained] at h
  simp only [Bool.not_true, Bool.false_eq_true, if_false] at h
  split at h
  · cases h
  next hroom =>
    cases h
    simp only [emitEach_input]
    exact ⟨trivial, Nat.le_of_not_lt hroom⟩

lemma retained_stored {arrays : List ArrayUsage} (hids : ∀ u ∈ current, u.reportId = reportId) :
    retained (retained arrays reportId ++ current) reportId = retained arrays reportId := by
  have hcurrent : current.filter (fun u => u.reportId != reportId) = [] := by
    rw [filter_eq_nil_iff]
    intro u hu
    simp [hids u hu]
  simp [retained, hcurrent]

lemma updateArrays_again {arrays : List ArrayUsage} (hids : ∀ u ∈ current, u.reportId = reportId)
    (harrays : w.input.arrays = retained arrays reportId ++ current)
    (hroom : (retained arrays reportId).length + current.length ≤ maxArrayUsages) :
    updateArrays (fun _ => true) w reportId current = (w, .ok) := by
  unfold updateArrays
  dsimp only
  rw [emitEach_none ?_ w]
  · rw [emitEach_none ?_ w]
    · rw [← retained, harrays, retained_stored hids, if_neg (Nat.not_lt.mpr hroom), ← harrays]
      rfl
    · intro u hu
      simp [harrays, hu]
  · intro u hu
    rw [harrays] at hu
    rcases mem_append.mp hu with hu | hu
    · simp [(mem_retained.mp hu).2]
    · simp [hu]

lemma agreeing_of_slots {c : Context} {values : List Value} (h : Slots c values) :
    (∀ v ∈ values, v.Absolute → c.world.stored v.key = v.value) ↔ Agreeing values := by
  constructor
  · intro hstored a ha b hb habsolute hbabsolute hkey
    rw [← hstored a ha habsolute, ← hstored b hb hbabsolute, hkey]
  · intro hagree v hv habsolute
    obtain ⟨a, ha, haabsolute, hkey, hlast⟩ := h.last v hv habsolute
    rw [hlast]
    exact hagree a ha v hv haabsolute habsolute hkey

lemma process_ok {d : Descriptor} {w w' : World} {report : Bytes}
    (hfields : ∀ f ∈ d.fields, f.Readable)
    (hprocess : process (fun _ => true) d w report = .ok (w', .ok)) :
    (decoded d report).2 = .ok ∧ (takeIn d w report).2 = true ∧
      Gathers d w (reportIdOf d report) (takeIn d w report).1 (decoded d report).1 ∧
      updateArrays (fun _ => true) (takeIn d w report).1.world (reportIdOf d report)
        (takeIn d w report).1.current = (w', .ok) := by
  rw [process_eq hfields] at hprocess
  unfold outcome at hprocess
  rcases feed_gathers d w report with ⟨hgoes, hgathers⟩ | ⟨hstops, -, hfull⟩
  · simp only [hgoes, if_true, hgathers.status] at hprocess
    split at hprocess
    next hfailed =>
      have hstatus := congrArg Prod.snd (Except.ok.inj hprocess)
      exact absurd hstatus hfailed
    next hok =>
      exact ⟨not_not.mp hok, hgoes, hgathers, Except.ok.inj hprocess⟩
  · simp [hstops, hfull] at hprocess

/-- A report that was processed is processed again. -/
theorem process_again {data : Bytes} {d : Descriptor} {w w₁ : World} {report : Bytes}
    (hparse : reportParse data = .ok d)
    (hprocess : process (fun _ => true) d w report = .ok (w₁, .ok)) :
    ∃ w₂ new, process (fun _ => true) d w₁ report = .ok (w₂, .ok) ∧
      w₂.events = new ++ w₁.events ∧
      ((∀ e ∈ new, e.2.relative = true ∧ e.2.value ≠ 0) ↔ Agreeing (decoded d report).1) := by
  have hfields := reportParse_readable hparse
  obtain ⟨hdecoded, hgoes, hgathers, hupdate⟩ := process_ok hfields hprocess
  have hslots := feed_slots _ hgoes
  obtain ⟨hinput, hroom⟩ := updateArrays_ok hupdate
  have hstates : w₁.input.variableStates =
      (takeIn d w report).1.world.input.variableStates := by rw [hinput]
  have hmade : ∀ v ∈ (decoded d report).1, v.isArray = false →
      (lookup w₁.input.variableStates v.key).isSome := by
    rw [hstates]
    exact hslots.made
  have hcurrent : (⟨w₁, [], .ok⟩ : Context).current = (⟨w, [], .ok⟩ : Context).current := rfl
  obtain ⟨hagain, hsame⟩ := feed_again hcurrent hgoes hmade
  obtain ⟨new, hevents, hnew⟩ := feed_events hagain
  refine ⟨(takeIn d w₁ report).1.world, new, ?_, hevents, ?_⟩
  · rcases feed_gathers d w₁ report with ⟨-, hgathers₁⟩ | ⟨hstops, -⟩
    · have harrays : (takeIn d w₁ report).1.world.input.arrays =
          retained (takeIn d w report).1.world.input.arrays (reportIdOf d report) ++
            (takeIn d w report).1.current := by
        rw [hgathers₁.same.arrays, hinput]
      have hupdate₁ := updateArrays_again hgathers.ids harrays hroom
      rw [process_eq hfields]
      simp only [outcome, hagain, if_true, hdecoded, hgathers₁.status, hsame, ne_eq,
        not_true_eq_false, if_false, hupdate₁]
    · cases hagain.symm.trans hstops
  · rw [hnew, ← agreeing_of_slots hslots]
    unfold World.stored
    rw [hstates]

theorem axes_again :
    ∃ w₁ w₂ new, process (fun _ => true) axes ⟨inputInit, []⟩ [5, 6] = .ok (w₁, .ok) ∧
      process (fun _ => true) axes w₁ [5, 6] = .ok (w₂, .ok) ∧ w₂.events = new ++ w₁.events ∧
      ∀ e ∈ new, e.2.relative = true ∧ e.2.value ≠ 0 := by
  have hparse : reportParse axesDescriptor = .ok axes := by decide +kernel
  have hprocess : process (fun _ => true) axes ⟨inputInit, []⟩ [5, 6] =
      .ok (⟨⟨[⟨0, 1, 0x30, 5⟩, ⟨0, 1, 0x31, 6⟩], []⟩,
        [(.fromVariable, ⟨.axis, 0, 1, 0x31, 6, false⟩),
          (.fromVariable, ⟨.axis, 0, 1, 0x30, 5, false⟩)]⟩, .ok) := by decide +kernel
  have hagree : Agreeing (decoded axes [5, 6]).1 := by
    unfold Agreeing Value.Absolute
    decide +kernel
  obtain ⟨w₂, new, hagain, hevents, hiff⟩ := process_again hparse hprocess
  exact ⟨_, w₂, new, hprocess, hagain, hevents, hiff.mpr hagree⟩

def sharedAxisDescriptor : Bytes :=
  [0x05, 0x01, 0x09, 0x30, 0x15, 0x00, 0x25, 0x7F, 0x75, 0x08, 0x95, 0x02, 0x81, 0x02]

def sharedAxis : Descriptor :=
  ⟨[⟨0, 0, 8, 1, 2, 1, 0x30, 0x30, 0, 0x7F⟩, ⟨0, 8, 8, 1, 2, 1, 0x30, 0x30, 0, 0x7F⟩], [⟨0, 16⟩],
    false⟩

def axisEvent (value : Int32) : Source × InputEvent :=
  (.fromVariable, ⟨.axis, 0, 1, 0x30, value, false⟩)

/-- Both elements are reported once more, though neither has changed. -/
theorem sharedAxis_again :
    reportParse sharedAxisDescriptor = .ok sharedAxis ∧
      process (fun _ => true) sharedAxis ⟨inputInit, []⟩ [1, 2] =
        .ok (⟨⟨[⟨0, 1, 0x30, 2⟩], []⟩, [axisEvent 2, axisEvent 1]⟩, .ok) ∧
      process (fun _ => true) sharedAxis ⟨⟨[⟨0, 1, 0x30, 2⟩], []⟩, [axisEvent 2, axisEvent 1]⟩
          [1, 2] =
        .ok (⟨⟨[⟨0, 1, 0x30, 2⟩], []⟩, [axisEvent 2, axisEvent 1, axisEvent 2, axisEvent 1]⟩,
          .ok) := by
  decide +kernel

end Bluzing.Hid
