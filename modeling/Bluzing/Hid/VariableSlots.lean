import Bluzing.Hid.FailedReports

/-! The table of variable fields never runs out of slots: it has one for each variable field of the
descriptor at most. -/
namespace Bluzing.Hid
open List

def Descriptor.variableKeys (d : Descriptor) : List ArrayUsage :=
  (d.fields.filter fun f => isVariable f.flags).map fun f => ⟨f.reportId, f.usagePage, f.usageMin⟩

inductive Reported (d : Descriptor) : World → Prop where
  | init : Reported d ⟨inputInit, []⟩
  | process {w w' : World} {callback : ℕ → Bool} {report : Bytes} {status : Status}
      (before : Reported d w) (processed : process callback d w report = .ok (w', status)) :
      Reported d w'

def watched (callback : ℕ → Bool) (s : Context × Bool) (v : Value) : (Context × Bool) × Bool :=
  let full := !v.isArray && (getVariable s.1.world.input.variableStates v).isNone
  let r := decodedValue callback s.1 v
  ((r.1, s.2 || full), r.2)

structure SlotTable (d : Descriptor) (states : List VariableState) : Prop where
  nodup : (states.map VariableState.key).Nodup
  known : states.map VariableState.key ⊆ d.variableKeys

variable {d : Descriptor} {states : List VariableState} {v : Value} {callback : ℕ → Bool}
  {report : Bytes}

lemma SlotTable.length_le (h : SlotTable d states) :
    states.length ≤ d.variableKeys.dedup.length := by
  have hsub : states.map VariableState.key ⊆ d.variableKeys.dedup := fun k hk =>
    mem_dedup.mpr (h.known hk)
  simpa using (h.nodup.subperm hsub).length_le

lemma length_variableKeys_le {data : Bytes} (hparse : reportParse data = .ok d) :
    d.variableKeys.dedup.length ≤ maxFields := by
  have hfields := (reportParse_ok hparse).fieldCount
  have hdedup := (dedup_sublist d.variableKeys).length_le
  have hfilter := length_filter_le (fun f : Field => isVariable f.flags) d.fields
  rw [Descriptor.variableKeys, length_map] at hdedup
  exact Nat.le_trans hdedup (Nat.le_trans hfilter hfields)

lemma SlotTable.append (h : SlotTable d states) {new : VariableState}
    (hnew : lookup states new.key = none) (hknown : new.key ∈ d.variableKeys) :
    SlotTable d (states ++ [new]) := by
  have hnone : new.key ∉ states.map VariableState.key := by
    rw [lookup_eq_none_iff, findIdx?_eq_none_iff] at hnew
    simpa using hnew
  constructor
  · rw [map_append]
    exact h.nodup.append (nodup_singleton _) (disjoint_singleton.mpr hnone)
  · rw [map_append]
    exact append_subset.mpr ⟨h.known, cons_subset.mpr ⟨hknown, nil_subset _⟩⟩

lemma SlotTable.getVariable (hkeys : d.variableKeys.dedup.length ≤ maxVariables)
    (h : SlotTable d states) (hv : v.key ∈ d.variableKeys) :
    ∃ states' i, getVariable states v = some (states', i) ∧ SlotTable d states' := by
  rcases getVariable_cases states v with ⟨i, -, hget⟩ | ⟨hnone, hfull, -⟩ | ⟨hnone, hget⟩
  · exact ⟨states, i, hget, h⟩
  · -- one more slot would be more than there are variables
    have hslot : (⟨v.reportId, v.usagePage, v.usage, 0⟩ : VariableState).key = v.key := rfl
    have hmore := (h.append (hslot ▸ hnone) (hslot ▸ hv)).length_le
    rw [length_append, length_singleton] at hmore
    omega
  · exact ⟨_, _, hget, h.append hnone hv⟩

lemma map_key_modify (states : List VariableState) (i : ℕ) (x : Int32) :
    (states.modify i fun s => { s with value := x }).map VariableState.key =
      states.map VariableState.key := by
  induction states generalizing i with
  | nil => cases i <;> rfl
  | cons s states ih =>
    cases i with
    | zero => rfl
    | succ i => simp [ih]

lemma SlotTable.modify (h : SlotTable d states) (i : ℕ) (x : Int32) :
    SlotTable d (states.modify i fun s => { s with value := x }) := by
  constructor
  · rw [map_key_modify]
    exact h.nodup
  · rw [map_key_modify]
    exact h.known

lemma SlotTable.decodedValue {c : Context} (hkeys : d.variableKeys.dedup.length ≤ maxVariables)
    (h : SlotTable d c.world.input.variableStates)
    (hv : v.isArray = false → v.key ∈ d.variableKeys) :
    SlotTable d (decodedValue callback c v).1.world.input.variableStates := by
  unfold Hid.decodedValue
  split
  · unfold decodedArray
    repeat' split
    all_goals exact h
  next hvariable =>
    obtain ⟨states, i, hget, hstates⟩ := h.getVariable hkeys (hv (Bool.eq_false_iff.mpr hvariable))
    unfold decodedVariable
    rw [hget]
    dsimp only [emit]
    repeat' split
    all_goals first
      | exact hstates
      | exact hstates.modify i v.value

lemma decoded_known {v : Value} (hv : v ∈ (decoded d report).1) (hvariable : v.isArray = false) :
    v.key ∈ d.variableKeys := by
  obtain ⟨f, hf, hflags, hkey⟩ := decoded_variableKey hv hvariable
  exact mem_map.mpr ⟨f, mem_filter.mpr ⟨hf, hflags⟩, hkey⟩

lemma feed_watched (s : Context × Bool) (values : List Value) :
    ((feed (watched callback) s values).1.1, (feed (watched callback) s values).2) =
      feed (decodedValue callback) s.1 values := by
  induction values generalizing s with
  | nil => rfl
  | cons v values ih =>
    rw [feed, feed, watched]
    split
    · exact ih _
    · rfl

lemma feed_watched_slots (hkeys : d.variableKeys.dedup.length ≤ maxVariables) {w : World}
    (h : SlotTable d w.input.variableStates) (callback : ℕ → Bool) (report : Bytes) :
    SlotTable d (feed (watched callback) (⟨w, [], .ok⟩, false)
        (decoded d report).1).1.1.world.input.variableStates ∧
      (feed (watched callback) (⟨w, [], .ok⟩, false) (decoded d report).1).1.2 = false := by
  apply feed_invariant (I := fun s : Context × Bool =>
    SlotTable d s.1.world.input.variableStates ∧ s.2 = false)
  · rintro s v hv ⟨hslots, hflag⟩
    refine ⟨hslots.decodedValue hkeys (decoded_known hv), ?_⟩
    rw [watched, hflag]
    cases harray : v.isArray with
    | true => simp
    | false =>
      obtain ⟨states, i, hget, -⟩ := hslots.getVariable hkeys (decoded_known hv harray)
      simp [hget]
  · exact ⟨h, rfl⟩

lemma updateArrays_variableStates (w : World) (reportId : UInt8) (current : List ArrayUsage) :
    (updateArrays callback w reportId current).1.input.variableStates =
      w.input.variableStates := by
  unfold updateArrays
  dsimp only
  repeat' split
  all_goals simp

lemma Reported.slotTable {data : Bytes} (hparse : reportParse data = .ok d) {w : World}
    (h : Reported d w) : SlotTable d w.input.variableStates := by
  have hkeys := length_variableKeys_le hparse
  induction h with
  | init => exact ⟨nodup_nil, nil_subset _⟩
  | @process w w' callback report status _ processed ih =>
    have hslots : SlotTable d (outcome (decodedValue callback) ⟨w, [], .ok⟩
        (decoded d report)).2.world.input.variableStates := by
      rw [outcome, ← feed_watched (⟨w, [], .ok⟩, false)]
      exact (feed_watched_slots hkeys ih callback report).1
    rw [process_eq (reportParse_readable hparse)] at processed
    dsimp only at processed
    split at processed
    · cases processed
      exact hslots
    · split at processed
      · cases processed
        exact hslots
      · have hworld := congrArg Prod.fst (Except.ok.inj processed)
        dsimp only at hworld
        rw [← hworld, updateArrays_variableStates]
        exact hslots

/-- However many reports have been processed, the table has one slot for each variable of the
descriptor at most, and `get_variable` finds a slot for every value of a further report. -/
theorem getVariable_never_full {data : Bytes} (hparse : reportParse data = .ok d) {w : World}
    (hreported : Reported d w) (callback : ℕ → Bool) (report : Bytes) :
    (w.input.variableStates.map VariableState.key).Nodup ∧
      w.input.variableStates.map VariableState.key ⊆ d.variableKeys ∧
      w.input.variableStates.length ≤ d.variableKeys.dedup.length ∧
      d.variableKeys.dedup.length ≤ maxVariables ∧
      ∃ status c, decodeInput (decodedValue callback) d report ⟨w, [], .ok⟩ = .ok (status, c) ∧
        decodeInput (watched callback) d report (⟨w, [], .ok⟩, false) =
          .ok (status, (c, false)) := by
  have hkeys := length_variableKeys_le hparse
  have hslots := hreported.slotTable hparse
  have hflag := (feed_watched_slots hkeys hslots callback report).2
  refine ⟨hslots.nodup, hslots.known, hslots.length_le, hkeys, _, _,
    decodeInput_eq (reportParse_readable hparse) report _, ?_⟩
  rw [decodeInput_eq (reportParse_readable hparse)]
  unfold outcome
  rw [← feed_watched (⟨w, [], .ok⟩, false)]
  generalize feed (watched callback) (⟨w, [], .ok⟩, false) (decoded d report).1 = r at hflag ⊢
  obtain ⟨⟨c, flag⟩, goesOn⟩ := r
  obtain rfl := hflag
  rfl

theorem axes_never_full :
    reportParse axesDescriptor = .ok axes ∧
      ∃ status c,
        decodeInput (decodedValue fun _ => true) axes [5, 250] ⟨⟨inputInit, []⟩, [], .ok⟩ =
          .ok (status, c) ∧
        decodeInput (watched fun _ => true) axes [5, 250] (⟨⟨inputInit, []⟩, [], .ok⟩, false) =
          .ok (status, (c, false)) :=
  have hparse : reportParse axesDescriptor = .ok axes := by decide +kernel
  ⟨hparse, (getVariable_never_full hparse .init (fun _ => true) [5, 250]).2.2.2.2⟩

end Bluzing.Hid
