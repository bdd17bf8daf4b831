import Bluzing.Hid.Values

/-! The table of variable fields as a map from report ID, usage page and usage to a value, and what
one decoded value does to it. -/
namespace Bluzing.Hid

def VariableState.key (s : VariableState) : ArrayUsage := ⟨s.reportId, s.usagePage, s.usage⟩

def Value.key (v : Value) : ArrayUsage := ⟨v.reportId, v.usagePage, v.usage⟩

def Value.relative (v : Value) : Bool := (v.flags &&& inputRelative) != 0

def lookup (states : List VariableState) (k : ArrayUsage) : Option Int32 :=
  (states.find? fun s => s.key == k).map VariableState.value

def Value.event (v : Value) : Source × InputEvent :=
  (.fromVariable, ⟨classify v.usagePage v.usage, v.reportId, v.usagePage, v.usage, v.value,
    v.relative⟩)

def Value.emits (v : Value) (previous : Int32) : Bool :=
  if v.relative then v.value != 0 else previous != v.value

variable {states : List VariableState} {k : ArrayUsage} {i : ℕ}

lemma lookup_of_findIdx? (h : states.findIdx? (fun s => s.key == k) = some i) :
    lookup states k = states[i]?.map VariableState.value := by
  induction states generalizing i with
  | nil => cases h
  | cons s states ih =>
    rw [List.findIdx?_cons] at h
    split at h
    next hkey =>
      cases h
      simp [lookup, hkey]
    next hkey =>
      obtain ⟨j, hj, rfl⟩ := Option.map_eq_some_iff.mp h
      simpa [lookup, hkey] using ih hj

lemma lookup_eq_none_iff :
    lookup states k = none ↔ states.findIdx? (fun s => s.key == k) = none := by
  simp [lookup]

lemma lookup_append (new : VariableState) :
    lookup (states ++ [new]) k =
      (lookup states k).or (if new.key = k then some new.value else none) := by
  rw [lookup, List.find?_append, Option.map_or, ← lookup]
  by_cases hkey : new.key = k <;> simp [hkey]

lemma lookup_modify (h : states.findIdx? (fun s => s.key == k) = some i) (x : Int32)
    (k' : ArrayUsage) :
    lookup (states.modify i fun s => { s with value := x }) k' =
      if k' = k then some x else lookup states k' := by
  induction states generalizing i with
  | nil => cases h
  | cons s states ih =>
    rw [List.findIdx?_cons] at h
    have hsame : ({ s with value := x } : VariableState).key = s.key := rfl
    split at h
    next hkey =>
      cases h
      obtain rfl := beq_iff_eq.mp hkey
      by_cases hk : s.key = k'
      · simp [lookup, hsame, hk]
      · simp [lookup, hsame, hk, Ne.symm hk]
    next hkey =>
      obtain ⟨j, hj, rfl⟩ := Option.map_eq_some_iff.mp h
      have hne : s.key ≠ k := by simpa using hkey
      have hrest := ih hj
      simp only [lookup] at hrest ⊢
      by_cases hk : s.key = k'
      · obtain rfl := hk
        simp [hne]
      · have hother := beq_eq_false_iff_ne.mpr hk
        simpa [hother] using hrest

lemma modify_of_lookup (h : states.findIdx? (fun s => s.key == k) = some i) {x : Int32}
    (hx : lookup states k = some x) :
    (states.modify i fun s => { s with value := x }) = states := by
  rw [lookup_of_findIdx? h] at hx
  obtain ⟨s, hs, rfl⟩ := Option.map_eq_some_iff.mp hx
  apply List.ext_getElem?
  intro j
  by_cases hij : i = j
  · subst hij
    simp [hs]
  · simp [hij]

variable {w w' : World} {c : Context} {v : Value}

structure Taken (v : Value) (w w' : World) : Prop where
  arrays : w'.input.arrays = w.input.arrays
  events : w'.events = (if v.emits ((lookup w.input.variableStates v.key).getD 0) then [v.event]
    else []) ++ w.events
  slots : ∀ k, lookup w'.input.variableStates k = if k = v.key then
    some (if v.relative then (lookup w.input.variableStates k).getD 0 else v.value)
    else lookup w.input.variableStates k
  states_le : w.input.variableStates.length ≤ w'.input.variableStates.length
  grows : lookup w.input.variableStates v.key = none →
    w.input.variableStates.length < w'.input.variableStates.length
  same : ∀ x, lookup w.input.variableStates v.key = some x → (v.relative = true ∨ x = v.value) →
    w'.input.variableStates = w.input.variableStates

lemma getVariable_cases (states : List VariableState) (v : Value) :
    (∃ i, states.findIdx? (fun s => s.key == v.key) = some i ∧
      getVariable states v = some (states, i)) ∨
    (lookup states v.key = none ∧ maxVariables ≤ states.length ∧ getVariable states v = none) ∨
    (lookup states v.key = none ∧
      getVariable states v = some (states ++ [⟨v.reportId, v.usagePage, v.usage, 0⟩],
        states.length)) := by
  have hkey : (fun s : VariableState => s.reportId == v.reportId && s.usagePage == v.usagePage &&
      s.usage == v.usage) = fun s => s.key == v.key := by
    funext s
    rw [Bool.eq_iff_iff]
    simp [VariableState.key, Value.key, and_assoc]
  rw [lookup_eq_none_iff, getVariable, hkey]
  cases hfind : states.findIdx? fun s => s.key == v.key with
  | some i => exact .inl ⟨i, rfl, rfl⟩
  | none =>
    by_cases hroom : states.length < maxVariables
    · simp [hroom]
    · simp [hroom, Nat.le_of_not_lt hroom]

lemma emit_value (w : World) (v : Value) :
    emit (fun _ => true) w .fromVariable v.reportId v.usagePage v.usage v.value v.relative =
      ({ w with events := v.event :: w.events }, true) := rfl

def World.store (w : World) (v : Value) (states : List VariableState) (i : ℕ) : World where
  input := { w.input with
    variableStates := if v.relative then states
      else states.modify i fun s => { s with value := v.value } }
  events := (if v.emits ((states[i]?.map VariableState.value).getD 0) then [v.event] else []) ++
    w.events

lemma decodedVariable_slot {states : List VariableState} {i : ℕ}
    (hget : getVariable c.world.input.variableStates v = some (states, i)) :
    decodedVariable (fun _ => true) c v = ({ c with world := c.world.store v states i }, true) := by
  rw [decodedVariable, hget, World.store]
  dsimp only
  rw [← Value.relative, emit_value, Value.emits]
  cases hrelative : v.relative with
  | true =>
    by_cases hzero : v.value = 0
    · simp [hzero]
    · simp [hzero]
  | false =>
    by_cases hsame : (states[i]?.map VariableState.value).getD 0 = v.value
    · simp [hsame]
    · simp [hsame]

lemma taken_of_slot {i : ℕ}
    (hfind : w.input.variableStates.findIdx? (fun s => s.key == v.key) = some i) :
    Taken v w (w.store v w.input.variableStates i) := by
  constructor
  · rfl
  · rw [lookup_of_findIdx? hfind, World.store]
  · intro k
    unfold World.store
    cases v.relative with
    | true =>
      by_cases hk : k = v.key
      · subst hk
        cases hslot : lookup w.input.variableStates v.key with
        | none => cases hfind.symm.trans (lookup_eq_none_iff.mp hslot)
        | some x => simp [hslot]
      · simp [hk]
    | false => simpa using lookup_modify hfind v.value k
  · unfold World.store
    cases v.relative <;> simp
  · intro hnone
    cases hfind.symm.trans (lookup_eq_none_iff.mp hnone)
  · intro x hx hquiet
    unfold World.store
    cases hrelative : v.relative with
    | true => simp
    | false =>
      obtain rfl : x = v.value := by simpa [hrelative] using hquiet
      simpa using modify_of_lookup hfind hx

lemma taken_of_new {new : VariableState} (hkey : new.key = v.key) (hzero : new.value = 0)
    (hnone : lookup w.input.variableStates v.key = none) :
    Taken v w
      (w.store v (w.input.variableStates ++ [new]) w.input.variableStates.length) := by
  have hfind : (w.input.variableStates ++ [new]).findIdx? (fun s => s.key == v.key) =
      some w.input.variableStates.length := by
    rw [List.findIdx?_append, lookup_eq_none_iff.mp hnone]
    simp [hkey]
  constructor
  · rfl
  · simp [World.store, hnone, hzero]
  · intro k
    unfold World.store
    by_cases hk : k = v.key
    · subst hk
      cases v.relative with
      | true => simp [lookup_append, hnone, hkey, hzero]
      | false => simpa using lookup_modify hfind v.value v.key
    · have hnew : new.key ≠ k := by
        rw [hkey]
        exact Ne.symm hk
      cases v.relative with
      | true => simp [lookup_append, hk, hnew]
      | false => simpa [hk, lookup_append, hnew] using lookup_modify hfind v.value k
  · unfold World.store
    cases v.relative <;> simp
  · unfold World.store
    cases v.relative <;> simp
  · intro x hx
    cases hnone.symm.trans hx

lemma decodedVariable_cases (c : Context) (v : Value) :
    (lookup c.world.input.variableStates v.key = none ∧
      decodedVariable (fun _ => true) c v = ({ c with status := .noResources }, false)) ∨
    ∃ w, Taken v c.world w ∧
      decodedVariable (fun _ => true) c v = ({ c with world := w }, true) := by
  rcases getVariable_cases c.world.input.variableStates v with
    ⟨i, hfind, hget⟩ | ⟨hnone, -, hget⟩ | ⟨hnone, hget⟩
  · exact .inr ⟨_, taken_of_slot hfind, decodedVariable_slot hget⟩
  · left
    refine ⟨hnone, ?_⟩
    rw [decodedVariable, hget]
  · exact .inr ⟨_, taken_of_new rfl rfl hnone, decodedVariable_slot hget⟩

inductive Handled (c : Context) (v : Value) : Context × Bool → Prop where
  | full : Handled c v ({ c with status := .noResources }, false)
  | array (isArray : v.isArray = true) {current : List ArrayUsage}
      (gathered : current = if v.arrayUsage ∈ c.current then c.current
        else c.current ++ [v.arrayUsage]) : Handled c v ({ c with current }, true)
  | scalar (isVariable : v.isArray = false) {w : World} (taken : Taken v c.world w) :
      Handled c v ({ c with world := w }, true)

lemma decodedValue_handled (c : Context) (v : Value) :
    Handled c v (decodedValue (fun _ => true) c v) := by
  unfold decodedValue
  split
  next harray =>
    unfold decodedArray
    split
    next hmem => exact .array harray (if_pos hmem).symm
    next hnew =>
      split
      · exact .full
      · exact .array harray (if_neg hnew).symm
  next hvariable =>
    rcases decodedVariable_cases c v with ⟨-, hstops⟩ | ⟨w', htaken, hgoes⟩
    · rw [hstops]
      exact .full
    · rw [hgoes]
      exact .scalar (Bool.eq_false_iff.mpr hvariable) htaken

end Bluzing.Hid
