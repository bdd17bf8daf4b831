import Bluzing.Hid.ReportParser

/-! The state of HID input (`core/hid/input.c`): the values of the variable fields and the usages
held in array fields, and the events that a report gives rise to. -/
namespace Bluzing.Hid

abbrev maxVariables : ℕ := 128
abbrev maxArrayUsages : ℕ := 32

inductive EventKind where
  | key
  | button
  | axis
  | consumer
  | generic
  deriving DecidableEq

structure InputEvent where
  kind : EventKind
  reportId : UInt8
  usagePage : UInt16
  usage : UInt16
  value : Int32
  relative : Bool
  deriving DecidableEq

structure VariableState where
  reportId : UInt8
  usagePage : UInt16
  usage : UInt16
  value : Int32
  deriving DecidableEq

structure ArrayUsage where
  reportId : UInt8
  usagePage : UInt16
  usage : UInt16
  deriving DecidableEq

structure Input where
  variableStates : List VariableState
  arrays : List ArrayUsage
  deriving DecidableEq

def inputInit : Input := ⟨[], []⟩

inductive Source where
  | fromVariable
  | fromArray
  deriving DecidableEq

structure World where
  input : Input
  events : List (Source × InputEvent)
  deriving DecidableEq

def classify (usagePage usage : UInt16) : EventKind :=
  if usagePage = 0x07 then .key
  else if usagePage = 0x09 then .button
  else if usagePage = 0x0C then .consumer
  else if usagePage = 0x01 ∧ 0x30 ≤ usage ∧ usage ≤ 0x39 then .axis
  else .generic

structure Context where
  world : World
  current : List ArrayUsage
  status : Status
  deriving DecidableEq

variable (callback : ℕ → Bool)

def emit (w : World) (source : Source) (reportId : UInt8) (usagePage usage : UInt16)
    (value : Int32) (relative : Bool) : World × Bool :=
  let e : InputEvent := ⟨classify usagePage usage, reportId, usagePage, usage, value, relative⟩
  ({ w with events := (source, e) :: w.events }, callback w.events.length)

def getVariable (states : List VariableState) (v : Value) : Option (List VariableState × ℕ) :=
  match states.findIdx? fun s =>
      s.reportId == v.reportId && s.usagePage == v.usagePage && s.usage == v.usage with
  | some i => some (states, i)
  | none =>
      if states.length < maxVariables then
        some (states ++ [⟨v.reportId, v.usagePage, v.usage, 0⟩], states.length)
      else none

def Value.arrayUsage (v : Value) : ArrayUsage := ⟨v.reportId, v.usagePage, v.usage⟩

def decodedArray (c : Context) (v : Value) : Context × Bool :=
  if v.arrayUsage ∈ c.current then (c, true)
  else if c.current.length = maxArrayUsages then ({ c with status := .noResources }, false)
  else ({ c with current := c.current ++ [v.arrayUsage] }, true)

def decodedVariable (c : Context) (v : Value) : Context × Bool :=
  match getVariable c.world.input.variableStates v with
  | none => ({ c with status := .noResources }, false)
  | some (states, i) =>
      let w := { c.world with input := { c.world.input with variableStates := states } }
      let relative := (v.flags &&& inputRelative) != 0
      let previous := (states[i]?.map VariableState.value).getD 0
      let r := if (relative && v.value != 0) || (!relative && previous != v.value) then
          emit callback w .fromVariable v.reportId v.usagePage v.usage v.value relative
        else (w, true)
      if !r.2 then ({ c with world := r.1 }, false)
      else if relative then ({ c with world := r.1 }, true)
      else
        let states := r.1.input.variableStates.modify i fun s => { s with value := v.value }
        let input := { r.1.input with variableStates := states }
        ({ c with world := { r.1 with input := input } }, true)

def decodedValue (c : Context) (v : Value) : Context × Bool :=
  if v.isArray then decodedArray c v else decodedVariable callback c v

def emitEach (value : Int32) (chosen : ArrayUsage → Bool) : World → List ArrayUsage → World × Bool
  | w, [] => (w, true)
  | w, u :: usages =>
      if chosen u then
        let r := emit callback w .fromArray u.reportId u.usagePage u.usage value false
        if r.2 then emitEach value chosen r.1 usages else r
      else emitEach value chosen w usages

def updateArrays (w : World) (reportId : UInt8) (current : List ArrayUsage) : World × Status :=
  let arrays := w.input.arrays
  let r := emitEach callback 0 (fun u => u.reportId == reportId && !decide (u ∈ current)) w arrays
  if !r.2 then (r.1, .ok)
  else
    let r := emitEach callback 1 (fun u => !decide (u ∈ arrays)) r.1 current
    if !r.2 then (r.1, .ok)
    else
      let retained := arrays.filter fun u => u.reportId != reportId
      if maxArrayUsages < retained.length + current.length then (r.1, .noResources)
      else ({ r.1 with input := { r.1.input with arrays := retained ++ current } }, .ok)

def reportIdOf (d : Descriptor) (report : Bytes) : UInt8 :=
  if d.usesReportIds then report.headD 0 else 0

def process (d : Descriptor) (w : World) (report : Bytes) : Access (World × Status) :=
  if d.usesReportIds ∧ report.length = 0 then .ok (w, .invalidArgument)
  else do
    let r ← decodeInput (decodedValue callback) d report ⟨w, [], .ok⟩
    if r.1 ≠ .ok then .ok (r.2.world, r.1)
    else if r.2.status ≠ .ok then .ok (r.2.world, r.2.status)
    else .ok (updateArrays callback r.2.world (reportIdOf d report) r.2.current)

end Bluzing.Hid
