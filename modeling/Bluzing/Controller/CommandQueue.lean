import Bluzing.Lib.TimerList
import Bluzing.Controller.Hci

/-! The HCI command queue (`core/controller/command_queue.c`): a pool of command slots, the FIFO of
the slots that wait, and at most one command in flight. -/
namespace Bluzing.Controller

abbrev maxPending : ℕ := 4
def defaultTimeoutUs : ℕ := 5000000

abbrev SlotId := Fin maxPending

structure CmdSlot (κ : Type) where
  inUse : Bool
  opcode : UInt16
  params : Bytes
  fits : params.length ≤ maxParamLen
  timeoutUs : ℕ
  onComplete : Option κ
  serial : ℕ

structure Cmdq (κ : Type) where
  pool : SlotId → CmdSlot κ
  pending : List SlotId
  outstanding : Option SlotId
  commandCredits : UInt8
  lastTickUs : ℕ
  timers : TimerList SlotId ℕ

inductive CmdqResult where
  | complete
  | timeout
  | sendError
  deriving DecidableEq

structure Completion where
  result : CmdqResult
  opcode : UInt16
  status : UInt8
  returnParams : Bytes
  deriving DecidableEq

inductive Event where
  | received (data : Bytes)
  | submitted (serial : ℕ)
  | sent (serial : ℕ) (credits : UInt8) (command : Bytes)
  | sendFailed (serial : ℕ)
  | restored (credits : UInt8)
  | completed (serial : ℕ) (completion : Completion)
  | traced (params : Bytes)
  | outOfRange
  deriving DecidableEq

structure World (κ σ : Type) where
  q : Cmdq κ
  host : σ
  calls : ℕ
  submissions : ℕ
  history : List Event

variable {κ σ : Type}

def CmdSlot.init : CmdSlot κ := ⟨false, 0, [], Nat.zero_le _, 0, none, 0⟩

def Cmdq.init : Cmdq κ := ⟨fun _ => .init, [], none, 1, 0, .empty⟩

def World.init (host : σ) : World κ σ := ⟨.init, host, 0, 0, []⟩

namespace World

def emit (w : World κ σ) (e : Event) : World κ σ := { w with history := e :: w.history }

def modify (w : World κ σ) (f : Cmdq κ → Cmdq κ) : World κ σ := { w with q := f w.q }

def slot (w : World κ σ) (i : SlotId) : CmdSlot κ := w.q.pool i

def timerPending (w : World κ σ) (i : SlotId) : Prop := i ∈ w.q.timers.timers

instance (w : World κ σ) (i : SlotId) : Decidable (w.timerPending i) :=
  inferInstanceAs (Decidable (i ∈ w.q.timers.timers))

def readError (w : World κ σ) : ReadError → World κ σ
  | .status _ => w
  | .outOfRange => w.emit .outOfRange

end World

def findFreeSlot (q : Cmdq κ) : Option SlotId :=
  (List.finRange maxPending).find? fun i => !(q.pool i).inUse

def CmdSlot.submitted (opcode : UInt16) (params : Option Bytes) (paramsLen : UInt8)
    (timeoutUs : ℕ) (onComplete : Option κ) (serial : ℕ) : CmdSlot κ where
  inUse := true
  opcode := opcode
  params := (params.getD []).take paramsLen.toNat
  fits := by
    have hlen := paramsLen.toNat_lt
    simp only [List.length_take, maxParamLen]
    omega
  timeoutUs := if timeoutUs ≠ 0 then timeoutUs else defaultTimeoutUs
  onComplete := onComplete
  serial := serial

def World.enqueue (w : World κ σ) (i : SlotId) (slot : CmdSlot κ) : World κ σ :=
  let w := w.modify fun q =>
    { q with pool := Function.update q.pool i slot, pending := q.pending ++ [i] }
  { w with submissions := w.submissions + 1 }.emit (.submitted slot.serial)

def cmdqSubmit (w : World κ σ) (opcode : UInt16) (params : Option Bytes)
    (paramsLen : UInt8) (timeoutUs : ℕ) (onComplete : Option κ) : World κ σ × Status :=
  if paramsLen > 0 ∧ params = none then (w, .invalidArgument)
  else match findFreeSlot w.q with
  | none => (w, .noResources)
  | some i =>
      (w.enqueue i (.submitted opcode params paramsLen timeoutUs onComplete w.submissions), .ok)

abbrev Send (κ σ : Type) := World κ σ → Bytes → World κ σ × Bool

abbrev Callback (κ σ : Type) := κ → World κ σ → Completion → World κ σ

variable (callback : Callback κ σ) (send : Send κ σ)

def World.release (w : World κ σ) (i : SlotId) (completion : Completion) : World κ σ :=
  let slot := w.slot i
  let w := if w.timerPending i then w.modify fun q => { q with timers := q.timers.cancel i } else w
  let w := if w.q.outstanding = some i then w.modify fun q => { q with outstanding := none } else w
  let w := w.modify fun q =>
    { q with pool := Function.update q.pool i { slot with inUse := false } }
  w.emit (.completed slot.serial completion)

def completeSlot (pump : World κ σ → ℕ → World κ σ) (w : World κ σ) (i : SlotId)
    (result : CmdqResult) (status : UInt8) (returnParams : Bytes) (nowUs : ℕ) : World κ σ :=
  let slot := w.slot i
  let completion : Completion := ⟨result, slot.opcode, status, returnParams⟩
  let w := w.release i completion
  let w := match slot.onComplete with
    | none => w
    | some cb => callback cb w completion
  pump w nowUs

def World.advanceClock (w : World κ σ) (nowUs : ℕ) : World κ σ :=
  w.modify fun q => { q with lastTickUs := max q.lastTickUs nowUs }

def World.launch (w : World κ σ) (i : SlotId) (command : Bytes) (nowUs : ℕ) : World κ σ :=
  let w := w.emit (.sent (w.slot i).serial w.q.commandCredits command)
  w.modify fun q =>
    { q with
      commandCredits := q.commandCredits - 1
      outstanding := some i
      timers := q.timers.add i ((nowUs + (w.slot i).timeoutUs) % 2 ^ 64) }

def World.dequeue (w : World κ σ) (rest : List SlotId) : World κ σ :=
  w.modify fun q => { q with pending := rest }

def World.restoreCredit (w : World κ σ) : World κ σ :=
  (w.modify fun q => { q with commandCredits := q.commandCredits + 1 }).emit
    (.restored (w.q.commandCredits + 1))

def cmdqPump : ℕ → World κ σ → ℕ → World κ σ
  | 0, w, _ => w
  | fuel + 1, w, nowUs =>
      let w := w.advanceClock nowUs
      if w.q.outstanding.isSome then w
      else if w.q.commandCredits = 0 then w
      else match w.q.pending with
      | [] => w
      | i :: rest =>
          let w := w.dequeue rest
          match encodeCommand (.init (commandHeaderLen + maxParamLen)) (w.slot i).opcode
              (w.slot i).params with
          | .error _ => completeSlot callback (cmdqPump fuel) w i .sendError 0xFF [] nowUs
          | .ok wr =>
              let serial := (w.slot i).serial
              let r := send (w.launch i wr.data nowUs) wr.data
              if r.2 then r.1
              else
                let w := r.1.emit (.sendFailed serial)
                -- Only the slot is compared: it may have been completed and taken again.
                if w.q.outstanding = some i then
                  completeSlot callback (cmdqPump fuel) w.restoreCredit i .sendError 0xFF [] nowUs
                else w

variable (fuel : ℕ)

def answerCommand (w : World κ σ) (opcode : UInt16) (status : Access UInt8)
    (returnParams : Bytes) (nowUs : ℕ) : World κ σ :=
  match w.q.outstanding with
  | none => cmdqPump callback send fuel w nowUs
  | some i =>
      if (w.slot i).opcode = opcode then
        match status with
        | .error e => w.readError e
        | .ok status =>
            completeSlot callback (cmdqPump callback send fuel) w i .complete status returnParams
              nowUs
      else cmdqPump callback send fuel w nowUs

def World.setCredits (w : World κ σ) (credits : UInt8) : World κ σ :=
  w.modify fun q => { q with commandCredits := credits }

def completeStatus (cc : CommandComplete) : Access UInt8 :=
  if cc.returnParams.length ≥ 1 then octetAt cc.returnParams 0 else .ok 0xFF

def cmdqOnEvent (w : World κ σ) (data : Bytes) (nowUs : ℕ) : World κ σ :=
  match parseEventHeader (.init data) with
  | .error e => w.readError e
  | .ok (hdr, r) =>
      if hdr.eventCode = eventCommandComplete then
        match parseCommandComplete r hdr.paramLen with
        | .error e => w.readError e
        | .ok cc =>
            answerCommand callback send fuel (w.setCredits cc.numHciCommandPackets)
              cc.commandOpcode (completeStatus cc) cc.returnParams nowUs
      else if hdr.eventCode = eventCommandStatus then
        match parseCommandStatus r hdr.paramLen with
        | .error e => w.readError e
        | .ok cs =>
            answerCommand callback send fuel (w.setCredits cs.numHciCommandPackets)
              cs.commandOpcode (.ok cs.status) [] nowUs
      else w

def timeoutCallback (w : World κ σ) (i : SlotId) : World κ σ :=
  completeSlot callback (cmdqPump callback send fuel) (w.setCredits 1) i .timeout 0xFF []
    w.q.lastTickUs

def expireTimers : ℕ → World κ σ → ℕ → World κ σ
  | 0, w, _ => w
  | rounds + 1, w, nowUs =>
      match w.q.timers.popExpired nowUs with
      | none => w
      | some (i, timers) =>
          expireTimers rounds
            (timeoutCallback callback send fuel (w.modify fun q => { q with timers }) i) nowUs

def cmdqTick (w : World κ σ) (nowUs : ℕ) : World κ σ :=
  let w := expireTimers callback send fuel fuel (w.advanceClock nowUs) nowUs
  cmdqPump callback send fuel w nowUs

end Bluzing.Controller
