import Bluzing.Controller.Controller

/-! The manager (`core/manager/manager.c`), which opens and closes the transport around the
controller. -/
namespace Bluzing.Manager
open Controller (Ctrl Cmdq Host controllerOnEvent controllerStart controllerTick)

inductive ManagerState where
  | stopped
  | starting
  | running
  | error
  deriving DecidableEq

inductive Event where
  | opened (ok : Bool)
  | closed
  | receiveStarted (ok : Bool)
  | receiveStopped
  | startReturned (status : Status)
  deriving DecidableEq

structure World where
  controller : Ctrl
  state : ManagerState
  history : List Event

def controllerInit (c : Ctrl) : Ctrl :=
  { c with q := Cmdq.init, host := Host.init c.host.inquiryTraced }

def managerInit : World := ⟨Controller.World.init (Host.init 0), .stopped, []⟩

namespace World

def emit (w : World) (e : Event) : World := { w with history := e :: w.history }

def setState (w : World) (state : ManagerState) : World := { w with state }

end World

structure Env where
  answers : ℕ → List Bytes × Bool
  hook : Bool
  fuel : ℕ

def reentrant (env : Env) : Reentrant Ctrl Bytes Bool Bytes where
  answer c := ({ c with calls := c.calls + 1 }, (env.answers c.calls).2, (env.answers c.calls).1)
  handle send c data :=
    controllerOnEvent env.hook send env.fuel (c.emit (.received data)) data c.q.lastTickUs

variable (env : Env) (depth : ℕ)

def send : Controller.Send Controller.OnComplete Host := (reentrant env).port depth

def managerReceive (w : World) (data : Bytes) : World :=
  if w.state = .stopped ∨ w.state = .error then w
  else { w with controller := (reentrant env).handle (send env depth) w.controller data }

def start (w : World) (openOk receiveOk : Bool) (nowUs : ℕ) : World × Status :=
  if w.state ≠ .stopped then (w, .invalidArgument)
  else
    let w := (w.setState .starting).emit (.opened openOk)
    if !openOk then (w.setState .error, .io)
    else
      let w := w.emit (.receiveStarted receiveOk)
      if !receiveOk then ((w.emit .closed).setState .error, .io)
      else
        let r := controllerStart (send env depth) env.fuel w.controller nowUs
        let w := { w with controller := r.1 }
        if r.2 ≠ .ok then (((w.emit .receiveStopped).emit .closed).setState .error, r.2)
        else if w.controller.host.state = .error then (w.setState .error, .io)
        else (w.setState .running, .ok)

def managerStart (w : World) (openOk receiveOk : Bool) (nowUs : ℕ) : World :=
  let r := start env depth w openOk receiveOk nowUs
  r.1.emit (.startReturned r.2)

def managerTick (w : World) (nowUs : ℕ) : World :=
  if w.state ≠ .running then w
  else
    let w := { w with controller := controllerTick (send env depth) env.fuel w.controller nowUs }
    if w.controller.host.state = .error then w.setState .error else w

def managerStop (w : World) : World :=
  if w.state = .stopped then w
  else
    let w := (w.emit .receiveStopped).emit .closed
    { w with controller := controllerInit w.controller, state := .stopped }

inductive Input where
  | start (openOk receiveOk : Bool) (nowUs : ℕ)
  | tick (nowUs : ℕ)
  | stop
  | receive (data : Bytes)
  deriving DecidableEq

def apply (w : World) : Input → World
  | .start openOk receiveOk nowUs => managerStart env depth w openOk receiveOk nowUs
  | .tick nowUs => managerTick env depth w nowUs
  | .stop => managerStop w
  | .receive data => managerReceive env depth w data

def run (inputs : List Input) : World := inputs.foldl (apply env depth) managerInit

end Bluzing.Manager
