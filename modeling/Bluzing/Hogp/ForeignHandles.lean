import Bluzing.Gatt.Notifications
import Bluzing.Hogp.Server
import Bluzing.Hogp.Subscription

/-! Notifications with a handle that is not one of an input: they do nothing, unless the handle is 0
and taken for that of a boot input that the server does not have. -/
namespace Bluzing.Hogp
open Gatt (Characteristic)

/-- The boot handles are 0 or value handles of discovered characteristics. -/
structure Named (c : Client) : Prop where
  keyboard : c.bootKeyboardInputHandle =
    lastValueHandle uuidBootKeyboardInput c.characteristics.items
  mouse : c.bootMouseInputHandle = lastValueHandle uuidBootMouseInput c.characteristics.items

/-- Notifications reach the client, and a handler is set for the events of its inputs. -/
def Listening (w : World) : Prop :=
  w.gatt.channelOpen = true ∧ w.gatt.client.onNotify = true ∧ w.notifies = true ∧
    w.client.onEvent = true

variable {env : Env} {w w' : World} {c c' : Client}

lemma Named.congr (h : Named c) (hkept : c'.bootInputs = c.bootInputs) : Named c' := by
  simp only [Client.bootInputs, Prod.mk.injEq] at hkept
  obtain ⟨hchars, hkeyboard, hmouse⟩ := hkept
  constructor
  · rw [hkeyboard, hchars, h.keyboard]
  · rw [hmouse, hchars, h.mouse]

lemma Named.moves (h : Named w.client) (hmoves : Moves env w w') : Named w'.client := by
  refine hmoves.invariant (P := fun w => Named w.client) (fun {w w'} hmove hw => ?_) h
  cases hmove with
  | client c hkept => exact hw.congr hkept
  | characteristics chars =>
    obtain ⟨-, hchars, -, hkeyboard, hmouse⟩ := noteCharacteristics_tables w.client chars
    constructor
    · simpa only [World.modify, hchars] using hkeyboard
    · simpa only [World.modify, hchars] using hmouse
  | emit | issued | failed | listens => exact hw

lemma Named.passive (h : Named w.client) (hp : Passive w w') : Named w'.client := by
  have hrecorded := hp.tables.recorded
  simp only [Client.recorded, Recorded.mk.injEq] at hrecorded
  obtain ⟨-, hchars, -, -, hkeyboard, -, hmouse, -⟩ := hrecorded
  refine h.congr ?_
  simp only [Client.bootInputs, hchars, hkeyboard, hmouse]

lemma Named.observe (h : Named w.client) (e : Gatt.Event) : Named (observe env w e).client := by
  cases e with
  | completed n completion =>
    dsimp only [Hogp.observe]
    split
    · exact h
    next call cb _ =>
      have hanswered : Named (w.emit (.answered call completion)).client := h
      exact hanswered.moves (Moves.handle _ completion cb)
  | _ => exact h.passive (observe_passive w rfl)

variable {handle : UInt16}

variable {isIndication : Bool} {h0 h1 : UInt8} {value : Bytes} {nowUs : ℕ}

def begun : World := run promptEnv (opening ++ [.setEventHandler true])

end Bluzing.Hogp
