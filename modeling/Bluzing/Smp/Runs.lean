import Bluzing.Smp.Manager
import Bluzing.Lib.Reentrant

/-! Runs of the pairing manager: any sequence of calls and received PDUs, against any port, with
deliveries from inside `send` nested to any depth. -/
namespace Bluzing.Smp

inductive Input where
  | call (c : Call) (nowUs : ℕ)
  | pdu (octets : Bytes) (nowUs : ℕ)
  deriving DecidableEq

variable (su : Setup) (port : ℕ → Reply)

def applyCall (send : Send) (w : World) (c : Call) (nowUs : ℕ) : World :=
  match c with
  | .start => (start su send w nowUs).1
  | .providePasskey passkey => (providePasskey su port send w passkey nowUs).1
  | .provideOobTk tk => (provideOobTk su port send w tk nowUs).1
  | .confirmNumeric accepted => (confirmNumeric su send w accepted nowUs).1
  | .onLocalPublicKey success x y => onLocalPublicKey su send w success x y nowUs
  | .onDhkey success dhkey => onDhkey su port send w success dhkey nowUs
  | .onEncryptionChanged enabled => onEncryptionChanged su port send w enabled nowUs
  | .tick => tick su w nowUs

def apply (send : Send) (w : World) : Input → World
  | .call c nowUs => applyCall su port send (w.emit (.called c)) c nowUs
  | .pdu octets nowUs => onPdu su port send w octets nowUs

def component : Reentrant World Bytes Status (Bytes × ℕ) where
  answer w := (w.answered, (port w.calls).status, (port w.calls).deliveries)
  handle send w d := onPdu su port send w d.1 d.2

def sendAt (n : ℕ) : Send := (component su port).port n

def runFrom (n : ℕ) (w : World) (inputs : List Input) : World :=
  inputs.foldl (apply su port (sendAt su port n)) w

def run (n : ℕ) (inputs : List Input) : World := runFrom su port n World.init inputs

@[simp] lemma sendAt_zero (w : World) (pdu : Bytes) :
    sendAt su port 0 w pdu = (w.answered, (port w.calls).status) := rfl

lemma sendAt_quiet {w : World} (h : (port w.calls).deliveries = []) (n : ℕ) (pdu : Bytes) :
    sendAt su port n w pdu = (w.answered, (port w.calls).status) := by
  cases n with
  | zero => rfl
  | succ n => simp [sendAt, component, Reentrant.port, h]

def uniformPort (st : Status) : ℕ → Reply := fun _ => ⟨st, fun _ => 0, fun _ => .zero, []⟩

lemma runFrom_rel {su : Setup} {port : ℕ → Reply} {R : World → World → Prop}
    (refl : ∀ w, R w w) (trans : ∀ {a b c}, R a b → R b c → R a c)
    (answered : ∀ w : World, R w w.answered)
    (step : ∀ send : Send, (∀ w pdu, R w (send w pdu).1) → ∀ w i, R w (apply su port send w i))
    (n : ℕ) (w : World) (inputs : List Input) : R w (runFrom su port n w inputs) := by
  have hsend : ∀ w pdu, R w (sendAt su port n w pdu).1 :=
    Reentrant.port_rel refl trans answered
      (fun send hsend w d => step send hsend w (.pdu d.1 d.2)) n
  exact foldl_rel refl trans (step _ hsend) inputs w

end Bluzing.Smp
