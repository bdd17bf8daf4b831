import Bluzing.Smp.Success
import Bluzing.Smp.Responder

/-! The manager in conversation with a responder. -/
namespace Bluzing.Smp

def Event.sentPdu : Event → Option Bytes
  | .sent pdu => some pdu
  | _ => none

def World.sentPdus (w : World) : List Bytes := (w.history.filterMap Event.sentPdu).reverse

structure Session where
  w : World
  delivered : ℕ

inductive Act where
  | call (c : Call) (nowUs : ℕ)
  /-- The oldest undelivered PDU of the responder reaches the manager. -/
  | deliver (nowUs : ℕ)
  deriving DecidableEq

variable (su : Setup) (port : ℕ → Reply) (r : Responder)

def act (s : Session) : Act → Session
  | .call c nowUs => { s with w := apply su port (sendAt su port 0) s.w (.call c nowUs) }
  | .deliver nowUs =>
      match (r.receiveAll .idle s.w.sentPdus).2[s.delivered]? with
      | none => s
      | some pdu => ⟨apply su port (sendAt su port 0) s.w (.pdu pdu nowUs), s.delivered + 1⟩

def converse (s : Session) (acts : List Act) : Session := acts.foldl (act su port r) s

lemma converse_nil (s : Session) : converse su port r s [] = s := rfl

lemma converse_cons (s : Session) (a : Act) (acts : List Act) :
    converse su port r s (a :: acts) = converse su port r (act su port r s a) acts := rfl

def tkCalls (passkey : UInt32) : Association → List Call
  | .passkeyResponderDisplays | .passkeyBothInput => [.providePasskey passkey]
  | .oob => [.provideOobTk (some r.tk)]
  | .justWorks | .numericComparison | .passkeyInitiatorDisplays => []

def legacyActs (n : Negotiation) (passkey : UInt32) (t : ℕ → ℕ) : List Act :=
  [.call .start (t 0), .deliver (t 1)] ++ (tkCalls r passkey n.association).map (.call · (t 2)) ++
    [.deliver (t 3), .deliver (t 4)]

def dhkeyActs (confirmFirst : Bool) (t : ℕ → ℕ) : List Act :=
  if confirmFirst then [.deliver (t 4), .call (.onDhkey true (some r.dhkey)) (t 5)]
  else [.call (.onDhkey true (some r.dhkey)) (t 4), .deliver (t 5)]

def secureActs (n : Negotiation) (x y : Octets 32) (confirmFirst : Bool) (t : ℕ → ℕ) : List Act :=
  [.call .start (t 0), .deliver (t 1), .call (.onLocalPublicKey true (some x) (some y)) (t 2),
    .deliver (t 3)] ++ dhkeyActs r confirmFirst t ++ [.deliver (t 6)] ++
  (if n.association = .numericComparison then [.call (.confirmNumeric true) (t 7)] else []) ++
    [.deliver (t 8)]

def pairingActs (n : Negotiation) (passkey : UInt32) (x y : Octets 32) (confirmFirst : Bool)
    (t : ℕ → ℕ) : List Act :=
  if n.secureConnections then secureActs r n x y confirmFirst t else legacyActs r n passkey t

def SharedTk (passkey : UInt32) : Association → Prop
  | .justWorks => r.tk = .zero 16
  | .passkeyInitiatorDisplays =>
      r.tk = passkeyTk (randomPasskey (Octets.ofFun 4 (port 1).octets))
  | .passkeyResponderDisplays | .passkeyBothInput => passkey ≤ 999999 ∧ r.tk = passkeyTk passkey
  | .oob | .numericComparison => True

def Config.link (c : Config) : Link :=
  ⟨c.initiatorAddressType, c.responderAddressType, c.initiatorAddress, c.responderAddress⟩

structure Honest (su : Setup) (port : ℕ → Reply) (r : Responder) (n : Negotiation)
    (passkey : UInt32) (x : Octets 32) : Prop where
  ops : su.ops.send = true ∧ su.ops.random = true ∧ su.ops.startEncryption = true
  aes : su.aes = some r.box.aes
  link : su.config.link = r.link
  addressTypes : r.link.initiatorType ≤ 1 ∧ r.link.responderType ≤ 1
  portOk : ∀ k, (port k).status = .ok
  negotiated : negotiatePairing su.config.features r.features = .ok n
  legacy : n.secureConnections = false → SharedTk port r passkey n.association
  cmac : n.secureConnections = true → su.cmac = some r.box.mac
  keyOps : n.secureConnections = true →
    su.ops.generatePublicKey = true ∧ su.ops.generateDhkey = true
  supported : n.secureConnections = true →
    n.association = .justWorks ∨ n.association = .numericComparison
  distinct : n.secureConnections = true → x ≠ r.publicX

def Agrees (r : Responder) (n : Negotiation) (s : Session) : Prop :=
  (∃ key n', (r.receiveAll .idle s.w.sentPdus).1 = .paired key ∧
    Event.startEncryption (maskKey n.encryptionKeySize key) n.encryptionKeySize n' ∈ s.w.history) ∧
  ∀ pdu ∈ s.w.sentPdus, pdu.head? ≠ some Code.pairingFailed.octet

namespace World
variable (w : World) (e : Event) (f : Manager → Manager) (s : State) (nowUs : ℕ)

lemma sentPdus_emit : (w.emit e).sentPdus = w.sentPdus ++ e.sentPdu.toList := by
  cases h : e.sentPdu <;> simp [sentPdus, h]

@[simp] lemma sentPdus_modify : (w.modify f).sentPdus = w.sentPdus := rfl
@[simp] lemma sentPdus_answered : w.answered.sentPdus = w.sentPdus := rfl
@[simp] lemma sentPdus_arm : (w.arm nowUs).sentPdus = w.sentPdus := rfl

@[simp] lemma sentPdus_setState : (w.setState s).sentPdus = w.sentPdus := by
  simp [setState, sentPdus_emit, Event.sentPdu]

@[simp] lemma sentPdus_sentOk (pdu : Bytes) :
    (sentOk w pdu nowUs).sentPdus = w.sentPdus ++ [pdu] := by
  simp [sentOk, sentPdus_emit, Event.sentPdu]

@[simp] lemma sentPdus_userAction (su : Setup) (action : UserAction) (value : UInt32) :
    (userAction su w action value).sentPdus = w.sentPdus := by
  unfold userAction
  split
  · simp [sentPdus_emit, Event.sentPdu]
  · rfl

@[simp] lemma sentPdus_encrypting : (encrypting w nowUs).sentPdus = w.sentPdus := by
  simp [encrypting, sentPdus_emit, Event.sentPdu]

@[simp] lemma sentPdus_finish (su : Setup) (result : Result) :
    (finish su w result).sentPdus = w.sentPdus := by
  unfold finish
  dsimp only
  split <;> simp [sentPdus_emit, Event.sentPdu]

end World

structure Stands (r : Responder) (s : Session) (state : State) (stage : Stage)
    (out : List Bytes) (k : ℕ) : Prop where
  state : s.w.m.state = state
  responder : r.receiveAll .idle s.w.sentPdus = (stage, out)
  polite : ∀ pdu ∈ s.w.sentPdus, pdu.head? ≠ some Code.pairingFailed.octet
  delivered : s.delivered = k

namespace Stands
variable (su : Setup) (port : ℕ → Reply) {r : Responder} {s : Session} {state state' : State}
  {stage stage' : Stage} {out new : List Bytes} {k : ℕ} {w : World}

lemma quiet (h : Stands r s state stage out k) (j : ℕ) (hs : w.m.state = state')
    (hsent : w.sentPdus = s.w.sentPdus) : Stands r ⟨w, j⟩ state' stage out j :=
  ⟨hs, hsent ▸ h.responder, hsent ▸ h.polite, rfl⟩

lemma sends (h : Stands r s state stage out k) (pdu : Bytes) (j : ℕ)
    (hs : w.m.state = state')
    (hsent : w.sentPdus = s.w.sentPdus ++ [pdu])
    (hp : pdu.head? ≠ some Code.pairingFailed.octet) (hr : r.receive stage pdu = (stage', new)) :
    Stands r ⟨w, j⟩ state' stage' (out ++ new) j := by
  refine ⟨hs, ?_, ?_, rfl⟩
  · rw [hsent, Responder.receiveAll_concat, h.responder, hr]
  · intro p hmem
    rw [hsent, List.mem_append, List.mem_singleton] at hmem
    rcases hmem with hmem | rfl
    · exact h.polite p hmem
    · exact hp

lemma agrees {n : Negotiation} {key : Octets 16} (h : Stands r s state (.paired key) out k)
    (hsent : w.sentPdus = s.w.sentPdus) (hkey : w.m.stk = maskKey n.encryptionKeySize key)
    (hsize : w.m.negotiation.encryptionKeySize = n.encryptionKeySize) (nowUs j : ℕ) :
    Agrees r n ⟨encrypting w nowUs, j⟩ := by
  have hw : (encrypting w nowUs).sentPdus = s.w.sentPdus := by simp [hsent]
  refine ⟨⟨key, w.m.negotiation, ?_, ?_⟩, ?_⟩
  · rw [hw, h.responder]
  · rw [← hkey, ← hsize]
    exact List.mem_cons_self
  · rw [hw]
    exact h.polite

lemma act_deliver (h : Stands r s state stage out k) {pdu : Bytes} (nowUs : ℕ)
    (hk : out[k]? = some pdu) :
    act su port r s (.deliver nowUs) =
      ⟨onPdu su port (sendAt su port 0) s.w pdu nowUs, k + 1⟩ := by
  have hnext : (r.receiveAll .idle s.w.sentPdus).2[s.delivered]? = some pdu := by
    rw [h.responder, h.delivered]
    exact hk
  simp only [act, hnext]
  rw [h.delivered]
  rfl

lemma act_call (h : Stands r s state stage out k) (c : Call) (nowUs : ℕ) :
    act su port r s (.call c nowUs) =
      ⟨applyCall su port (sendAt su port 0) (s.w.emit (.called c)) c nowUs, k⟩ := by
  simp only [act, ← h.delivered]
  rfl

end Stands

namespace Honest
variable {su : Setup} {port : ℕ → Reply} {r : Responder} {n : Negotiation} {passkey : UInt32}
  {x : Octets 32}

lemma startable_init (h : Honest su port r n passkey x) : startable su Manager.init = true := by
  have hf := (negotiatePairing_ok h.negotiated).1
  simp [startable, h.ops, h.aes, hf, Manager.init]

lemma secure_eq (h : Honest su port r n passkey x) :
    r.secure (requestPdu su.config.features) = n.secureConnections :=
  (negotiatePairing_method h.negotiated).1.symm

lemma requested (h : Honest su port r n passkey x) (nowUs : ℕ) :
    ∃ s, act su port r ⟨World.init, 0⟩ (.call .start nowUs) = s ∧
      Stands r s .waitPairingResponse (.responded (requestPdu su.config.features))
        [responsePdu r.features] 0 ∧
      s.w.m.preq = reversedPdu (requestPdu su.config.features) ∧ s.w.calls = 1 := by
  have h0 : Stands r ⟨World.init, 0⟩ .idle .idle [] 0 := ⟨rfl, rfl, by simp [World.sentPdus,
    World.init], rfl⟩
  have hstart : (start su (sendAt su port 0) (World.init.emit (.called .start)) nowUs).1 = _ :=
    start_ok h.portOk h.startable_init
  refine ⟨_, h0.act_call su port .start nowUs, ?_, ?_, ?_⟩
  · refine h0.sends (requestPdu su.config.features) 0 ?_ ?_ (by simp [requestPdu, Code.octet]) rfl
    · simp [applyCall, hstart, begun]
    · simp [applyCall, hstart, begun, World.sentPdus_emit, Event.sentPdu]
  · simp [applyCall, hstart, begun]
  · rw [applyCall, hstart]
    rfl

end Honest

section

variable {su : Setup} {port : ℕ → Reply} {r : Responder} {n : Negotiation}

def Refused (s : Session) : Prop :=
  s.w.m.state = .failed ∧ ∃ reason, [Code.pairingFailed.octet, reason] ∈ s.w.sentPdus

variable {s : Session}

lemma Refused.not_agrees (hs : Refused s) : ¬ Agrees r n s := by
  obtain ⟨-, reason, hmem⟩ := hs
  intro ha
  exact ha.2 _ hmem rfl

lemma apply_failed (send : Send) {w : World} (hw : w.m.state = .failed) (i : Input) :
    (apply su port send w i).m = w.m ∧ (apply su port send w i).sentPdus = w.sentPdus := by
  cases i with
  | pdu octets nowUs => simp [apply, onPdu, hw, World.sentPdus_emit, Event.sentPdu]
  | call c nowUs =>
    cases c with
    | start => simp [apply, applyCall, start, hw, World.sentPdus_emit, Event.sentPdu]
    | provideOobTk tk =>
      cases tk <;> simp [apply, applyCall, provideOobTk, hw, World.sentPdus_emit, Event.sentPdu]
    | _ =>
      simp [apply, applyCall, providePasskey, confirmNumeric, onLocalPublicKey, onDhkey,
        onEncryptionChanged, tick, hw, World.sentPdus_emit, Event.sentPdu]

lemma Refused.act (hs : Refused s) (a : Act) : Refused (act su port r s a) := by
  obtain ⟨hstate, hsent⟩ := hs
  have hkeep (i : Input) (j : ℕ) : Refused ⟨apply su port (sendAt su port 0) s.w i, j⟩ := by
    obtain ⟨hm, hp⟩ := apply_failed (sendAt su port 0) hstate i
    exact ⟨by rw [hm]; exact hstate, by rw [hp]; exact hsent⟩
  cases a with
  | call c nowUs => exact hkeep _ _
  | deliver nowUs =>
    simp only [Smp.act]
    split
    · exact ⟨hstate, hsent⟩
    · exact hkeep _ _

lemma Refused.converse (hs : Refused s) (acts : List Act) :
    Refused (converse su port r s acts) := by
  induction acts generalizing s with
  | nil => exact hs
  | cons a acts ih =>
    exact ih (hs.act a)

lemma sendFailed_refused (hport : ∀ k, (port k).status = .ok) (w : World) {reason : UInt8}
    (hr : failReason reason = true) (nowUs : ℕ) {result : Result} (hne : result ≠ .ok) (j : ℕ) :
    Refused ⟨sendFailed su (sendAt su port 0) w reason nowUs result, j⟩ := by
  rw [sendFailed_eq hr, sendPdu_ok hport]
  exact ⟨by simp [hne], reason, by simp⟩

end

end Bluzing.Smp
