import Bluzing.Smp.Success
import Bluzing.Smp.Reentrancy
import Bluzing.Smp.Verified

/-! A peer of a legacy pairing that sends back the manager's own Confirm and Random values. -/
namespace Bluzing.Smp
open List

def TkChosen (tk : Octets 16) : List Event → Prop
  | .called (.providePasskey passkey) :: _ => tk = passkeyTk passkey
  | .called (.provideOobTk key) :: _ => key = some tk
  | .userAction .displayPasskey _ :: .random octets :: _ | .random octets :: _ =>
      ∃ o : Octets 4, octets = o.bytes ∧ tk = passkeyTk (randomPasskey o)
  | _ => False

inductive ConfirmSent (tk random confirm : Octets 16) : List Event → Prop
  | sent {h : List Event} (ht : TkChosen tk h) :
      ConfirmSent tk random confirm (ownPdu .pairingConfirm confirm ::
        .stateSet .waitPairingConfirm :: .random random.bytes :: h)
  | later {e : Event} {h : List Event} (he : ∀ s, e ≠ .stateSet s)
      (hh : ConfirmSent tk random confirm h) : ConfirmSent tk random confirm (e :: h)

inductive RandomSent (tk random confirm peerConfirm : Octets 16) : List Event → Prop
  | sent {h : List Event} (hh : ConfirmSent tk random confirm h) :
      RandomSent tk random confirm peerConfirm (ownPdu .pairingRandom random ::
        .stateSet .waitPairingRandom :: peerPdu .pairingConfirm peerConfirm :: h)
  | later {e : Event} {h : List Event} (he : ∀ s, e ≠ .stateSet s)
      (hh : RandomSent tk random confirm peerConfirm h) :
      RandomSent tk random confirm peerConfirm (e :: h)

def Accepted (after : List Event) : Prop :=
  ∃ later key size negotiation,
    after = later ++ [.startEncryption key size negotiation, .stateSet .waitEncryption]

def Judged (su : Setup) (tk random : Octets 16) (after : List Event) : Prop :=
  (∃ stk, s1 su.aes tk random random = .ok stk ∧ Accepted after) ∨
    ∃ st later, s1 su.aes tk random random = .error st ∧
      after = later ++ [.sent [Code.pairingFailed.octet, 0x08]]

def Judges (su : Setup) (e : Event) (older after : List Event) : Prop :=
  ∀ tk random confirm, e = peerPdu .pairingRandom random →
    RandomSent tk random confirm confirm older → Judged su tk random after

structure Holds (su : Setup) (m : Manager) (tk random confirm : Octets 16) : Prop where
  tk : m.tk = tk
  localRandom : m.localRandom = random
  confirm : confirmValue su m random = .ok confirm

def Event.neutral : Event → Bool
  | .stateSet _ | .received _ => false
  | _ => true

def State.exchanging : State → Bool
  | .waitPairingConfirm | .waitPairingRandom => true
  | _ => false

structure Exchanging (su : Setup) (w : World) : Prop where
  rested : ∀ s h, w.history = .stateSet s :: h → s.exchanging = false
  confirm : ∀ {tk random confirm}, ConfirmSent tk random confirm w.history →
    w.m.state = .waitPairingConfirm ∧ Holds su w.m tk random confirm
  random : ∀ {tk random confirm peerConfirm},
    RandomSent tk random confirm peerConfirm w.history →
      w.m.state = .waitPairingRandom ∧ w.m.peerConfirm = peerConfirm ∧
        Holds su w.m tk random confirm

variable {su : Setup} {tk random confirm peerConfirm : Octets 16} {e : Event} {h : List Event}

lemma ConfirmSent.inv (hc : ConfirmSent tk random confirm (e :: h)) :
    (∃ h', e = ownPdu .pairingConfirm confirm ∧
      h = .stateSet .waitPairingConfirm :: .random random.bytes :: h' ∧ TkChosen tk h') ∨
    (∀ s, e ≠ .stateSet s) ∧ ConfirmSent tk random confirm h := by
  cases hc with
  | sent ht => exact .inl ⟨_, rfl, rfl, ht⟩
  | later he hh => exact .inr ⟨he, hh⟩

lemma RandomSent.inv (hc : RandomSent tk random confirm peerConfirm (e :: h)) :
    (∃ h', e = ownPdu .pairingRandom random ∧
      h = .stateSet .waitPairingRandom :: peerPdu .pairingConfirm peerConfirm :: h' ∧
      ConfirmSent tk random confirm h') ∨
    (∀ s, e ≠ .stateSet s) ∧ RandomSent tk random confirm peerConfirm h := by
  cases hc with
  | sent hh => exact .inl ⟨_, rfl, rfl, hh⟩
  | later he hh => exact .inr ⟨he, hh⟩

variable (s : State)

lemma not_confirmSent_stateSet : ¬ ConfirmSent tk random confirm (.stateSet s :: h) := by
  intro hc
  obtain ⟨_, hown, _⟩ | ⟨he, _⟩ := hc.inv
  · cases hown
  · exact he s rfl

lemma not_randomSent_stateSet :
    ¬ RandomSent tk random confirm peerConfirm (.stateSet s :: h) := by
  intro hc
  obtain ⟨_, hown, _⟩ | ⟨he, _⟩ := hc.inv
  · cases hown
  · exact he s rfl

lemma Event.neutral_ne (he : e.neutral = true) (s : State) : e ≠ .stateSet s := by
  rintro rfl
  cases he

lemma judges_neutral (he : e.neutral = true) (older after : List Event) :
    Judges su e older after := by
  rintro tk random confirm rfl
  cases he

lemma judges_stateSet (older after : List Event) :
    Judges su (.stateSet s) older after := nofun

lemma judged_append {after : List Event} (hj : Judged su tk random after)
    (later : List Event) : Judged su tk random (later ++ after) := by
  obtain ⟨stk, hs, later', key, size, negotiation, rfl⟩ | ⟨st, later', hs, rfl⟩ := hj
  · exact .inl ⟨stk, hs, later ++ later', key, size, negotiation, (append_assoc ..).symm⟩
  · exact .inr ⟨st, later ++ later', hs, (append_assoc ..).symm⟩

lemma judges_append (e : Event) (older after later : List Event) (hj : Judges su e older after) :
    Judges su e older (later ++ after) :=
  fun tk random confirm he hs => judged_append (hj tk random confirm he hs) later

lemma ownPdu_injective {code : Code} {v v' : Octets 16} (h : ownPdu code v = ownPdu code v') :
    v = v' := by
  have hbytes := (cons.inj (Event.sent.inj h)).2
  exact Octets.ext (reverse_injective hbytes)

lemma peerPdu_injective {code : Code} {v v' : Octets 16}
    (h : peerPdu code v = peerPdu code v') : v = v' := by
  have hbytes := (cons.inj (Event.received.inj h)).2
  exact Octets.ext (reverse_injective hbytes)

namespace Exchanging
variable {su : Setup} {w w₁ : World} {e : Event} {h : List Event} {s : State}

lemma init : Exchanging su World.init where
  rested := nofun
  confirm := nofun
  random := nofun

lemma assigned (s : State) (hh : w.history = .stateSet s :: h) (hs : s.exchanging = false) :
    Exchanging su w where
  rested s' h' heq := by
    rw [hh] at heq
    rwa [← Event.stateSet.inj (cons.inj heq).1]
  confirm hc := absurd (hh ▸ hc) (not_confirmSent_stateSet s)
  random hc := absurd (hh ▸ hc) (not_randomSent_stateSet s)

lemma emit (hx : Exchanging su w) (he : ∀ s, e ≠ .stateSet s) : Exchanging su (w.emit e) where
  rested s _ heq := absurd (cons.inj heq).1 (he s)
  confirm hc := by
    obtain ⟨h', -, hh, -⟩ | ⟨-, hc⟩ := hc.inv
    · cases hx.rested _ _ hh
    · exact hx.confirm hc
  random hc := by
    obtain ⟨h', -, hh, -⟩ | ⟨-, hc⟩ := hc.inv
    · cases hx.rested _ _ hh
    · exact hx.random hc

lemma frame (hx : Exchanging su w) (hh : w₁.history = w.history)
    (hm : w.m.state = .waitPairingConfirm ∨ w.m.state = .waitPairingRandom →
      w₁.m.state = w.m.state ∧ w₁.m.peerConfirm = w.m.peerConfirm ∧
        ∀ {tk random confirm}, Holds su w.m tk random confirm →
          Holds su w₁.m tk random confirm) : Exchanging su w₁ where
  rested := by rw [hh]; exact hx.rested
  confirm hc := by
    rw [hh] at hc
    obtain ⟨hs, hold⟩ := hx.confirm hc
    obtain ⟨hs₁, -, hkeep⟩ := hm (.inl hs)
    exact ⟨hs₁.trans hs, hkeep hold⟩
  random hc := by
    rw [hh] at hc
    obtain ⟨hs, hp, hold⟩ := hx.random hc
    obtain ⟨hs₁, hp₁, hkeep⟩ := hm (.inr hs)
    exact ⟨hs₁.trans hs, hp₁.trans hp, hkeep hold⟩

lemma notes (hx : Exchanging su w) {notes : List Event} (hn : ∀ e ∈ notes, ∀ s, e ≠ .stateSet s) :
    Exchanging su { w with history := notes ++ w.history } := by
  induction notes with
  | nil => exact hx
  | cons e notes ih =>
    obtain ⟨he, hrest⟩ := forall_mem_cons.mp hn
    exact (ih hrest).emit he

end Exchanging

def Exchanges (su : Setup) (w w' : World) : Prop :=
  Exchanging su w → Exchanging su w' ∧ Unfolds (Judges su) w.history w'.history

lemma Event.isNote_neutral {e : Event} (he : e.isNote = true) : e.neutral = true := by
  cases e <;> first | rfl | cases he

lemma Scratch.unfolds {su : Setup} {w w₁ : World} (hs : Scratch w w₁) :
    Unfolds (Judges su) w.history w₁.history := by
  obtain ⟨notes, hh, hn⟩ := hs.history
  rw [hh]
  exact .append fun e he => judges_neutral (Event.isNote_neutral (hn e he))

lemma Holds.congr {su : Setup} {m m' : Manager} {tk random confirm : Octets 16}
    (h : Holds su m tk random confirm) (ht : m'.tk = m.tk ∧ m'.localRandom = m.localRandom)
    (hq : m'.preq = m.preq) (hp : m'.pres = m.pres) : Holds su m' tk random confirm where
  tk := ht.1.trans h.tk
  localRandom := ht.2.trans h.localRandom
  confirm := by
    rw [confirmValue, ht.1, hq, hp]
    exact h.confirm

namespace Exchanges
variable {su : Setup} {w w₁ w₂ : World} {e : Event} {s : State}

lemma refl (w : World) : Exchanges su w w := fun hx => ⟨hx, .refl _⟩

lemma trans (h : Exchanges su w w₁) (h' : Exchanges su w₁ w₂) : Exchanges su w w₂ := by
  intro hx
  obtain ⟨hx₁, hu⟩ := h hx
  obtain ⟨hx₂, hu'⟩ := h' hx₁
  exact ⟨hx₂, hu.trans judges_append hu'⟩

lemma emit (he : e.neutral = true) : Exchanges su w (w.emit e) :=
  fun hx => ⟨hx.emit (Event.neutral_ne he), .cons (judges_neutral he)⟩

lemma assigned (s : State) (hh : w₁.history = .stateSet s :: w.history)
    (hs : s.exchanging = false) : Exchanges su w w₁ :=
  fun _ => ⟨.assigned s hh hs, hh ▸ .cons (judges_stateSet s)⟩

lemma elsewhere (hs : w.m.state.exchanging = false) (hh : w₁.history = w.history) :
    Exchanges su w w₁ := by
  refine fun hx => ⟨hx.frame hh fun h => ?_, hh ▸ .refl _⟩
  obtain h | h := h <;> rw [h] at hs <;> cases hs

lemma scratch (hs : Scratch w w₁) : Exchanges su w w₁ := by
  intro hx
  obtain ⟨notes, hh, hn⟩ := hs.history
  have hnotes := hx.notes fun e he => Event.neutral_ne (Event.isNote_neutral (hn e he))
  refine ⟨hnotes.frame hh fun hex => ⟨hs.state, hs.peerConfirm, ?_⟩, hs.unfolds⟩
  have hne : w.m.state ≠ .waitPairingResponse ∧ w.m.state ≠ .waitTk := by
    obtain hst | hst := hex <;> rw [show w.m.state = _ from hst] <;> exact ⟨nofun, nofun⟩
  intro tk random confirm hold
  exact hold.congr (hs.tk hne.1 hne.2) hs.preq (hs.response hne.1).2

lemma finish (w : World) (r : Result) : Exchanges su w (finish su w r) := by
  have hset : Exchanges su w ((w.modify fun m => { m with deadlineUs := 0 }).setState
      (if r = .ok then .complete else .failed)) := by
    refine .assigned _ rfl ?_
    split <;> rfl
  unfold Smp.finish
  dsimp only
  split
  · exact hset.trans (.emit rfl)
  · exact hset

lemma rules (su : Setup) : SiteRules su (Exchanges su) where
  refl := refl
  trans := trans
  sent w _ nowUs :=
    have harm : Exchanges su w (w.arm nowUs) := .scratch (.arm nowUs)
    harm.trans (.emit rfl)
  returned _ _ _ _ := .emit rfl
  failed w r _ := .finish w r

end Exchanges

variable {port : ℕ → Reply} {send : Send} {w w' w₀ w₁ : World} {i : Input} {pdu : Bytes}
  {nowUs : ℕ}

lemma TkReady.chosen (ht : TkReady su w i w₀) (hi : ∃ h, w.history = inputEvent i :: h)
    {tk : Octets 16} (hc : TkChosen tk w₀.history) : w₀.m.tk = tk := by
  obtain ⟨h, hh⟩ := hi
  have hrandom (o o' : Octets 4) (ho : o.bytes = o'.bytes) : passkeyTk (randomPasskey o) =
      passkeyTk (randomPasskey o') := by rw [Octets.ext ho]
  cases ht with
  | justWorks =>
    change TkChosen tk w.history at hc
    rw [hh] at hc
    exact hc.elim
  | displayed o =>
    rw [userAction_m]
    unfold userAction at hc
    split at hc
    all_goals
      obtain ⟨o', ho, rfl⟩ := hc
      exact hrandom o o' ho
  | passkey =>
    change TkChosen tk w.history at hc
    rw [hh] at hc
    exact hc.symm
  | oob =>
    change TkChosen tk w.history at hc
    rw [hh] at hc
    exact Option.some.inj hc

lemma Transmits.exchanging (h : Transmits su w i w₁ pdu)
    (hi : ∃ h, w.history = inputEvent i :: h) (hx : Exchanging su w) :
    Exchanging su ((w₁.arm nowUs).emit (.sent pdu)) := by
  have hother (s : State) {h : List Event} (hh : w₁.history = .stateSet s :: h)
      (hs : s.exchanging = false) : Exchanging su ((w₁.arm nowUs).emit (.sent pdu)) :=
    (Exchanging.assigned (w := w₁.arm nowUs) s hh hs).emit (by simp)
  cases h with
  | @confirm _ w₀ random confirm ht hc =>
    refine ⟨(by simp), fun {tk random' confirm'} hsent => ?_, fun hsent => ?_⟩
    · obtain ⟨h', hown, hh, hchosen⟩ | ⟨-, hsent⟩ := hsent.inv
      · obtain rfl : confirm = confirm' := ownPdu_injective hown
        simp only [exchanged, World.arm_history, World.setState_history, World.modify_history,
          World.emit_history, World.answered_history, cons.injEq, Event.random.injEq,
          true_and] at hh
        obtain ⟨hbytes, rfl⟩ := hh
        obtain rfl : random = random' := Octets.ext hbytes
        exact ⟨rfl, ht.chosen hi hchosen, rfl, hc⟩
      · exact absurd hsent (not_confirmSent_stateSet _)
    · obtain ⟨h', hown, -⟩ | ⟨-, hsent⟩ := hsent.inv
      · exact absurd (cons.inj (Event.sent.inj hown)).1 (by decide)
      · exact absurd hsent (not_randomSent_stateSet _)
  | @random nowUs v hs =>
    refine ⟨(by simp), fun hsent => ?_, fun {tk random' confirm' peer} hsent => ?_⟩
    · obtain ⟨h', hown, -⟩ | ⟨-, hsent⟩ := hsent.inv
      · exact absurd (cons.inj (Event.sent.inj hown)).1 (by decide)
      · exact absurd hsent (not_confirmSent_stateSet _)
    · obtain ⟨h', hown, hh, hconfirm⟩ | ⟨-, hsent⟩ := hsent.inv
      · obtain rfl : w.m.localRandom = random' := ownPdu_injective hown
        obtain ⟨h₀, hin⟩ := hi
        have hh : w.history = peerPdu .pairingConfirm peer :: h' := (cons.inj hh).2
        have hlater : ConfirmSent tk w.m.localRandom confirm' w.history := by
          rw [hh]
          exact .later (by intro s h; cases h) hconfirm
        obtain ⟨-, hold⟩ := hx.confirm hlater
        have hpeer : peerPdu .pairingConfirm peer = peerPdu .pairingConfirm v.rev := by
          rw [hh] at hin
          rw [peerPdu_rev]
          exact (cons.inj hin).1
        exact ⟨rfl, (peerPdu_injective hpeer).symm, hold.congr ⟨rfl, rfl⟩ rfl rfl⟩
      · exact absurd hsent (not_randomSent_stateSet _)
  | publicKey => exact hother .waitPeerPublicKey rfl rfl
  | scRandom => exact hother .waitScRandom rfl rfl
  | dhkeyCheck => exact hother .waitDhkeyCheck rfl rfl

lemma Transmits.unfolds (h : Transmits su w i w₁ pdu) :
    Unfolds (Judges su) w.history (.sent pdu :: w₁.history) := by
  have hsent {h : List Event} (s : State) :
      Unfolds (Judges su) h (.sent pdu :: .stateSet s :: h) :=
    .trans judges_append (.cons (judges_stateSet s)) (.cons (judges_neutral rfl))
  cases h with
  | @confirm _ w₀ random confirm ht =>
    have hrandom : Unfolds (Judges su) w₀.history (.random random.bytes :: w₀.history) :=
      .cons (judges_neutral rfl)
    exact .trans judges_append (.trans judges_append ht.scratch.unfolds hrandom)
      (hsent .waitPairingConfirm)
  | random | publicKey | scRandom => exact hsent _
  | dhkeyCheck h2 => exact .trans judges_append h2.scratch.1.unfolds (hsent .waitDhkeyCheck)

lemma Rests.exchanges (h : Rests su w i w₁) : Exchanges su w w₁ := by
  have hask {w₁ : World} {e : Event} (s : State) (hs : s.exchanging = false)
      (hh : w₁.history = .stateSet s :: w.history) (he : e.neutral = true) :
      Exchanges su w (w₁.emit e).answered :=
    ((Exchanges.assigned s hh hs).trans (.emit he)).trans (.scratch .answered)
  cases h with
  | requestTk => exact Exchanges.trans (.assigned .waitTk rfl rfl) (.scratch (.userAction ..))
  | generatePublicKey => exact hask .waitLocalPublicKey rfl rfl rfl
  | generateDhkey => exact hask .waitDhkey rfl rfl rfl
  | encryptLegacy | encryptSc => exact hask .waitEncryption rfl rfl rfl
  | @dhkey _ _ random =>
    have hrandom : Exchanges su w (w.emit (.random random.bytes)) := .emit rfl
    exact (hrandom.trans (.assigned .waitScConfirm rfl rfl)).trans (.scratch (.arm _))
  | askNumeric =>
    exact Exchanges.trans (.assigned .waitNumericConfirmation rfl rfl) (.scratch (.userAction ..))
  | keysExpected =>
    exact Exchanges.trans (.assigned .waitKeyDistribution rfl rfl) (.scratch (.arm _))
  | keyStored hk => exact .elsewhere (by rw [hk.state]; rfl) rfl

lemma finishKeyDistribution_exchanges (hsend : ∀ w pdu, Exchanges su w (send w pdu).1)
    (w : World) (nowUs : ℕ) : Exchanges su w (finishKeyDistribution su port send w nowUs) := by
  have hkeys := (Exchanges.rules su).sendKeyDistribution hsend .scratch port w nowUs
  unfold finishKeyDistribution
  dsimp only
  split
  · split
    · exact (hkeys.trans (.emit rfl)).trans (.finish _ .ok)
    · exact hkeys.trans (.finish _ .ok)
  · exact hkeys.trans (.finish _ .errorCrypto)

lemma start_exchanges (hsend : ∀ w pdu, Exchanges su w (send w pdu).1) (w : World)
    (nowUs : ℕ) (hs : startable su w.m = true) : Exchanges su w (start su send w nowUs).1 := by
  have hstarted : Exchanges su w (w.emit .started) := .emit rfl
  have hbegin : Exchanges su w (begun su w) :=
    hstarted.trans (.assigned .waitPairingResponse rfl rfl)
  have hsent := hbegin.trans
    ((Exchanges.rules su).sendPdu hsend _ (requestPdu su.config.features) nowUs)
  rw [start_eq, if_pos hs]
  dsimp only
  split
  · exact hsent.trans (.emit rfl)
  · exact (hsent.trans (.assigned .idle rfl rfl)).trans (.emit rfl)

lemma Reacts.exchanges (hsend : ∀ w pdu, Exchanges su w (send w pdu).1)
    (hi : ∃ h, w.history = inputEvent i :: h) (h : Reacts su port send w i w') :
    Exchanges su w w' := by
  have hrules := Exchanges.rules su
  cases h with
  | unchanged => exact .refl w
  | startRejected => exact .emit rfl
  | starts _ hs => exact start_exchanges hsend w _ hs
  | expires => exact .finish w _
  | fails _ hs _ _ =>
    exact (Exchanges.trans (.scratch hs) (hrules.sendPdu hsend _ _ _)).trans (.finish _ _)
  | ends _ hs _ => exact Exchanges.trans (.scratch hs) (.finish _ _)
  | @transmits w₁ pdu nowUs ht =>
    exact hrules.transmit hsend fun hx => ⟨ht.exchanging hi hx, ht.unfolds⟩
  | rests hr => exact hr.exchanges
  | breaks hr _ => exact hr.exchanges.trans (.finish _ _)
  | distributes hd =>
    refine Exchanges.trans ?_ (finishKeyDistribution_exchanges hsend _ _)
    cases hd with
    | noKeys hs => exact .elsewhere (by rw [hs]; rfl) rfl
    | lastKey hk => exact .elsewhere (by rw [hk.state]; rfl) rfl

lemma handleRandom_reflected {tk random confirm : Octets 16}
    (hs : w.m.state = .waitPairingRandom) (hp : w.m.peerConfirm = confirm)
    (hold : Holds su w.m tk random confirm) :
    handleRandom su port send w ⟨.pairingRandom, random.rev.bytes⟩ nowUs =
      match s1 su.aes tk random random with
      | .error _ => sendFailed su send w 0x08 nowUs .errorCrypto
      | .ok stk => startEncryption su port
          (w.modify fun m => { m with stk := maskKey m.negotiation.encryptionKeySize stk })
          nowUs := by
  rw [handleRandom, if_neg (not_not.mpr hs), parseValue128_value .pairingRandom rfl]
  dsimp only
  rw [Octets.rev_rev, hold.confirm, hold.tk, hold.localRandom]
  dsimp only
  cases s1 su.aes tk random random <;> exact if_neg (not_not.mpr hp.symm)

lemma startEncryption_accepted (su : Setup) (port : ℕ → Reply) (w : World) (nowUs : ℕ) :
    ∃ after, (startEncryption su port w nowUs).history = after ++ w.history ∧ Accepted after := by
  unfold startEncryption
  dsimp only
  split
  · exact ⟨_, rfl, [], w.m.stk, _, _, rfl⟩
  · obtain ⟨later, hlater⟩ := Calms.finish_grows su
      (((w.setState .waitEncryption).arm nowUs).emit (.startEncryption w.m.stk
        w.m.negotiation.encryptionKeySize w.m.negotiation)).answered .errorEncryption
    exact ⟨_, hlater.symm.trans (append_assoc later [_, _] w.history).symm, later, _, _, _,
      rfl⟩

lemma sendFailed_sends (hgrows : ∀ w pdu, w.history <:+ (send w pdu).1.history)
    (w : World) (reason : UInt8) (hr : failReason reason = true) (result : Result) :
    .sent [Code.pairingFailed.octet, reason] :: w.history <:+
      (sendFailed su send w reason nowUs result).history := by
  rw [sendFailed_eq hr]
  have hsent := hgrows ((w.arm nowUs).emit (.sent [Code.pairingFailed.octet, reason]))
    [Code.pairingFailed.octet, reason]
  have hreturned : .sent [Code.pairingFailed.octet, reason] :: w.history <:+
      (sendPdu send w [Code.pairingFailed.octet, reason] nowUs).1.history :=
    hsent.trans (suffix_cons _ _)
  exact hreturned.trans (Calms.finish_grows su _ result)

lemma onPdu_judged (port : ℕ → Reply) (nowUs : ℕ)
    (hgrows : ∀ w pdu, w.history <:+ (send w pdu).1.history)
    {tk random confirm : Octets 16} (hs : w.m.state = .waitPairingRandom)
    (hp : w.m.peerConfirm = confirm) (hold : Holds su w.m tk random confirm) :
    ∃ after, (onPdu su port send w (Code.pairingRandom.octet :: random.rev.bytes) nowUs).history =
      after ++ peerPdu .pairingRandom random :: w.history ∧ Judged su tk random after := by
  rw [onPdu_value128 _ rfl random.rev nowUs (by rw [hs]; rfl)]
  dsimp only [dispatch]
  have harmed : Holds su ((w.emit (peerPdu .pairingRandom random)).arm nowUs).m tk random confirm :=
    hold.congr ⟨rfl, rfl⟩ rfl rfl
  have hreflected : handleRandom su port send ((w.emit (peerPdu .pairingRandom random)).arm nowUs)
      ⟨.pairingRandom, random.rev.bytes⟩ nowUs = _ := handleRandom_reflected hs hp harmed
  rw [if_neg (by simp [hs])]
  change ∃ after, (handleRandom su port send ((w.emit (peerPdu .pairingRandom random)).arm nowUs)
    ⟨.pairingRandom, random.rev.bytes⟩ nowUs).history = _ ∧ _
  rw [hreflected]
  split
  next st hstk =>
    have hsent : _ <:+ (sendFailed su send _ 0x08 nowUs _).history :=
      sendFailed_sends hgrows ((w.emit (peerPdu .pairingRandom random)).arm nowUs) 0x08 rfl
        .errorCrypto
    obtain ⟨later, hlater⟩ := hsent
    exact ⟨later ++ [_], hlater.symm.trans (append_assoc later [_] _).symm,
      .inr ⟨st, later, hstk, rfl⟩⟩
  next stk hstk =>
    obtain ⟨after, hafter, haccepted⟩ := startEncryption_accepted su port _ nowUs
    exact ⟨after, hafter, .inl ⟨stk, hstk, haccepted⟩⟩

lemma onPdu_exchanges (hsend : ∀ w pdu, Exchanges su w (send w pdu).1)
    (hgrows : ∀ w pdu, w.history <:+ (send w pdu).1.history) (w : World)
    (pdu : Bytes) (nowUs : ℕ) : Exchanges su w (onPdu su port send w pdu nowUs) := by
  by_cases hw : w.m.state.waiting = true
  · intro hx
    have hr : Reacts su port send (entry w (.pdu pdu nowUs)) (.pdu pdu nowUs) _ := onPdu_reacts
    rw [entry, if_pos hw] at hr
    obtain ⟨hx', hu⟩ := Reacts.exchanges hsend ⟨w.history, rfl⟩ hr
      (hx.emit (e := .received pdu) (by simp))
    refine ⟨hx', hu.of_cons fun newer hh tk random confirm hpdu hsent => ?_⟩
    obtain ⟨hs, hp, hold⟩ := hx.random hsent
    obtain rfl := Event.received.inj hpdu
    obtain ⟨after, hafter, hjudged⟩ := onPdu_judged port nowUs hgrows hs hp hold
    rw [hh] at hafter
    exact append_cancel_right hafter ▸ hjudged
  · rw [onPdu_ignored hw]
    exact .emit rfl

lemma apply_exchanges (hsend : ∀ w pdu, Exchanges su w (send w pdu).1)
    (hgrows : ∀ w pdu, w.history <:+ (send w pdu).1.history) (w : World) (i : Input) :
    Exchanges su w (apply su port send w i) := by
  cases i with
  | pdu octets nowUs => exact onPdu_exchanges hsend hgrows w octets nowUs
  | call c nowUs =>
    have hcalled : Exchanges su w (w.emit (.called c)) := .emit rfl
    have hr : Reacts su port send (w.emit (.called c)) (.call c nowUs) _ := applyCall_reacts c
    exact hcalled.trans (Reacts.exchanges hsend ⟨w.history, rfl⟩ hr)

lemma run_judges (su : Setup) (port : ℕ → Reply) (n : ℕ) (inputs : List Input) :
    Unfolds (Judges su) [] (run su port n inputs).history := by
  have hrun : Exchanges su World.init (run su port n inputs) ∧
      Calms World.init (run su port n inputs) :=
    runFrom_rel (R := fun w w' => Exchanges su w w' ∧ Calms w w')
      (fun w => ⟨.refl w, .refl w⟩) (fun h h' => ⟨h.1.trans h'.1, h.2.trans h'.2⟩)
      (fun _ => ⟨.scratch .answered, .sameState rfl rfl⟩)
      (fun _ hsend w i => ⟨apply_exchanges (fun w pdu => (hsend w pdu).1)
        (fun w pdu => (hsend w pdu).2.grows) w i, apply_calms (fun w pdu => (hsend w pdu).2) w i⟩)
      n World.init inputs
  exact (hrun.1 Exchanging.init).2

def Reflected (tk random confirm : Octets 16) (h newer older : List Event) : Prop :=
  h = newer ++ peerPdu .pairingRandom random :: older ∧ RandomSent tk random confirm confirm older

/-- A run accepts no reflecting peer exactly if the block cipher fails on the key derivation of
every reflected Random value. -/
theorem run_rejects_reflection_iff (su : Setup) (port : ℕ → Reply) (n : ℕ) (inputs : List Input) :
    (∀ tk random confirm newer older,
      Reflected tk random confirm (run su port n inputs).history newer older → ¬ Accepted newer) ↔
    ∀ tk random confirm newer older,
      Reflected tk random confirm (run su port n inputs).history newer older →
        ∀ stk, s1 su.aes tk random random ≠ .ok stk := by
  obtain ⟨all, hall, hjudges⟩ := run_judges su port n inputs
  rw [append_nil] at hall
  have hjudged {tk random confirm newer older}
      (h : Reflected tk random confirm (run su port n inputs).history newer older) :
      Judged su tk random newer := by
    obtain ⟨hh, hsent⟩ := h
    refine hjudges newer _ older (hall ▸ hh) tk random confirm rfl ?_
    rwa [append_nil]
  refine forall₅_congr fun tk random confirm newer older => imp_congr_right fun h => ?_
  obtain ⟨stk, hstk, haccepted⟩ | ⟨st, later, hstk, rfl⟩ := hjudged h
  · exact iff_of_false (not_not.mpr haccepted) fun hne => hne stk hstk
  · refine iff_of_true ?_ fun stk => by rw [hstk]; nofun
    rintro ⟨later', key, size, negotiation, heq⟩
    have hlast := congrArg getLast? heq
    simp at hlast

def keyboardSetup : Setup where
  ops := ⟨true, true, true, true, true, true, true, true, true⟩
  aes := some fun key block => .ok (block.xor key).rev
  cmac := none
  config := ⟨⟨0x02, 0, 0x05, 16, 0, 0⟩, 0, 0, .zero 6, .zero 6⟩

def lastSent (h : List Event) : Bytes :=
  (h.findSome? fun
    | .sent pdu => some pdu
    | _ => none).getD []

def echoed (inputs : List Input) (nowUs : ℕ) : List Input :=
  inputs ++ [.pdu (lastSent (run keyboardSetup (uniformPort .ok) 0 inputs).history) nowUs]

def echoInputs : List Input :=
  echoed (echoed [.call .start 0, .pdu (responsePdu ⟨0x00, 0, 0x05, 16, 0, 0⟩) 1,
    .call (.providePasskey 123456) 2] 3) 4

/-- The peer has used nothing but the manager's own PDUs, and encryption is started. -/
theorem echoing_peer_accepted :
    ∃ tk random confirm newer older,
      Reflected tk random confirm (run keyboardSetup (uniformPort .ok) 0 echoInputs).history
        newer older ∧ Accepted newer := by
  let confirm : Octets 16 := ⟨[64, 226, 17, 5, 0, 0, 2, 0, 0, 16, 5, 0, 2, 0, 226, 64], rfl⟩
  have hhistory : (run keyboardSetup (uniformPort .ok) 0 echoInputs).history =
      [.startEncryption ⟨[64, 226, 1, 0, 0, 0, 0, 0, 0, 0, 0, 0, 0, 0, 0, 0], rfl⟩ 16
          ⟨false, true, true, 16, 0, 0, .passkeyResponderDisplays⟩, .stateSet .waitEncryption,
        peerPdu .pairingRandom (.zero 16),
        .returned (0x04 :: replicate 16 0) .ok .waitPairingRandom,
        ownPdu .pairingRandom (.zero 16), .stateSet .waitPairingRandom,
        peerPdu .pairingConfirm confirm,
        .returned (0x03 :: confirm.rev.bytes) .ok .waitPairingConfirm,
        ownPdu .pairingConfirm confirm, .stateSet .waitPairingConfirm,
        .random (replicate 16 0), .called (.providePasskey 123456)] ++
      (run keyboardSetup (uniformPort .ok) 0 echoInputs).history.drop 12 := by decide +kernel
  exact ⟨passkeyTk 123456, .zero 16, confirm, [_, _], _,
    ⟨hhistory, .later nofun (.sent (.later nofun (.sent rfl)))⟩, [], _, _, _, rfl⟩

end Bluzing.Smp
