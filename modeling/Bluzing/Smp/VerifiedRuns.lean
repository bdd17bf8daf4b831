import Bluzing.Smp.Verified
import Bluzing.Smp.Reentrancy

/-! Encryption is started only for a peer verified in the same run, at every nesting depth of
re-entrant deliveries and for arbitrary AES and CMAC functions. -/
namespace Bluzing.Smp

structure Sound (su : Setup) (w : World) : Prop where
  past : Always (Justified su) w.history
  present : Evidence su w.m (currentRun w.history)

def SameRun (w w' : World) : Prop :=
  ∃ newer, w'.history = newer ++ w.history ∧ ∀ e ∈ newer, e.opensRun = false

lemma SameRun.trans {w w₁ w₂ : World} (h : SameRun w w₁) (h' : SameRun w₁ w₂) : SameRun w w₂ := by
  obtain ⟨newer, hh, hn⟩ := h
  obtain ⟨newer', hh', hn'⟩ := h'
  refine ⟨newer' ++ newer, by rw [hh', hh, List.append_assoc], ?_⟩
  intro e he
  exact (List.mem_append.mp he).elim (hn' e) (hn e)

lemma SameRun.sublist {w w₁ : World} (h : SameRun w w₁) :
    (currentRun w.history).Sublist (currentRun w₁.history) := by
  obtain ⟨newer, hh, hn⟩ := h
  rw [hh, currentRun_append hn]
  exact List.sublist_append_right ..

def Continues (su : Setup) (w w' : World) : Prop := Sound su w → SameRun w w' ∧ Sound su w'

namespace Continues
variable {su : Setup} {w w₁ w₂ : World}

lemma refl (w : World) : Continues su w w := fun hs => ⟨⟨[], rfl, by simp⟩, hs⟩

lemma trans (h : Continues su w w₁) (h' : Continues su w₁ w₂) : Continues su w w₂ := by
  intro hs
  obtain ⟨hrun, hs₁⟩ := h hs
  obtain ⟨hrun', hs₂⟩ := h' hs₁
  exact ⟨hrun.trans hrun', hs₂⟩

lemma adds {newer : List Event} (hs : Sound su w) (ha : Adds su w w₁ newer)
    (he : Evidence su w₁.m (newer ++ currentRun w.history)) : SameRun w w₁ ∧ Sound su w₁ := by
  refine ⟨⟨newer, ha.history, ha.sameRun⟩, ha.justified hs.past, ?_⟩
  rw [ha.history, currentRun_append ha.sameRun]
  exact he

lemma quiet (newer : List Event) (hm : ∀ run, Evidence su w.m run → Evidence su w₁.m run)
    (hh : w₁.history = newer ++ w.history) (hp : ∀ e ∈ newer, e.plain = true) : Continues su w w₁ :=
  fun hs => adds hs (.plain hh hp) ((hm _ hs.present).mono (List.sublist_append_right ..))

lemma emit {e : Event} (hp : e.plain = true) : Continues su w (w.emit e) :=
  quiet [e] (fun _ he => he) rfl (by simpa using hp)

lemma scratch (hs : Scratch w w₁) : Continues su w w₁ := by
  obtain ⟨notes, hh, hn⟩ := hs.history
  exact quiet notes (fun _ he => he.scratch hs) hh fun e he => Event.isNote_plain (hn e he)

lemma rests {i : Input} (h : Continues su w (w.emit (inputEvent i)))
    (hrun : currentRun (w.emit (inputEvent i)).history = inputEvent i :: currentRun w.history)
    (hr : Rests su (w.emit (inputEvent i)) i w₁) : Continues su w w₁ := by
  intro hs
  obtain ⟨hsame, hemit⟩ := h hs
  obtain ⟨newer, ha, he⟩ := hr.gains hrun hs.present
  obtain ⟨hsame', hs'⟩ := adds hemit ha (by rw [hrun]; exact he)
  exact ⟨hsame.trans hsame', hs'⟩

lemma finish_failed {r : Result} (hr : r ≠ .ok) : Continues su w (finish su w r) := by
  have hstate : (finish su w r).m.state = .failed := by rw [finish_state, if_neg hr]
  have hm : ∀ run, Evidence su w.m run → Evidence su (finish su w r).m run := by
    intro run _
    rw [Evidence, hstate]
    trivial
  by_cases hc : su.ops.complete = true
  · refine quiet [.complete r w.m.negotiation, .stateSet .failed] hm ?_ (by simp [Event.plain])
    simp [finish, hc, hr]
  · refine quiet [.stateSet .failed] hm ?_ (by simp [Event.plain])
    simp [finish, hc, hr]

lemma finish_ok (h : Continues su w w₁) (henc : Encrypted (currentRun w.history)) :
    Continues su w (finish su w₁ .ok) := by
  have hset : Continues su w
      ((w₁.modify fun m => { m with deadlineUs := 0 }).setState .complete) := by
    intro hs
    obtain ⟨hrun, hs₁⟩ := h hs
    have hpast := hs₁.past.cons (e := .stateSet .complete) (henc.mono hrun.sublist)
    obtain ⟨newer, hh, hn⟩ := hrun
    refine ⟨⟨.stateSet .complete :: newer, by simp [hh], ?_⟩, hpast, trivial⟩
    exact List.forall_mem_cons.mpr ⟨rfl, hn⟩
  unfold Smp.finish
  dsimp only
  split
  · exact hset.trans (emit rfl)
  · exact hset

end Continues

variable {su : Setup} {port : ℕ → Reply} {send : Send} {w w' w₁ : World} {i : Input}
  {pdu : Bytes} {nowUs : ℕ}

lemma continues_rules : SiteRules su (Continues su) where
  refl := .refl
  trans := .trans
  sent w _ nowUs :=
    have harm : Continues su w (w.arm nowUs) := .scratch (.arm nowUs)
    harm.trans (.emit rfl)
  returned _ _ _ _ := .emit rfl
  failed _ _ hr := .finish_failed hr

lemma finishKeyDistribution_continues (port : ℕ → Reply)
    (hsend : ∀ w pdu, Continues su w (send w pdu).1)
    (w : World) (nowUs : ℕ) (henc : Encrypted (currentRun w.history)) :
    Continues su w (finishKeyDistribution su port send w nowUs) := by
  have hkeys := continues_rules.sendKeyDistribution hsend .scratch port w nowUs
  unfold finishKeyDistribution
  dsimp only
  split
  · split
    · exact (hkeys.trans (.emit rfl)).finish_ok henc
    · exact hkeys.finish_ok henc
  · exact hkeys.trans (.finish_failed nofun)

lemma inputEvent_plain (i : Input) : (inputEvent i).plain = true := by
  cases i <;> rfl

lemma currentRun_emit (w : World) (i : Input) :
    currentRun (w.emit (inputEvent i)).history = inputEvent i :: currentRun w.history :=
  since_cons (Event.plain_opensRun (inputEvent_plain i))

lemma Reacts.continues (hsend : ∀ w pdu, Continues su w (send w pdu).1)
    (hi : ∀ nowUs, i ≠ .call .start nowUs)
    (h : Reacts su port send (w.emit (inputEvent i)) i w') : Continues su w w' := by
  have hentry : Continues su w (w.emit (inputEvent i)) := .emit (inputEvent_plain i)
  have hrun := currentRun_emit w i
  cases h with
  | unchanged => exact hentry
  | startRejected => exact hentry.trans (.emit rfl)
  | @starts nowUs h _ => exact absurd h (hi nowUs)
  | expires => exact hentry.trans (.finish_failed nofun)
  | @fails w₁ reason nowUs result _ hs _ hr =>
    exact ((hentry.trans (.scratch hs)).trans (continues_rules.sendPdu hsend w₁ _ nowUs)).trans
      (.finish_failed hr)
  | ends _ hs hr => exact (hentry.trans (.scratch hs)).trans (.finish_failed hr)
  | @transmits w₁ pdu nowUs ht =>
    refine continues_rules.transmit hsend fun hs => ?_
    obtain ⟨newer, ha, he⟩ := ht.gains hs.present
    obtain ⟨hsame, hemit⟩ := hentry hs
    -- between the new state and the send there is no sound world, so both are one step
    have hsent : Adds su (w.emit (inputEvent i)) ((w₁.arm nowUs).emit (.sent pdu))
        (.sent pdu :: newer) := {
      history := by simp [ha.history]
      sameRun := List.forall_mem_cons.mpr ⟨rfl, ha.sameRun⟩
      justified := fun hp => (ha.justified hp).cons trivial }
    have harm := he.scratch (.arm nowUs)
    have hfinal := Continues.adds hemit hsent (by rw [hrun]; exact harm)
    exact ⟨hsame.trans hfinal.1, hfinal.2⟩
  | @rests w₁ hr => exact hentry.rests hrun hr
  | @breaks w₁ result hr hne => exact (hentry.rests hrun hr).trans (.finish_failed hne)
  | @distributes w₁ nowUs hd =>
    intro hs
    obtain ⟨hsame, hemit⟩ := hentry hs
    obtain ⟨ha, henc, he⟩ := hd.gains hs.present
    obtain ⟨hsame₁, hs₁⟩ := Continues.adds hemit ha (by rw [hrun]; exact he)
    have hkeys := finishKeyDistribution_continues port hsend w₁ nowUs (by
      rw [ha.history, List.nil_append, hrun]
      exact henc)
    obtain ⟨hsame₂, hs₂⟩ := hkeys hs₁
    exact ⟨hsame.trans (hsame₁.trans hsame₂), hs₂⟩

lemma onPdu_continues (hsend : ∀ w pdu, Continues su w (send w pdu).1) (w : World)
    (pdu : Bytes) (nowUs : ℕ) : Continues su w (onPdu su port send w pdu nowUs) := by
  by_cases hw : w.m.state.waiting = true
  · have hr : Reacts su port send (entry w (.pdu pdu nowUs)) (.pdu pdu nowUs) _ := onPdu_reacts
    rw [entry, if_pos hw] at hr
    exact Reacts.continues (i := .pdu pdu nowUs) hsend (by simp) hr
  · rw [onPdu_ignored hw]
    exact .emit rfl

lemma sendAt_continues (n : ℕ) (w : World) (pdu : Bytes) :
    Continues su w (sendAt su port n w pdu).1 :=
  Reentrant.port_rel Continues.refl Continues.trans
    (fun w => .scratch (w := w) .answered)
    (fun _ hsend w d => onPdu_continues hsend w d.1 d.2) n w pdu

lemma Sound.setIdle (hs : Sound su w) : Sound su (w.setState .idle) :=
  ⟨hs.past.cons trivial, trivial⟩

lemma start_sound (hsend : ∀ w pdu, Continues su w (send w pdu).1) (hs : Sound su w)
    (hst : startable su w.m = true) : Sound su (start su send w nowUs).1 := by
  have hpast : Always (Justified su) (.stateSet .waitPairingResponse :: .started :: w.history) :=
    Always.cons trivial (Always.cons trivial hs.past)
  have hbegin : Sound su (begun su w) := ⟨hpast, rfl⟩
  obtain ⟨-, hsent⟩ := continues_rules.sendPdu hsend _ (requestPdu su.config.features) nowUs hbegin
  rw [start_eq, if_pos hst]
  dsimp only
  split
  · exact (Continues.emit rfl hsent).2
  · exact (Continues.emit rfl hsent.setIdle).2

lemma apply_sound (n : ℕ) (hs : Sound su w) (i : Input) :
    Sound su (apply su port (sendAt su port n) w i) := by
  have hsend : ∀ w pdu, Continues su w (sendAt su port n w pdu).1 := sendAt_continues n
  cases i with
  | pdu octets nowUs => exact (onPdu_continues hsend w octets nowUs hs).2
  | call c nowUs =>
    have hr : Reacts su port (sendAt su port n) (w.emit (.called c)) (.call c nowUs) _ :=
      applyCall_reacts c
    have hentry : Sound su (w.emit (.called c)) := (Continues.emit rfl hs).2
    by_cases hc : c = .start
    · subst hc
      simp only [apply, applyCall]
      by_cases hst : startable su (w.emit (.called .start)).m = true
      · exact start_sound hsend hentry hst
      · rw [start_eq, if_neg hst]
        exact (Continues.emit rfl hentry).2
    · refine (Reacts.continues (i := .call c nowUs) hsend ?_ hr hs).2
      intro t ht
      cases ht
      exact hc rfl

lemma Verified.masked_key {su : Setup} {run : List Event} {key : Octets 16}
    {negotiation : Negotiation} (h : Verified su run key negotiation) :
    (7 ≤ negotiation.encryptionKeySize.toNat ∧ negotiation.encryptionKeySize.toNat ≤ 16) ∧
      ∀ k < 16 - negotiation.encryptionKeySize.toNat, key.bytes[k]? = some 0 := by
  have hclear : ∀ full : Octets 16, key = maskKey negotiation.encryptionKeySize full →
      ∀ k < 16 - negotiation.encryptionKeySize.toNat, key.bytes[k]? = some 0 := by
    rintro full rfl k hk
    exact Octets.clear_bytes_getElem? _ full k (by omega)
  cases h with
  | legacy v hn _ _ _ _ _ hm => exact ⟨negotiatePairing_keySize hn, hclear _ hm⟩
  | secureConnections v hn _ hd _ _ _ _ hm =>
    have hsize := negotiatePairing_keySize hn
    refine ⟨?_, hclear _ hm⟩
    rw [hd]
    exact hsize

lemma agreed_association (n : Negotiation) : (agreed n).association = n.association := by
  unfold agreed
  split <;> rfl

lemma Verified.response {su : Setup} {run : List Event} {key : Octets 16}
    {negotiation : Negotiation} (h : Verified su run key negotiation) :
    ∃ response negotiated, .received (responsePdu response) ∈ run ∧
      negotiatePairing su.config.features response = .ok negotiated ∧
      negotiation = agreed negotiated := by
  cases h with
  | legacy v hn hsc _ ht _ _ _ =>
    refine ⟨v.response, negotiation, ht.subset ?_, hn, by rw [agreed, hsc]; rfl⟩
    simp [LegacyRun.randomTrace, LegacyRun.confirmTrace, LegacyRun.tkTrace]
  | secureConnections v hn hsc hd ht _ _ _ _ =>
    refine ⟨v.response, _, ht.subset ?_, hn, by rw [hd, agreed, if_pos hsc]⟩
    simp [ScRun.checkTrace, ScRun.openTrace, ScRun.commitTrace, ScRun.dhkeyTrace,
      ScRun.peerKeyTrace, ScRun.keyTrace]

lemma run_sound (su : Setup) (port : ℕ → Reply) (n : ℕ) (inputs : List Input) :
    Sound su (run su port n inputs) := by
  have hinit : Sound su World.init := ⟨always_nil, trivial⟩
  unfold run runFrom
  exact foldl_invariant (fun w i (hs : Sound su w) => apply_sound n hs i) inputs hinit

/-- In every run, at every nesting depth: each call of `start_encryption` comes after the
verification of the peer on the values of the same pairing run, with a key of the negotiated size
between 7 and 16 that is zero beyond it, and `COMPLETE` is reached only after such a call and a
report that encryption is enabled. -/
theorem run_encryption_verified (su : Setup) (port : ℕ → Reply) (n : ℕ) (inputs : List Input) :
    (∀ newer key size negotiation older,
      (run su port n inputs).history = newer ++ .startEncryption key size negotiation :: older →
        Verified su (currentRun older) key negotiation ∧
          size = negotiation.encryptionKeySize ∧ (7 ≤ size.toNat ∧ size.toNat ≤ 16) ∧
          ∀ k < 16 - size.toNat, key.bytes[k]? = some 0) ∧
    ∀ newer older, (run su port n inputs).history = newer ++ .stateSet .complete :: older →
      Encrypted (currentRun older) := by
  have hpast := (run_sound su port n inputs).past
  refine ⟨?_, fun newer older hh => hpast newer _ older hh⟩
  intro newer key size negotiation older hh
  obtain ⟨hv, rfl⟩ := hpast newer _ older hh
  exact ⟨hv, rfl, hv.masked_key⟩

end Bluzing.Smp
