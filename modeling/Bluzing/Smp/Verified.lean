import Bluzing.Smp.Evidence

/-! One step of the manager adds only justified events to the history, and the state it leaves
vouches for the part of the run that led to it. -/
namespace Bluzing.Smp
open List

def Justified (su : Setup) : Event → List Event → Prop
  | .startEncryption key size negotiation, older =>
      Verified su (currentRun older) key negotiation ∧ size = negotiation.encryptionKeySize
  | .stateSet .complete, older => Encrypted (currentRun older)
  | _, _ => True

def Event.plain : Event → Bool
  | .started | .startEncryption _ _ _ | .stateSet .complete => false
  | _ => true

lemma Event.plain_justified {su : Setup} {e : Event} (h : e.plain = true) (older : List Event) :
    Justified su e older := by
  cases e with
  | startEncryption => cases h
  | stateSet s =>
    cases s with
    | complete => cases h
    | _ => trivial
  | _ => trivial

lemma Event.plain_opensRun {e : Event} (h : e.plain = true) : e.opensRun = false := by
  cases e <;> first | rfl | cases h

lemma Event.isNote_plain {e : Event} (h : e.isNote = true) : e.plain = true := by
  cases e <;> first | rfl | cases h

@[simp] lemma peerPdu_rev (code : Code) (v : Octets 16) :
    peerPdu code v.rev = .received (code.octet :: v.bytes) := by
  simp [peerPdu]

lemma peerIoCap_response {m : Manager} {response : PairingFeatures}
    (h : m.pres = reversedPdu (responsePdu response)) : peerIoCap m = responseIoCap response := by
  unfold peerIoCap
  rw [Octets.mk.injEq, h]
  rfl

variable {su : Setup} {w w₀ w₁ : World} {i : Input} {pdu : Bytes} {run : List Event}

lemma evidence_at {m : Manager} {s : State} (he : Evidence su m run) (hs : m.state = s) :
    EvidenceAt su m run s := hs ▸ he

lemma TkReady.keyed (h : TkReady su w i w₀) (he : Evidence su w.m run) (random : Octets 16) :
    ∃ (v : LegacyRun) (newer : List Event), w₀.history = newer ++ w.history ∧
      (∀ e ∈ newer, e.plain = true) ∧ v.localRandom = random ∧
      v.Keyed su { w₀.m with localRandom := random } ∧
      v.tkTrace.Sublist (newer ++ inputEvent i :: run) := by
  cases h with
  | @justWorks nowUs response negotiation hs hn hsc ha =>
    have hq := evidence_at he hs
    refine ⟨⟨response, [], .zero 16, random, .zero 16⟩, [], rfl, by simp, rfl,
      ⟨⟨hq, rfl, hn⟩, hsc, ?_, rfl, rfl⟩, ?_⟩
    · simp only [accepted, World.modify_m]
      rw [ha]
      exact .justWorks
    · exact (nil_sublist run).cons_cons _
  | @displayed nowUs response negotiation o hs hn hsc ha =>
    have hq := evidence_at he hs
    have hsource : TkSource negotiation.association (passkeyTk (randomPasskey o))
        [.random o.bytes] := by
      rw [ha]
      exact .displayed o
    have htrace : [Event.random o.bytes, .received (responsePdu response)].Sublist
        ([.random o.bytes] ++ .received (responsePdu response) :: run) :=
      ((nil_sublist run).cons_cons _).cons_cons _
    unfold userAction
    split
    · exact ⟨⟨response, _, _, random, .zero 16⟩,
        [.userAction .displayPasskey (randomPasskey o), .random o.bytes], rfl,
        by simp [Event.plain], rfl, ⟨⟨hq, rfl, hn⟩, hsc, hsource, rfl, rfl⟩, htrace.cons _⟩
    · exact ⟨⟨response, _, _, random, .zero 16⟩, [.random o.bytes], rfl, by simp [Event.plain], rfl,
        ⟨⟨hq, rfl, hn⟩, hsc, hsource, rfl, rfl⟩, htrace⟩
  | @passkey nowUs passkey hs hp ha =>
    obtain ⟨response, hr, hsc, hasked, ht⟩ := evidence_at he hs
    refine ⟨⟨response, [.called (.providePasskey passkey)], passkeyTk passkey, random, .zero 16⟩,
      [], rfl, by simp, rfl, ⟨⟨hr.preq, hr.pres, hr.negotiated⟩, hsc, ?_, rfl, rfl⟩, ht.cons_cons _⟩
    rcases hasked with h | h | h
    · exact .entered passkey (.inl h)
    · exact .entered passkey (.inr h)
    · exact absurd h ha
  | @oob nowUs tk hs ha =>
    obtain ⟨response, hr, hsc, -, ht⟩ := evidence_at he hs
    refine ⟨⟨response, [.called (.provideOobTk (some tk))], tk, random, .zero 16⟩,
      [], rfl, by simp, rfl, ⟨⟨hr.preq, hr.pres, hr.negotiated⟩, hsc, ?_, rfl, rfl⟩, ht.cons_cons _⟩
    simp only [World.modify_m]
    rw [ha]
    exact .oob tk

lemma Stage2Ready.opened (h : Stage2Ready su w i w₀) (he : Evidence su w.m run) :
    ∃ v : ScRun, w₀.history = w.history ∧ v.Opened su w₀.m ∧
      (acceptance w₀.m.negotiation.association ++ v.openTrace).Sublist (inputEvent i :: run) := by
  cases h with
  | @committed nowUs p hs hf ha =>
    obtain ⟨v, hv, ht⟩ := evidence_at he hs
    have hf' : f4 su.cmac v.peerX v.localX p.rev 0 = .ok v.peerConfirm := by
      rw [← hv.peerX, ← hv.localX, ← hv.peerConfirm]
      exact hf
    refine ⟨{ v with peerRandom := p.rev }, rfl,
      ⟨⟨⟨⟨⟨⟨hv.responded.imp fun _ h => ⟨⟨h.1.preq, h.1.pres, h.1.negotiated⟩, h.2⟩⟩, hv.localX⟩,
        hv.peerX⟩, hv.dhkey, hv.localRandom⟩, hv.peerConfirm⟩, rfl, hf'⟩, ?_⟩
    have hacc : acceptance w.m.negotiation.association = [] := if_neg ha
    simp only [World.modify_m, World.arm_m, hacc, nil_append, ScRun.openTrace, peerPdu_rev]
    exact ht.cons_cons _
  | confirmed hs =>
    obtain ⟨v, hv, ha, ht⟩ := evidence_at he hs
    refine ⟨v, rfl, hv, ?_⟩
    rw [acceptance, if_pos ha]
    exact ht.cons_cons _

structure Adds (su : Setup) (w w₁ : World) (newer : List Event) : Prop where
  history : w₁.history = newer ++ w.history
  sameRun : ∀ e ∈ newer, e.opensRun = false
  justified : Always (Justified su) w.history → Always (Justified su) w₁.history

lemma Adds.plain {newer : List Event} (hh : w₁.history = newer ++ w.history)
    (hp : ∀ e ∈ newer, e.plain = true) : Adds su w w₁ newer where
  history := hh
  sameRun e he := Event.plain_opensRun (hp e he)
  justified h := by
    rw [hh]
    exact Always.append (fun e he older => Event.plain_justified (hp e he) older) h

lemma Transmits.gains (h : Transmits su w i w₁ pdu) (he : Evidence su w.m run) :
    ∃ newer, Adds su w w₁ newer ∧
      Evidence su w₁.m (.sent pdu :: (newer ++ inputEvent i :: run)) := by
  cases h with
  | @confirm _ w₀ random confirm ht hc =>
    obtain ⟨v, newer, hh, hp, rfl, hv, htr⟩ := ht.keyed he random
    refine ⟨.stateSet .waitPairingConfirm :: .random v.localRandom.bytes :: newer,
      .plain (by simp [exchanged, hh]) ?_, v, hv.congr rfl ⟨rfl, rfl⟩ ⟨rfl, rfl⟩, ?_⟩
    · simpa [Event.plain] using hp
    · exact ((htr.cons_cons _).cons _).cons _
  | @random nowUs p hs =>
    obtain ⟨v, hv, htr⟩ := evidence_at he hs
    refine ⟨[.stateSet .waitPairingRandom], .plain rfl (by simp [Event.plain]),
      { v with peerConfirm := p.rev }, ⟨hv.responded.congr rfl rfl, hv.legacy, hv.source, hv.tk,
        hv.localRandom⟩, rfl, ?_⟩
    simp only [LegacyRun.randomTrace, peerPdu_rev, hv.localRandom]
    exact ((htr.cons_cons _).cons _).cons_cons _
  | @publicKey nowUs x y hs =>
    obtain ⟨v, hv, htr⟩ := evidence_at he hs
    refine ⟨[.stateSet .waitPeerPublicKey], .plain rfl (by simp [Event.plain]),
      { v with localX := x, localY := y }, ⟨⟨hv.responded.imp fun _ h => ⟨h.1.congr rfl rfl, h.2⟩⟩,
        rfl⟩, ?_⟩
    exact ((htr.cons_cons _).cons _).cons_cons _
  | @scRandom nowUs p hs =>
    obtain ⟨v, hv, htr⟩ := evidence_at he hs
    refine ⟨[.stateSet .waitScRandom], .plain rfl (by simp [Event.plain]),
      { v with peerConfirm := p.rev }, ⟨⟨⟨⟨⟨hv.responded.imp fun _ h => ⟨h.1.congr rfl rfl, h.2⟩⟩,
        hv.localX⟩, hv.peerX⟩, hv.dhkey, hv.localRandom⟩, rfl⟩, ?_⟩
    simp only [ScRun.commitTrace, peerPdu_rev, hv.localRandom]
    exact ((htr.cons_cons _).cons _).cons_cons _
  | @dhkeyCheck _ w₀ macKey ltk check h2 h5 h6 =>
    obtain ⟨v, hh, hv, htr⟩ := h2.opened he
    refine ⟨[.stateSet .waitDhkeyCheck], .plain (by simp [stage2, hh]) (by simp [Event.plain]),
      v, ltk, check, ⟨⟨⟨⟨⟨hv.toBegun.congr rfl ⟨rfl, rfl⟩, hv.localX⟩, hv.peerX⟩, hv.dhkey,
        hv.localRandom⟩, hv.peerConfirm⟩, hv.peerRandom, hv.opened⟩, ?_, rfl, ?_⟩
    · rw [← hv.dhkey, ← hv.localRandom, ← hv.peerRandom]
      exact h5
    · exact (htr.cons _).cons_cons _

lemma verified_legacy {v : LegacyRun} {p stk : Octets 16} (hv : v.Keyed su w.m)
    (hpc : w.m.peerConfirm = v.peerConfirm)
    (ht : (.received (Code.pairingRandom.octet :: p.bytes) :: v.randomTrace).Sublist run)
    (hc : confirmValue su w.m p.rev = .ok w.m.peerConfirm)
    (hk : s1 su.aes w.m.tk p.rev w.m.localRandom = .ok stk) :
    Verified su run (maskKey w.m.negotiation.encryptionKeySize stk) w.m.negotiation := by
  have ht' : (peerPdu .pairingRandom p.rev :: v.randomTrace).Sublist run := by
    rw [peerPdu_rev]
    exact ht
  refine .legacy v hv.responded.negotiated hv.legacy hv.source ht' ?_ ?_ rfl
  · rw [← hv.tk, ← hv.responded.preq, ← hv.responded.pres, ← hpc]
    exact hc
  · rw [← hv.tk, ← hv.localRandom]
    exact hk

lemma verified_secureConnections {v : ScRun} {p ltk check : Octets 16} (hv : v.Opened su w.m)
    (h5 : f5 su.cmac v.dhkey v.localRandom v.peerRandom (a1 su) (a2 su) = .ok (w.m.macKey, ltk))
    (hk : w.m.stk = maskKey w.m.negotiation.encryptionKeySize ltk)
    (ht : (.received (Code.pairingDhkeyCheck.octet :: p.bytes) ::
      v.checkTrace w.m.negotiation.association check).Sublist run)
    (h6 : f6 su.cmac w.m.macKey w.m.peerRandom w.m.localRandom (.zero 16) (peerIoCap w.m)
      (a2 su) (a1 su) = .ok p.rev) : Verified su run w.m.stk w.m.negotiation := by
  obtain ⟨negotiated, hr, hsc, hd⟩ := hv.responded
  have ht' : (peerPdu .pairingDhkeyCheck p.rev ::
      v.checkTrace w.m.negotiation.association check).Sublist run := by
    rw [peerPdu_rev]
    exact ht
  refine .secureConnections v hr.negotiated hsc hd ht' hv.opened h5 ?_ hk
  rw [← hv.peerRandom, ← hv.localRandom, ← peerIoCap_response hr.pres]
  exact h6

lemma userAction_adds (su : Setup) (w w₁ : World) (action : UserAction) (value : UInt32)
    {e : Event} (hh : w₁.history = e :: w.history) (hp : e.plain = true) :
    ∃ newer, Adds su w (userAction su w₁ action value) newer := by
  unfold userAction
  split
  · exact ⟨[.userAction action value, e], .plain (by simp [hh])
      (forall_mem_cons.mpr ⟨rfl, by simpa using hp⟩)⟩
  · exact ⟨[e], .plain hh (by simpa using hp)⟩

lemma encrypting_adds {w₂ : World} {nowUs : ℕ} (hh : w₂.history = w.history)
    (hv : Always (Justified su) w.history →
      Verified su (.stateSet .waitEncryption :: currentRun w.history) w₂.m.stk w₂.m.negotiation) :
    Adds su w (encrypting w₂ nowUs)
      [.startEncryption w₂.m.stk w₂.m.negotiation.encryptionKeySize w₂.m.negotiation,
        .stateSet .waitEncryption] where
  history := by simp [encrypting, hh]
  sameRun := by simp [Event.opensRun]
  justified h := by
    have hset : Always (Justified su) (.stateSet .waitEncryption :: w.history) :=
      Always.cons trivial h
    have hrun : currentRun (.stateSet .waitEncryption :: w.history) =
        .stateSet .waitEncryption :: currentRun w.history := since_cons rfl
    have hcall : Justified su (.startEncryption w₂.m.stk w₂.m.negotiation.encryptionKeySize
        w₂.m.negotiation) (.stateSet .waitEncryption :: w.history) :=
      ⟨by rw [hrun]; exact hv h, rfl⟩
    simpa [encrypting, hh] using Always.cons hcall hset

lemma Rests.gains (h : Rests su w i w₁) (hrun : currentRun w.history = inputEvent i :: run)
    (he : Evidence su w.m run) :
    ∃ newer, Adds su w w₁ newer ∧ Evidence su w₁.m (newer ++ inputEvent i :: run) := by
  cases h with
  | @requestTk nowUs response negotiation action hs hn hsc ha =>
    have hq := evidence_at he hs
    obtain ⟨newer, hadd⟩ := userAction_adds su w
      ((accepted w nowUs response negotiation).setState .waitTk) action 0 rfl rfl
    refine ⟨newer, hadd, ?_⟩
    unfold Evidence
    rw [userAction_m]
    exact ⟨response, ⟨hq, rfl, hn⟩, hsc, ha,
      ((nil_sublist run).cons_cons _).trans (sublist_append_right ..)⟩
  | @generatePublicKey nowUs response negotiation hs hn hsc ha =>
    have hq := evidence_at he hs
    refine ⟨[.generatePublicKey, .stateSet .waitLocalPublicKey],
      .plain rfl (by simp [Event.plain]), ⟨response, .zero 32, .zero 32, .zero 32, .zero 32,
        .zero 32, .zero 16, .zero 16, .zero 16⟩, ⟨negotiation, ⟨hq, rfl, hn⟩, hsc, rfl⟩, ?_⟩
    exact (((nil_sublist run).cons_cons _).cons _).cons _
  | @encryptLegacy nowUs stk p hs hc hk =>
    obtain ⟨v, hv, hpc, htr⟩ := evidence_at he hs
    refine ⟨_, encrypting_adds rfl fun _ => ?_, _, _, (nil_sublist _).cons_cons _⟩
    have hver := verified_legacy hv hpc ((htr.cons_cons _).cons (.stateSet .waitEncryption)) hc hk
    rw [hrun]
    exact hver
  | @generateDhkey nowUs x y hs hne =>
    obtain ⟨v, hv, htr⟩ := evidence_at he hs
    refine ⟨[.generateDhkey x.rev y.rev, .stateSet .waitDhkey], .plain rfl (by simp [Event.plain]),
      { v with peerX := x.rev, peerY := y.rev },
      ⟨⟨⟨hv.responded.imp fun _ h => ⟨h.1.congr rfl rfl, h.2⟩⟩, hv.localX⟩, rfl⟩, ?_⟩
    simp only [ScRun.peerKeyTrace, Octets.rev_rev]
    exact ((htr.cons_cons _).cons _).cons _
  | @dhkey nowUs d random hs =>
    obtain ⟨v, hv, htr⟩ := evidence_at he hs
    refine ⟨[.stateSet .waitScConfirm, .random random.bytes], .plain rfl (by simp [Event.plain]),
      { v with dhkey := d, localRandom := random },
      ⟨⟨⟨⟨hv.responded.imp fun _ h => ⟨h.1.congr rfl rfl, h.2⟩⟩, hv.localX⟩, hv.peerX⟩, rfl, rfl⟩,
      ?_⟩
    exact ((htr.cons_cons _).cons_cons _).cons _
  | @askNumeric nowUs value p hs hf ha =>
    obtain ⟨v, hv, htr⟩ := evidence_at he hs
    obtain ⟨newer, hadd⟩ := userAction_adds su w (((w.arm nowUs).modify fun m =>
        { m with peerRandom := p.rev, numericValue := value }).setState .waitNumericConfirmation)
      .confirmNumeric value rfl rfl
    have hf' : f4 su.cmac v.peerX v.localX p.rev 0 = .ok v.peerConfirm := by
      rw [← hv.peerX, ← hv.localX, ← hv.peerConfirm]
      exact hf
    refine ⟨newer, hadd, ?_⟩
    unfold Evidence
    rw [userAction_m]
    refine ⟨{ v with peerRandom := p.rev },
      ⟨⟨⟨⟨⟨⟨hv.responded.imp fun _ h => ⟨h.1.congr rfl rfl, h.2⟩⟩, hv.localX⟩, hv.peerX⟩, hv.dhkey,
        hv.localRandom⟩, hv.peerConfirm⟩, rfl, hf'⟩, ha, ?_⟩
    simp only [ScRun.openTrace, peerPdu_rev]
    exact (htr.cons_cons _).trans (sublist_append_right ..)
  | @encryptSc nowUs p hs h6 =>
    obtain ⟨v, ltk, check, hv, h5, hk, htr⟩ := evidence_at he hs
    refine ⟨_, encrypting_adds rfl fun _ => ?_, _, _, (nil_sublist _).cons_cons _⟩
    have hver := verified_secureConnections hv h5 hk
      ((htr.cons_cons _).cons (.stateSet .waitEncryption)) h6
    rw [hrun]
    exact hver
  | keysExpected hs =>
    obtain ⟨key, size, htr⟩ := evidence_at he hs
    exact ⟨[.stateSet .waitKeyDistribution], .plain rfl (by simp [Event.plain]),
      key, size, _, (htr.cons_cons _).cons _⟩
  | @keyStored nowUs c m hk =>
    refine ⟨[], .plain rfl (by simp), ?_⟩
    have hst : m.state = .waitKeyDistribution := by
      rw [Manager.storeKey_frame hk.stored]
      exact hk.state
    have henc : Encrypted run := evidence_at he hk.state
    unfold Evidence
    dsimp only
    rw [hst]
    exact henc.mono (sublist_cons_self ..)

lemma Distributes.gains (h : Distributes w i w₁) (he : Evidence su w.m run) :
    Adds su w w₁ [] ∧ Encrypted (inputEvent i :: run) ∧ Evidence su w₁.m (inputEvent i :: run) := by
  cases h with
  | noKeys hs =>
    obtain ⟨key, size, ht⟩ := evidence_at he hs
    refine ⟨.plain rfl (by simp), ⟨key, size, _, ht.cons_cons _⟩, ?_⟩
    unfold Evidence
    rw [show (keysPending w).m.state = .waitEncryption from hs]
    exact ⟨key, size, ht.cons _⟩
  | @lastKey nowUs c m hk =>
    have hst : m.state = .waitKeyDistribution := by
      rw [Manager.storeKey_frame hk.stored]
      exact hk.state
    have henc : Encrypted (inputEvent (.pdu (c.code.octet :: c.data) nowUs) :: run) :=
      Encrypted.mono (evidence_at he hk.state) (sublist_cons_self ..)
    refine ⟨.plain rfl (by simp), henc, ?_⟩
    unfold Evidence
    dsimp only
    rw [hst]
    exact henc

end Bluzing.Smp
