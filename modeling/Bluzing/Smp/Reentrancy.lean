import Bluzing.Smp.Settled

/-! Completion under re-entrant delivery, at every nesting depth. -/
namespace Bluzing.Smp

lemma State.terminal_of_waiting {s : State} (h : s.waiting = true) : s.terminal = false := by
  cases s <;> first | rfl | cases h

variable {su : Setup} {port : ℕ → Reply} {send : Send} {w w₁ : World} {i : Input} {pdu : Bytes}
  {nowUs : ℕ}

lemma Rests.waiting (h : Rests su w i w₁) : w₁.m.state.waiting = true := by
  have ha := h.armed
  cases h with
  | requestTk | askNumeric => simp [State.waiting]
  | keyStored hk =>
    have hf := Manager.storeKey_frame hk.stored
    dsimp only
    rw [hf]
    simp [hk.state, State.waiting]
  | _ => rfl

lemma not_terminal {s : State} (hs : w.m.state = s) (ht : s.terminal = false) :
    w.m.state.terminal = false := hs ▸ ht

lemma Rests.calms (h : Rests su w i w₁) : Calms w w₁ := by
  cases h with
  | requestTk hs | askNumeric hs =>
    exact Calms.trans (.advance (not_terminal hs rfl) rfl rfl) (.userAction su _ _ _)
  | @generatePublicKey nowUs response negotiation hs =>
    have hset := (Calms.setState (not_terminal hs rfl) .waitLocalPublicKey).trans
      (.emit (e := .generatePublicKey) nofun rfl)
    exact hset.trans (.sameState rfl rfl)
  | encryptLegacy hs | encryptSc hs =>
    exact .encrypting (not_terminal hs rfl) (by rfl) _
  | @generateDhkey nowUs x y hs =>
    have hset := (Calms.setState (not_terminal hs rfl) .waitDhkey).trans
      (.emit (e := .generateDhkey x.rev y.rev) nofun rfl)
    exact hset.trans (.sameState rfl rfl)
  | @dhkey nowUs d random hs =>
    have hrand : Calms w (w.emit (.random random.bytes)) := .emit nofun rfl
    exact hrand.trans (.advance (not_terminal hs rfl) rfl rfl)
  | keysExpected hs =>
    exact .advance (not_terminal hs rfl) rfl rfl
  | keyStored hk =>
    refine .sameState ?_ rfl
    dsimp only
    rw [Manager.storeKey_frame hk.stored]
    rfl

lemma TkReady.calms (h : TkReady su w i w₁) : Calms w w₁ := .scratch h.scratch

lemma Transmits.calms (h : Transmits su w i w₁ pdu) : Calms w w₁ := by
  cases h with
  | @confirm _ w₀ random confirm ht =>
    have hw : w₀.m.state.terminal = false := by
      rw [ht.scratch.state]
      rcases ht.state with hs | hs <;> rw [hs] <;> rfl
    have hrand : Calms w₀ (w₀.emit (.random random.bytes)) := .emit nofun rfl
    exact (ht.calms.trans hrand).trans (.advance hw rfl rfl)
  | random hs | scRandom hs | publicKey hs =>
    exact .advance (not_terminal hs rfl) rfl rfl
  | @dhkeyCheck _ w₀ macKey ltk check h2 =>
    obtain ⟨hsc, hs⟩ := h2.scratch
    have hw : w₀.m.state.terminal = false := by
      rw [hsc.state]
      rcases hs with hs | hs <;> rw [hs] <;> rfl
    exact (Calms.scratch hsc).trans (.advance hw rfl rfl)

lemma sendPdu_calms (hsend : ∀ w pdu, Calms w (send w pdu).1) (w : World) (pdu : Bytes)
    (nowUs : ℕ) : Calms w (sendPdu send w pdu nowUs).1 := by
  have harm : Calms w (w.arm nowUs) := .sameState rfl rfl
  have hsent := harm.trans (.emit (e := .sent pdu) nofun rfl)
  exact (hsent.trans (hsend _ pdu)).trans (.emit nofun rfl)

lemma sendPdu_terminal (send : Send) (w : World) (pdu : Bytes) (nowUs : ℕ)
    (hfin : (sendPdu send w pdu nowUs).2 ≠ .ok ∨ finishesAfter pdu = true)
    (hn : NoOverrun (sendPdu send w pdu nowUs).1.history) :
    (sendPdu send w pdu nowUs).1.m.state.terminal = false := by
  have hlast : (Event.returned pdu (sendPdu send w pdu nowUs).2
      (sendPdu send w pdu nowUs).1.m.state).overruns = false := hn _ (List.mem_cons_self ..)
  by_contra ht
  rw [Bool.not_eq_false] at ht
  simp only [Event.overruns, ht, Bool.true_and, Bool.or_eq_false_iff, bne_eq_false_iff_eq] at hlast
  rcases hfin with h | h
  · exact h hlast.1
  · rw [hlast.2] at h
    cases h

lemma localKeyPdus_finishesAfter {mask : UInt8} {keys : DistributedKeys} {wr : Writer}
    (h : .ok wr ∈ localKeyPdus mask keys) : finishesAfter wr.data = true := by
  have hvalue : ∀ (code : Code) (v : Octets 16), isValue128 code = true →
      .ok wr = encodeValue128 (.init 17) code v → wr.data.head? = some code.octet := by
    intro code v hc he
    obtain ⟨wr', he', hd⟩ := encodeValue128_eq hc v
    rw [he'] at he
    cases he
    rw [hd]
    rfl
  have hcentral : .ok wr = encodeCentralIdentification (.init 17) keys.rand keys.ediv →
      wr.data.head? = some 0x07 := by
    intro he
    obtain ⟨wr', he', hd⟩ := encodeCentralIdentification_eq keys.rand keys.ediv
    rw [he'] at he
    cases he
    rw [hd]
    rfl
  have haddress : .ok wr = encodeIdentityAddress (.init 17) keys.identityAddressType
      keys.identityAddress → wr.data.head? = some 0x09 := by
    intro he
    by_cases ht : keys.identityAddressType > 1
    · rw [encodeIdentityAddress, if_pos ht] at he
      cases he
    · obtain ⟨wr', he', hd⟩ := encodeIdentityAddress_eq ht keys.identityAddress
      rw [he'] at he
      cases he
      rw [hd]
      rfl
  simp only [localKeyPdus, List.mem_append] at h
  unfold finishesAfter
  rcases h with (h | h) | h
  all_goals split at h
  all_goals simp only [List.mem_cons, List.not_mem_nil, or_false] at h
  · rcases h with h | h
    · rw [hvalue _ _ rfl h]
      rfl
    · rw [hcentral h]
      rfl
  · rcases h with h | h
    · rw [hvalue _ _ rfl h]
      rfl
    · rw [haddress h]
      rfl
  · rw [hvalue _ _ rfl h]
    rfl

lemma sendKeyPdus_calms (hsend : ∀ w pdu, Calms w (send w pdu).1) (nowUs : ℕ)
    (pdus : List (Except Status Writer)) (hk : ∀ wr, .ok wr ∈ pdus → finishesAfter wr.data = true)
    (w : World) (hw : NoOverrun w.history → w.m.state.terminal = false) :
    Calms w (sendKeyPdus send w nowUs pdus).1 ∧
      (NoOverrun (sendKeyPdus send w nowUs pdus).1.history →
        (sendKeyPdus send w nowUs pdus).1.m.state.terminal = false) := by
  induction pdus generalizing w with
  | nil => exact ⟨.refl w, hw⟩
  | cons pdu rest ih =>
    cases pdu with
    | error st =>
      have hrun : sendKeyPdus send w nowUs (.error st :: rest) =
          if st = .ok then sendKeyPdus send w nowUs rest else (w, false) := rfl
      rw [hrun]
      split
      · exact ih (fun wr hm => hk wr (List.mem_cons_of_mem _ hm)) w hw
      · exact ⟨.refl w, hw⟩
    | ok wr =>
      have hf := hk wr (List.mem_cons_self ..)
      have hc := sendPdu_calms hsend w wr.data nowUs
      have ht := sendPdu_terminal send w wr.data nowUs (.inr hf)
      have hrun : sendKeyPdus send w nowUs (.ok wr :: rest) =
          if (sendPdu send w wr.data nowUs).2 = .ok then
            sendKeyPdus send (sendPdu send w wr.data nowUs).1 nowUs rest
          else ((sendPdu send w wr.data nowUs).1, false) := rfl
      rw [hrun]
      split
      · obtain ⟨hc', ht'⟩ := ih (fun wr hm => hk wr (List.mem_cons_of_mem _ hm)) _ ht
        exact ⟨hc.trans hc', ht'⟩
      · exact ⟨hc, ht⟩

lemma finishKeyDistribution_calms (hsend : ∀ w pdu, Calms w (send w pdu).1) (w : World)
    (hw : w.m.state.terminal = false) (nowUs : ℕ) :
    Calms w (finishKeyDistribution su port send w nowUs) := by
  have hkeys : Calms w (sendKeyDistribution su port send w nowUs).1 ∧
      (NoOverrun (sendKeyDistribution su port send w nowUs).1.history →
        (sendKeyDistribution su port send w nowUs).1.m.state.terminal = false) := by
    have hfetch := Scratch.fetchLocalKeys su port w w.m.negotiation.initiatorKeyDistribution
    have hs := hfetch.state
    have hc := Calms.scratch hfetch
    unfold sendKeyDistribution
    dsimp only
    split
    · obtain ⟨hc', ht'⟩ := sendKeyPdus_calms hsend nowUs _
        (fun wr hm => localKeyPdus_finishesAfter hm) _ (fun _ => by rw [hs]; exact hw)
      exact ⟨hc.trans hc', ht'⟩
    · exact ⟨hc, fun _ => by rw [hs]; exact hw⟩
  obtain ⟨hc, ht⟩ := hkeys
  unfold finishKeyDistribution
  dsimp only
  split
  · split
    · have hemit := hc.trans (.emit (e := .keysComplete
        (sendKeyDistribution su port send w nowUs).1.m.peerKeys
        (sendKeyDistribution su port send w nowUs).1.m.localKeys) nofun rfl)
      refine hemit.trans (.finish ?_ su .ok)
      exact fun hn => ht hn.tail
    · exact hc.trans (.finish ht su .ok)
  · exact hc.trans (.finish ht su .errorCrypto)

lemma start_calms (hsend : ∀ w pdu, Calms w (send w pdu).1) (w : World) (nowUs : ℕ)
    (hs : startable su w.m = true) : Calms w (start su send w nowUs).1 := by
  have hidle : w.m.state = .idle := by
    simp only [startable, Bool.and_eq_true, beq_iff_eq] at hs
    exact hs.1.2
  have hn := not_terminal hidle rfl
  have hemit : Calms w (w.emit .started) := .emit (by simp) rfl
  have hbegin : Calms w (begun su w) := hemit.trans (.advance hn rfl rfl)
  have hsent := hbegin.trans (sendPdu_calms hsend _ (requestPdu su.config.features) nowUs)
  rw [start_eq, if_pos hs]
  dsimp only
  split
  · exact hsent.trans (.emit (by simp) rfl)
  next hst =>
    -- the reset to idle is an assignment too, so the manager must not have ended
    refine (hsent.trans ⟨List.suffix_cons _ _, fun ho hc => ?_⟩).trans (.emit (by simp) rfl)
    exact hc.setState (sendPdu_terminal send _ _ nowUs (.inl hst) ho.tail) .idle

lemma Reacts.calms (hsend : ∀ w pdu, Calms w (send w pdu).1) {w' : World}
    (h : Reacts su port send w i w') : Calms w w' := by
  cases h with
  | unchanged => exact .refl w
  | startRejected => exact .emit nofun rfl
  | @starts nowUs _ hs => exact start_calms hsend w nowUs hs
  | expires _ _ _ hs => exact .finish (fun _ => hs) su _
  | @fails w₁ reason nowUs result hw hs =>
    have hsent := (Calms.scratch hs).trans
      (sendPdu_calms hsend w₁ [Code.pairingFailed.octet, reason] nowUs)
    exact hsent.trans (.finish (sendPdu_terminal send w₁ _ nowUs (.inr rfl)) su _)
  | ends hw hs =>
    refine (Calms.scratch hs).trans (.finish (fun _ => ?_) su _)
    rw [hs.state]
    exact State.terminal_of_waiting hw
  | @transmits w₁ pdu nowUs ht =>
    have hsent := ht.calms.trans (sendPdu_calms hsend w₁ pdu nowUs)
    unfold transmit
    dsimp only
    split
    · exact hsent
    next hst => exact hsent.trans (.finish (sendPdu_terminal send w₁ pdu nowUs (.inl hst)) su _)
  | rests hr => exact hr.calms
  | breaks hr =>
    exact hr.calms.trans (.finish (fun _ => State.terminal_of_waiting hr.waiting) su _)
  | distributes hd =>
    cases hd with
    | noKeys hs =>
      have hn := not_terminal hs rfl
      have hpend : Calms w (keysPending w) := .sameState rfl rfl
      exact hpend.trans (finishKeyDistribution_calms hsend (keysPending w) hn _)
    | @lastKey nowUs c m hk =>
      have hst : m.state = w.m.state := by rw [Manager.storeKey_frame hk.stored]; rfl
      have hn : m.state.terminal = false := by rw [hst, hk.state]; rfl
      have hstored : Calms w { w.arm nowUs with m } := .sameState hst rfl
      exact hstored.trans (finishKeyDistribution_calms hsend _ hn _)

variable {w' : World}

lemma apply_calms (hsend : ∀ w pdu, Calms w (send w pdu).1) (w : World) (i : Input) :
    Calms w (apply su port send w i) := by
  have hentry : Calms w (entry w i) := by
    cases i with
    | call c nowUs => exact .emit (by simp) rfl
    | pdu octets nowUs =>
      simp only [entry]
      split <;> exact .emit (by simp) rfl
  exact hentry.trans ((apply_reacts su port send w i).calms hsend)

lemma runFrom_calms (su : Setup) (port : ℕ → Reply) (n : ℕ) (w : World) (inputs : List Input) :
    Calms w (runFrom su port n w inputs) :=
  runFrom_rel Calms.refl Calms.trans (fun _ => .sameState rfl rfl)
    (fun _ hsend w i => apply_calms hsend w i) n w inputs

lemma Transmits.waiting_before {w₁ : World} {pdu : Bytes} (h : Transmits su w i w₁ pdu) :
    w.m.state.waiting = true := by
  cases h with
  | confirm ht => rcases ht.state with hs | hs <;> rw [hs] <;> rfl
  | random hs | publicKey hs | scRandom hs =>
    rw [hs]
    rfl
  | dhkeyCheck h2 => rcases h2.scratch.2 with hs | hs <;> rw [hs] <;> rfl

lemma Rests.waiting_before {w₁ : World} (h : Rests su w i w₁) : w.m.state.waiting = true := by
  cases h with
  | keyStored hk =>
    rw [hk.state]
    rfl
  | requestTk hs | generatePublicKey hs | encryptLegacy hs | generateDhkey hs | dhkey hs
  | askNumeric hs | encryptSc hs | keysExpected hs =>
    rw [hs]
    rfl

lemma Distributes.waiting_before {w₁ : World} (h : Distributes w i w₁) :
    w.m.state.waiting = true := by
  cases h with
  | noKeys hs =>
    rw [hs]
    rfl
  | lastKey hk =>
    rw [hk.state]
    rfl

def IdleTickDue (w : World) (i : Input) : Prop :=
  w.m.state = .idle ∧ ∃ nowUs, i = .call .tick nowUs ∧ w.m.deadlineUs ≠ 0 ∧
    w.m.deadlineUs ≤ nowUs

lemma Reacts.from_idle (h : Reacts su port send w i w') (hs : w.m.state = .idle)
    (ht : ¬ IdleTickDue w i) : w'.m.state = .idle ∨ .startReturned .ok ∈ w'.history := by
  have hw : w.m.state.waiting ≠ true := by
    rw [hs]
    decide
  cases h with
  | unchanged | startRejected => exact .inl hs
  | starts _ hst =>
    rw [start_eq, if_pos hst]
    dsimp only
    split
    · exact .inr (List.mem_cons_self ..)
    · exact .inl rfl
  | @expires nowUs hi hd hdue => exact absurd ⟨hs, nowUs, hi, hd, hdue⟩ ht
  | fails hw' | ends hw' => exact absurd hw' hw
  | transmits h | rests h | breaks h | distributes h => exact absurd h.waiting_before hw

lemma run_okStart (n : ℕ) (inputs : List Input)
    (ht : ∀ done i rest, done ++ i :: rest = inputs → ¬ IdleTickDue (run su port n done) i) :
    (run su port n inputs).m.state = .idle ∨
      .startReturned .ok ∈ (run su port n inputs).history := by
  induction inputs using List.reverseRecOn with
  | nil => exact .inl rfl
  | append_singleton inputs i ih =>
    have hlast := ht inputs i [] rfl
    rw [run_concat]
    have hprev := ih fun done j rest hd => ht done j (rest ++ [i]) (by rw [← hd]; simp)
    rcases hprev with hs | hm
    · have he : (entry (run su port n inputs) i).m = (run su port n inputs).m := by
        cases i <;> rfl
      refine (apply_reacts su port _ _ i).from_idle (by rw [he]; exact hs) ?_
      unfold IdleTickDue at hlast ⊢
      rw [he]
      exact hlast
    · have hsuffix := (runFrom_calms su port n (run su port n inputs) [i]).grows
      exact .inr (hsuffix.subset hm)

/-- At every nesting depth: without an overrunning send and without a due tick on an idle manager,
`complete` fires at most once for each start that returned `BT_OK` and a finished state is never
assigned again. -/
theorem run_completes_once (su : Setup) (port : ℕ → Reply) (n : ℕ) (inputs : List Input)
    (hn : NoOverrun (run su port n inputs).history)
    (ht : ∀ done i rest, done ++ i :: rest = inputs → ¬ IdleTickDue (run su port n done) i) :
    completes (run su port n inputs).history ≤ okStarts (run su port n inputs).history ∧
      Settled (run su port n inputs).history ∧
      ∀ done rest, done ++ rest = inputs → (run su port n done).m.state.terminal = true →
        (run su port n inputs).m.state = (run su port n done).m.state := by
  have hcalm := (runFrom_calms su port n World.init inputs).calm hn Calm.init
  refine ⟨?_, hcalm.settled, ?_⟩
  · have honce := hcalm.once
    rcases run_okStart n inputs ht with hs | hm
    · have hterm : (runFrom su port n World.init inputs).m.state.terminal = false := by
        rw [show (runFrom su port n World.init inputs).m.state = .idle from hs]
        rfl
      rw [hterm] at honce
      exact Nat.le_trans honce (Nat.zero_le _)
    · have hpos : 0 < okStarts (run su port n inputs).history := List.count_pos_iff.mpr hm
      have hle : completes (run su port n inputs).history ≤ 1 :=
        Nat.le_trans honce (by split <;> decide)
      omega
  · rintro done rest rfl hterm
    have hsplit : run su port n (done ++ rest) = runFrom su port n (run su port n done) rest := by
      simp [run, runFrom]
    have hrest := runFrom_calms su port n (run su port n done) rest
    rw [hsplit] at hn
    have hdone := (runFrom_calms su port n World.init done).calm (hrest.noOverrun hn) Calm.init
    have hend := hrest.calm hn hdone
    obtain ⟨newer, hh⟩ := hrest.grows
    have hstate : stateOf (run su port n done).history = (run su port n done).m.state := hdone.sync
    rw [hsplit, ← hend.sync, ← hh, ← hstate]
    refine Settled.stateOf_eq ?_ (by rw [hstate]; exact hterm)
    rw [hh]
    exact hend.settled

def abortingPort (k : ℕ) (st : Status) : ℕ → Reply := fun j =>
  if j = k then ⟨st, fun _ => 0, fun _ => .zero, [([0x05, 0x08], 0)]⟩
  else ⟨.ok, fun _ => 0, fun _ => .zero, []⟩

theorem aborted_start_completes_once :
    let w := run plainSetup (abortingPort 0 .ok) 1 [.call .start 0]
    w.m.state = .failed ∧ completes w.history = 1 ∧ completes w.history ≤ okStarts w.history := by
  refine ⟨by decide +kernel, by decide +kernel, ?_⟩
  refine (run_completes_once plainSetup (abortingPort 0 .ok) 1 [.call .start 0]
    (by decide +kernel) ?_).1
  rintro done i rest hd ⟨-, t, rfl, -⟩
  have hm : Input.call .tick t ∈ [Input.call .start 0] := by
    rw [← hd]
    simp
  simp at hm

/-- Three overruns. -/
theorem reentrant_abort_overruns :
    (let w := run plainSetup (abortingPort 1 .ok) 1 [.call .start 0, .pdu [] 1];
      completes w.history = 2 ∧ okStarts w.history = 1) ∧
    (let w := run plainSetup (abortingPort 0 .io) 1 [.call .start 0];
      .stateSet .failed ∈ w.history ∧ w.m.state = .idle ∧ completes w.history = 1 ∧
        okStarts w.history = 0) ∧
    (let w := run plainSetup (uniformPort .io) 1 [.call .start 0, .call .tick 30000000];
      completes w.history = 1 ∧ okStarts w.history = 0) := by
  decide +kernel

end Bluzing.Smp
