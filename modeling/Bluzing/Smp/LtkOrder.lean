import Bluzing.Smp.KeyDistribution

/-! The octet order of the LTK that is reported. -/
namespace Bluzing.Smp

def Event.encryption : Event → Option (Octets 16 × Bool)
  | .startEncryption key _ negotiation => some (key, negotiation.secureConnections)
  | _ => none

def lastEncryption (h : List Event) : Option (Octets 16 × Bool) := h.findSome? Event.encryption

def sinceEncryption (h : List Event) : List Event := since (fun e => e.encryption.isSome) h

inductive PairedLtk (h : List Event) : Bool → Octets 16 → Prop
  | derived {ltk : Octets 16} (key : lastEncryption h = some (ltk, true)) : PairedLtk h true ltk
  | distributed {key ltk : Octets 16} (legacy : lastEncryption h = some (key, false))
      (received : peerPdu .encryptionInformation ltk ∈ sinceEncryption h) : PairedLtk h false ltk

variable {h : List Event} {e : Event}

lemma lastEncryption_cons (he : e.encryption = none) :
    lastEncryption (e :: h) = lastEncryption h := by
  rw [lastEncryption, List.findSome?_cons, he]
  rfl

lemma sinceEncryption_cons (he : e.encryption = none) :
    sinceEncryption (e :: h) = e :: sinceEncryption h :=
  since_cons (by rw [he]; rfl)

lemma PairedLtk.cons {secure : Bool} {ltk : Octets 16} (hltk : PairedLtk h secure ltk)
    (he : e.encryption = none) : PairedLtk (e :: h) secure ltk := by
  cases hltk with
  | derived key => exact .derived (by rwa [lastEncryption_cons he])
  | distributed legacy received =>
    refine .distributed (by rwa [lastEncryption_cons he]) ?_
    rw [sinceEncryption_cons he]
    exact List.mem_cons_of_mem _ received

def HoldsLtk (keys : DistributedKeys) (h : List Event) : Prop :=
  hasKey keys.keyMask keyDistEncKey = true →
    ∃ secure ltk, PairedLtk h secure ltk ∧ keys.ltk = if secure then ltk else ltk.rev

def ReportsLtk (e : Event) (older : List Event) : Prop :=
  ∀ peer loc, e = .keysComplete peer loc → HoldsLtk peer older

def State.unkeyed : State → Bool
  | .waitEncryption | .waitKeyDistribution | .complete | .failed => false
  | _ => true

def State.negotiated : State → Bool
  | .idle | .waitPairingResponse | .complete | .failed => false
  | _ => true

structure LtkKept (w : World) : Prop where
  past : Always ReportsLtk w.history
  holds : HoldsLtk w.m.peerKeys w.history
  unkeyed : w.m.state.unkeyed = true → hasKey w.m.peerKeys.keyMask keyDistEncKey = false
  masked : w.m.state.negotiated = true → w.m.negotiation.secureConnections = true →
    hasKey w.m.negotiation.responderKeyDistribution keyDistEncKey = false
  encrypting : w.m.state = .waitEncryption →
    lastEncryption w.history = some (w.m.stk, w.m.negotiation.secureConnections)
  encrypted : w.m.state = .waitKeyDistribution →
    ∃ key, lastEncryption w.history = some (key, w.m.negotiation.secureConnections)
  received : w.m.state = .waitKeyDistribution → w.m.peerLtkReceived = true →
    PairedLtk w.history false w.m.peerKeys.ltk.rev

def Event.keepsLtk : Event → Bool
  | .startEncryption _ _ _ | .keysComplete _ _ => false
  | _ => true

lemma Event.keepsLtk_encryption {e : Event} (he : e.keepsLtk = true) : e.encryption = none := by
  cases e <;> first | rfl | cases he

lemma Event.keepsLtk_reports {e : Event} (he : e.keepsLtk = true) (older : List Event) :
    ReportsLtk e older := by
  rintro peer loc rfl
  cases he

lemma Event.isNote_keepsLtk {e : Event} (he : e.isNote = true) : e.keepsLtk = true := by
  cases e <;> first | rfl | cases he

abbrev KeepsLtk (w w₁ : World) : Prop := Extends Event.keepsLtk w.history w₁.history

variable {su : Setup} {w w₁ : World} {secure : Bool} {ltk : Octets 16} {keys : DistributedKeys}

lemma KeepsLtk.lastEncryption_eq (h : KeepsLtk w w₁) :
    lastEncryption w₁.history = lastEncryption w.history := by
  unfold KeepsLtk at h
  generalize w₁.history = h₁ at h
  induction h with
  | refl => rfl
  | cons he _ ih => rw [lastEncryption_cons (Event.keepsLtk_encryption he), ih]

lemma PairedLtk.extend (hltk : PairedLtk w.history secure ltk) (h : KeepsLtk w w₁) :
    PairedLtk w₁.history secure ltk := by
  unfold KeepsLtk at h
  generalize w₁.history = h₁ at h
  induction h with
  | refl => exact hltk
  | cons he _ ih => exact ih.cons (Event.keepsLtk_encryption he)

lemma HoldsLtk.extend (hk : HoldsLtk keys w.history) (h : KeepsLtk w w₁) :
    HoldsLtk keys w₁.history := by
  intro hmask
  obtain ⟨secure, ltk, hltk, hkeys⟩ := hk hmask
  exact ⟨secure, ltk, hltk.extend h, hkeys⟩

lemma Scratch.keepsLtk (hs : Scratch w w₁) : KeepsLtk w w₁ := by
  obtain ⟨notes, hh, hn⟩ := hs.history
  unfold KeepsLtk
  rw [hh]
  exact .append fun e he => Event.isNote_keepsLtk (hn e he)

lemma finish_keepsLtk (su : Setup) (w : World) (r : Result) : KeepsLtk w (finish su w r) := by
  unfold finish
  dsimp only
  split
  · exact .cons rfl (.cons rfl .refl)
  · exact .cons rfl .refl

lemma finish_peerKeys (su : Setup) (w : World) (r : Result) :
    (finish su w r).m.peerKeys = w.m.peerKeys := by
  unfold finish
  dsimp only
  split <;> rfl

namespace LtkKept

lemma past_extend (h : LtkKept w) (hx : KeepsLtk w w₁) : Always ReportsLtk w₁.history := by
  obtain ⟨newer, hh, hn⟩ := hx.exists_append
  rw [hh]
  exact h.past.append fun e he => Event.keepsLtk_reports (hn e he)

lemma frame (h : LtkKept w) (hx : KeepsLtk w w₁) (hstate : w₁.m.state = w.m.state)
    (hkeys : w₁.m.peerKeys = w.m.peerKeys ∧ w₁.m.peerLtkReceived = w.m.peerLtkReceived)
    (hneg : w.m.state.negotiated = true → w₁.m.negotiation = w.m.negotiation)
    (hstk : w.m.state = .waitEncryption → w₁.m.stk = w.m.stk) : LtkKept w₁ where
  past := h.past_extend hx
  holds := by
    rw [hkeys.1]
    exact h.holds.extend hx
  unkeyed hs := by
    rw [hkeys.1]
    exact h.unkeyed (by rwa [← hstate])
  masked hs := by
    rw [hstate] at hs
    rw [hneg hs]
    exact h.masked hs
  encrypting hs := by
    rw [hstate] at hs
    rw [hx.lastEncryption_eq, hneg (by rw [hs]; rfl), hstk hs]
    exact h.encrypting hs
  encrypted hs := by
    rw [hstate] at hs
    rw [hx.lastEncryption_eq, hneg (by rw [hs]; rfl)]
    exact h.encrypted hs
  received hs hltk := by
    rw [hstate] at hs
    rw [hkeys.2] at hltk
    rw [hkeys.1]
    exact (h.received hs hltk).extend hx

lemma emit (h : LtkKept w) {e : Event} (he : e.keepsLtk = true) : LtkKept (w.emit e) :=
  h.frame (.cons he .refl) rfl ⟨rfl, rfl⟩ (fun _ => rfl) fun _ => rfl

lemma scratch (h : LtkKept w) (hs : Scratch w w₁) : LtkKept w₁ := by
  refine h.frame hs.keepsLtk hs.state hs.keys ?_ ?_
  · intro hneg
    refine (hs.response ?_).1
    intro hstate
    rw [hstate] at hneg
    cases hneg
  · intro hstate
    refine (hs.macKey ?_ ?_).2 <;> rw [hstate] <;> nofun

lemma finish (h : LtkKept w) (r : Result) : LtkKept (finish su w r) := by
  have hx := finish_keepsLtk su w r
  have hkeys := finish_peerKeys su w r
  have hstate := finish_state su w r
  have hover {P : Prop} (hs : (Smp.finish su w r).m.state ≠ .complete ∧
      (Smp.finish su w r).m.state ≠ .failed) : P := by
    rw [hstate] at hs
    split at hs
    · exact absurd rfl hs.1
    · exact absurd rfl hs.2
  refine ⟨h.past_extend hx, by rw [hkeys]; exact h.holds.extend hx, ?_, ?_, ?_, ?_, ?_⟩
  all_goals
    intro hs
    refine hover ⟨fun hc => ?_, fun hf => ?_⟩
    · rw [hc] at hs
      cases hs
    · rw [hf] at hs
      cases hs

lemma unkeyed_step (h : LtkKept w) (hw : w.m.state.unkeyed = true) (hx : KeepsLtk w w₁)
    (hkeys : w₁.m.peerKeys = w.m.peerKeys) (hstate : w₁.m.state.unkeyed = true)
    (hmask : w₁.m.negotiation.secureConnections = true →
      hasKey w₁.m.negotiation.responderKeyDistribution keyDistEncKey = false) : LtkKept w₁ := by
  have hnone : hasKey w₁.m.peerKeys.keyMask keyDistEncKey = false := by
    rw [hkeys]
    exact h.unkeyed hw
  refine ⟨h.past_extend hx, ?_, fun _ => hnone, fun _ => hmask, ?_, ?_, ?_⟩
  · intro hmask
    rw [hnone] at hmask
    cases hmask
  all_goals
    intro hs
    rw [hs] at hstate
    cases hstate

lemma report (h : LtkKept w) (loc : DistributedKeys) :
    LtkKept (w.emit (.keysComplete w.m.peerKeys loc)) where
  past := by
    refine h.past.cons ?_
    rintro peer loc' ⟨rfl, rfl⟩
    exact h.holds
  holds hmask := by
    obtain ⟨secure, ltk, hltk, hkeys⟩ := h.holds hmask
    exact ⟨secure, ltk, hltk.cons rfl, hkeys⟩
  unkeyed := h.unkeyed
  masked := h.masked
  encrypting := h.encrypting
  encrypted := h.encrypted
  received hs hltk := (h.received hs hltk).cons rfl

lemma distributing (hpast : Always ReportsLtk w.history)
    (hstate : w.m.state = .waitKeyDistribution)
    (hmasked : w.m.negotiation.secureConnections = true →
      hasKey w.m.negotiation.responderKeyDistribution keyDistEncKey = false)
    (hkey : ∃ key, lastEncryption w.history = some (key, w.m.negotiation.secureConnections))
    (hholds : HoldsLtk w.m.peerKeys w.history)
    (hreceived : w.m.peerLtkReceived = true →
      PairedLtk w.history false w.m.peerKeys.ltk.rev) : LtkKept w := by
  refine ⟨hpast, hholds, ?_, fun _ => hmasked, ?_, fun _ => hkey, fun _ => hreceived⟩
  · intro hs
    rw [hstate] at hs
    cases hs
  · intro hs
    cases hstate.symm.trans hs

end LtkKept

variable {port : ℕ → Reply} {send : Send} {w' w₀ : World} {i : Input} {pdu : Bytes} {nowUs : ℕ}

lemma dropEncKey_masked (n : Negotiation) :
    hasKey (dropEncKey n).responderKeyDistribution keyDistEncKey = false := by
  have hcleared : ~~~keyDistEncKey &&& keyDistEncKey = 0 := rfl
  rw [hasKey_eq_false, dropEncKey, UInt8.and_assoc, hcleared, UInt8.and_zero]

lemma TkReady.masked (h : TkReady su w i w₀) (hk : LtkKept w) :
    w₀.m.negotiation.secureConnections = true →
      hasKey w₀.m.negotiation.responderKeyDistribution keyDistEncKey = false := by
  cases h with
  | justWorks hs hn hsc ha =>
    intro hsecure
    exact absurd (hsc.symm.trans hsecure) (by decide)
  | displayed o hs hn hsc ha =>
    intro hsecure
    rw [userAction_m] at hsecure
    exact absurd (hsc.symm.trans hsecure) (by decide)
  | passkey hs | oob hs => exact hk.masked (by rw [hs]; rfl)

lemma State.unkeyed_of_tk {s : State} (h : s = .waitPairingResponse ∨ s = .waitTk) :
    s.unkeyed = true := by
  rcases h with rfl | rfl <;> rfl

lemma Transmits.ltkKept (h : Transmits su w i w₁ pdu) (hk : LtkKept w) : LtkKept w₁ := by
  cases h with
  | confirm ht hc =>
    have hs := ht.scratch
    refine hk.unkeyed_step (State.unkeyed_of_tk ht.state) (hs.keepsLtk.trans ?_) hs.keys.1 rfl
      (ht.masked hk)
    exact .cons rfl (.cons rfl .refl)
  | random hs | publicKey hs | scRandom hs =>
    exact hk.unkeyed_step (by rw [hs]; rfl) (.cons rfl .refl) rfl rfl (hk.masked (by rw [hs]; rfl))
  | dhkeyCheck h2 h5 h6 =>
    obtain ⟨hs, hstate⟩ := h2.scratch
    have hunkeyed : w.m.state.unkeyed = true := by rcases hstate with hs | hs <;> rw [hs] <;> rfl
    have hneg : w.m.state.negotiated = true := by rcases hstate with hs | hs <;> rw [hs] <;> rfl
    have hkept := hk.scratch hs
    refine hk.unkeyed_step hunkeyed (hs.keepsLtk.trans (.cons rfl .refl)) hs.keys.1 rfl ?_
    exact hkept.masked (by rw [hs.state]; exact hneg)

lemma storeKey_ltk {m m' : Manager} {c : Command} (h : storeKey m c = some m') :
    (c.code = .encryptionInformation ∧ c.data = m'.peerKeys.ltk.bytes ∧
      hasKey m.negotiation.responderKeyDistribution keyDistEncKey = true) ∨
    (m'.peerKeys.ltk = m.peerKeys.ltk ∧ m'.peerLtkReceived = m.peerLtkReceived ∧
      (hasKey m'.peerKeys.keyMask keyDistEncKey = true →
        hasKey m.peerKeys.keyMask keyDistEncKey = true ∨ m.peerLtkReceived = true)) := by
  unfold storeKey at h
  dsimp only at h
  split at h
  case h_6 => cases h
  all_goals
    next hcode =>
    split at h
    · cases h
    next hn =>
    split at h
    · cases h
    next v hparsed =>
    cases h
    simp only [not_or, ← hasKey_eq_false, ne_eq, Bool.not_eq_false, Bool.not_eq_true] at hn
    first
      | exact .inl ⟨hcode, parseValue128_ok hparsed, hn.1⟩
      | exact .inr ⟨rfl, rfl, fun hmask => .inl hmask⟩
      | exact .inr ⟨rfl, rfl, fun hmask => .inl (by simpa using hmask)⟩
      | exact .inr ⟨rfl, rfl, fun _ => .inr hn.1⟩

lemma StoresKey.ltkKept {c : Command} {m : Manager}
    (h : StoresKey (w.emit (.received (c.code.octet :: c.data))) c nowUs m) (hk : LtkKept w)
    (hm : w₁.m = m) (hh : w₁.history = .received (c.code.octet :: c.data) :: w.history) :
    LtkKept w₁ := by
  have hs : w.m.state = .waitKeyDistribution := h.state
  have hframe := Manager.storeKey_frame h.stored
  have hneg : w₁.m.negotiation = w.m.negotiation := by rw [hm, hframe]; rfl
  have hstate : w₁.m.state = .waitKeyDistribution := by rw [hm, hframe]; exact hs
  have hemit := hk.emit (e := .received (c.code.octet :: c.data)) rfl
  obtain ⟨key, hkey⟩ := hemit.encrypted hs
  have hmasked := hk.masked (by rw [hs]; rfl)
  have hstored := storeKey_ltk h.stored
  rw [← hm] at hstored
  have hdistributing := LtkKept.distributing (w := w₁) (by rw [hh]; exact hemit.past) hstate
    (by rw [hneg]; exact hmasked) (by rw [hh, hneg]; exact ⟨key, hkey⟩)
  rw [hh] at hdistributing
  obtain ⟨hcode, hdata, hexpected⟩ | ⟨hltk, hreceived, hmask⟩ := hstored
  · -- the LTK itself, which only legacy pairing expects
    have hlegacy : w.m.negotiation.secureConnections = false := by
      cases hsc : w.m.negotiation.secureConnections with
      | false => rfl
      | true => exact absurd (hexpected.symm.trans (hmasked hsc)) (by decide)
    have hpaired : PairedLtk (.received (c.code.octet :: c.data) :: w.history) false
        w₁.m.peerKeys.ltk.rev := by
      have hstarted : lastEncryption (.received (c.code.octet :: c.data) :: w.history) =
          some (key, false) := by
        rw [← hlegacy]
        exact hkey
      refine .distributed hstarted ?_
      rw [sinceEncryption_cons rfl, hcode, hdata, peerPdu, Octets.rev_rev]
      exact List.mem_cons_self
    exact hdistributing (fun _ => ⟨false, _, hpaired, by simp⟩) fun _ => hpaired
  · refine hdistributing ?_ ?_
    · intro hnow
      obtain hbefore | hflag := hmask hnow
      · obtain ⟨secure, ltk, hpaired, hkeys⟩ := hemit.holds hbefore
        exact ⟨secure, ltk, hpaired, hltk.trans hkeys⟩
      · refine ⟨false, _, hemit.received hs hflag, ?_⟩
        simpa using hltk
    · intro hflag
      rw [hltk]
      exact hemit.received hs (hreceived.symm.trans hflag)

lemma initialPeerKeys_holds {m : Manager} {h : List Event}
    (hkey : lastEncryption h = some (m.stk, m.negotiation.secureConnections)) :
    HoldsLtk (initialPeerKeys m) h := by
  unfold initialPeerKeys
  split
  next hsecure =>
    rw [hsecure] at hkey
    exact fun _ => ⟨true, m.stk, .derived hkey, rfl⟩
  · nofun

lemma encrypting_ltkKept (h : LtkKept w) (hw : w.m.state.unkeyed = true)
    (hneg : w.m.state.negotiated = true) (hkeys : w₁.m.peerKeys = w.m.peerKeys)
    (hsame : w₁.m.negotiation = w.m.negotiation) (hh : w₁.history = w.history) :
    LtkKept (encrypting w₁ nowUs) := by
  have hnone : hasKey w₁.m.peerKeys.keyMask keyDistEncKey = false := by
    rw [hkeys]
    exact h.unkeyed hw
  have hpast : Always ReportsLtk w₁.history := by
    rw [hh]
    exact h.past
  have hmasked := h.masked hneg
  rw [← hsame] at hmasked
  refine ⟨Always.cons nofun (Always.cons nofun hpast), ?_, nofun, fun _ => hmasked, fun _ => rfl,
    nofun, nofun⟩
  intro hmask
  exact absurd (hnone.symm.trans hmask) (by decide)

lemma Rests.ltkKept (h : Rests su (w.emit (inputEvent i)) i w₁) (hk : LtkKept w) :
    LtkKept w₁ := by
  have hemit : LtkKept (w.emit (inputEvent i)) := hk.emit (by cases i <;> rfl)
  cases h with
  | @requestTk nowUs response negotiation action hs hn hsc ha =>
    have haccepted := Scratch.accepted hs nowUs response negotiation
    have hasked := Scratch.userAction su action 0
      (w := (accepted (w.emit (.received (responsePdu response))) nowUs response
        negotiation).setState .waitTk)
    refine hemit.unkeyed_step (by rw [hs]; rfl) ?_ ?_ ?_ ?_
    · exact (haccepted.keepsLtk.trans (.cons rfl .refl)).trans hasked.keepsLtk
    · exact hasked.keys.1
    · rw [userAction_m]
      rfl
    · rw [userAction_m]
      intro hsecure
      exact absurd (hsc.symm.trans hsecure) (by decide)
  | @generatePublicKey nowUs response negotiation hs hn hsc ha =>
    exact hemit.unkeyed_step (by rw [hs]; rfl) (.cons rfl (.cons rfl .refl)) rfl rfl
      fun _ => dropEncKey_masked negotiation
  | encryptLegacy hs | encryptSc hs =>
    exact encrypting_ltkKept hemit (by rw [hs]; rfl) (by rw [hs]; rfl) rfl rfl rfl
  | generateDhkey hs | dhkey hs =>
    exact hemit.unkeyed_step (by rw [hs]; rfl) (.cons rfl (.cons rfl .refl)) rfl rfl
      (hemit.masked (by rw [hs]; rfl))
  | @askNumeric nowUs value v hs hf ha =>
    have hasked := Scratch.userAction su .confirmNumeric value
      (w := (((w.emit (inputEvent (.pdu (Code.pairingRandom.octet :: v.bytes) nowUs))).arm
        nowUs).modify fun m => { m with peerRandom := v.rev, numericValue := value }).setState
          .waitNumericConfirmation)
    refine hemit.unkeyed_step (by rw [hs]; rfl) ?_ ?_ ?_ ?_
    · exact Extends.trans (.cons rfl .refl) hasked.keepsLtk
    · exact hasked.keys.1
    · rw [userAction_m]
      rfl
    · rw [userAction_m]
      exact hemit.masked (by rw [hs]; rfl)
  | keysExpected hs hm =>
    have hkey := hemit.encrypting hs
    exact .distributing (Always.cons nofun hemit.past) rfl (hemit.masked (by rw [hs]; rfl))
      ⟨_, hkey⟩ (initialPeerKeys_holds hkey) nofun
  | keyStored hkey hne => exact hkey.ltkKept hk rfl rfl

lemma Distributes.ltkKept (h : Distributes (w.emit (inputEvent i)) i w₁) (hk : LtkKept w) :
    LtkKept w₁ := by
  cases h with
  | @noKeys nowUs hs hm =>
    have hemit := hk.emit (e := .called (.onEncryptionChanged true)) rfl
    have hstate : w.m.state = .waitEncryption := hs
    refine ⟨hemit.past, initialPeerKeys_holds (hemit.encrypting hs), ?_, fun _ => ?_,
      hemit.encrypting, ?_, ?_⟩
    · intro hunkeyed
      have hcase : w.m.state.unkeyed = true := hunkeyed
      rw [hstate] at hcase
      cases hcase
    · exact hk.masked (by rw [hstate]; rfl)
    all_goals
      intro hwait
      cases hstate.symm.trans hwait
  | lastKey hkey he => exact hkey.ltkKept hk rfl rfl

structure LtkStep (w w' : World) : Prop where
  frame : w.m.state ≠ .waitKeyDistribution →
    w'.m.state ≠ .waitKeyDistribution ∧ w'.m.peerKeys = w.m.peerKeys
  kept : LtkKept w → LtkKept w'

namespace LtkStep

lemma refl (w : World) : LtkStep w w := ⟨fun hs => ⟨hs, rfl⟩, id⟩

lemma trans (h : LtkStep w w₁) (h' : LtkStep w₁ w') : LtkStep w w' where
  frame hs := by
    obtain ⟨hs₁, hkeys⟩ := h.frame hs
    obtain ⟨hs', hkeys'⟩ := h'.frame hs₁
    exact ⟨hs', hkeys'.trans hkeys⟩
  kept hk := h'.kept (h.kept hk)

lemma emit {e : Event} (he : e.keepsLtk = true) : LtkStep w (w.emit e) :=
  ⟨fun hs => ⟨hs, rfl⟩, fun hk => hk.emit he⟩

lemma scratch (hs : Scratch w w₁) : LtkStep w w₁ :=
  ⟨fun hne => ⟨by rwa [hs.state], hs.keys.1⟩, fun hk => hk.scratch hs⟩

lemma finish (w : World) (r : Result) : LtkStep w (finish su w r) := by
  refine ⟨fun _ => ⟨?_, finish_peerKeys su w r⟩, fun hk => hk.finish r⟩
  rw [finish_state]
  split <;> nofun

end LtkStep

lemma ltkStep_rules (su : Setup) : SiteRules su LtkStep where
  refl := .refl
  trans := .trans
  sent w _ nowUs :=
    have harm : LtkStep w (w.arm nowUs) := .scratch (.arm nowUs)
    harm.trans (.emit rfl)
  returned _ _ _ _ := .emit rfl
  failed w r _ := .finish w r

lemma finishKeyDistribution_ltkKept (hsend : ∀ w pdu, LtkStep w (send w pdu).1) (w : World)
    (nowUs : ℕ) (hk : LtkKept w) : LtkKept (finishKeyDistribution su port send w nowUs) := by
  have hkeys := ((ltkStep_rules su).sendKeyDistribution hsend .scratch port w nowUs).kept hk
  unfold finishKeyDistribution
  dsimp only
  split
  · split
    · exact (hkeys.report _).finish .ok
    · exact hkeys.finish .ok
  · exact hkeys.finish .errorCrypto

lemma Transmits.ltkStep (h : Transmits su w i w₁ pdu) : LtkStep w w₁ := by
  refine ⟨fun _ => ?_, h.ltkKept⟩
  cases h with
  | confirm ht hc => exact ⟨nofun, ht.scratch.keys.1⟩
  | random | publicKey | scRandom => exact ⟨nofun, rfl⟩
  | dhkeyCheck h2 h5 h6 => exact ⟨nofun, h2.scratch.1.keys.1⟩

lemma Rests.frame {octets : Bytes}
    (h : Rests su (w.emit (.received octets)) (.pdu octets nowUs) w₁)
    (hs : w.m.state ≠ .waitKeyDistribution) :
    w₁.m.state ≠ .waitKeyDistribution ∧ w₁.m.peerKeys = w.m.peerKeys := by
  cases h with
  | requestTk | askNumeric =>
    rw [userAction_m]
    exact ⟨nofun, rfl⟩
  | generatePublicKey | encryptLegacy | generateDhkey | encryptSc => exact ⟨nofun, rfl⟩
  | keyStored hk hne => exact absurd hk.state hs

lemma onPdu_ltkStep (hsend : ∀ w pdu, LtkStep w (send w pdu).1) (w : World)
    (octets : Bytes) (nowUs : ℕ) : LtkStep w (onPdu su port send w octets nowUs) := by
  by_cases hw : w.m.state.waiting = true
  · have hr : Reacts su port send (entry w (.pdu octets nowUs)) (.pdu octets nowUs) _ :=
      onPdu_reacts
    rw [entry, if_pos hw] at hr
    have hentry : LtkStep w (w.emit (.received octets)) := .emit rfl
    generalize onPdu su port send w octets nowUs = w' at hr
    cases hr with
    | unchanged => exact hentry
    | startRejected => exact hentry.trans (.emit rfl)
    | starts hi | expires hi => cases hi
    | fails _ hs _ _ =>
      have hsent := (ltkStep_rules su).sendPdu hsend
      exact ((hentry.trans (.scratch hs)).trans (hsent _ _ _)).trans (.finish _ _)
    | ends _ hs _ => exact (hentry.trans (.scratch hs)).trans (.finish _ _)
    | transmits ht => exact hentry.trans ((ltkStep_rules su).transmitted hsend ht.ltkStep)
    | rests hr => exact ⟨hr.frame, Rests.ltkKept (i := .pdu octets nowUs) hr⟩
    | breaks hr _ =>
      exact LtkStep.trans ⟨hr.frame, Rests.ltkKept (i := .pdu octets nowUs) hr⟩ (.finish _ _)
    | distributes hd =>
      refine ⟨fun hs => ?_, fun hk => finishKeyDistribution_ltkKept hsend _ _
        (Distributes.ltkKept (i := .pdu octets nowUs) hd hk)⟩
      cases hd with
      | lastKey hk _ => exact absurd hk.state hs
  · rw [onPdu_ignored hw]
    exact .emit rfl

lemma sendAt_ltkStep (n : ℕ) (w : World) (pdu : Bytes) :
    LtkStep w (sendAt su port n w pdu).1 :=
  Reentrant.port_rel LtkStep.refl LtkStep.trans (fun w => .scratch (w := w) .answered)
    (fun _ hsend w d => onPdu_ltkStep hsend w d.1 d.2) n w pdu

lemma reportsLtk_started (h : List Event) : ReportsLtk .started h := nofun

lemma reportsLtk_stateSet (s : State) (h : List Event) : ReportsLtk (.stateSet s) h := nofun

lemma reportsLtk_startReturned (st : Status) (h : List Event) :
    ReportsLtk (.startReturned st) h := nofun

lemma LtkKept.of_none (hpast : Always ReportsLtk w.history)
    (hnone : hasKey w.m.peerKeys.keyMask keyDistEncKey = false)
    (hstate : w.m.state = .idle ∨ w.m.state = .waitPairingResponse) : LtkKept w where
  past := hpast
  holds hmask := absurd (hnone.symm.trans hmask) (by decide)
  unkeyed _ := hnone
  masked h := by rcases hstate with hs | hs <;> cases hs ▸ h
  encrypting h := by rcases hstate with hs | hs <;> cases hs ▸ h
  encrypted h := by rcases hstate with hs | hs <;> cases hs ▸ h
  received h := by rcases hstate with hs | hs <;> cases hs ▸ h

lemma start_ltkKept (hsend : ∀ w pdu, LtkStep w (send w pdu).1) (hk : LtkKept w)
    (hst : startable su w.m = true) : LtkKept (start su send w nowUs).1 := by
  have hidle : w.m.state = .idle := by
    simp only [startable, Bool.and_eq_true, beq_iff_eq] at hst
    exact hst.1.2
  have hnone := hk.unkeyed (by rw [hidle]; rfl)
  have hbegin : LtkKept (begun su w) :=
    .of_none (Always.cons (reportsLtk_stateSet _ _)
      (Always.cons (reportsLtk_started _) hk.past)) hnone (.inr rfl)
  have hstep := (ltkStep_rules su).sendPdu hsend (begun su w) (requestPdu su.config.features) nowUs
  have hsent := hstep.kept hbegin
  rw [start_eq, if_pos hst]
  dsimp only
  split
  · exact hsent.emit rfl
  · have hkeys := (hstep.frame (by intro h; cases h)).2
    have hnone' : hasKey (sendPdu send (begun su w) (requestPdu su.config.features)
        nowUs).1.m.peerKeys.keyMask keyDistEncKey = false := by
      rw [hkeys]
      exact hnone
    exact .of_none (Always.cons (reportsLtk_startReturned _ _)
      (Always.cons (reportsLtk_stateSet _ _) hsent.past)) hnone' (.inl rfl)

lemma apply_ltkKept (n : ℕ) (hk : LtkKept w) (i : Input) :
    LtkKept (apply su port (sendAt su port n) w i) := by
  have hsend : ∀ w pdu, LtkStep w (sendAt su port n w pdu).1 := sendAt_ltkStep n
  cases i with
  | pdu octets nowUs => exact (onPdu_ltkStep hsend w octets nowUs).kept hk
  | call c nowUs =>
    have hr : Reacts su port (sendAt su port n) (w.emit (.called c)) (.call c nowUs) _ :=
      applyCall_reacts c
    have hentry : LtkKept (w.emit (.called c)) := hk.emit rfl
    change LtkKept (applyCall su port (sendAt su port n) (w.emit (.called c)) c nowUs)
    generalize applyCall su port (sendAt su port n) (w.emit (.called c)) c nowUs = w' at hr
    cases hr with
    | unchanged => exact hentry
    | startRejected => exact hentry.emit rfl
    | starts hi hs => exact start_ltkKept hsend hentry hs
    | expires => exact hentry.finish _
    | fails _ hs _ _ =>
      exact (((ltkStep_rules su).sendPdu hsend _ _ _).kept (hentry.scratch hs)).finish _
    | ends _ hs _ => exact (hentry.scratch hs).finish _
    | transmits ht => exact ((ltkStep_rules su).transmitted hsend ht.ltkStep).kept hentry
    | rests hr => exact Rests.ltkKept (i := .call c nowUs) hr hk
    | breaks hr _ => exact (Rests.ltkKept (i := .call c nowUs) hr hk).finish _
    | distributes hd =>
      exact finishKeyDistribution_ltkKept hsend _ _
        (Distributes.ltkKept (i := .call c nowUs) hd hk)

lemma run_ltkKept (su : Setup) (port : ℕ → Reply) (n : ℕ) (inputs : List Input) :
    LtkKept (run su port n inputs) := by
  have hinit : LtkKept World.init :=
    ⟨always_nil, nofun, fun _ => rfl, nofun, nofun, nofun, nofun⟩
  unfold run runFrom
  exact foldl_invariant (fun w i (hk : LtkKept w) => apply_ltkKept n hk i) inputs hinit

/-- In every run, at every nesting depth: an LTK that is reported is the one of the pairing, and it
is reported most significant octet first exactly if Secure Connections derived it, and least
significant octet first exactly if it was distributed. -/
theorem run_reportedLtk_iff (su : Setup) (port : ℕ → Reply) (n : ℕ) (inputs : List Input) :
    Always (fun e older => ∀ peer loc, e = .keysComplete peer loc →
      hasKey peer.keyMask keyDistEncKey = true →
        ∃ secure ltk, PairedLtk older secure ltk ∧
          (peer.ltk = ltk ↔ secure = true ∨ ltk.rev = ltk) ∧
          (peer.ltk = ltk.rev ↔ secure = false ∨ ltk.rev = ltk))
      (run su port n inputs).history := by
  intro newer e older hh peer loc he hmask
  obtain ⟨secure, ltk, hpaired, hltk⟩ := (run_ltkKept su port n inputs).past newer e older hh
    peer loc he hmask
  refine ⟨secure, ltk, hpaired, ?_, ?_⟩ <;> rw [hltk] <;> cases secure <;> simp [eq_comm]

/-! A legacy pairing in which the peer distributes an LTK, and a Secure Connections pairing that
derives one. -/

def legacyKeySetup : Setup :=
  { plainSetup with
    aes := some fun _ _ => .ok (.zero 16)
    config := ⟨⟨0x03, 0, 0x01, 16, 0, 0x01⟩, 0, 0, .zero 6, .zero 6⟩ }

def legacyLtk : Octets 16 := ⟨1 :: List.replicate 15 0, rfl⟩

def legacyKeyInputs : List Input :=
  [.call .start 0, .pdu [0x02, 0x03, 0, 0x01, 16, 0, 0x01] 1,
    .pdu (0x03 :: List.replicate 16 0) 2, .pdu (0x04 :: List.replicate 16 0) 3,
    .call (.onEncryptionChanged true) 4, .pdu (0x06 :: legacyLtk.rev.bytes) 5,
    .pdu (0x07 :: List.replicate 10 0) 6]

def legacyKeyRun : World := run legacyKeySetup supplyingPort 0 legacyKeyInputs

def secureKeyRun : World :=
  run (maskSetup 0) supplyingPort 0 (maskInputs 0 ++ [.call (.onEncryptionChanged true) 8])

def reportedLtk (w : World) : Option (Octets 16) :=
  match w.history with
  | .complete .ok _ :: .stateSet .complete :: .keysComplete peer _ :: _ =>
      if hasKey peer.keyMask keyDistEncKey then some peer.ltk else none
  | _ => none

theorem no_common_ltk_order :
    reportedLtk legacyKeyRun = some legacyLtk.rev ∧ reportedLtk secureKeyRun = some f5Salt ∧
      PairedLtk (legacyKeyRun.history.drop 3) false legacyLtk ∧
      PairedLtk (secureKeyRun.history.drop 3) true f5Salt ∧
      ∀ order : Fin 16 → Fin 16,
        ¬ ((∀ i, legacyLtk.rev.bytes[i]? = legacyLtk.bytes[order i]?) ∧
          ∀ i, f5Salt.bytes[i]? = f5Salt.bytes[order i]?) := by
  refine ⟨by decide +kernel, by decide +kernel, ?_, .derived (by decide +kernel), ?_⟩
  · have hkey : lastEncryption (legacyKeyRun.history.drop 3) = some (.zero 16, false) := by
      decide +kernel
    exact .distributed hkey (by decide +kernel)
  · rintro order ⟨hlegacy, hsecure⟩
    have hfirst : ∀ k : Fin 16, legacyLtk.rev.bytes[15]? = legacyLtk.bytes[k]? → k = 0 := by decide
    have hlast : order 15 = 0 := hfirst _ (hlegacy 15)
    have hsame := hsecure 15
    rw [hlast] at hsame
    exact absurd hsame (by decide)

end Bluzing.Smp
