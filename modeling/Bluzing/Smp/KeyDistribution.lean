import Bluzing.Core.Codec
import Bluzing.Smp.KeyOrder
import Bluzing.Smp.Success
import Bluzing.Smp.VerifiedRuns
import Bluzing.Smp.Agreement

/-! Key distribution against a responder that sends exactly the keys the negotiated mask calls for,
with a port that supplies the local keys. -/
namespace Bluzing.Smp
open List

def keyPdu (k : DistributedKeys) : Code → Bytes
  | .encryptionInformation => Code.encryptionInformation.octet :: k.ltk.bytes
  | .centralIdentification =>
      Code.centralIdentification.octet :: (k.rand.bytes ++ writeLe16 k.ediv)
  | .identityInformation => Code.identityInformation.octet :: k.irk.bytes
  | .identityAddressInformation =>
      Code.identityAddressInformation.octet :: k.identityAddressType :: k.identityAddress.bytes
  | .signingInformation => Code.signingInformation.octet :: k.csrk.bytes
  | _ => []

def receivedKeys (initial k : DistributedKeys) (mask : UInt8) : DistributedKeys where
  keyMask := initial.keyMask ||| (if hasKey mask keyDistEncKey then keyDistEncKey else 0) |||
    (if hasKey mask keyDistIdKey then keyDistIdKey else 0) |||
    (if hasKey mask keyDistSignKey then keyDistSignKey else 0)
  ltk := if hasKey mask keyDistEncKey then k.ltk else initial.ltk
  rand := if hasKey mask keyDistEncKey then k.rand else initial.rand
  ediv := if hasKey mask keyDistEncKey then k.ediv else initial.ediv
  irk := if hasKey mask keyDistIdKey then k.irk else initial.irk
  identityAddressType :=
    if hasKey mask keyDistIdKey then k.identityAddressType else initial.identityAddressType
  identityAddress := if hasKey mask keyDistIdKey then k.identityAddress else initial.identityAddress
  csrk := if hasKey mask keyDistSignKey then k.csrk else initial.csrk

structure Supplies (reply : Reply) : Prop where
  ok : reply.status = .ok
  deliveries : reply.deliveries = []
  keys : ∀ mask, ((reply.keys mask).keyMask &&& mask) = mask
  address : ∀ mask, ¬ (reply.keys mask).identityAddressType > 1

def Event.keysArg : Event → Option (DistributedKeys × DistributedKeys)
  | .keysComplete peer loc => some (peer, loc)
  | _ => none

def Event.resultArg : Event → Option Result
  | .complete result _ => some result
  | _ => none

def Event.silent (e : Event) : Bool := e.keysArg.isNone && e.resultArg.isNone

structure Serves (su : Setup) (port : ℕ → Reply) (calls : ℕ) : Prop where
  getLocalKeys : su.ops.getLocalKeys = true
  keysComplete : su.ops.keysComplete = true
  complete : su.ops.complete = true
  supplies : ∀ j ≥ calls, Supplies (port j)

/-- The pairing ends here: `keys_complete` is called once, with these keys of the peer, and
`complete` once, with success. -/
def Completes (w w' : World) (peer : DistributedKeys) : Prop :=
  w'.m.state = .complete ∧ ∃ newer loc, w'.history = newer ++ w.history ∧
    newer.filterMap Event.keysArg = [(peer, loc)] ∧ newer.filterMap Event.resultArg = [.ok]

def takeKey (k keys : DistributedKeys) : Code → DistributedKeys
  | .encryptionInformation => { keys with ltk := k.ltk }
  | .centralIdentification =>
      { keys with rand := k.rand, ediv := k.ediv, keyMask := keys.keyMask ||| keyDistEncKey }
  | .identityInformation => { keys with irk := k.irk }
  | .identityAddressInformation =>
      { keys with
        identityAddressType := k.identityAddressType, identityAddress := k.identityAddress
        keyMask := keys.keyMask ||| keyDistIdKey }
  | .signingInformation => { keys with csrk := k.csrk, keyMask := keys.keyMask ||| keyDistSignKey }
  | _ => keys

lemma foldl_takeKey (initial k : DistributedKeys) (mask : UInt8) :
    (keyFlow mask).foldl (takeKey k) initial = receivedKeys initial k mask := by
  unfold keyFlow receivedKeys
  cases hasKey mask keyDistEncKey <;> cases hasKey mask keyDistIdKey <;>
    cases hasKey mask keyDistSignKey <;> simp [takeKey]

inductive Awaits (m : Manager) : Code → Prop
  | ltk (he : m.missing keyDistEncKey = true) (hl : m.peerLtkReceived = false) :
      Awaits m .encryptionInformation
  | central (he : m.missing keyDistEncKey = true) (hl : m.peerLtkReceived = true) :
      Awaits m .centralIdentification
  | irk (he : m.missing keyDistEncKey = false) (hi : m.missing keyDistIdKey = true)
      (hl : m.peerIrkReceived = false) : Awaits m .identityInformation
  | identity (he : m.missing keyDistEncKey = false) (hi : m.missing keyDistIdKey = true)
      (hl : m.peerIrkReceived = true) : Awaits m .identityAddressInformation
  | csrk (he : m.missing keyDistEncKey = false) (hi : m.missing keyDistIdKey = false)
      (hs : m.missing keyDistSignKey = true) : Awaits m .signingInformation

lemma parseCentralIdentification_keys (rand : Octets 8) (ediv : UInt16) :
    parseCentralIdentification ⟨.centralIdentification, rand.bytes ++ writeLe16 ediv⟩ =
      .ok ⟨rand, ediv⟩ := by
  have hl := rand.length_eq
  have hr := readLe16_writeLe16 ediv
  simp [parseCentralIdentification, hl, writeLe16, hr]

lemma parseIdentityAddress_keys {addressType : UInt8} (ht : ¬ addressType > 1)
    (address : Octets 6) :
    parseIdentityAddress ⟨.identityAddressInformation, addressType :: address.bytes⟩ =
      .ok ⟨addressType, address⟩ := by
  simp [parseIdentityAddress, ht]

variable {m : Manager} {c : Code} {rest : List Code} {k : DistributedKeys}

lemma awaits_of_remainingKeys (hr : m.remainingKeys = c :: rest) : Awaits m c := by
  have hhead := congrArg head? hr
  unfold Manager.remainingKeys at hhead
  cases he : m.missing keyDistEncKey
  · cases hi : m.missing keyDistIdKey
    · cases hs : m.missing keyDistSignKey
      · simp [he, hi, hs] at hhead
      · obtain rfl : Code.signingInformation = c := by simpa [he, hi, hs] using hhead
        exact .csrk he hi hs
    · cases hl : m.peerIrkReceived
      · obtain rfl : Code.identityInformation = c := by simpa [he, hi, hl] using hhead
        exact .irk he hi hl
      · obtain rfl : Code.identityAddressInformation = c := by simpa [he, hi, hl] using hhead
        exact .identity he hi hl
  · cases hl : m.peerLtkReceived
    · obtain rfl : Code.encryptionInformation = c := by simpa [he, hl] using hhead
      exact .ltk he hl
    · obtain rfl : Code.centralIdentification = c := by simpa [he, hl] using hhead
      exact .central he hl

namespace Awaits

lemma inOrder (h : Awaits m c) : outOfOrder m c = false := by
  rw [Manager.outOfOrder_eq]
  cases h <;> simp [*]

lemma wellFormed (h : Awaits m c) (ht : ¬ k.identityAddressType > 1) :
    keyPdu k c = c.octet :: (keyPdu k c).tail ∧ (keyPdu k c).tail.length = c.dataLen ∧
      fieldsValid c (keyPdu k c).tail = true := by
  cases h <;> refine ⟨rfl, ?_, ?_⟩ <;>
    simp [keyPdu, fieldsValid, Code.dataLen, writeLe16, ht]

lemma stores (h : Awaits m c) (ht : ¬ k.identityAddressType > 1) :
    ∃ m', storeKey m ⟨c, (keyPdu k c).tail⟩ = some m' ∧
      m'.peerKeys = takeKey k m.peerKeys c := by
  have hmissing {key : UInt8} (hk : m.missing key = true) :
      ¬ m.negotiation.responderKeyDistribution &&& key = 0 ∧
        m.peerKeysCompleteMask &&& key = 0 := by simpa [Manager.missing, hasKey] using hk
  cases h with
  | ltk he hl =>
    simp [storeKey, (hmissing he).1, hl, keyPdu, takeKey,
      parseValue128_value .encryptionInformation rfl k.ltk]
  | central he hl =>
    simp [storeKey, (hmissing he).2, hl, keyPdu, takeKey, parseCentralIdentification_keys]
  | irk he hi hl =>
    simp [storeKey, (hmissing hi).1, hl, keyPdu, takeKey,
      parseValue128_value .identityInformation rfl k.irk]
  | identity he hi hl =>
    simp [storeKey, (hmissing hi).2, hl, keyPdu, takeKey, parseIdentityAddress_keys ht]
  | csrk he hi hs =>
    simp [storeKey, (hmissing hs).1, (hmissing hs).2, keyPdu, takeKey,
      parseValue128_value .signingInformation rfl k.csrk]

end Awaits

lemma filterMap_silent {newer : List Event} (h : ∀ e ∈ newer, e.silent = true) :
    newer.filterMap Event.keysArg = [] ∧ newer.filterMap Event.resultArg = [] := by
  simp only [Event.silent, Bool.and_eq_true, Option.isNone_iff_eq_none] at h
  exact ⟨filterMap_eq_nil_iff.mpr fun e he => (h e he).1,
    filterMap_eq_nil_iff.mpr fun e he => (h e he).2⟩

lemma Completes.of_silent {w₀ w w' : World} {peer : DistributedKeys} (h : Completes w w' peer)
    (hx : Extends Event.silent w₀.history w.history) : Completes w₀ w' peer := by
  obtain ⟨hstate, newer, loc, hh, hkeys, hresult⟩ := h
  obtain ⟨before, hb, hs⟩ := hx.exists_append
  obtain ⟨hk, hr⟩ := filterMap_silent hs
  refine ⟨hstate, newer ++ before, loc, by rw [hh, hb, append_assoc], ?_, ?_⟩
  · rw [filterMap_append, hkeys, hk, append_nil]
  · rw [filterMap_append, hresult, hr, append_nil]

lemma localKeyPdus_encoded (mask : UInt8) {keys : DistributedKeys}
    (ht : ¬ keys.identityAddressType > 1) {pdu : Except Status Writer}
    (hp : pdu ∈ localKeyPdus mask keys) : ∃ wr, pdu = .ok wr := by
  have hvalue {code : Code} (hc : isValue128 code = true) (v : Octets 16) :=
    (encodeValue128_eq hc v).imp fun _ h => h.1
  unfold localKeyPdus at hp
  simp only [mem_append, mem_ite_nil_right, mem_cons, not_mem_nil,
    or_false] at hp
  obtain (⟨-, rfl | rfl⟩ | ⟨-, rfl | rfl⟩) | ⟨-, rfl⟩ := hp
  · exact hvalue rfl _
  · exact (encodeCentralIdentification_eq _ _).imp fun _ h => h.1
  · exact hvalue rfl _
  · exact (encodeIdentityAddress_eq ht _).imp fun _ h => h.1
  · exact hvalue rfl _

structure Works (w w' : World) : Prop where
  peerKeys : w'.m.peerKeys = w.m.peerKeys
  calls : w.calls ≤ w'.calls
  silent : Extends Event.silent w.history w'.history

lemma Works.trans {w w₁ w₂ : World} (h : Works w w₁) (h' : Works w₁ w₂) : Works w w₂ :=
  ⟨h'.peerKeys.trans h.peerKeys, h.calls.trans h'.calls, h.silent.trans h'.silent⟩

variable {su : Setup} {port : ℕ → Reply} {w : World} {n nowUs : ℕ}

lemma sendPdu_supplied (hs : Supplies (port w.calls)) (pdu : Bytes) :
    sendPdu (sendAt su port n) w pdu nowUs = (sentOk w pdu nowUs, .ok) := by
  have hd : (port ((w.arm nowUs).emit (.sent pdu)).calls).deliveries = [] := hs.deliveries
  rw [sendPdu, sendAt_quiet su port hd]
  simp [sentOk, hs.ok]

lemma sendKeyPdus_supplied {pdus : List (Except Status Writer)}
    (hp : ∀ p ∈ pdus, ∃ wr, p = .ok wr) (hs : ∀ j ≥ w.calls, Supplies (port j)) :
    ∃ w', sendKeyPdus (sendAt su port n) w nowUs pdus = (w', true) ∧ Works w w' := by
  induction pdus generalizing w with
  | nil => exact ⟨w, rfl, rfl, le_rfl, .refl⟩
  | cons p rest ih =>
    obtain ⟨wr, rfl⟩ := hp p mem_cons_self
    have hfirst : encodeAndSend (sendAt su port n) w (.ok wr) nowUs =
        (sentOk w wr.data nowUs, .ok) := sendPdu_supplied (hs _ le_rfl) wr.data
    obtain ⟨w', hrest, hworks⟩ := ih (w := sentOk w wr.data nowUs)
      (fun p h => hp p (mem_cons_of_mem _ h)) fun j hj => hs j (by simp at hj; omega)
    have hsent : Works w (sentOk w wr.data nowUs) :=
      ⟨rfl, Nat.le_succ _, .cons rfl (.cons rfl .refl)⟩
    refine ⟨w', ?_, hsent.trans hworks⟩
    rw [sendKeyPdus, hfirst]
    exact hrest

lemma fetchLocalKeys_supplied (hs : Serves su port w.calls) (mask : UInt8) :
    ∃ w', fetchLocalKeys su port w mask = (w', true) ∧ Works w w' ∧
      ¬ w'.m.localKeys.identityAddressType > 1 := by
  have hport := hs.supplies w.calls le_rfl
  unfold fetchLocalKeys
  dsimp only
  split
  · exact ⟨_, rfl, ⟨rfl, le_rfl, .refl⟩, (by decide : ¬ (0 : UInt8) > 1)⟩
  · rw [if_neg (by simp [hs.getLocalKeys]), if_neg (by simp [hport.ok])]
    refine ⟨_, Prod.ext rfl ?_, ⟨rfl, Nat.le_succ _, .cons rfl .refl⟩, hport.address mask⟩
    exact decide_eq_true (hport.keys mask)

lemma finishKeyDistribution_supplied (hs : Serves su port w.calls) :
    Completes w (finishKeyDistribution su port (sendAt su port n) w nowUs) w.m.peerKeys := by
  obtain ⟨w₁, hfetch, hworks, ht⟩ :=
    fetchLocalKeys_supplied hs w.m.negotiation.initiatorKeyDistribution
  obtain ⟨w₂, hsend, hworks'⟩ : ∃ w₂, sendKeyPdus (sendAt su port n) w₁ nowUs
      (localKeyPdus w.m.negotiation.initiatorKeyDistribution w₁.m.localKeys) = (w₂, true) ∧
        Works w₁ w₂ :=
    sendKeyPdus_supplied (fun _ hp => localKeyPdus_encoded _ ht hp)
      fun j hj => hs.supplies j (hworks.calls.trans hj)
  have hall := hworks.trans hworks'
  have hdist : sendKeyDistribution su port (sendAt su port n) w nowUs = (w₂, true) := by
    rw [sendKeyDistribution, hfetch]
    exact hsend
  obtain ⟨newer, hnewer, hsilent⟩ := hall.silent.exists_append
  obtain ⟨hkeys, hresult⟩ := filterMap_silent hsilent
  rw [finishKeyDistribution, hdist]
  simp only [↓reduceIte, hs.keysComplete, finish, hs.complete]
  refine ⟨rfl, .complete .ok w₂.m.negotiation :: .stateSet .complete ::
    .keysComplete w.m.peerKeys w₂.m.localKeys :: newer, w₂.m.localKeys, ?_, ?_, ?_⟩
  · simp [hnewer, hall.peerKeys]
  · exact congrArg ((w.m.peerKeys, w₂.m.localKeys) :: ·) hkeys
  · exact congrArg (Result.ok :: ·) hresult

structure Distributing (w : World) : Prop where
  state : w.m.state = .waitKeyDistribution
  ordered : w.m.KeysOrdered
  valid : w.m.negotiation.responderKeyDistribution &&& ~~~keyDistValidMask = 0
  incomplete : ¬ (w.m.peerKeysCompleteMask &&& w.m.negotiation.responderKeyDistribution) =
    w.m.negotiation.responderKeyDistribution

section

variable (su : Setup) (port : ℕ → Reply) {w : World} {n : ℕ} {k : DistributedKeys} {c : Code}
  {rest : List Code}

variable (send : Send)

lemma handleDistributedKey_stored {c : Command} {m : Manager} (nowUs : ℕ)
    (hs : w.m.state = .waitKeyDistribution) (ho : outOfOrder w.m c.code = false)
    (hm : storeKey w.m c = some m) :
    handleDistributedKey su port send w c nowUs =
      if (m.peerKeysCompleteMask &&& m.negotiation.responderKeyDistribution) =
          m.negotiation.responderKeyDistribution then
        finishKeyDistribution su port send { w with m } nowUs
      else { w with m } := by
  rw [handleDistributedKey, if_neg (by simp [hs, ho]), hm]

lemma onPdu_key (hw : Distributing w) (hr : w.m.remainingKeys = c :: rest)
    (ht : ¬ k.identityAddressType > 1) (nowUs : ℕ) :
    ∃ w', w'.calls = w.calls ∧ Extends Event.silent w.history w'.history ∧
      w'.m.negotiation = w.m.negotiation ∧ w'.m.peerKeys = takeKey k w.m.peerKeys c ∧
      w'.m.remainingKeys = rest ∧
      ((rest = [] ∧ hasKey w.m.negotiation.responderKeyDistribution keyDistLinkKey = false ∧
          onPdu su port send w (keyPdu k c) nowUs =
            finishKeyDistribution su port send w' nowUs) ∨
        onPdu su port send w (keyPdu k c) nowUs = w' ∧ Distributing w') := by
  have hr₁ : ((w.emit (.received (keyPdu k c))).arm nowUs).m.remainingKeys = c :: rest := hr
  have hs₁ : ((w.emit (.received (keyPdu k c))).arm nowUs).m.state = .waitKeyDistribution :=
    hw.state
  have ha := awaits_of_remainingKeys hr₁
  have ho : ((w.emit (.received (keyPdu k c))).arm nowUs).m.KeysOrdered :=
    ⟨hw.ordered.ltk, hw.ordered.central, hw.ordered.irk, hw.ordered.identity, hw.ordered.link⟩
  obtain ⟨hpdu, hlen, hvalid⟩ := ha.wellFormed ht
  obtain ⟨m, hstored, hpeer⟩ := ha.stores ht
  obtain ⟨hnext, hordered⟩ := ho.stored ha.inOrder (Manager.storeKey_stored hstored)
  have hframe := Manager.storeKey_frame hstored
  have hneg : m.negotiation = w.m.negotiation := by rw [hframe]; rfl
  have hstate : m.state = .waitKeyDistribution := by rw [hframe]; exact hw.state
  have hrest := (cons.inj (hnext.symm.trans hr₁)).2
  have hcovers := hordered.covers_iff (by rw [hneg]; exact hw.valid)
  refine ⟨{ (w.emit (.received (keyPdu k c))).arm nowUs with m }, rfl, .cons rfl .refl, hneg,
    hpeer, hrest, ?_⟩
  have hhandle : onPdu su port send w (keyPdu k c) nowUs =
      handleDistributedKey su port send ((w.emit (.received (keyPdu k c))).arm nowUs)
        ⟨c, (keyPdu k c).tail⟩ nowUs := by
    have hwait : w.m.state.waiting = true := by rw [hw.state]; rfl
    have hd : onPdu su port send w (c.octet :: (keyPdu k c).tail) nowUs = _ :=
      onPdu_dispatch send ⟨c, (keyPdu k c).tail⟩ nowUs hwait hlen hvalid
    rw [← hpdu] at hd
    rw [hd]
    cases ha <;> rfl
  rw [hhandle, handleDistributedKey_stored su port send nowUs hs₁ ha.inOrder hstored]
  split
  next hc =>
    obtain ⟨hnil, hlink⟩ := hcovers.mp hc
    rw [hneg] at hlink
    exact .inl ⟨hrest.symm.trans hnil, hlink, rfl⟩
  next hc => exact .inr ⟨rfl, hstate, hordered, by rw [hneg]; exact hw.valid, hc⟩

variable {su port}

lemma runFrom_keys {w₀ : World} (hs : Serves su port w.calls) (hw : Distributing w)
    (hx : Extends Event.silent w₀.history w.history) (ht : ¬ k.identityAddressType > 1)
    {deliveries : List (Bytes × ℕ)}
    (hd : deliveries.map Prod.fst = w.m.remainingKeys.map (keyPdu k)) :
    Completes w₀ (runFrom su port n w (deliveries.map fun d => .pdu d.1 d.2))
        (w.m.remainingKeys.foldl (takeKey k) w.m.peerKeys) ↔
      hasKey w.m.negotiation.responderKeyDistribution keyDistLinkKey = false := by
  induction deliveries generalizing w with
  | nil =>
    -- Nothing is missing, so only LinkKey can have kept the distribution open.
    have hnil : w.m.remainingKeys = [] := by simpa using hd.symm
    have hlink := fun hl =>
      hw.incomplete ((hw.ordered.covers_iff hw.valid).mpr ⟨hnil, hl⟩)
    refine ⟨fun hc => ?_, fun hl => absurd hl hlink⟩
    have hstate : w.m.state = .complete := hc.1
    rw [hw.state] at hstate
    cases hstate
  | cons d ds ih =>
    cases hr : w.m.remainingKeys with
    | nil => simp [hr] at hd
    | cons c rest =>
      rw [hr, map_cons, map_cons, cons.injEq] at hd
      obtain ⟨hfirst, hothers⟩ := hd
      obtain ⟨w', hcalls, hsilent, hneg, hpeer, hrest, hstep⟩ :=
        onPdu_key su port (sendAt su port n) hw hr ht d.2
      have hs' : Serves su port w'.calls := by rw [hcalls]; exact hs
      rw [← hfirst] at hstep
      rw [foldl_cons, ← hpeer]
      obtain ⟨rfl, hlink, hlast⟩ | ⟨hnext, hw'⟩ := hstep
      · obtain rfl : ds = [] := by simpa using hothers
        have hrun : runFrom su port n w ([d].map fun d => .pdu d.1 d.2) =
            finishKeyDistribution su port (sendAt su port n) w' d.2 := hlast
        rw [hrun]
        exact ⟨fun _ => hlink, fun _ =>
          (finishKeyDistribution_supplied hs').of_silent (hx.trans hsilent)⟩
      · have hrun : runFrom su port n w ((d :: ds).map fun d => .pdu d.1 d.2) =
            runFrom su port n w' (ds.map fun d => .pdu d.1 d.2) :=
          congrArg (runFrom su port n · _) hnext
        rw [hrun, ← hrest, ← hneg]
        exact ih hs' hw' (hx.trans hsilent) (by rw [hrest]; exact hothers)

def keysExpected (w : World) (nowUs : ℕ) : World :=
  ((keysPending (w.emit (.called (.onEncryptionChanged true)))).setState .waitKeyDistribution).arm
    nowUs

lemma keysExpected_distributing (nowUs : ℕ)
    (hv : w.m.negotiation.responderKeyDistribution &&& ~~~keyDistValidMask = 0)
    (hne : w.m.negotiation.responderKeyDistribution ≠ 0) :
    Distributing (keysExpected w nowUs) ∧ (keysExpected w nowUs).m.remainingKeys =
      keyFlow w.m.negotiation.responderKeyDistribution := by
  obtain ⟨hordered, hrem⟩ : (keysExpected w nowUs).m.KeysOrdered ∧ _ :=
    Manager.keys_fresh rfl rfl rfl
  refine ⟨⟨rfl, hordered, hv, fun h => hne ?_⟩, hrem⟩
  have hzero : 0 &&& w.m.negotiation.responderKeyDistribution =
    w.m.negotiation.responderKeyDistribution := h
  rw [← hzero, UInt8.zero_and]

lemma apply_encrypted (nowUs : ℕ) (hs : w.m.state = .waitEncryption) :
    apply su port send w (.call (.onEncryptionChanged true) nowUs) =
      if w.m.negotiation.responderKeyDistribution = 0 then
        finishKeyDistribution su port send
          (keysPending (w.emit (.called (.onEncryptionChanged true)))) nowUs
      else keysExpected w nowUs := by
  simp only [apply, applyCall, onEncryptionChanged, World.emit_m, hs, ne_eq, not_true_eq_false,
    ↓reduceIte, Bool.not_true, Bool.false_eq_true]
  rfl

lemma runFrom_distribution_iff (hs : w.m.state = .waitEncryption)
    (hvalid : w.m.negotiation.responderKeyDistribution &&& ~~~keyDistValidMask = 0)
    (hport : Serves su port w.calls) (ht : ¬ k.identityAddressType > 1) (nowUs : ℕ)
    {deliveries : List (Bytes × ℕ)}
    (hd : deliveries.map Prod.fst =
      (keyFlow w.m.negotiation.responderKeyDistribution).map (keyPdu k)) :
    Completes w (runFrom su port n w
          (.call (.onEncryptionChanged true) nowUs :: deliveries.map fun d => .pdu d.1 d.2))
        (receivedKeys (initialPeerKeys w.m) k w.m.negotiation.responderKeyDistribution) ↔
      hasKey w.m.negotiation.responderKeyDistribution keyDistLinkKey = false := by
  rw [runFrom, foldl_cons, apply_encrypted _ nowUs hs, ← foldl_takeKey]
  have hcalled : Extends Event.silent w.history
      (keysPending (w.emit (.called (.onEncryptionChanged true)))).history := .cons rfl .refl
  split
  next hzero =>
    rw [hzero] at hd ⊢
    obtain rfl : deliveries = [] := by simpa [keyFlow, hasKey] using hd
    have hfinish : Completes (keysPending (w.emit (.called (.onEncryptionChanged true))))
        (finishKeyDistribution su port (sendAt su port n)
          (keysPending (w.emit (.called (.onEncryptionChanged true)))) nowUs)
        (initialPeerKeys w.m) := finishKeyDistribution_supplied hport
    exact iff_of_true (hfinish.of_silent hcalled) (by simp [hasKey])
  next hne =>
    obtain ⟨hw, hrem⟩ := keysExpected_distributing nowUs hvalid hne
    have hserves : Serves su port (keysExpected w nowUs).calls := hport
    have hrun : Completes w (runFrom su port n (keysExpected w nowUs) _) _ ↔ _ :=
      runFrom_keys hserves hw (.cons rfl hcalled) ht (by rw [hrem]; exact hd)
    rw [hrem] at hrun
    exact hrun

end

lemma run_valid_mask (su : Setup) (port : ℕ → Reply) (n : ℕ) (inputs : List Input)
    (hs : (run su port n inputs).m.state = .waitEncryption) :
    (run su port n inputs).m.negotiation.responderKeyDistribution &&& ~~~keyDistValidMask = 0 := by
  obtain ⟨hpast, hpresent⟩ := run_sound su port n inputs
  obtain ⟨key, size, hstarted⟩ := evidence_at hpresent hs
  have hmem := (takeWhile_sublist _).subset (singleton_sublist.mp hstarted)
  obtain ⟨newer, older, hh⟩ := append_of_mem hmem
  obtain ⟨response, negotiated, -, hn, hagreed⟩ := (hpast newer _ older hh).1.response
  have hvalid : response.responderKeyDistribution &&& ~~~keyDistValidMask = 0 := by
    have hv := (negotiatePairing_ok hn).2
    simp only [pairingFeaturesValid, Bool.and_eq_true, beq_iff_eq] at hv
    exact hv.2
  rw [hagreed, agreed]
  split
  · rw [dropEncKey, (negotiatePairing_masks hn).2, UInt8.and_assoc, UInt8.and_comm (~~~_),
      ← UInt8.and_assoc, hvalid, UInt8.zero_and]
  · rw [(negotiatePairing_masks hn).2, hvalid]

/-- In every run, at every nesting depth: once encryption is reported and the responder sends
exactly the PDUs of the negotiated mask, to a manager whose port supplies what it is asked for, the
distribution completes with the received keys exactly when LinkKey is not in the mask. -/
theorem run_distribution_completes_iff (su : Setup) (port : ℕ → Reply) (n : ℕ)
    (inputs : List Input) (k : DistributedKeys) (nowUs : ℕ) (deliveries : List (Bytes × ℕ))
    (hs : (run su port n inputs).m.state = .waitEncryption)
    (hport : Serves su port (run su port n inputs).calls) (ht : ¬ k.identityAddressType > 1)
    (hd : deliveries.map Prod.fst =
      (keyFlow (run su port n inputs).m.negotiation.responderKeyDistribution).map (keyPdu k)) :
    Completes (run su port n inputs)
        (runFrom su port n (run su port n inputs)
          (.call (.onEncryptionChanged true) nowUs :: deliveries.map fun d => .pdu d.1 d.2))
        (receivedKeys (initialPeerKeys (run su port n inputs).m) k
          (run su port n inputs).m.negotiation.responderKeyDistribution) ↔
      hasKey (run su port n inputs).m.negotiation.responderKeyDistribution keyDistLinkKey =
        false := by
  exact runFrom_distribution_iff hs (run_valid_mask su port n inputs hs) hport ht nowUs hd

/-! Secure Connections pairings that negotiate a responder mask, with keys of zero octets. -/

def maskFeatures (mask : UInt8) : PairingFeatures := ⟨0x03, 0, 0x09, 16, 0, mask⟩

def maskSetup (mask : UInt8) : Setup :=
  { secureSetup with config := ⟨maskFeatures mask, 0, 0, .zero 6, .zero 6⟩ }

def supplyingPort : ℕ → Reply := fun _ =>
  ⟨.ok, fun _ => 0, fun mask => { DistributedKeys.zero with keyMask := mask }, []⟩

def maskInputs (mask : UInt8) : List Input :=
  [.call .start 0, .pdu (responsePdu (maskFeatures mask)) 1,
    .call (.onLocalPublicKey true (some secureX) (some (.zero 32))) 2,
    .pdu (0x0C :: replicate 64 0) 3, .call (.onDhkey true (some (.zero 32))) 4,
    .pdu (0x03 :: replicate 16 0) 5, .pdu (0x04 :: replicate 16 0) 6,
    .pdu (0x0D :: f5Salt.rev.bytes) 7]

lemma supplyingPort_serves (mask : UInt8) (calls : ℕ) :
    Serves (maskSetup mask) supplyingPort calls where
  getLocalKeys := rfl
  keysComplete := rfl
  complete := rfl
  supplies _ _ := ⟨rfl, rfl, fun _ => UInt8.and_self, fun _ => (by decide : ¬ (0 : UInt8) > 1)⟩

theorem identity_distribution_completes :
    Completes (run (maskSetup 0x06) supplyingPort 0 (maskInputs 0x06))
      (runFrom (maskSetup 0x06) supplyingPort 0 (run (maskSetup 0x06) supplyingPort 0
        (maskInputs 0x06)) (.call (.onEncryptionChanged true) 8 ::
          ((keyFlow 0x06).map fun c => (keyPdu .zero c, 9)).map fun d => .pdu d.1 d.2))
      (receivedKeys (initialPeerKeys (run (maskSetup 0x06) supplyingPort 0 (maskInputs 0x06)).m)
        .zero 0x06) := by
  have hmask : (run (maskSetup 0x06) supplyingPort 0
      (maskInputs 0x06)).m.negotiation.responderKeyDistribution = 0x06 := by decide +kernel
  have hiff := run_distribution_completes_iff (maskSetup 0x06) supplyingPort 0 (maskInputs 0x06)
    .zero 8 ((keyFlow 0x06).map fun c => (keyPdu .zero c, 9)) (by decide +kernel)
    (supplyingPort_serves _ _) (by decide) (by rw [hmask, map_map]; rfl)
  rw [hmask] at hiff
  exact hiff.mpr rfl

/-- LinkKey is negotiated and no PDU exists for it: the manager waits for more until its deadline
fails it. -/
theorem linkKey_distribution_stalls :
    let w := run (maskSetup 0x08) supplyingPort 0 (maskInputs 0x08)
    let w' := run (maskSetup 0x08) supplyingPort 0
      (maskInputs 0x08 ++ [.call (.onEncryptionChanged true) 8])
    Serves (maskSetup 0x08) supplyingPort w.calls ∧ w.m.state = .waitEncryption ∧
      w.m.negotiation.responderKeyDistribution = keyDistLinkKey ∧ keyFlow keyDistLinkKey = [] ∧
      w'.m.state = .waitKeyDistribution ∧
      (run (maskSetup 0x08) supplyingPort 0 (maskInputs 0x08 ++
        [.call (.onEncryptionChanged true) 8, .call .tick 30000008])).m.state = .failed := by
  refine ⟨supplyingPort_serves _ _, ?_⟩
  decide +kernel

end Bluzing.Smp
