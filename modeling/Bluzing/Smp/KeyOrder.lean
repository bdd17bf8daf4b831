import Bluzing.Smp.Manager

/-! The normative order of the distributed keys, and that the flags of `handle_distributed_key`
accept exactly the next one. -/
namespace Bluzing.Smp

def hasKey (mask kind : UInt8) : Bool := (mask &&& kind) != 0

def keyFlow (mask : UInt8) : List Code :=
  (if hasKey mask keyDistEncKey then [.encryptionInformation, .centralIdentification] else []) ++
  (if hasKey mask keyDistIdKey then [.identityInformation, .identityAddressInformation] else []) ++
  (if hasKey mask keyDistSignKey then [.signingInformation] else [])

namespace Manager
variable (m : Manager)

def missing (kind : UInt8) : Bool :=
  hasKey m.negotiation.responderKeyDistribution kind && !hasKey m.peerKeysCompleteMask kind

def remainingKeys : List Code :=
  (if m.missing keyDistEncKey then
    if m.peerLtkReceived then [.centralIdentification]
    else [.encryptionInformation, .centralIdentification] else []) ++
  (if m.missing keyDistIdKey then
    if m.peerIrkReceived then [.identityAddressInformation]
    else [.identityInformation, .identityAddressInformation] else []) ++
  (if m.missing keyDistSignKey then [.signingInformation] else [])

structure KeysOrdered : Prop where
  ltk : m.peerLtkReceived = true →
    hasKey m.negotiation.responderKeyDistribution keyDistEncKey = true
  central : hasKey m.peerKeysCompleteMask keyDistEncKey = true → m.peerLtkReceived = true
  irk : m.peerIrkReceived = true → hasKey m.negotiation.responderKeyDistribution keyDistIdKey = true
  identity : hasKey m.peerKeysCompleteMask keyDistIdKey = true → m.peerIrkReceived = true
  link : hasKey m.peerKeysCompleteMask keyDistLinkKey = false

end Manager

variable (a b c mask : UInt8)

private lemma or_and_distrib : (a ||| b) &&& c = (a &&& c) ||| (b &&& c) := by
  apply UInt8.eq_of_toBitVec_eq
  simp only [UInt8.toBitVec_and, UInt8.toBitVec_or, BitVec.and_or_distrib_right]

private lemma and_or_distrib : a &&& (b ||| c) = (a &&& b) ||| (a &&& c) := by
  rw [UInt8.and_comm, or_and_distrib, UInt8.and_comm b, UInt8.and_comm c]

@[simp] lemma hasKey_or (kind : UInt8) :
    hasKey (a ||| b) kind = (hasKey a kind || hasKey b kind) := by
  rw [Bool.eq_iff_iff]
  simp only [hasKey, or_and_distrib, bne_iff_ne, ne_eq, UInt8.or_eq_zero_iff, not_and_or,
    Bool.or_eq_true]

@[simp] lemma hasKey_kinds :
    hasKey keyDistEncKey keyDistEncKey = true ∧ hasKey keyDistEncKey keyDistIdKey = false ∧
    hasKey keyDistEncKey keyDistSignKey = false ∧ hasKey keyDistIdKey keyDistEncKey = false ∧
    hasKey keyDistIdKey keyDistIdKey = true ∧ hasKey keyDistIdKey keyDistSignKey = false ∧
    hasKey keyDistSignKey keyDistEncKey = false ∧ hasKey keyDistSignKey keyDistIdKey = false ∧
    hasKey keyDistSignKey keyDistSignKey = true ∧ hasKey keyDistEncKey keyDistLinkKey = false ∧
    hasKey keyDistIdKey keyDistLinkKey = false ∧ hasKey keyDistSignKey keyDistLinkKey = false := by
  decide

lemma hasKey_eq_false {mask kind : UInt8} : hasKey mask kind = false ↔ mask &&& kind = 0 := by
  simp [hasKey]

lemma hasKey_of_and_eq {kind : UInt8} (h : a &&& b = b) (hb : hasKey b kind = true) :
    hasKey a kind = true := by
  simp only [hasKey, bne_iff_ne, ne_eq] at hb ⊢
  intro ha
  apply hb
  rw [← h, UInt8.and_assoc, UInt8.and_comm b kind, ← UInt8.and_assoc, ha, UInt8.zero_and]

lemma and_kind :
    (hasKey mask keyDistEncKey = true → mask &&& keyDistEncKey = keyDistEncKey) ∧
    (hasKey mask keyDistIdKey = true → mask &&& keyDistIdKey = keyDistIdKey) ∧
    (hasKey mask keyDistSignKey = true → mask &&& keyDistSignKey = keyDistSignKey) := by
  revert mask
  exact forall_octet (by decide +kernel)

lemma mask_eq_kinds : mask &&& ~~~keyDistValidMask = 0 → hasKey mask keyDistLinkKey = false →
    mask = (if hasKey mask keyDistEncKey then keyDistEncKey else 0) |||
      (if hasKey mask keyDistIdKey then keyDistIdKey else 0) |||
      (if hasKey mask keyDistSignKey then keyDistSignKey else 0) := by
  revert mask
  exact forall_octet (by decide +kernel)

namespace Manager
variable {m m' : Manager} {c : Command}

lemma outOfOrder_eq (m : Manager) (code : Code) :
    outOfOrder m code =
      if m.missing keyDistEncKey then
        (!m.peerLtkReceived && code != .encryptionInformation) ||
          (m.peerLtkReceived && code != .centralIdentification)
      else if m.missing keyDistIdKey then
        (!m.peerIrkReceived && code != .identityInformation) ||
          (m.peerIrkReceived && code != .identityAddressInformation)
      else m.missing keyDistSignKey && code != .signingInformation := by
  simp only [outOfOrder, missing, hasKey, bne, Bool.not_not]

variable {code : Code}

lemma enc_not_missing (ho : outOfOrder m code = false)
    (h₁ : code ≠ .encryptionInformation) (h₂ : code ≠ .centralIdentification) :
    m.missing keyDistEncKey = false := by
  rw [outOfOrder_eq] at ho
  cases hk : m.missing keyDistEncKey
  · rfl
  · cases hl : m.peerLtkReceived <;> simp [hk, hl, h₁, h₂] at ho

lemma id_not_missing (ho : outOfOrder m code = false)
    (henc : m.missing keyDistEncKey = false) (h₁ : code ≠ .identityInformation)
    (h₂ : code ≠ .identityAddressInformation) : m.missing keyDistIdKey = false := by
  rw [outOfOrder_eq] at ho
  cases hk : m.missing keyDistIdKey
  · rfl
  · cases hl : m.peerIrkReceived <;> simp [henc, hk, hl, h₁, h₂] at ho

inductive Stored (m : Manager) : Code → Manager → Prop
  | ltk (keys : DistributedKeys)
      (he : hasKey m.negotiation.responderKeyDistribution keyDistEncKey = true)
      (hl : m.peerLtkReceived = false) :
      Stored m .encryptionInformation { m with peerKeys := keys, peerLtkReceived := true }
  | central (keys : DistributedKeys) (hl : m.peerLtkReceived = true)
      (hc : hasKey m.peerKeysCompleteMask keyDistEncKey = false) :
      Stored m .centralIdentification { m with
        peerKeys := keys, peerKeysCompleteMask := m.peerKeysCompleteMask ||| keyDistEncKey }
  | irk (keys : DistributedKeys)
      (he : hasKey m.negotiation.responderKeyDistribution keyDistIdKey = true)
      (hl : m.peerIrkReceived = false) :
      Stored m .identityInformation { m with peerKeys := keys, peerIrkReceived := true }
  | identity (keys : DistributedKeys) (hl : m.peerIrkReceived = true)
      (hc : hasKey m.peerKeysCompleteMask keyDistIdKey = false) :
      Stored m .identityAddressInformation { m with
        peerKeys := keys, peerKeysCompleteMask := m.peerKeysCompleteMask ||| keyDistIdKey }
  | csrk (keys : DistributedKeys)
      (he : hasKey m.negotiation.responderKeyDistribution keyDistSignKey = true)
      (hc : hasKey m.peerKeysCompleteMask keyDistSignKey = false) :
      Stored m .signingInformation { m with
        peerKeys := keys, peerKeysCompleteMask := m.peerKeysCompleteMask ||| keyDistSignKey }

lemma storeKey_stored (hs : storeKey m c = some m') : Stored m c.code m' := by
  unfold storeKey at hs
  dsimp only at hs
  split at hs
  case h_6 => cases hs
  all_goals
    next hcode =>
    rw [hcode]
    split at hs
    · cases hs
    next hn =>
    split at hs
    · cases hs
    cases hs
    simp only [not_or, ← hasKey_eq_false, ne_eq, Bool.not_eq_false, Bool.not_eq_true] at hn
    first
      | exact .ltk _ hn.1 hn.2
      | exact .central _ hn.1 hn.2
      | exact .irk _ hn.1 hn.2
      | exact .identity _ hn.1 hn.2
      | exact .csrk _ hn.1 hn.2

lemma storeKey_frame (h : storeKey m c = some m') :
    m' = { m with
      peerKeys := m'.peerKeys
      peerKeysCompleteMask := m'.peerKeysCompleteMask
      peerLtkReceived := m'.peerLtkReceived
      peerIrkReceived := m'.peerIrkReceived } := by
  have hs := storeKey_stored h
  generalize c.code = code at hs
  cases hs <;> rfl

lemma KeysOrdered.stored (h : m.KeysOrdered) (ho : outOfOrder m code = false)
    (hs : Stored m code m') : m.remainingKeys = code :: m'.remainingKeys ∧ m'.KeysOrdered := by
  obtain ⟨hltk, hcentral, hirk, hidentity, hlink⟩ := h
  cases hs with
  | ltk keys he hl =>
    have hc := Bool.eq_false_iff.mpr fun hk => Bool.eq_false_iff.mp hl (hcentral hk)
    refine ⟨?_, fun _ => he, fun _ => rfl, hirk, hidentity, hlink⟩
    simp [remainingKeys, missing, he, hc, hl]
  | central keys hl hc =>
    refine ⟨?_, hltk, fun _ => hl, hirk, fun hk => hidentity (by simpa using hk),
      by simpa using hlink⟩
    simp [remainingKeys, missing, hltk hl, hc, hl]
  | irk keys he hl =>
    have hc := Bool.eq_false_iff.mpr fun hk => Bool.eq_false_iff.mp hl (hidentity hk)
    have henc := enc_not_missing ho nofun nofun
    refine ⟨?_, hltk, hcentral, fun _ => he, fun _ => rfl, hlink⟩
    simp only [missing] at henc
    simp [remainingKeys, missing, henc, he, hc, hl]
  | identity keys hl hc =>
    have henc := enc_not_missing ho nofun nofun
    refine ⟨?_, hltk, fun hk => hcentral (by simpa using hk), hirk, fun _ => hl,
      by simpa using hlink⟩
    simp only [missing] at henc
    simp [remainingKeys, missing, henc, hirk hl, hc, hl]
  | csrk keys he hc =>
    have henc := enc_not_missing ho nofun nofun
    have hid := id_not_missing ho henc nofun nofun
    refine ⟨?_, hltk, fun hk => hcentral (by simpa using hk), hirk,
      fun hk => hidentity (by simpa using hk), by simpa using hlink⟩
    simp only [missing] at henc hid
    simp [remainingKeys, missing, henc, hid, he, hc]

lemma keys_fresh (hc : m.peerKeysCompleteMask = 0) (hl : m.peerLtkReceived = false)
    (hi : m.peerIrkReceived = false) :
    m.KeysOrdered ∧ m.remainingKeys = keyFlow m.negotiation.responderKeyDistribution := by
  have hnone (kind : UInt8) : hasKey 0 kind = false := by simp [hasKey]
  have hm (kind : UInt8) :
      m.missing kind = hasKey m.negotiation.responderKeyDistribution kind := by
    simp [missing, hc, hnone]
  refine ⟨⟨?_, ?_, ?_, ?_, ?_⟩, ?_⟩
  · simp [hl]
  · simp [hc, hnone]
  · simp [hi]
  · simp [hc, hnone]
  · rw [hc, hnone]
  · simp only [remainingKeys, keyFlow, hm, hl, hi, Bool.false_eq_true, ↓reduceIte]

lemma remainingKeys_eq_nil
    (h : (m.peerKeysCompleteMask &&& m.negotiation.responderKeyDistribution) =
      m.negotiation.responderKeyDistribution) : m.remainingKeys = [] := by
  have hm (kind : UInt8) : m.missing kind = false := by
    cases he : hasKey m.negotiation.responderKeyDistribution kind
    · simp [missing, he]
    · simp [missing, hasKey_of_and_eq _ _ h he]
  simp [remainingKeys, hm]

lemma KeysOrdered.covers_iff (h : m.KeysOrdered)
    (hv : m.negotiation.responderKeyDistribution &&& ~~~keyDistValidMask = 0) :
    (m.peerKeysCompleteMask &&& m.negotiation.responderKeyDistribution) =
        m.negotiation.responderKeyDistribution ↔
      m.remainingKeys = [] ∧
        hasKey m.negotiation.responderKeyDistribution keyDistLinkKey = false := by
  constructor
  · intro hcover
    refine ⟨remainingKeys_eq_nil hcover, Bool.eq_false_iff.mpr fun hl => ?_⟩
    have hc := hasKey_of_and_eq _ _ hcover hl
    rw [h.link] at hc
    cases hc
  · rintro ⟨hrem, hl⟩
    have hnil := List.append_eq_nil_iff.mp hrem
    have hnil' := List.append_eq_nil_iff.mp hnil.1
    have henc : m.missing keyDistEncKey = false := by
      cases hk : m.missing keyDistEncKey
      · rfl
      · cases hl : m.peerLtkReceived <;> simp [hk, hl] at hnil'
    have hid : m.missing keyDistIdKey = false := by
      cases hk : m.missing keyDistIdKey
      · rfl
      · cases hl : m.peerIrkReceived <;> simp [hk, hl] at hnil'
    have hsign : m.missing keyDistSignKey = false := by
      cases hk : m.missing keyDistSignKey
      · rfl
      · simp [hk] at hnil
    obtain ⟨hce, hci, hcs⟩ := and_kind m.peerKeysCompleteMask
    have hpart (kind : UInt8) (hm : m.missing kind = false)
        (hc : hasKey m.peerKeysCompleteMask kind = true → m.peerKeysCompleteMask &&& kind = kind) :
        m.peerKeysCompleteMask &&&
            (if hasKey m.negotiation.responderKeyDistribution kind then kind else 0) =
          if hasKey m.negotiation.responderKeyDistribution kind then kind else 0 := by
      split
      next he => exact hc (by simpa [missing, he] using hm)
      · exact UInt8.and_zero
    rw [mask_eq_kinds _ hv hl, and_or_distrib, and_or_distrib, hpart _ henc hce, hpart _ hid hci,
      hpart _ hsign hcs]

end Manager

end Bluzing.Smp
