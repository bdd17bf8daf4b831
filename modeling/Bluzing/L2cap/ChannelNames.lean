import Bluzing.L2cap.ChannelRuns

/-! Local CIDs and signaling identifiers name the live channels. -/
namespace Bluzing.L2cap
open List

def Channel.live (c : Channel) : Bool := c.state ≠ .free

def Channel.requests (c : Channel) : Bool := c.live && c.pendingIdentifier != 0

structure Manager.NamesUnique (m : Manager) : Prop where
  cids : ∀ s t, (m.channels s).live = true → (m.channels t).live = true →
    (m.channels s).localCid = (m.channels t).localCid → s = t
  identifiers : ∀ s t, (m.channels s).requests = true → (m.channels t).requests = true →
    (m.channels s).pendingIdentifier = (m.channels t).pendingIdentifier → s = t

def CidTaken (w : World) : Prop :=
  ∃ t, (w.chan t).live = true ∧ (w.chan t).localCid = w.mgr.nextLocalCid

def IdentifierTaken (w : World) (s : Slot) : Prop :=
  ∃ t, t ≠ s ∧ (w.chan t).live = true ∧ (w.chan t).pendingIdentifier = w.mgr.nextIdentifier

def Reuses (link : Link) (w : World) (input : Input) : Prop :=
  match input with
  | .open _ _ _ _ => ∃ s, findFreeChannel w = some s ∧ (CidTaken w ∨ IdentifierTaken w s)
  | .close localCid _ => ∃ s, findChannelByLocalCid w localCid = some s ∧
      (w.chan s).state = .opened ∧ (w.chan s).isFixed = false ∧ IdentifierTaken w s
  | _ => ∃ s, connectedBy link w input = some s ∧ IdentifierTaken w s

instance (w : World) : Decidable (CidTaken w) :=
  inferInstanceAs (Decidable (∃ _, _ ∧ _))

instance (w : World) (s : Slot) : Decidable (IdentifierTaken w s) :=
  inferInstanceAs (Decidable (∃ _, _ ∧ _ ∧ _))

instance (link : Link) (w : World) (input : Input) : Decidable (Reuses link w input) :=
  match input with
  | .open _ _ _ _ => inferInstanceAs (Decidable (∃ _, _ ∧ (_ ∨ _)))
  | .close _ _ => inferInstanceAs (Decidable (∃ _, _ ∧ _ ∧ _ ∧ _))
  | .openFixed _ _ | .send _ _ | .onAcl _ _ _ | .tick _ | .tickRound _ =>
      inferInstanceAs (Decidable (∃ _, _ ∧ _))

structure RoutesRight (w : World) : Prop where
  data : ∀ cid s, findChannelByLocalCid w cid = some s →
    ∀ t, (w.chan t).live = true ∧ (w.chan t).localCid = cid ↔ t = s
  response : ∀ identifier s, identifier ≠ 0 → findChannelByIdentifier w identifier = some s →
    ∀ t, (w.chan t).live = true ∧ (w.chan t).pendingIdentifier = identifier ↔ t = s

variable {link : Link} {send : Send} {w : World} {input : Input} {m m' : Manager} {s : Slot}

lemma World.find_some {p : Channel → Bool} (h : w.find p = some s) : p (w.chan s) = true :=
  find?_some (p := fun i => p (w.chan i)) h

lemma World.find_none {p : Channel → Bool} (h : w.find p = none) (t : Slot) :
    p (w.chan t) = false := by
  have hall := find?_eq_none.mp h t (mem_finRange t)
  simpa using hall

lemma findFreeChannel_some (h : findFreeChannel w = some s) : (w.chan s).state = .free := by
  simpa using World.find_some h

lemma findChannelByLocalCid_some {cid : UInt16} (h : findChannelByLocalCid w cid = some s) :
    (w.chan s).live = true ∧ (w.chan s).localCid = cid := by
  simpa [Channel.live] using World.find_some h

lemma findChannelByIdentifier_some {identifier : UInt8}
    (h : findChannelByIdentifier w identifier = some s) :
    (w.chan s).live = true ∧ (w.chan s).pendingIdentifier = identifier := by
  simpa [Channel.live] using World.find_some h

lemma findChannelByLocalCid_none {cid : UInt16} (h : findChannelByLocalCid w cid = none)
    (t : Slot) (ht : (w.chan t).live = true) : (w.chan t).localCid ≠ cid := by
  have hn := World.find_none h t
  simp only [Channel.live, decide_eq_true_eq, decide_eq_false_iff_not] at ht hn
  exact fun hc => hn ⟨ht, hc⟩

lemma Manager.NamesUnique.routesRight (h : w.mgr.NamesUnique) : RoutesRight w where
  data cid s hs t := by
    obtain ⟨hl, hc⟩ := findChannelByLocalCid_some hs
    constructor
    · rintro ⟨ht, rfl⟩
      exact h.cids t s ht hl hc.symm
    · rintro rfl
      exact ⟨hl, hc⟩
  response identifier s hne hs t := by
    obtain ⟨hl, hc⟩ := findChannelByIdentifier_some hs
    constructor
    · rintro ⟨ht, rfl⟩
      have hreq (u : Slot) (hu : (w.chan u).live = true)
          (hid : (w.chan u).pendingIdentifier = (w.chan t).pendingIdentifier) :
          (w.chan u).requests = true := by
        simp [Channel.requests, hu, hid, hne]
      exact h.identifiers t s (hreq t ht rfl) (hreq s hl hc) hc.symm
    · rintro rfl
      exact ⟨hl, hc⟩

lemma unique_update {α : Type*} {f : Slot → Channel} {p : Channel → Bool} {name : Channel → α}
    {c : Channel} (h : ∀ a b, p (f a) = true → p (f b) = true → name (f a) = name (f b) → a = b)
    (hc : p c = true → ∀ t, t ≠ s → p (f t) = true → name (f t) ≠ name c) (a b : Slot)
    (ha : p (Function.update f s c a) = true) (hb : p (Function.update f s c b) = true)
    (hab : name (Function.update f s c a) = name (Function.update f s c b)) : a = b := by
  by_cases has : a = s <;> by_cases hbs : b = s
  · rw [has, hbs]
  · subst has
    rw [Function.update_self] at ha hab
    rw [Function.update_of_ne hbs] at hb hab
    exact absurd hab.symm (hc ha b hbs hb)
  · subst hbs
    rw [Function.update_self] at hb hab
    rw [Function.update_of_ne has] at ha hab
    exact absurd hab (hc hb a has ha)
  · rw [Function.update_of_ne has] at ha hab
    rw [Function.update_of_ne hbs] at hb hab
    exact h a b ha hb hab

lemma Sets.namesUnique {c : Channel} {pending : Prop} (hs : Sets m m' s c pending)
    (hu : m.NamesUnique)
    (hcid : c.live = true → ∀ t, t ≠ s → (m.channels t).live = true →
      (m.channels t).localCid ≠ c.localCid)
    (hid : c.requests = true → ∀ t, t ≠ s → (m.channels t).requests = true →
      (m.channels t).pendingIdentifier ≠ c.pendingIdentifier) : m'.NamesUnique := by
  constructor <;> rw [hs.channels]
  · exact unique_update hu.cids hcid
  · exact unique_update hu.identifiers hid

lemma Manager.NamesUnique.cid_ne (hu : w.mgr.NamesUnique) (hs : (w.chan s).live = true)
    (t : Slot) (ht : t ≠ s) (hl : (w.mgr.channels t).live = true) :
    (w.mgr.channels t).localCid ≠ (w.chan s).localCid :=
  fun h => ht (hu.cids t s hl hs h)

lemma identifier_ne (hn : ¬ IdentifierTaken w s) (t : Slot) (ht : t ≠ s)
    (hr : (w.mgr.channels t).requests = true) :
    (w.mgr.channels t).pendingIdentifier ≠ w.mgr.nextIdentifier :=
  fun h => hn ⟨t, ht, (Bool.and_eq_true_iff.mp hr).1, h⟩

lemma Moves.namesUnique (h : Moves link w input m) (hu : w.mgr.NamesUnique)
    (hn : ¬ Reuses link w input) : m.NamesUnique := by
  cases h with
  | idle hc _ _ =>
    constructor <;> rw [hc]
    · exact hu.cids
    · exact hu.identifiers
  | connects s hi hf hs _ =>
    subst hi
    refine hs.namesUnique hu (fun _ t _ hl hc => ?_) fun _ => identifier_ne fun ht => ?_
    · exact hn ⟨s, hf, .inl ⟨t, hl, hc⟩⟩
    · exact hn ⟨s, hf, .inr ht⟩
  | refused s c _ hfree _ hs _ =>
    have hdead : c.live = false := by simp [Channel.live, hfree]
    refine hs.namesUnique hu (fun hl => ?_) fun hr => ?_
    · rw [hdead] at hl
      cases hl
    · simp [Channel.requests, hdead] at hr
  | registers s _ _ hc hs _ =>
    refine hs.namesUnique hu (fun _ t _ hl => findChannelByLocalCid_none hc t hl) fun hr => ?_
    cases hr
  | configures s _ _ hfind _ _ _ hi hs _ =>
    have htaken : ¬ IdentifierTaken w s := by
      intro ht
      cases input with
      | onAcl => exact hn ⟨s, hi, ht⟩
      | _ => cases hi
    exact hs.namesUnique hu (fun _ => hu.cid_ne (findChannelByIdentifier_some hfind).1)
      fun _ => identifier_ne htaken
  | acceptsRequest s _ _ _ _ hst hs _ =>
    have hlive : (w.chan s).live = true := by simp [Channel.live, hst]
    refine hs.namesUnique hu (fun _ => hu.cid_ne hlive) fun hr t ht hrt hid => ht ?_
    refine hu.identifiers t s hrt ?_ hid
    have hid : (w.chan s).pendingIdentifier ≠ 0 := by
      simpa using (Bool.and_eq_true_iff.mp hr).2
    have hreq : (w.chan s).requests = true := by simp [Channel.requests, hlive, hid]
    exact hreq
  | acceptsResponse s _ _ hfind _ _ _ _ hs _ =>
    obtain ⟨hlive, -⟩ := findChannelByIdentifier_some hfind
    refine hs.namesUnique hu (fun _ => hu.cid_ne hlive) fun hr => ?_
    simp [Channel.requests] at hr
  | closes s _ hs _ =>
    refine hs.namesUnique hu (fun hl => ?_) fun hr => ?_
    · cases hl
    · cases hr
  | disconnects s hi hf hst hs _ =>
    subst hi
    obtain ⟨hlive, -⟩ := findChannelByLocalCid_some hf
    exact hs.namesUnique hu (fun _ => hu.cid_ne hlive)
      fun _ => identifier_ne fun ht => hn ⟨s, hf, hst.1, hst.2, ht⟩

lemma apply_namesUnique (hq : Quiet send) (hu : w.mgr.NamesUnique)
    (hn : ¬ Reuses link w input) : (apply link send w input).mgr.NamesUnique := by
  refine apply_keeps hq (fun w input m h hu hn => h.namesUnique hu hn) (fun w nowUs => ?_) hu hn
  rintro ⟨s, hs, -⟩
  cases hs

/-- In every run that reuses no name in use, in every state it reaches: live channels have different
local CIDs and different identifiers of outstanding requests, and data PDUs and responses with a
non-zero identifier reach the channel that has the name. -/
theorem run_names_unique (link : Link) (port : ℕ → Bool) (inputs : List Input)
    (good : ∀ done input rest, done ++ input :: rest = inputs →
      ¬ Reuses link (run link port done) input) :
    ∀ done rest, done ++ rest = inputs →
      (run link port done).mgr.NamesUnique ∧ RoutesRight (run link port done) := by
  intro done rest hd
  have hinit : World.init.mgr.NamesUnique := by
    constructor <;> (intro s t hs; cases hs)
  have hu := foldl_invariant_along (I := fun w : World => w.mgr.NamesUnique) hinit
    (fun w input _ => apply_namesUnique (answerWith_quiet port)) good done rest hd
  exact ⟨hu, hu.routesRight⟩

def twoOpens : List Input := [.open 0x0011 0 true 0, .open 0x0013 0 true 0]

theorem twoOpens_names_unique :
    (run (.init 1 1 512) (fun _ => true) twoOpens).mgr.NamesUnique ∧
      RoutesRight (run (.init 1 1 512) (fun _ => true) twoOpens) := by
  refine run_names_unique (.init 1 1 512) (fun _ => true) twoOpens ?_ twoOpens [] rfl
  intro done input rest h
  rcases done with _ | ⟨a, _ | ⟨b, done⟩⟩
  · obtain ⟨rfl, -⟩ := cons.inj h
    decide +kernel
  · obtain ⟨rfl, htail⟩ := cons.inj h
    obtain ⟨rfl, -⟩ := cons.inj htail
    decide +kernel
  · simp [twoOpens] at h

/-! One channel waits for its Connection Response while others are opened and closed until
the identifiers wrap. -/

def churn (k : ℕ) : List Input :=
  (range k).flatMap fun j => [.open 0x0013 0 true 0, .close (nextCid^[j] 0x0041) 0]

structure Churned (k : ℕ) (w : World) : Prop where
  first : w.mgr.channels 0 = connecting 0x0011 0 cidDynamicStart 1 true
  others : ∀ s, s ≠ 0 → (w.mgr.channels s).state = .free
  cid : w.mgr.nextLocalCid = nextCid^[k] 0x0041
  identifier : w.mgr.nextIdentifier = nextId^[k] 2

lemma sendConnectionRequest_ok (w : World) (s : Slot) :
    (sendConnectionRequest (.init 1 1 512) (answerWith fun _ => true) w s).2 = .ok := by
  rfl

lemma finRange_slots : finRange maxChannels = [0, 1, 2, 3, 4, 5, 6, 7] := by decide

variable {k : ℕ}

lemma Churned.findFree {w : World} (h : Churned k w) : findFreeChannel w = some 1 := by
  have h0 : (w.chan 0).state = .waitConnectRsp := congrArg Channel.state h.first
  have h1 : (w.chan 1).state = .free := h.others 1 (by decide)
  simp [findFreeChannel, World.find, finRange_slots, h0, h1]

lemma Churned.opens {w : World} (h : Churned k w) (psm : UInt16) :
    (apply (.init 1 1 512) (answerWith fun _ => true) w (.open psm 0 true 0)).mgr =
      (allocChannel w 1 psm 0 true 0).mgr := by
  simp only [apply, channelManagerOpen, h.findFree]
  rw [if_neg (by rw [sendConnectionRequest_ok]; exact not_not.mpr rfl)]
  rw [sendConnectionRequest, sendCommand_mgr (answerWith_quiet _)]

lemma Churned.round {w : World} (h : Churned k w) (hk : nextCid^[k] 0x0041 ≠ cidDynamicStart) :
    Churned (k + 1) ([.open 0x0013 0 true 0, .close (nextCid^[k] 0x0041) 0].foldl
      (apply (.init 1 1 512) (answerWith fun _ => true)) w) := by
  have hopen := h.opens 0x0013
  rw [foldl_cons, foldl_cons, foldl_nil]
  generalize apply (.init 1 1 512) (answerWith fun _ => true) w (.open 0x0013 0 true 0) = w₁ at *
  have hchannels : w₁.mgr.channels = Function.update w.mgr.channels 1
      (connecting 0x0013 0 (nextCid^[k] 0x0041) (nextId^[k] 2) true) := by
    rw [hopen, ← h.cid, ← h.identifier]
    rfl
  have h0 : w₁.chan 0 = connecting 0x0011 0 cidDynamicStart 1 true := by
    rw [World.chan, hchannels, Function.update_of_ne (by decide), h.first]
  have h1 : w₁.chan 1 = connecting 0x0013 0 (nextCid^[k] 0x0041) (nextId^[k] 2) true := by
    rw [World.chan, hchannels, Function.update_self]
  have hfind : findChannelByLocalCid w₁ (nextCid^[k] 0x0041) = some 1 := by
    simp [findChannelByLocalCid, World.find, finRange_slots, h0, h1, connecting, hk.symm]
  have hclose : apply (.init 1 1 512) (answerWith fun _ => true) w₁
      (.close (nextCid^[k] 0x0041) 0) = finishClose w₁ 1 .local := by
    simp [apply, channelManagerClose, hfind, h1, connecting]
  rw [hclose]
  obtain ⟨hcid, hid⟩ := finishClose_counters w₁ 1 .local
  have hsets : Sets w₁.mgr (finishClose w₁ 1 .local).mgr 1 _ False :=
    finishClose_sets (Function.update_eq_self 1 w₁.mgr.channels).symm (fun _ _ => Iff.rfl) rfl
  refine ⟨?_, fun s hs => ?_, ?_, ?_⟩
  · rw [hsets.channels, Function.update_of_ne (by decide)]
    exact h0
  · rw [hsets.channels]
    by_cases hs1 : s = 1
    · rw [hs1, Function.update_self]
    · rw [Function.update_of_ne hs1, hchannels, Function.update_of_ne hs1]
      exact h.others s hs
  · rw [hcid, hopen, Function.iterate_succ_apply', ← h.cid]
    rfl
  · rw [hid, hopen, Function.iterate_succ_apply', ← h.identifier]
    rfl

lemma churned (k : ℕ) (hk : k ≤ 254) :
    Churned k (run (.init 1 1 512) (fun _ => true) (.open 0x0011 0 true 0 :: churn k)) := by
  induction k with
  | zero => exact ⟨by decide +kernel, by decide +kernel, by decide +kernel, by decide +kernel⟩
  | succ k ih =>
    have hcid : ∀ k < 254, nextCid^[k] 0x0041 ≠ cidDynamicStart := by decide +kernel
    have hnext := (ih (by omega)).round (hcid k (by omega))
    have hinputs : Input.open 0x0011 0 true 0 :: churn (k + 1) =
        (.open 0x0011 0 true 0 :: churn k) ++
          [.open 0x0013 0 true 0, .close (nextCid^[k] 0x0041) 0] := by
      simp [churn, range_succ]
    rw [hinputs, run, foldl_append]
    exact hnext

lemma Churned.reuses {w₀ w : World} (h : Churned 254 w₀)
    (hw : w = apply (.init 1 1 512) (answerWith fun _ => true) w₀ (.open 0x0015 0 true 0)) :
    (w.chan 0).requests = true ∧ (w.chan 1).requests = true ∧
      (w.chan 0).pendingIdentifier = (w.chan 1).pendingIdentifier ∧
      findChannelByIdentifier w (w.chan 1).pendingIdentifier = some 0 := by
  have hid : nextId^[254] 2 = 1 := by decide +kernel
  have hchannels : w.mgr.channels = Function.update w₀.mgr.channels 1
      (connecting 0x0015 0 w₀.mgr.nextLocalCid 1 true) := by
    rw [hw, h.opens, ← hid, ← h.identifier]
    rfl
  have h0 : w.chan 0 = connecting 0x0011 0 cidDynamicStart 1 true := by
    rw [World.chan, hchannels, Function.update_of_ne (by decide), h.first]
  have h1 : w.chan 1 = connecting 0x0015 0 w₀.mgr.nextLocalCid 1 true := by
    rw [World.chan, hchannels, Function.update_self]
  rw [h0, h1]
  refine ⟨rfl, rfl, rfl, ?_⟩
  simp [findChannelByIdentifier, World.find, finRange_slots, h0, connecting]

theorem identifier_reused :
    (let w := run (.init 1 1 512) (fun _ => true)
      ((.open 0x0011 0 true 0 :: churn 254) ++ [.open 0x0015 0 true 0])
     (w.chan 0).requests = true ∧ (w.chan 1).requests = true ∧
      (w.chan 0).pendingIdentifier = (w.chan 1).pendingIdentifier ∧
      findChannelByIdentifier w (w.chan 1).pendingIdentifier = some 0) ∧
    ((run (.init 1 5 512) (fun _ => true) [.openFixed 0x0004 true]).chan 0).pendingIdentifier = 0 ∧
    ((run (.init 1 5 512) (fun _ => true) [.openFixed 0x0004 true,
      .onAcl 0x02 [6, 0, 0x05, 0, 0x01, 0, 2, 0, 0, 0] 0]).chan 0).state = .free :=
  ⟨(churned 254 le_rfl).reuses (run_concat ..), by decide +kernel⟩

end Bluzing.L2cap
