import Bluzing.L2cap.Sending

/-! Several commands in one signaling PDU. -/
namespace Bluzing.L2cap
open List

structure Command where
  code : UInt8
  identifier : UInt8
  data : Bytes
  fits : data.length < 2 ^ 16

def Command.header (c : Command) : SigHeader := ⟨c.code, c.identifier, c.data.length.toUInt16⟩

def Command.octets (c : Command) : Bytes :=
  c.code :: c.identifier :: writeLe16 c.data.length.toUInt16 ++ c.data

def bundle (commands : List Command) : Bytes := commands.flatMap Command.octets

lemma signalingCommand_octets (c : Command) (rest : Bytes) :
    signalingCommand (c.octets ++ rest) =
      some (c.header, c.data) := by
  have hlen : c.data.length.toUInt16.toNat = c.data.length := Nat.mod_eq_of_lt c.fits
  obtain ⟨r₁, h₁, hrest₁⟩ : ∃ r₁, (Reader.init (c.octets ++ rest)).readU8 = .ok (c.code, r₁) ∧
      r₁.rest = [c.identifier] ++ (writeLe16 c.data.length.toUInt16 ++ (c.data ++ rest)) :=
    reads_u8.accepts trivial rfl
  obtain ⟨r₂, h₂, hrest₂⟩ := reads_u8.accepts trivial hrest₁
  obtain ⟨r₃, h₃, hrest₃⟩ := reads_le16.accepts trivial hrest₂
  have hpeek := Reader.peek_rest hrest₃
  simp only [signalingCommand, sigParseHeader, h₁, h₂, h₃, bind, Except.bind, pure, Except.pure,
    hlen, hpeek, Option.map_some, Command.header]

variable (link : Link) (send : Send) (nowUs : ℕ)

def receivePdu (w : World) (payload : Bytes) : World :=
  channelManagerOnAcl link send w 0x02 (pduOctets link.signalingCid payload) nowUs

def receiveEach (w : World) (commands : List Command) : World :=
  commands.foldl (fun w c => receivePdu link send nowUs w c.octets) w

variable (w : World)

lemma receivePdu_eq {payload : Bytes} (hlen : payload.length < 2 ^ 16) :
    receivePdu link send nowUs w payload =
      if headerLen + payload.length ≤ reassemblyMax then
        processSignalingPdu link send (w.received .init) payload nowUs
      else w.received .init := by
  have hpdu := pduOctets_length link.signalingCid payload
  split
  next hfits =>
    have hroom := hpdu ▸ hfits
    obtain ⟨ra, hcheck, hbuf, -⟩ := finalizeHeaderAndCheck_start
      (pduOctets_sound hfits)
      (show Reassembler.Coherent ⟨pduOctets link.signalingCid payload, 0, hroom⟩ from .inl rfl)
      (append_nil _)
    have hfeed : reassemblerFeed w.mgr.reassembler 0x02 (pduOctets link.signalingCid payload) =
        (ra, .complete) := by
      rw [reassemblerFeed, if_pos (by decide), dif_pos hroom, hcheck]
      rfl
    simp [receivePdu, channelManagerOnAcl, receiveFragment, hfeed, reassemblerTake, hbuf,
      pduContents_pduOctets _ hlen, routePdu]
  next hlong =>
    have hfeed : reassemblerFeed w.mgr.reassembler 0x02 (pduOctets link.signalingCid payload) =
        (.init, .error) := by
      rw [reassemblerFeed, if_pos (by decide), dif_neg (hpdu ▸ hlong)]
    simp [receivePdu, channelManagerOnAcl, receiveFragment, hfeed]

lemma receivePdu_bundle {c : Command} {cs : List Command}
    (hlen : (bundle (c :: cs)).length < 2 ^ 16) :
    receivePdu link send nowUs w (bundle (c :: cs)) =
      if headerLen + (bundle (c :: cs)).length ≤ reassemblyMax then
        dispatchCommand link send (w.received .init) c.header c.data nowUs
      else w.received .init := by
  rw [receivePdu_eq _ _ _ _ hlen, processSignalingPdu, bundle, flatMap_cons,
    signalingCommand_octets]

lemma receivePdu_command {c : Command} (hfits : headerLen + c.octets.length ≤ reassemblyMax) :
    receivePdu link send nowUs w c.octets =
      dispatchCommand link send (w.received .init) c.header c.data nowUs := by
  have hlen : (bundle [c]).length < 2 ^ 16 := by
    rw [bundle, flatMap_singleton]
    unfold headerLen reassemblyMax at hfits
    omega
  have halone := receivePdu_bundle link send nowUs w hlen
  rwa [bundle, flatMap_singleton, if_pos hfits] at halone

def echoRequest : Command := ⟨0x08, 1, [], by decide⟩

def connectionRejected : Command := ⟨sigCommandReject, 1, [0, 0], by decide⟩

lemma receivePdu_echoRequest (link : Link) (send : Send) (nowUs : ℕ) (w : World) :
    receivePdu link send nowUs w echoRequest.octets = w.received .init :=
  receivePdu_command link send nowUs w (by decide)

lemma receiveEach_echoRequests (link : Link) (send : Send) (nowUs k : ℕ) (w : World) :
    (receiveEach link send nowUs w (replicate k echoRequest)).chan = w.chan := by
  induction k generalizing w with
  | zero => rfl
  | succ k ih =>
    rw [replicate_succ, receiveEach, foldl_cons, receivePdu_echoRequest]
    exact ih (w.received .init)

lemma length_le_bundle (cs : List Command) : 4 * cs.length ≤ (bundle cs).length := by
  induction cs with
  | nil => exact Nat.le_refl 0
  | cons c cs ih =>
    rw [bundle, flatMap_cons, length_append, ← bundle, length_cons]
    have hone : c.octets.length = 4 + c.data.length := by
      simp only [Command.octets, writeLe16, cons_append, nil_append, length_cons]
      omega
    omega

lemma length_echoRequests (k : ℕ) : (bundle (replicate k echoRequest)).length = 4 * k := by
  induction k with
  | zero => rfl
  | succ k ih =>
    rw [replicate_succ, bundle, flatMap_cons, length_append, ← bundle, ih]
    have hone : echoRequest.octets.length = 4 := rfl
    omega

lemma bundle_ne_each {k : ℕ} (hk : 4 * (k + 2) < 2 ^ 16) :
    let w := run classicLink (fun _ => true) [.open 0x0011 0 true 0]
    let cs := echoRequest :: connectionRejected :: replicate k echoRequest
    (bundle cs).length < 2 ^ 16 ∧
      receivePdu classicLink (answerWith fun _ => true) 1 w (bundle cs) ≠
        receiveEach classicLink (answerWith fun _ => true) 1 w cs := by
  intro w cs
  have hlen : (bundle cs).length = 4 * k + 10 := by
    have hcs : bundle cs = echoRequest.octets ++ connectionRejected.octets ++
        bundle (replicate k echoRequest) := by simp [cs, bundle]
    rw [hcs, length_append, length_echoRequests, Nat.add_comm]
    rfl
  have hfits : (bundle cs).length < 2 ^ 16 := by omega
  refine ⟨hfits, fun h => ?_⟩
  have hbundle : receivePdu classicLink (answerWith fun _ => true) 1 w (bundle cs) =
      w.received .init := by
    rw [receivePdu_bundle _ _ _ _ hfits]
    exact ite_self _
  -- The channel still waits for its Connection Response, or it has been closed.
  have hwaits : (w.chan 0).state = .waitConnectRsp := by decide +kernel
  have hclosed : ((receiveEach classicLink (answerWith fun _ => true) 1 w cs).chan 0).state =
      .free := by
    rw [receiveEach, foldl_cons, foldl_cons, ← receiveEach, receiveEach_echoRequests]
    decide +kernel
  rw [← h, hbundle, World.received_chan, hwaits] at hclosed
  cases hclosed

/-- Only the first command of a PDU has an effect, so bundling is the same as sending one PDU for
each command exactly when there is one command. -/
theorem bundle_eq_each_iff (n : ℕ) :
    (∀ (link : Link) (send : Send) (nowUs : ℕ) (w : World) (c : Command) (cs : List Command),
      (bundle (c :: cs)).length < 2 ^ 16 →
        receivePdu link send nowUs w (bundle (c :: cs)) =
          if headerLen + (bundle (c :: cs)).length ≤ reassemblyMax then
            receivePdu link send nowUs w c.octets
          else w.received .init) ∧
    ((∀ link : Link, link.signalingCid = 0x0001 →
      ∀ (port : ℕ → Bool) (inputs : List Input) (nowUs : ℕ) (cs : List Command),
        cs.length = n → (bundle cs).length < 2 ^ 16 →
          receivePdu link (answerWith port) nowUs (run link port inputs) (bundle cs) =
            receiveEach link (answerWith port) nowUs (run link port inputs) cs) ↔
      n = 1 ∨ 2 ^ 16 ≤ 4 * n) := by
  refine ⟨fun link send nowUs w c cs hlen => ?_, fun h => ?_, ?_⟩
  · rw [receivePdu_bundle _ _ _ _ hlen]
    split
    next hfits =>
      have hc : c.octets.length ≤ (bundle (c :: cs)).length := by
        rw [bundle, flatMap_cons, length_append]
        exact Nat.le_add_right _ _
      rw [receivePdu_command _ _ _ _ (Nat.le_trans (Nat.add_le_add_left hc _) hfits)]
    · rfl
  · match n with
    | 0 =>
      -- An empty PDU still ends the reassembly of the PDU before it.
      have hempty := h classicLink rfl (fun _ => true) [.onAcl 0x02 [5] 0] 1 [] rfl (by decide)
      exact absurd (congrArg (fun w => w.mgr.reassembler.buf) hempty) (by decide +kernel)
    | 1 => exact .inl rfl
    | k + 2 =>
      refine .inr (Nat.le_of_not_lt fun hk => ?_)
      obtain ⟨hfits, hne⟩ := bundle_ne_each hk
      exact hne (h classicLink rfl _ _ 1 _ (by simp) hfits)
  · intro hn link _ port inputs nowUs cs hcs hlen
    rcases hn with rfl | hlong
    · obtain ⟨c, rfl⟩ := length_eq_one_iff.mp hcs
      rw [bundle, flatMap_singleton]
      rfl
    · have hmin := length_le_bundle cs
      omega

/-! The peer answers the Connection Request and sends its own Configure Request with the answer. -/

def answerAndConfigure : List Command :=
  [⟨sigConnectionResponse, 1, [0x50, 0, 0x40, 0, 0, 0, 0, 0], by decide⟩,
    ⟨sigConfigureRequest, 7, [0x40, 0, 0, 0, 0x01, 2, 0xA0, 0x02], by decide⟩]

/-- In one PDU the Configure Request is lost and goes unanswered. -/
theorem answerAndConfigure_lost :
    let w := run classicLink (fun _ => true) [.open 0x0011 0 true 0]
    let bundled := receivePdu classicLink (answerWith fun _ => true) 1 w (bundle answerAndConfigure)
    let each := receiveEach classicLink (answerWith fun _ => true) 1 w answerAndConfigure
    (bundle answerAndConfigure).length = 24 ∧
      (bundled.chan 0).state = .config ∧ (bundled.chan 0).inboundConfigDone = false ∧
      (sentPackets bundled.history).length = 2 ∧
      (each.chan 0).state = .config ∧ (each.chan 0).inboundConfigDone = true ∧
      (sentPackets each.history).length = 3 := by
  decide +kernel

end Bluzing.L2cap
