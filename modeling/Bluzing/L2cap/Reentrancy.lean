import Bluzing.L2cap.Lifetimes
import Bluzing.L2cap.Sending

/-! The manager under a transport that may call it back from inside `send_acl`. -/
namespace Bluzing.L2cap

def Carries (link : Link) (acl payload : Bytes) : Prop :=
  payload.length ≤ 64 ∧ ∃ pdu, encodePdu 64 link.signalingCid payload = .ok pdu ∧
    ∃ c ∈ fragments link.aclFragSize pdu.data, ∃ wr,
      encodeFragment link.handle c.1 c.2 = .ok wr ∧ wr.data = acl

def Responding (link : Link) (w : World) : Prop :=
  ∃ acl older payload, w.history = .sent acl :: older ∧ Carries link acl payload ∧
    (payload.head? = some sigConfigureResponse ∨ payload.head? = some sigDisconnectionResponse)

structure Obedient (link : Link) (send : Send) : Prop where
  orderly : ∀ w acl, Orderly w → Orderly (send w acl).1
  calm : ∀ w acl, Responding link w → (send w acl).1.chan = w.chan

variable {link : Link} {send : Send} {w : World}

section

variable (hs : Obedient link send)
include hs

lemma sendFragments_orderly (h : Orderly w)
    (frags : List (Bool × Bytes)) : Orderly (sendFragments link send w frags).1 := by
  induction frags generalizing w with
  | nil => exact h
  | cons c frags ih =>
    unfold sendFragments
    split
    · exact h
    next wr _ =>
      have hsent := hs.orderly _ wr.data (h.sent wr.data)
      dsimp only
      split
      · exact ih hsent
      · exact hsent

lemma sendCommand_orderly (h : Orderly w)
    (encoded : Except Status Writer) : Orderly (sendCommand link send w encoded).1 := by
  unfold sendCommand
  split
  · exact h
  unfold sendL2capPdu
  split
  · exact h
  split
  · exact h
  · exact sendFragments_orderly hs h _

lemma sendFragments_calm {payload : Bytes}
    (hcode : payload.head? = some sigConfigureResponse ∨
      payload.head? = some sigDisconnectionResponse) {frags : List (Bool × Bytes)}
    (hfrags : ∀ c ∈ frags, ∀ wr, encodeFragment link.handle c.1 c.2 = .ok wr →
      Carries link wr.data payload) (w : World) :
    (sendFragments link send w frags).1.chan = w.chan := by
  induction frags generalizing w with
  | nil => rfl
  | cons c frags ih =>
    obtain ⟨hc, hrest⟩ := List.forall_mem_cons.mp hfrags
    unfold sendFragments
    split
    · rfl
    next wr hwr =>
      have hsent : (send (w.emit (.sent wr.data)) wr.data).1.chan = w.chan :=
        hs.calm _ wr.data ⟨wr.data, w.history, payload, rfl, hc wr hwr, hcode⟩
      dsimp only
      split
      · rw [ih hrest, hsent]
      · exact hsent

lemma sendCommand_calm {encoded : Except Status Writer}
    (hcode : ∀ wr, encoded = .ok wr → wr.data.head? = some sigConfigureResponse ∨
      wr.data.head? = some sigDisconnectionResponse) (w : World) :
    (sendCommand link send w encoded).1.chan = w.chan := by
  unfold sendCommand
  split
  · rfl
  next wr =>
  unfold sendL2capPdu
  split
  · rfl
  next hlen =>
  split
  · rfl
  next pdu hpdu =>
    refine sendFragments_calm hs (hcode wr rfl) (fun c hc out hout => ?_) w
    exact ⟨Nat.le_of_not_lt hlen, pdu, hpdu, c, hc, out, hout, rfl⟩

lemma configureResponse_calm (w : World) (identifier : UInt8)
    (localCid : UInt16) :
    (sendCommand link send w (sigEncodeConfigureResponse (.init (sigHeaderLen + 10)) identifier
      localCid 0 configResultSuccess 0)).1.chan = w.chan := by
  refine sendCommand_calm hs (fun wr hwr => .inl ?_) w
  cases hwr
  rfl

lemma disconnectionResponse_calm (w : World) (identifier : UInt8)
    (destinationCid sourceCid : UInt16) :
    (sendCommand link send w (sigEncodeDisconnectionResponse (.init (sigHeaderLen + 4)) identifier
      destinationCid sourceCid)).1.chan = w.chan := by
  refine sendCommand_calm hs (fun wr hwr => .inr ?_) w
  cases hwr
  rfl

variable {data : Bytes} {nowUs : ℕ}

omit hs in
lemma findChannelByIdentifier_state {identifier : UInt8} {i : Slot}
    (h : findChannelByIdentifier w identifier = some i) : (w.chan i).state ≠ .free := by
  simpa [Channel.live] using (findChannelByIdentifier_some h).1

omit hs in
lemma findChannelByLocalCid_state {cid : UInt16} {i : Slot}
    (h : findChannelByLocalCid w cid = some i) : (w.chan i).state ≠ .free := by
  simpa [Channel.live] using (findChannelByLocalCid_some h).1

lemma startOurConfigureRequest_orderly (h : Orderly w) {i : Slot}
    (hlive : (w.chan i).state ≠ .free) :
    Orderly (startOurConfigureRequest link send w i nowUs) := by
  have hpending : Orderly ((allocIdentifier w).2.update i fun c =>
      { c with pendingIdentifier := (allocIdentifier w).1 }) := h.allocIdentifier.update_same rfl
  refine sendCommand_orderly hs (hpending.addTimer ?_ nowUs) _
  rw [World.update_chan]
  exact hlive

lemma handleConnectionResponse_orderly (h : Orderly w)
    (identifier : UInt8) :
    Orderly (handleConnectionResponse link send w identifier data nowUs) := by
  unfold handleConnectionResponse
  split
  · exact h
  next i hfind =>
  split
  · exact h
  next hst =>
  have hst := not_not.mp hst
  split
  · exact h
  next rsp _ =>
  split
  · exact h
  have hcancel := h.cancelTimer i
  split
  · exact hcancel.finishClose (findChannelByIdentifier_state hfind) _
  · have hfits := hcancel.slots i
    rw [World.cancelTimer_chan, hst] at hfits
    have hconfig : Orderly ((w.cancelTimer i).update i fun c =>
        { c with remoteCid := rsp.destinationCid, state := .config }) := hcancel.update hfits nofun
    refine startOurConfigureRequest_orderly hs hconfig ?_
    rw [World.update_chan]
    exact nofun

lemma handleConfigureRequest_orderly (h : Orderly w)
    (identifier : UInt8) : Orderly (handleConfigureRequest link send w identifier data) := by
  unfold handleConfigureRequest
  split
  · exact h
  next req _ =>
  split
  · exact h
  next i _ =>
  split
  · exact h
  next hst =>
  have hst := not_not.mp hst
  have hmtu : Orderly (w.update i fun c => { c with remoteMtu := req.mtu.getD c.remoteMtu }) :=
    h.update_same rfl
  have hsent := sendCommand_orderly hs hmtu (sigEncodeConfigureResponse
    (.init (sigHeaderLen + 10)) identifier ((w.update i fun c =>
      { c with remoteMtu := req.mtu.getD c.remoteMtu }).chan i).localCid 0 configResultSuccess 0)
  dsimp only
  split
  · refine Orderly.opens (hsent.update_same rfl) ?_
    rw [World.update_chan, configureResponse_calm hs, World.update_chan]
    exact hst
  · exact hsent.update_same rfl

omit hs in
lemma handleConfigureResponse_orderly (h : Orderly w) (identifier : UInt8) :
    Orderly (handleConfigureResponse w identifier data) := by
  unfold handleConfigureResponse
  split
  · exact h
  next i hfind =>
  split
  · exact h
  next hst =>
  have hst := not_not.mp hst
  split
  · exact h
  next rsp _ =>
  have hanswered : Orderly ((w.cancelTimer i).update i fun c =>
      { c with pendingIdentifier := 0 }) := (h.cancelTimer i).update_same rfl
  dsimp only
  split
  · refine hanswered.finishClose ?_ _
    rw [World.update_chan]
    exact findChannelByIdentifier_state hfind
  split
  · refine Orderly.opens (hanswered.update_same rfl) ?_
    rw [World.update_chan, World.update_chan]
    exact hst
  · exact hanswered.update_same rfl

lemma handleDisconnectionRequest_orderly (h : Orderly w)
    (identifier : UInt8) : Orderly (handleDisconnectionRequest link send w identifier data) := by
  unfold handleDisconnectionRequest
  split
  · exact h
  split
  · exact h
  next i hfind =>
    refine (sendCommand_orderly hs h _).finishClose ?_ _
    rw [disconnectionResponse_calm hs]
    exact findChannelByLocalCid_state hfind

omit hs in
lemma handleDisconnectionResponse_orderly (h : Orderly w) (identifier : UInt8) :
    Orderly (handleDisconnectionResponse w identifier data) := by
  unfold handleDisconnectionResponse
  split
  · exact h
  next i hfind =>
  split
  · exact h
  split
  · exact h
  · exact h.finishClose (findChannelByIdentifier_state hfind) _

lemma dispatchCommand_orderly (h : Orderly w) (hdr : SigHeader) :
    Orderly (dispatchCommand link send w hdr data nowUs) := by
  unfold dispatchCommand
  split
  · exact handleConnectionResponse_orderly hs h _
  split
  · exact handleConfigureRequest_orderly hs h _
  split
  · exact handleConfigureResponse_orderly h _
  split
  · exact handleDisconnectionRequest_orderly hs h _
  split
  · exact handleDisconnectionResponse_orderly h _
  split
  · unfold handleCommandReject
    split
    · exact h
    next i hfind => exact h.finishClose (findChannelByIdentifier_state hfind) _
  · exact h

variable {w' : World}

lemma open_orderly (h : Orderly w) (psm localMtu : UInt16)
    (onEvent : Bool) : Orderly (channelManagerOpen link send w psm localMtu onEvent nowUs).1 := by
  unfold channelManagerOpen
  split
  · exact h
  next i hfind =>
  have hfits := h.slots i
  rw [findFreeChannel_some hfind] at hfits
  have halloc : Orderly (allocIdentifier (allocLocalCid w).2).2 :=
    h.of_same rfl (fun _ => rfl) fun _ => id
  have hclaim : Orderly (((allocIdentifier (allocLocalCid w).2).2.emit (.claimed i)).update i
      fun _ => connecting psm localMtu (allocLocalCid w).1 (allocIdentifier (allocLocalCid w).2).1
        onEvent) := by
    refine halloc.emit_update rfl hfits.1 ?_ nofun
    rw [occupied_claimed, lifetime_claimed]
    exact ⟨rfl, rfl⟩
  have harmed : Orderly (allocChannel w i psm localMtu onEvent nowUs) := by
    refine hclaim.addTimer ?_ nowUs
    rw [World.update_chan]
    exact nofun
  have hsent : Orderly (sendConnectionRequest link send
      (allocChannel w i psm localMtu onEvent nowUs) i).1 := sendCommand_orderly hs harmed _
  dsimp only
  split
  · have hgone : Orderly (World.update (World.release _ i) i fun c => { c with state := .free }) :=
      (hsent.cancelTimer i).release rfl (cancelTimer_pending _ i)
    exact hgone
  · exact hsent

omit hs in
lemma openFixed_orderly (h : Orderly w) (cid : UInt16) (onEvent : Bool) :
    Orderly (channelManagerOpenFixed w cid onEvent).1 := by
  unfold channelManagerOpenFixed
  split
  · exact h
  split
  · exact h
  next i hfind =>
  have hfits := h.slots i
  rw [findFreeChannel_some hfind] at hfits
  have hclaim : Orderly ((w.emit (.claimed i)).update i fun _ => fixedChannel cid onEvent) := by
    refine h.emit_update rfl hfits.1 ?_ nofun
    rw [occupied_claimed, lifetime_claimed]
    exact ⟨rfl, .fresh⟩
  have hopen : Ongoing (.opened :: lifetime i (.claimed i :: w.history)) := by
    rw [lifetime_claimed]
    exact .opened
  refine hclaim.fire (.ongoing hopen) ?_
  rw [World.update_chan]
  exact ⟨occupied_claimed, hopen⟩

lemma close_orderly (h : Orderly w) (localCid : UInt16) :
    Orderly (channelManagerClose link send w localCid nowUs) := by
  unfold channelManagerClose
  split
  · exact h
  next i hfind =>
  split
  next hopen =>
    have hfits := h.slots i
    rw [hopen.1] at hfits
    have hasks : Orderly ((allocIdentifier w).2.update i fun c =>
        { c with pendingIdentifier := (allocIdentifier w).1, state := .waitDisconnectRsp }) :=
      h.allocIdentifier.update hfits nofun
    refine sendCommand_orderly hs (hasks.addTimer ?_ nowUs) _
    rw [World.update_chan]
    exact nofun
  · exact h.finishClose (findChannelByLocalCid_state hfind) _

lemma send_orderly (h : Orderly w) (localCid : UInt16)
    (data : Bytes) : Orderly (channelManagerSend link send w localCid data).1 := by
  unfold channelManagerSend
  split
  · exact h
  split
  · exact h
  split
  · exact h
  split
  · exact h
  · exact sendFragments_orderly hs h _

lemma onAcl_orderly (h : Orderly w) (pbFlag : UInt8)
    (data : Bytes) : Orderly (channelManagerOnAcl link send w pbFlag data nowUs) := by
  have hreceived := h.received
  unfold channelManagerOnAcl
  dsimp only
  split
  · exact hreceived _
  unfold routePdu
  split
  · unfold processSignalingPdu
    split
    · exact hreceived _
    · exact dispatchCommand_orderly hs (hreceived _) _
  split
  · exact hreceived _
  next i _ =>
  split
  next hst =>
    have hfits := (hreceived (receiveFragment w.mgr.reassembler pbFlag data).1).slots i
    rw [hst] at hfits
    refine (hreceived _).fire (.ongoing (.data hfits.2)) ?_
    rw [hst]
    exact ⟨hfits.1, .data hfits.2⟩
  · exact hreceived _

omit hs in
lemma tickRound_orderly (h : Orderly w) (hround : tickRound w nowUs = some w') : Orderly w' := by
  unfold tickRound at hround
  split at hround
  · cases hround
  next i timers hpop =>
    cases hround
    have htimers := TimerList.popExpired_some hpop
    have hpopped : Orderly (w.modify fun m => { m with timers }) :=
      h.of_same rfl (fun _ => rfl) fun s hs => by
        rw [World.timerPending, htimers]
        exact List.mem_cons_of_mem i hs
    refine hpopped.finishClose (h.timers i ?_) _
    rw [World.timerPending, htimers]
    exact List.mem_cons_self

lemma apply_orderly (h : Orderly w) (input : Input) :
    Orderly (apply link send w input) := by
  cases input with
  | «open» psm localMtu onEvent nowUs => exact open_orderly hs h psm localMtu onEvent
  | openFixed cid onEvent => exact openFixed_orderly h cid onEvent
  | close localCid nowUs => exact close_orderly hs h localCid
  | send localCid data => exact send_orderly hs h localCid data
  | onAcl pbFlag data nowUs => exact onAcl_orderly hs h pbFlag data
  | tick nowUs => exact tick_invariant (fun _ _ hround h => tickRound_orderly h hround) h
  | tickRound nowUs =>
    simp only [apply]
    cases hround : tickRound w nowUs with
    | none => exact h
    | some w' => exact tickRound_orderly h hround

end

abbrev Environment := World → Bool × List Input

section

variable (link : Link) (env : Environment)

def component : Reentrant World Bytes Bool Input where
  answer w := ({ w with calls := w.calls + 1 }, env w)
  handle send w input := apply link send w input

def runReentrant (depth : ℕ) (inputs : List Input) : World :=
  inputs.foldl (apply link ((component link env).port depth)) World.init

def NoCommand : World → List Input → Prop
  | _, [] => True
  | w, input :: rest =>
      (∃ pbFlag data nowUs, input = .onAcl pbFlag data nowUs) ∧ commandOf link w input = none ∧
        NoCommand (apply link (answerWith fun _ => true) w input) rest

def Calm : Prop :=
  ∀ w, Responding link w → NoCommand link { w with calls := w.calls + 1 } (env w).2

end

variable {env : Environment}

lemma onAcl_noCommand (send : Send) {w : World} {pbFlag : UInt8} {data : Bytes} {nowUs : ℕ}
    (h : commandOf link w (.onAcl pbFlag data nowUs) = none) :
    channelManagerOnAcl link send w pbFlag data nowUs =
        channelManagerOnAcl link (answerWith fun _ => true) w pbFlag data nowUs ∧
      (channelManagerOnAcl link send w pbFlag data nowUs).chan = w.chan := by
  unfold channelManagerOnAcl
  simp only [commandOf] at h
  dsimp only
  split
  · exact ⟨rfl, rfl⟩
  next hdr payload hpdu =>
  simp only [hpdu] at h
  unfold routePdu
  split
  next hcid =>
    rw [if_pos hcid] at h
    rw [processSignalingPdu, processSignalingPdu, h]
    exact ⟨rfl, rfl⟩
  · refine ⟨rfl, ?_⟩
    split
    · rfl
    split
    · rw [chan_of_mgr (fireEvent_mgr _ _ _), World.received_chan]
    · rfl

lemma NoCommand.chan (send : Send) {inputs : List Input} {w : World}
    (h : NoCommand link w inputs) : (inputs.foldl (apply link send) w).chan = w.chan := by
  induction inputs generalizing w with
  | nil => rfl
  | cons input inputs ih =>
    obtain ⟨⟨pbFlag, data, nowUs, rfl⟩, hcmd, hrest⟩ := h
    obtain ⟨hsame, hchan⟩ := onAcl_noCommand send hcmd
    rw [List.foldl_cons]
    simp only [apply] at hrest ⊢
    rw [← hsame] at hrest
    rw [ih hrest, hchan]

lemma port_obedient (hcalm : Calm link env) (depth : ℕ) :
    Obedient link ((component link env).port depth) := by
  induction depth with
  | zero => exact ⟨fun w _ h => h.of_same rfl (fun _ => rfl) fun _ => id, fun _ _ _ => rfl⟩
  | succ depth ih =>
    refine ⟨fun w _ h => ?_, fun w _ hresponding => (hcalm w hresponding).chan _⟩
    have hanswered : Orderly { w with calls := w.calls + 1 } :=
      h.of_same rfl (fun _ => rfl) fun _ => id
    exact foldl_invariant (I := Orderly) (fun _ input h => apply_orderly ih h input) _ hanswered

/-- If no signaling command is delivered from inside the send of a Configure Response or a
Disconnection Response, then every channel lives its life in order, however deep the transport calls
back elsewhere: its events are a prefix of `OPENED? DATA* CLOSED`, and a slot once given up is live
again only for the next channel. -/
theorem runReentrant_inOrder (link : Link) (env : Environment) (hcalm : Calm link env) (depth : ℕ)
    (inputs : List Input) :
    Always InOrder (runReentrant link env depth inputs).history ∧
      ∀ s, ((runReentrant link env depth inputs).chan s).state ≠ .free ↔
        occupied s (runReentrant link env depth inputs).history = true := by
  have horderly := foldl_invariant (I := Orderly)
      (fun _ input h => apply_orderly (port_obedient hcalm depth) h input) inputs orderly_init
  exact ⟨horderly.history, fun s => (horderly.slots s).live_iff⟩

def repliesTo (code : UInt8) (pdu : Bytes) : Environment := fun w =>
  match w.history with
  | .sent acl :: _ => (true, if acl.getD 8 0 = code then [.onAcl 0x02 pdu 3] else [])
  | _ => (true, [])

lemma Carries.code {link : Link} {acl payload : Bytes} {code : UInt8}
    (h : Carries link acl payload) (hsize : headerLen + 64 ≤ link.aclFragSize)
    (hmax : link.aclFragSize ≤ maxAclFragment) (hcode : payload.head? = some code) :
    acl.getD 8 0 = code := by
  obtain ⟨hlen, pdu, hpdu, c, hc, wr, hwr, rfl⟩ := h
  obtain ⟨pdu', hpdu', hdata⟩ := encodePdu_octets link.signalingCid hlen
  obtain rfl : pdu = pdu' := Except.ok.inj (hpdu.symm.trans hpdu')
  have hshort : (pduOctets link.signalingCid payload).length ≤ link.aclFragSize := by
    rw [pduOctets_length]
    omega
  have hpos : 0 < link.aclFragSize := by omega
  have hne : pduOctets link.signalingCid payload ≠ [] := List.cons_ne_nil _ _
  rw [hdata, fragments_eq_mark, Chunks.toChunks_eq_cons hpos hne, List.take_of_length_le hshort,
    List.drop_of_length_le hshort] at hc
  obtain rfl : c = (true, pduOctets link.signalingCid payload) := by
    simpa [mark, List.toChunks] using hc
  rcases encodeFragment_cases link.handle true (Nat.le_trans hshort hmax) with
    ⟨wr', hwr', hpacket, -⟩ | herror
  · obtain rfl : wr = wr' := Except.ok.inj (hwr.symm.trans hwr')
    obtain ⟨rest, rfl⟩ := List.head?_eq_some_iff.mp hcode
    rw [hpacket]
    rfl
  · cases hwr.symm.trans herror

lemma repliesTo_calm {code : UInt8} (hconfigure : code ≠ sigConfigureResponse)
    (hdisconnect : code ≠ sigDisconnectionResponse) (pdu : Bytes) :
    Calm classicLink (repliesTo code pdu) := by
  rintro w ⟨acl, older, payload, hist, hcarries, hcode⟩
  have hne : acl.getD 8 0 ≠ code := by
    rcases hcode with hcode | hcode
    · rw [hcarries.code (by decide) (by decide) hcode]
      exact hconfigure.symm
    · rw [hcarries.code (by decide) (by decide) hcode]
      exact hdisconnect.symm
  simp only [repliesTo, hist, if_neg hne]
  trivial

theorem promptPeer_inOrder :
    let w := runReentrant classicLink (repliesTo sigConnectionRequest
      [12, 0, 0x01, 0, 0x03, 1, 8, 0, 0x50, 0, 0x40, 0, 0, 0, 0, 0]) 1 [.open 0x0011 0 true 0]
    (w.chan 0).state = .config ∧ Always InOrder w.history ∧
      ∀ s, (w.chan s).state ≠ .free ↔ occupied s w.history = true :=
  ⟨by decide +kernel,
    runReentrant_inOrder classicLink _ (repliesTo_calm (by decide) (by decide) _) 1 _⟩

/-! The peer completes the handshake, and hangs up from inside the send of a response. -/

def configureRequest : Input :=
  .onAcl 0x02 [12, 0, 0x01, 0, 0x04, 7, 8, 0, 0x40, 0, 0, 0, 0x01, 2, 0xA0, 0x02] 3

def disconnectionRequest : Bytes := [8, 0, 0x01, 0, 0x06, 9, 4, 0, 0x40, 0, 0x50, 0]

/-- During the Configure Response: the closed channel is opened again. -/
theorem interruptedResponse_outOfOrder :
    let w := runReentrant classicLink (repliesTo sigConfigureResponse disconnectionRequest) 1
      (silentPeer ++ [configureRequest])
    let v := runReentrant classicLink (repliesTo sigDisconnectionResponse disconnectionRequest) 1
      (silentPeer ++ [configureRequest, .onAcl 0x02 disconnectionRequest 4])
    lifetime 0 w.history = [.opened, .closed .peerDisconnected] ∧
      (w.chan 0).state = .opened ∧ occupied 0 w.history = false ∧
      lifetime 0 v.history =
        [.closed .peerDisconnected, .closed .peerDisconnected, .opened] := by
  decide +kernel

end Bluzing.L2cap
