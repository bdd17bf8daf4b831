import Bluzing.Core.Timer
import Bluzing.Lib.History
import Bluzing.L2cap.ChannelNames
import Bluzing.L2cap.Sending

/-! How a channel comes to be open, in a run with a transport that does not call back: its
Connection Request is answered, then its Configure Request, and the peer's own Configure Request is
answered on the way. -/
namespace Bluzing.L2cap
open List
variable (link : Link) (port : ℕ → Bool)

/-- The packets of this signaling command are given to `send_acl` in order, all of them unless the
transport refuses one. -/
def Hands (w w' : World) (encoded : Except Status Writer) : Prop :=
  ∃ command packets rest, encoded = .ok command ∧
    (fragments link.aclFragSize (pduOctets link.signalingCid command.data)).map
      (fun c => packet link.handle c.1 c.2) = packets ++ rest ∧
    sentPackets w'.history = sentPackets w.history ++ packets ∧ packets ≠ [] ∧
    ((∀ k, w.calls ≤ k → k < w'.calls → port k = true) → rest = [])

def LiveAfter (s : Slot) (inputs : List Input) : Prop := ((run link port inputs).chan s).live = true

/-- Such a step was taken, and the channel has been live from then on. -/
def LiveSince (s : Slot) (step : List Input → Input → World → World → Prop)
    (inputs : List Input) : Prop :=
  HeldSince (fun before input =>
      step before input (run link port before) (run link port (before ++ [input])) ∧
        LiveAfter link port s (before ++ [input]))
    (fun before input => LiveAfter link port s (before ++ [input])) inputs

/-- The channel was opened, with a Connection Request that has this identifier. -/
def Connecting (s : Slot) (identifier : UInt8) : List Input → Prop :=
  LiveSince link port s fun _ input w w' =>
    ∃ psm localMtu onEvent nowUs, input = .open psm localMtu onEvent nowUs ∧
      findFreeChannel w = some s ∧
      Hands link port w w' (sigEncodeConnectionRequest (.init (sigHeaderLen + 4)) identifier psm
        w.mgr.nextLocalCid)

/-- The Connection Request was accepted for this remote CID, and a Configure Request followed that
has this identifier. -/
def Configuring (s : Slot) (remoteCid : UInt16) (identifier : UInt8) : List Input → Prop :=
  LiveSince link port s fun before input w w' =>
    ∃ hdr data rsp, Connecting link port s hdr.identifier before ∧
      commandOf link w input = some (hdr, data) ∧
      hdr.code = sigConnectionResponse ∧ sigParseConnectionResponse data = .ok rsp ∧
      rsp.result = connResultSuccess ∧ rsp.destinationCid = remoteCid ∧
      Hands link port w w' (sigEncodeConfigureRequest (.init (sigHeaderLen + 8)) identifier
        remoteCid 0 (w.chan s).localMtu)

/-- Our Configure Request was accepted. -/
def Configured (s : Slot) (remoteCid : UInt16) : List Input → Prop :=
  LiveSince link port s fun before input w _ =>
    ∃ hdr data rsp, Configuring link port s remoteCid hdr.identifier before ∧
      commandOf link w input = some (hdr, data) ∧
      hdr.code = sigConfigureResponse ∧ sigParseConfigureResponse data = .ok rsp ∧
      rsp.result = configResultSuccess

/-- A Configure Request for the local CID came in, and the Configure Response to it was given to
`send_acl`. -/
def Answered (s : Slot) : List Input → Prop :=
  LiveSince link port s fun _ input w w' =>
    ∃ hdr data req, commandOf link w input = some (hdr, data) ∧
      hdr.code = sigConfigureRequest ∧ sigParseConfigureRequest data = .ok req ∧
      req.destinationCid = (w.chan s).localCid ∧ (w.chan s).state = .config ∧
      Hands link port w w' (sigEncodeConfigureResponse (.init (sigHeaderLen + 10))
        hdr.identifier (w.chan s).localCid 0 configResultSuccess 0)

/-- The link has a fragment size as `bt_l2cap_channel_manager_init` sets it. -/
def Link.Sized (link : Link) : Prop := 0 < link.aclFragSize ∧ link.aclFragSize ≤ maxAclFragment

/-- A request of ours is outstanding. -/
def Channel.Awaits (c : Channel) : Prop :=
  c.state = .waitConnectRsp ∨ c.state = .waitDisconnectRsp ∨
    c.state = .config ∧ c.outboundConfigDone = false

def Handshake (s : Slot) (inputs : List Input) (c : Channel) : Prop :=
  match c.state with
  | .free => True
  | .waitConnectRsp =>
      (link.Sized → link.handle ≤ 0x0FFF ∧ Connecting link port s c.pendingIdentifier inputs) ∧
      c.pendingIdentifier ≠ 0 ∧ c.outboundConfigDone = false ∧ c.inboundConfigDone = false
  | .config => (link.Sized → link.handle ≤ 0x0FFF) ∧
      (if c.outboundConfigDone then (link.Sized → Configured link port s c.remoteCid inputs) ∧
          c.pendingIdentifier = 0 ∧ c.inboundConfigDone = false
        else (link.Sized → Configuring link port s c.remoteCid c.pendingIdentifier inputs) ∧
          c.pendingIdentifier ≠ 0) ∧
      (c.inboundConfigDone = true → link.Sized → Answered link port s inputs)
  | .opened => (c.isFixed = false → link.Sized →
        Configured link port s c.remoteCid inputs ∧ Answered link port s inputs) ∧
      c.pendingIdentifier = 0
  | .waitDisconnectRsp => c.pendingIdentifier ≠ 0

/-- What a run says of a slot: how its channel came to its state, and that its timer is pending just
while a request is outstanding. -/
structure Tracked (s : Slot) (inputs : List Input) : Prop where
  shaken : Handshake link port s inputs ((run link port inputs).chan s)
  timer : (run link port inputs).timerPending s ↔ ((run link port inputs).chan s).Awaits

section Sending
variable {link : Link} {port : ℕ → Bool} {w : World}

lemma sentPackets_cons (e : Event) (history : List Event) :
    sentPackets (e :: history) = sentPackets history ++ sentPackets [e] := by
  simp [sentPackets, filterMap_append]

lemma sendFragments_hands (hhandle : link.handle ≤ 0x0FFF) {frags : List (Bool × Bytes)}
    (hfrags : ∀ c ∈ frags, c.2.length ≤ maxAclFragment) (w : World) :
    ∃ packets rest, frags.map (fun c => packet link.handle c.1 c.2) = packets ++ rest ∧
      sentPackets (sendFragments link (answerWith port) w frags).1.history =
        sentPackets w.history ++ packets ∧ (frags ≠ [] → packets ≠ []) ∧
      ((∀ k, w.calls ≤ k → k < (sendFragments link (answerWith port) w frags).1.calls →
        port k = true) → rest = []) := by
  induction frags generalizing w with
  | nil => exact ⟨[], [], rfl, (append_nil _).symm, fun h => absurd rfl h, fun _ => rfl⟩
  | cons c frags ih =>
    obtain ⟨first, chunk⟩ := c
    obtain ⟨hchunk, hfrags⟩ := forall_mem_cons.mp hfrags
    obtain ⟨wr, hwr, hdata⟩ := encodeFragment_packet hhandle first hchunk
    have hone := sentPackets_cons (.sent wr.data) w.history
    have hcalls : (w.emit (.sent wr.data)).calls = w.calls := rfl
    by_cases hport : port w.calls = true
    · simp only [sendFragments, hwr, answerWith, hcalls, if_pos hport]
      obtain ⟨packets, rest, hsplit, hsent, -, hall⟩ :=
        ih hfrags { w.emit (.sent wr.data) with calls := w.calls + 1 }
      refine ⟨wr.data :: packets, rest, by rw [map_cons, hsplit, hdata]; rfl, ?_, by simp,
        fun h => hall fun k hk => h k (Nat.le_of_succ_le hk)⟩
      exact hsent.trans ((congrArg (· ++ packets) hone).trans (append_assoc ..))
    · simp only [sendFragments, hwr, answerWith, hcalls, if_neg hport]
      -- the transport refuses the packet, and nothing more is given to it
      exact ⟨[wr.data], _, by rw [map_cons, hdata]; rfl, hone, by simp,
        fun h => absurd (h w.calls (Nat.le_refl _) (Nat.lt_succ_self _)) hport⟩

/-- The command is encoded and fits the buffer of `send_command`. -/
def Encodes (encoded : Except Status Writer) : Prop :=
  ∃ command, encoded = .ok command ∧ command.data.length ≤ 64

lemma sendCommand_eq (send : Send) (w : World) {command : Writer}
    (hlen : command.data.length ≤ 64) :
    sendCommand link send w (.ok command) = sendFragments link send w
      (fragments link.aclFragSize (pduOctets link.signalingCid command.data)) := by
  obtain ⟨wr, hwr, hdata⟩ := encodePdu_octets link.signalingCid hlen
  simp only [sendCommand, sendL2capPdu, if_neg (Nat.not_lt.mpr hlen), hwr, sendFragmented, hdata]

lemma sendCommand_hands (hlink : link.Sized) (hhandle : link.handle ≤ 0x0FFF) (w : World)
    {encoded : Except Status Writer} (hencoded : Encodes encoded) :
    Hands link port w (sendCommand link (answerWith port) w encoded).1 encoded := by
  obtain ⟨command, rfl, hlen⟩ := hencoded
  obtain ⟨hne, hshort⟩ := fragments_pduOctets link.signalingCid command.data hlink.1
  obtain ⟨packets, rest, hsplit, hhanded, hsome, hall⟩ :=
    @sendFragments_hands _ port hhandle _ (fun c hc => (hshort c hc).trans hlink.2) w
  rw [sendCommand_eq _ _ hlen]
  exact ⟨command, packets, rest, rfl, hsplit, hhanded, hsome hne, hall⟩

lemma Hands.of_eq {w₀ w' v : World} {encoded : Except Status Writer}
    (h : Hands link port w w' encoded) (hsent : sentPackets w.history = sentPackets w₀.history)
    (hcalls : w.calls = w₀.calls) (hsent' : sentPackets v.history = sentPackets w'.history)
    (hcalls' : v.calls = w'.calls) : Hands link port w₀ v encoded := by
  unfold Hands at h ⊢
  rwa [hsent', hcalls', ← hsent, ← hcalls]

lemma fireEvent_sent (w : World) (i : Slot) (event : ChannelEvent) :
    sentPackets (fireEvent w i event).history = sentPackets w.history ∧
      (fireEvent w i event).calls = w.calls := by
  unfold fireEvent
  split
  · exact ⟨(sentPackets_cons ..).trans (append_nil _), rfl⟩
  · exact ⟨rfl, rfl⟩

lemma handle_le_of_sent (hlink : link.Sized) {send : Send} {encoded : Except Status Writer}
    (hencoded : Encodes encoded) (hok : (sendCommand link send w encoded).2 = .ok) :
    link.handle ≤ 0x0FFF := by
  obtain ⟨command, rfl, hlen⟩ := hencoded
  rw [sendCommand_eq _ _ hlen] at hok
  obtain ⟨hne, hshort⟩ := fragments_pduOctets link.signalingCid command.data hlink.1
  exact (sendFragments_transmits (fun c hc => (hshort c hc).trans hlink.2) hok).1 hne

lemma connectionRequest_encoded (identifier : UInt8) (psm cid : UInt16) :
    Encodes (sigEncodeConnectionRequest (.init (sigHeaderLen + 4)) identifier psm cid) :=
  ⟨_, rfl, Nat.le_of_ble_eq_true rfl⟩

lemma configureResponse_encoded (identifier : UInt8) (cid : UInt16) :
    Encodes (sigEncodeConfigureResponse (.init (sigHeaderLen + 10)) identifier cid 0
      configResultSuccess 0) := ⟨_, rfl, Nat.le_of_ble_eq_true rfl⟩

lemma configureRequest_encoded (identifier : UInt8) (cid mtu : UInt16) :
    Encodes (sigEncodeConfigureRequest (.init (sigHeaderLen + 8)) identifier cid 0 mtu) := by
  by_cases hmtu : mtu = 0
  · subst hmtu
    exact ⟨_, rfl, Nat.le_of_ble_eq_true rfl⟩
  · simp only [Encodes, sigEncodeConfigureRequest, encodeMtuOption, if_neg hmtu]
    exact ⟨_, rfl, Nat.le_of_ble_eq_true rfl⟩

end Sending

section

variable {link : Link} {port : ℕ → Bool} {s : Slot} {inputs : List Input} {input : Input}
  {step : List Input → Input → World → World → Prop}

lemma LiveSince.later (h : LiveSince link port s step inputs)
    (hlive : LiveAfter link port s (inputs ++ [input])) :
    LiveSince link port s step (inputs ++ [input]) := HeldSince.later h hlive

lemma LiveSince.now
    (h : step inputs input (run link port inputs) (run link port (inputs ++ [input])))
    (hlive : LiveAfter link port s (inputs ++ [input])) :
    LiveSince link port s step (inputs ++ [input]) := HeldSince.now ⟨h, hlive⟩

lemma Handshake.later {c : Channel} (h : Handshake link port s inputs c)
    (hlive : c.live = true → LiveAfter link port s (inputs ++ [input])) :
    Handshake link port s (inputs ++ [input]) c := by
  unfold Handshake at h ⊢
  have hlive := fun hne =>
    hlive (by simpa [Channel.live] using hne)
  split at h
  · trivial
  next hst =>
    exact ⟨fun hlink => (h.1 hlink).imp_right (·.later (hlive (by simp [hst]))), h.2⟩
  next hst =>
    have hlive := hlive (by simp [hst])
    refine ⟨h.1, ?_, fun hin hlink => (h.2.2 hin hlink).later hlive⟩
    split
    next hout =>
      rw [if_pos hout] at h
      exact ⟨fun hlink => (h.2.1.1 hlink).later hlive, h.2.1.2⟩
    next hout =>
      rw [if_neg hout] at h
      exact ⟨fun hlink => (h.2.1.1 hlink).later hlive, h.2.1.2⟩
  next hst =>
    have hlive := hlive (by simp [hst])
    refine ⟨fun hfixed hlink => ?_, h.2⟩
    exact ⟨(h.1 hfixed hlink).1.later hlive, (h.1 hfixed hlink).2.later hlive⟩
  · exact h

lemma Sets.tracked {c : Channel} {pending : Prop}
    (hs : Sets (run link port inputs).mgr (run link port (inputs ++ [input])).mgr s c pending)
    (hinv : ∀ t, Tracked link port t inputs) (htimer : pending ↔ c.Awaits)
    (hc : (c.live = true → LiveAfter link port s (inputs ++ [input])) →
      Handshake link port s (inputs ++ [input]) c) (t : Slot) :
    Tracked link port t (inputs ++ [input]) := by
  by_cases hts : t = s
  · subst hts
    have hchan := hs.chan_self
    have hpending : (run link port (inputs ++ [input])).timerPending t = pending := by
      simpa [World.timerPending] using hs.timers t
    constructor
    · rw [hchan]
      exact hc fun hlive => by rwa [LiveAfter, hchan]
    · rwa [hchan, hpending]
  · have hchan := hs.chan_of_ne hts
    constructor
    · rw [hchan]
      exact (hinv t).shaken.later fun hlive => by rwa [LiveAfter, hchan]
    · rw [hchan, ← (hinv t).timer]
      simp [World.timerPending, hs.timers, hts]

/-- A channel that is live after it was opened has had its Connection Request sent. -/
lemma open_hands (hlink : link.Sized) {w : World} {psm localMtu : UInt16} {onEvent : Bool}
    {nowUs : ℕ} (hf : findFreeChannel w = some s)
    (hlive : ((apply link (answerWith port) w (.open psm localMtu onEvent nowUs)).chan s).live =
      true) :
    link.handle ≤ 0x0FFF ∧
      Hands link port w (apply link (answerWith port) w (.open psm localMtu onEvent nowUs))
        (sigEncodeConnectionRequest (.init (sigHeaderLen + 4)) w.mgr.nextIdentifier psm
          w.mgr.nextLocalCid) := by
  have hchan : (allocChannel w s psm localMtu onEvent nowUs).chan s =
      connecting psm localMtu w.mgr.nextLocalCid w.mgr.nextIdentifier onEvent :=
    Function.update_self ..
  have hencoded := connectionRequest_encoded w.mgr.nextIdentifier psm w.mgr.nextLocalCid
  simp only [apply, channelManagerOpen, hf, sendConnectionRequest, hchan, connecting] at hlive ⊢
  split at hlive
  · simp [Channel.live] at hlive
  next hok =>
    rw [if_neg hok]
    have hhandle := handle_le_of_sent hlink hencoded (not_not.mp hok)
    refine ⟨hhandle, ?_⟩
    -- the slot is claimed before the request is sent
    have hsent := @sendCommand_hands _ port hlink hhandle
      (allocChannel w s psm localMtu onEvent nowUs) _ hencoded
    have hclaimed : sentPackets (allocChannel w s psm localMtu onEvent nowUs).history =
      sentPackets w.history := (sentPackets_cons ..).trans (append_nil _)
    exact hsent.of_eq hclaimed rfl rfl rfl

lemma startOurConfigureRequest_hands (hlink : link.Sized) (hhandle : link.handle ≤ 0x0FFF)
    (w : World) (i : Slot) (nowUs : ℕ) :
    Hands link port w (startOurConfigureRequest link (answerWith port) w i nowUs)
      (sigEncodeConfigureRequest (.init (sigHeaderLen + 8)) w.mgr.nextIdentifier
        (w.chan i).remoteCid 0 (w.chan i).localMtu) := by
  have hchan : (((allocIdentifier w).2.update i fun c =>
      { c with pendingIdentifier := w.mgr.nextIdentifier }).addTimer i nowUs).chan i =
        { w.chan i with pendingIdentifier := w.mgr.nextIdentifier } := Function.update_self ..
  have hsent := @sendCommand_hands _ port hlink hhandle (((allocIdentifier w).2.update i fun c =>
      { c with pendingIdentifier := w.mgr.nextIdentifier }).addTimer i nowUs) _
    (configureRequest_encoded w.mgr.nextIdentifier (w.chan i).remoteCid (w.chan i).localMtu)
  dsimp only [startOurConfigureRequest, allocIdentifier] at hchan hsent ⊢
  rw [hchan]
  exact hsent

section Commands
variable {w : World} {hdr : SigHeader} {data : Bytes}

lemma connectionResponse_hands (hcmd : commandOf link w input = some (hdr, data))
    (hlink : link.Sized) (hhandle : link.handle ≤ 0x0FFF)
    {rsp : ConnectionResponse} (hcode : hdr.code = sigConnectionResponse)
    (hfind : findChannelByIdentifier w hdr.identifier = some s)
    (hst : (w.chan s).state = .waitConnectRsp) (hparse : sigParseConnectionResponse data = .ok rsp)
    (hresult : rsp.result = connResultSuccess) :
    Hands link port w (apply link (answerWith port) w input)
      (sigEncodeConfigureRequest (.init (sigHeaderLen + 8)) w.mgr.nextIdentifier
        rsp.destinationCid 0 (w.chan s).localMtu) := by
  obtain ⟨ra, nowUs, happly⟩ := apply_command (answerWith port) hcmd
  have hfind' : findChannelByIdentifier (w.received ra) hdr.identifier = some s := hfind
  have hpending : connResultSuccess ≠ connResultPending := by decide
  rw [happly, dispatchCommand_connectionResponse _ _ _ _ _ hcode]
  have hsent := @startOurConfigureRequest_hands _ port hlink hhandle
    (((w.received ra).cancelTimer s).update s fun c =>
      { c with remoteCid := rsp.destinationCid, state := .config }) s nowUs
  rw [World.update_chan] at hsent
  simp only [handleConnectionResponse, hfind', World.received_chan, hst, hparse, hresult, hpending,
    ne_eq, not_true_eq_false, if_false]
  exact hsent

lemma configureRequest_hands (hcmd : commandOf link w input = some (hdr, data))
    (hlink : link.Sized) (hhandle : link.handle ≤ 0x0FFF)
    {req : ConfigureRequest} (hcode : hdr.code = sigConfigureRequest)
    (hparse : sigParseConfigureRequest data = .ok req)
    (hfind : findChannelByLocalCid w req.destinationCid = some s)
    (hst : (w.chan s).state = .config) :
    Hands link port w (apply link (answerWith port) w input)
      (sigEncodeConfigureResponse (.init (sigHeaderLen + 10)) hdr.identifier
        (w.chan s).localCid 0 configResultSuccess 0) := by
  obtain ⟨ra, nowUs, happly⟩ := apply_command (answerWith port) hcmd
  have hfind' : findChannelByLocalCid (w.received ra) req.destinationCid = some s := hfind
  have hdispatch : dispatchCommand link (answerWith port) (w.received ra) hdr data nowUs =
      handleConfigureRequest link (answerWith port) (w.received ra) hdr.identifier data := by
    simp [dispatchCommand, hcode, sigConnectionResponse, sigConfigureRequest]
  have hsent := @sendCommand_hands _ port hlink hhandle ((w.received ra).update s fun c =>
    { c with remoteMtu := req.mtu.getD c.remoteMtu }) _
      (configureResponse_encoded hdr.identifier (w.chan s).localCid)
  rw [happly, hdispatch]
  simp only [handleConfigureRequest, hparse, hfind', World.received_chan, hst, World.update_chan,
    ne_eq, not_true_eq_false, if_false]
  generalize sendCommand link (answerWith port) _ (sigEncodeConfigureResponse _ _ _ _ _ _) = r
    at hsent ⊢
  split
  · -- the callback is called after the response was sent
    exact hsent.of_eq rfl rfl (fireEvent_sent ..).1 (fireEvent_sent ..).2
  · exact hsent.of_eq rfl rfl rfl rfl

end Commands

lemma nextIdentifier_ne_zero (link : Link) (port : ℕ → Bool) (inputs : List Input) :
    (run link port inputs).mgr.nextIdentifier ≠ 0 := by
  refine foldl_invariant (I := fun w : World => w.mgr.nextIdentifier ≠ 0) (fun w input h => ?_)
    inputs (by decide)
  refine apply_keeps (I := fun m => m.nextIdentifier ≠ 0) (B := fun _ _ => False)
    (answerWith_quiet port) (fun w input m hm h _ => ?_) (fun _ _ => id) h id
  cases hm with
  | idle _ _ hn | registers _ _ _ _ _ hn | acceptsRequest _ _ _ _ _ _ _ hn
  | acceptsResponse _ _ _ _ _ _ _ _ _ hn | closes _ _ _ hn =>
    rwa [hn.2]
  | connects _ _ _ _ hn | refused _ _ _ _ _ _ hn | configures _ _ _ _ _ _ _ _ _ hn
  | disconnects _ _ _ _ _ hn =>
    rw [hn.2]
    unfold nextId
    split
    · decide
    next h => exact h

lemma Moves.tracked
    (h : Moves link (run link port inputs) input (run link port (inputs ++ [input])).mgr)
    (hinv : ∀ t, Tracked link port t inputs) (t : Slot) :
    Tracked link port t (inputs ++ [input]) := by
  have hnext := nextIdentifier_ne_zero link port inputs
  have hrun : run link port (inputs ++ [input]) = _ := run_concat ..
  cases h with
  | idle hc ht _ =>
    have hchan : (run link port (inputs ++ [input])).chan t = (run link port inputs).chan t :=
      congrFun hc t
    constructor
    · rw [hchan]
      exact (hinv t).shaken.later fun hlive => by rwa [LiveAfter, hchan]
    · rw [hchan, World.timerPending, ht]
      exact (hinv t).timer
  | connects s hi hf hs _ =>
    refine hs.tracked hinv (by simp [Channel.Awaits, connecting]) (fun hlive => ?_) t
    have hlive := hlive rfl
    subst hi
    refine ⟨fun hlink => ?_, hnext, rfl, rfl⟩
    have hopened := hlive
    rw [LiveAfter, hrun] at hopened
    obtain ⟨hhandle, hsent⟩ := open_hands hlink hf hopened
    rw [← hrun] at hsent
    exact ⟨hhandle, .now ⟨_, _, _, _, rfl, hf, hsent⟩ hlive⟩
  | refused s c _ hfree hf hs _ =>
    refine hs.tracked hinv (by simp [Channel.Awaits, hfree]) (fun _ => ?_) t
    simp [Handshake, hfree]
  | registers s hi hf _ hs _ =>
    refine hs.tracked hinv ?_ (fun _ => ⟨(by intro h; cases h), rfl⟩) t
    rw [(hinv s).timer]
    simp [Channel.Awaits, findFreeChannel_some hf, fixedChannel]
  | configures s hcmd hcode hfind hst hparse hresult _ hs _ =>
    have hwait := (hinv s).shaken
    rw [Handshake, hst] at hwait
    obtain ⟨hconn, -, hout, hin⟩ := hwait
    refine hs.tracked hinv (by simp [Channel.Awaits, hout]) (fun hlive => ?_) t
    rw [(findChannelByIdentifier_some hfind).2] at hconn
    simp only [Handshake, hout, hin]
    refine ⟨fun hlink => (hconn hlink).1, ⟨fun hlink => ?_, hnext⟩, by simp⟩
    have hsent := @connectionResponse_hands _ port _ _ _ _ _ hcmd hlink (hconn hlink).1 _ hcode
      hfind hst hparse hresult
    rw [← hrun] at hsent
    exact .now ⟨_, _, _, (hconn hlink).2, hcmd, hcode, hparse, hresult, rfl, hsent⟩ (hlive rfl)
  | acceptsRequest s hcmd hcode hparse hfind hst hs _ =>
    have hconfig := (hinv s).shaken
    rw [Handshake, hst] at hconfig
    obtain ⟨hhandle, hours, -⟩ := hconfig
    have hcid := (findChannelByLocalCid_some hfind).2.symm
    have hnow (hlive : LiveAfter link port s (inputs ++ [input])) (hlink : link.Sized) :
        Answered link port s (inputs ++ [input]) := by
      have hsent := @configureRequest_hands _ port _ _ _ _ _ hcmd hlink (hhandle hlink) _ hcode
        hparse hfind hst
      rw [← hrun] at hsent
      exact .now ⟨_, _, _, hcmd, hcode, hparse, hcid, hst, hsent⟩ hlive
    have htimer := (hinv s).timer
    simp only [Channel.Awaits, hst] at htimer
    refine hs.tracked hinv ?_ (fun hlive => ?_) t
    · rw [htimer]
      cases hout : ((run link port inputs).chan s).outboundConfigDone <;>
        simp [Channel.Awaits, hout]
    cases hout : ((run link port inputs).chan s).outboundConfigDone with
    | true =>
      rw [if_pos hout] at hours
      simp only [hout, if_true] at hlive ⊢
      exact ⟨fun _ hlink => ⟨(hours.1 hlink).later (hlive rfl), hnow (hlive rfl) hlink⟩, hours.2.1⟩
    | false =>
      rw [if_neg (by simp [hout])] at hours
      simp only [hout] at hlive ⊢
      exact ⟨hhandle, ⟨fun hlink => (hours.1 hlink).later (hlive rfl), hours.2⟩,
        fun _ => hnow (hlive rfl)⟩
  | acceptsResponse s hcmd hcode hfind hst hparse hresult _ hs _ =>
    have hconfig := (hinv s).shaken
    rw [Handshake, hst] at hconfig
    obtain ⟨hhandle, hours, htheirs⟩ := hconfig
    refine hs.tracked hinv ?_ (fun hlive => ?_) t
    · cases hin : ((run link port inputs).chan s).inboundConfigDone <;> simp [Channel.Awaits]
    -- A second success finds the channel configured already.
    have hdone (hlive : LiveAfter link port s (inputs ++ [input])) (hlink : link.Sized) :
        Configured link port s ((run link port inputs).chan s).remoteCid (inputs ++ [input]) := by
      split at hours
      · exact (hours.1 hlink).later hlive
      · rw [(findChannelByIdentifier_some hfind).2] at hours
        exact .now ⟨_, _, _, hours.1 hlink, hcmd, hcode, hparse, hresult⟩ hlive
    cases hin : ((run link port inputs).chan s).inboundConfigDone with
    | true =>
      simp only [hin, if_true] at hlive ⊢
      refine ⟨fun _ hlink => ⟨hdone (hlive rfl) hlink, ?_⟩, rfl⟩
      exact (htheirs hin hlink).later (hlive rfl)
    | false =>
      simp only [hin] at hlive ⊢
      simp only [Handshake]
      exact ⟨hhandle, ⟨hdone (hlive rfl), trivial, trivial⟩, by simp⟩
  | closes s _ hs _ =>
    exact hs.tracked hinv (by simp [Channel.Awaits]) (fun _ => trivial) t
  | disconnects s _ _ _ hs _ =>
    exact hs.tracked hinv (by simp [Channel.Awaits]) (fun _ => hnext) t

lemma run_tracked (link : Link) (port : ℕ → Bool) (inputs : List Input) (s : Slot) :
    Tracked link port s inputs := by
  refine run_slots (Q := fun inputs s => Tracked link port s inputs) (fun s => ⟨trivial, ?_⟩)
    (fun inputs nowUs s h hchan htimer => ?_) (fun inputs nowUs s hfree htimer => ?_)
    (fun inputs input hm hinv => hm.tracked hinv) inputs s
  · simp [Channel.Awaits, run, World.init, World.chan, Manager.init, Channel.init,
      World.timerPending, TimerList.empty, TimerList.timers]
  · constructor
    · rw [hchan]
      exact h.shaken.later fun hlive => by rwa [LiveAfter, hchan]
    · rw [hchan, htimer]
      exact h.timer
  · exact ⟨by simp [Handshake, hfree], by simp [Channel.Awaits, hfree, htimer]⟩

end

/-- What holds of the channels and timers in the state `w` after a run. -/
structure OpenChannels (inputs : List Input) (w : World) : Prop where
  opened : ∀ s, (w.chan s).state = .opened → (w.chan s).isFixed = false →
    Configured link port s (w.chan s).remoteCid inputs ∧ Answered link port s inputs ∧
    (w.chan s).pendingIdentifier = 0 ∧ ¬ w.timerPending s
  free : ∀ s, (w.chan s).state = .free → ¬ w.timerPending s
  represented : ∃ t : Timers Slot, t.Represents w.mgr.timers
  /-- The linked list of the timers holds each channel with a request outstanding once, sorted by
  expiry, and no other. -/
  timers : ∀ t : Timers Slot, t.Represents w.mgr.timers →
    t.list.Nodup ∧ t.list.Pairwise (fun i j => t.expiryUs i ≤ t.expiryUs j) ∧
    ∀ s, (s ∈ t.list ↔ t.pending s = true) ∧ (t.pending s = true ↔ (w.chan s).Awaits)

/-- In every run with a transport that does not call back: an open channel that is not fixed has
been through the handshake since it was opened, its remote CID is the one that the Connection
Response gave, it has no request outstanding and no timer pending; and the timers pending are those
of the channels that await a response. -/
theorem run_open_channels (handle signalingCid : UInt16) (aclFragSize : ℕ) (port : ℕ → Bool)
    (inputs : List Input) : OpenChannels (.init handle signalingCid aclFragSize) port inputs
      (run (.init handle signalingCid aclFragSize) port inputs) := by
  have hlink : (Link.init handle signalingCid aclFragSize).Sized := Link.init_aclFragSize ..
  generalize Link.init handle signalingCid aclFragSize = link at hlink
  have htracked := run_tracked link port inputs
  refine ⟨fun s hst hfixed => ?_, fun s hst => ?_, Timers.exists_represents _, fun t ht => ?_⟩
  · have hshaken := (htracked s).shaken
    rw [Handshake, hst] at hshaken
    refine ⟨(hshaken.1 hfixed hlink).1, (hshaken.1 hfixed hlink).2, hshaken.2, ?_⟩
    rw [(htracked s).timer]
    simp [Channel.Awaits, hst]
  · rw [(htracked s).timer]
    simp [Channel.Awaits, hst]
  · obtain ⟨hnodup, hsorted, hpending⟩ := ht.sound
    refine ⟨hnodup, hsorted, fun s => ⟨(hpending s).symm, ?_⟩⟩
    rw [hpending, ← (htracked s).timer, World.timerPending, ht.timers]

end Bluzing.L2cap
