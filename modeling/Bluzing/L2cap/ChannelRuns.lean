import Bluzing.L2cap.ChannelManager
import Bluzing.Lib.Reentrant

/-! Runs of the channel manager and what one step of a run can do to its channels, timers and
counters. -/
namespace Bluzing.L2cap

inductive Input where
  | open (psm localMtu : UInt16) (onEvent : Bool) (nowUs : ℕ)
  | openFixed (cid : UInt16) (onEvent : Bool)
  | close (localCid : UInt16) (nowUs : ℕ)
  | send (localCid : UInt16) (data : Bytes)
  | onAcl (pbFlag : UInt8) (data : Bytes) (nowUs : ℕ)
  | tick (nowUs : ℕ)
  | tickRound (nowUs : ℕ)
  deriving DecidableEq

variable (link : Link)

def apply (send : Send) (w : World) : Input → World
  | .open psm localMtu onEvent nowUs =>
      (channelManagerOpen link send w psm localMtu onEvent nowUs).1
  | .openFixed cid onEvent => (channelManagerOpenFixed w cid onEvent).1
  | .close localCid nowUs => channelManagerClose link send w localCid nowUs
  | .send localCid data => (channelManagerSend link send w localCid data).1
  | .onAcl pbFlag data nowUs => channelManagerOnAcl link send w pbFlag data nowUs
  | .tick nowUs => channelManagerTick w nowUs
  | .tickRound nowUs => (tickRound w nowUs).getD w

def answerWith (port : ℕ → Bool) : Send :=
  fun w _ => ({ w with calls := w.calls + 1 }, port w.calls)

def run (port : ℕ → Bool) (inputs : List Input) : World :=
  inputs.foldl (apply link (answerWith port)) World.init

lemma run_concat (port : ℕ → Bool) (inputs : List Input) (input : Input) :
    run link port (inputs ++ [input]) =
      apply link (answerWith port) (run link port inputs) input := by
  simp [run]

def commandOf (w : World) : Input → Option (SigHeader × Bytes)
  | .onAcl pbFlag data _ =>
      match (receiveFragment w.mgr.reassembler pbFlag data).2 with
      | none => none
      | some (hdr, payload) =>
          if hdr.cid = link.signalingCid then signalingCommand payload else none
  | _ => none

def connectedBy (w : World) (input : Input) : Option Slot :=
  match commandOf link w input with
  | none => none
  | some (hdr, data) =>
      if hdr.code = sigConnectionResponse then
        (findChannelByIdentifier w hdr.identifier).filter fun s =>
          (w.chan s).state = .waitConnectRsp ∧
            (sigParseConnectionResponse data).toOption.map (·.result) = some connResultSuccess
      else none

def configuredBy (w : World) (input : Input) : Option Slot :=
  match commandOf link w input with
  | none => none
  | some (hdr, data) =>
      if hdr.code = sigConfigureResponse then
        (findChannelByIdentifier w hdr.identifier).filter fun s =>
          (w.chan s).state = .config ∧
            (sigParseConfigureResponse data).toOption.map (·.result) = some configResultSuccess
      else none

structure Sets (m m' : Manager) (s : Slot) (c : Channel) (pending : Prop) : Prop where
  channels : m'.channels = Function.update m.channels s c
  timers : ∀ j, j ∈ m'.timers.timers ↔ if j = s then pending else j ∈ m.timers.timers

lemma Sets.chan_self {w w' : World} {s : Slot} {c : Channel} {pending : Prop}
    (hs : Sets w.mgr w'.mgr s c pending) : w'.chan s = c := by
  rw [World.chan, hs.channels, Function.update_self]

lemma Sets.chan_of_ne {w w' : World} {s t : Slot} {c : Channel} {pending : Prop}
    (hs : Sets w.mgr w'.mgr s c pending) (hne : t ≠ s) : w'.chan t = w.chan t := by
  rw [World.chan, hs.channels, Function.update_of_ne hne]
  rfl

def SameCounters (m m' : Manager) : Prop :=
  m'.nextLocalCid = m.nextLocalCid ∧ m'.nextIdentifier = m.nextIdentifier

def NextIdentifier (m m' : Manager) : Prop :=
  m'.nextLocalCid = m.nextLocalCid ∧ m'.nextIdentifier = nextId m.nextIdentifier

inductive ClosedBy (link : Link) (w : World) (input : Input) (s : Slot) : Prop
  | refused {hdr data rsp} (hcmd : commandOf link w input = some (hdr, data))
      (hcode : hdr.code = sigConnectionResponse)
      (hfind : findChannelByIdentifier w hdr.identifier = some s)
      (hst : (w.chan s).state = .waitConnectRsp)
      (hparse : sigParseConnectionResponse data = .ok rsp)
      (hresult : rsp.result ≠ connResultPending ∧ rsp.result ≠ connResultSuccess)
  | configFailed {hdr data rsp} (hcmd : commandOf link w input = some (hdr, data))
      (hcode : hdr.code = sigConfigureResponse)
      (hfind : findChannelByIdentifier w hdr.identifier = some s)
      (hst : (w.chan s).state = .config) (hparse : sigParseConfigureResponse data = .ok rsp)
      (hresult : rsp.result ≠ configResultSuccess)
  | peer {hdr data req} (hcmd : commandOf link w input = some (hdr, data))
      (hcode : hdr.code = sigDisconnectionRequest) (hparse : sigParseDisconnection data = .ok req)
      (hfind : findChannelByLocalCid w req.destinationCid = some s)
  | acknowledged {hdr data rsp} (hcmd : commandOf link w input = some (hdr, data))
      (hcode : hdr.code = sigDisconnectionResponse)
      (hfind : findChannelByIdentifier w hdr.identifier = some s)
      (hst : (w.chan s).state = .waitDisconnectRsp) (hparse : sigParseDisconnection data = .ok rsp)
  | rejected {hdr data} (hcmd : commandOf link w input = some (hdr, data))
      (hcode : hdr.code = sigCommandReject)
      (hfind : findChannelByIdentifier w hdr.identifier = some s)
  | locally {localCid nowUs} (hi : input = .close localCid nowUs)
      (hfind : findChannelByLocalCid w localCid = some s)
  | expired {nowUs} (hi : input = .tick nowUs ∨ input = .tickRound nowUs) (h : w.timerPending s)

inductive Moves (link : Link) (w : World) (input : Input) (m : Manager) : Prop
  | idle (hc : m.channels = w.mgr.channels) (ht : m.timers = w.mgr.timers)
      (hn : SameCounters w.mgr m)
  | connects (s : Slot) {psm localMtu onEvent nowUs} (hi : input = .open psm localMtu onEvent nowUs)
      (hf : findFreeChannel w = some s)
      (hs : Sets w.mgr m s (connecting psm localMtu w.mgr.nextLocalCid w.mgr.nextIdentifier onEvent)
        True)
      (hn : m.nextLocalCid = nextCid w.mgr.nextLocalCid ∧
        m.nextIdentifier = nextId w.mgr.nextIdentifier)
  | refused (s : Slot) (c : Channel) {psm localMtu onEvent nowUs}
      (hi : input = .open psm localMtu onEvent nowUs) (hfree : c.state = .free)
      (hf : findFreeChannel w = some s) (hs : Sets w.mgr m s c False)
      (hn : m.nextLocalCid = nextCid w.mgr.nextLocalCid ∧
        m.nextIdentifier = nextId w.mgr.nextIdentifier)
  | registers (s : Slot) {cid onEvent} (hi : input = .openFixed cid onEvent)
      (hf : findFreeChannel w = some s) (hc : findChannelByLocalCid w cid = none)
      (hs : Sets w.mgr m s (fixedChannel cid onEvent) (w.timerPending s))
      (hn : SameCounters w.mgr m)
  | configures (s : Slot) {hdr data rsp} (hcmd : commandOf link w input = some (hdr, data))
      (hcode : hdr.code = sigConnectionResponse)
      (hfind : findChannelByIdentifier w hdr.identifier = some s)
      (hst : (w.chan s).state = .waitConnectRsp)
      (hparse : sigParseConnectionResponse data = .ok rsp)
      (hresult : rsp.result = connResultSuccess) (hi : connectedBy link w input = some s)
      (hs : Sets w.mgr m s { w.chan s with
        remoteCid := rsp.destinationCid, state := .config
        pendingIdentifier := w.mgr.nextIdentifier } True)
      (hn : NextIdentifier w.mgr m)
  | acceptsRequest (s : Slot) {hdr data req} (hcmd : commandOf link w input = some (hdr, data))
      (hcode : hdr.code = sigConfigureRequest) (hparse : sigParseConfigureRequest data = .ok req)
      (hfind : findChannelByLocalCid w req.destinationCid = some s)
      (hst : (w.chan s).state = .config)
      (hs : Sets w.mgr m s { w.chan s with
        remoteMtu := req.mtu.getD (w.chan s).remoteMtu, inboundConfigDone := true
        state := if (w.chan s).outboundConfigDone then .opened else .config } (w.timerPending s))
      (hn : SameCounters w.mgr m)
  | acceptsResponse (s : Slot) {hdr data rsp} (hcmd : commandOf link w input = some (hdr, data))
      (hcode : hdr.code = sigConfigureResponse)
      (hfind : findChannelByIdentifier w hdr.identifier = some s)
      (hst : (w.chan s).state = .config) (hparse : sigParseConfigureResponse data = .ok rsp)
      (hresult : rsp.result = configResultSuccess) (hi : configuredBy link w input = some s)
      (hs : Sets w.mgr m s { w.chan s with
        pendingIdentifier := 0, outboundConfigDone := true
        state := if (w.chan s).inboundConfigDone then .opened else .config } False)
      (hn : SameCounters w.mgr m)
  | closes (s : Slot) (hi : ClosedBy link w input s)
      (hs : Sets w.mgr m s { w.chan s with state := .free, pendingIdentifier := 0 } False)
      (hn : SameCounters w.mgr m)
  | disconnects (s : Slot) {localCid nowUs} (hi : input = .close localCid nowUs)
      (hf : findChannelByLocalCid w localCid = some s)
      (hst : (w.chan s).state = .opened ∧ (w.chan s).isFixed = false)
      (hs : Sets w.mgr m s { w.chan s with
        pendingIdentifier := w.mgr.nextIdentifier, state := .waitDisconnectRsp } True)
      (hn : NextIdentifier w.mgr m)

section

variable {link : Link} {send : Send} (w : World) (i s : Slot)

@[simp] lemma World.emit_mgr (e : Event) : (w.emit e).mgr = w.mgr := rfl
@[simp] lemma World.modify_mgr (f : Manager → Manager) : (w.modify f).mgr = f w.mgr := rfl
@[simp] lemma World.update_mgr (f : Channel → Channel) :
    (w.update i f).mgr =
      { w.mgr with channels := Function.update w.mgr.channels i (f (w.chan i)) } := rfl
@[simp] lemma World.addTimer_mgr (nowUs : ℕ) :
    (w.addTimer i nowUs).mgr =
      { w.mgr with timers := w.mgr.timers.add i ((nowUs + rtxTimeoutUs) % 2 ^ 64) } := rfl
@[simp] lemma World.cancelTimer_mgr :
    (w.cancelTimer i).mgr = { w.mgr with timers := w.mgr.timers.cancel i } := rfl
@[simp] lemma World.update_chan (f : Channel → Channel) : (w.update i f).chan i = f (w.chan i) :=
  Function.update_self ..
@[simp] lemma World.cancelTimer_chan : (w.cancelTimer i).chan = w.chan := rfl

@[simp] lemma World.received_mgr (reassembler : Reassembler) :
    (w.received reassembler).mgr = { w.mgr with reassembler } := rfl
@[simp] lemma World.received_chan (reassembler : Reassembler) :
    (w.received reassembler).chan = w.chan := rfl

@[simp] lemma World.emit_chan (e : Event) : (w.emit e).chan = w.chan := rfl

@[simp] lemma World.release_mgr : (w.release i).mgr = w.mgr := by
  unfold World.release
  split <;> rfl

@[simp] lemma World.release_chan : (w.release i).chan = w.chan :=
  congrArg Manager.channels (World.release_mgr w i)

@[simp] lemma fireEvent_mgr (e : ChannelEvent) : (fireEvent w i e).mgr = w.mgr := by
  unfold fireEvent
  split <;> rfl

def Quiet (send : Send) : Prop := ∀ w pdu, (send w pdu).1.mgr = w.mgr

variable {w i s}

lemma sendFragments_mgr (hq : Quiet send) (w : World) (l : List (Bool × Bytes)) :
    (sendFragments link send w l).1.mgr = w.mgr := by
  induction l generalizing w with
  | nil => rfl
  | cons f rest ih =>
    unfold sendFragments
    split
    · rfl
    next wr _ =>
      dsimp only
      have hsent : (send (w.emit (.sent wr.data)) wr.data).1.mgr = w.mgr := hq _ _
      split
      · rw [ih, hsent]
      · exact hsent

lemma sendCommand_mgr (hq : Quiet send) (w : World) (encoded : Except Status Writer) :
    (sendCommand link send w encoded).1.mgr = w.mgr := by
  unfold sendCommand
  split
  · rfl
  unfold sendL2capPdu
  split
  · rfl
  split
  · rfl
  · exact sendFragments_mgr hq w _

lemma chan_of_mgr {w w' : World} (h : w'.mgr = w.mgr) : w'.chan = w.chan :=
  congrArg Manager.channels h

lemma answerWith_quiet (port : ℕ → Bool) : Quiet (answerWith port) := fun _ _ => rfl

lemma finishClose_sets {w w' : World} {s : Slot} {reason : CloseReason} {c : Channel}
    (hch : w'.mgr.channels = Function.update w.mgr.channels s c)
    (ht : ∀ j, j ≠ s → (j ∈ w'.mgr.timers.timers ↔ j ∈ w.mgr.timers.timers))
    (hc : { c with state := .free, pendingIdentifier := 0 } =
      { w.chan s with state := .free, pendingIdentifier := 0 }) :
    Sets w.mgr (finishClose w' s reason).mgr s
      { w.chan s with state := .free, pendingIdentifier := 0 } False := by
  have hchan : w'.chan s = c := by rw [World.chan, hch, Function.update_self]
  constructor
  · unfold finishClose
    split <;> simp [hch, hchan, hc]
  · intro j
    unfold finishClose
    split
    · by_cases hj : j = s <;> simp [hj, ht]
    next hp =>
      by_cases hj : j = s
      · subst hj
        simpa [World.timerPending] using hp
      · simp [hj, ht]

lemma finishClose_counters (w : World) (s : Slot) (reason : CloseReason) :
    SameCounters w.mgr (finishClose w s reason).mgr := by
  unfold finishClose
  split <;> simp [SameCounters]

end

section

variable {link : Link} {send : Send} {w : World} {input : Input} {ra : Reassembler}
  {hdr : SigHeader} {data : Bytes} {nowUs : ℕ}

lemma received_idle : Moves link w input (w.received ra).mgr := .idle rfl rfl ⟨rfl, rfl⟩

lemma finishClose_moves {w' : World} {s : Slot} (hi : ClosedBy link w input s)
    (hm : w'.mgr = (w.received ra).mgr) (reason : CloseReason) :
    Moves link w input (finishClose w' s reason).mgr := by
  refine .closes s hi (finishClose_sets (c := w.chan s) ?_ ?_ rfl) ?_
  · rw [hm]
    exact (Function.update_eq_self s w.mgr.channels).symm
  · intro j _
    rw [hm]
    rfl
  · have hn := finishClose_counters w' s reason
    rw [hm] at hn
    exact hn

lemma startOurConfigureRequest_mgr (hq : Quiet send) (w : World) (s : Slot) (nowUs : ℕ) :
    (startOurConfigureRequest link send w s nowUs).mgr =
      { w.mgr with
        timers := w.mgr.timers.add s ((nowUs + rtxTimeoutUs) % 2 ^ 64)
        channels := Function.update w.mgr.channels s
          { w.chan s with pendingIdentifier := w.mgr.nextIdentifier }
        nextIdentifier := nextId w.mgr.nextIdentifier } := by
  simp only [startOurConfigureRequest, sendCommand_mgr hq]
  rfl

lemma handleConnectionResponse_moves (hq : Quiet send)
    (hcmd : commandOf link w input = some (hdr, data))
    (hcode : hdr.code = sigConnectionResponse) :
    Moves link w input
      (handleConnectionResponse link send (w.received ra) hdr.identifier data nowUs).mgr := by
  unfold handleConnectionResponse
  split
  · exact received_idle
  next s hfind =>
  have hfind : findChannelByIdentifier w hdr.identifier = some s := hfind
  split
  · exact received_idle
  next hstate =>
  have hstate : (w.chan s).state = .waitConnectRsp := not_not.mp hstate
  split
  · exact received_idle
  next rsp hparse =>
  split
  · exact received_idle
  next hpending =>
  split
  next hresult =>
    refine .closes s (.refused hcmd hcode hfind hstate hparse ⟨hpending, hresult⟩)
      (finishClose_sets (c := w.chan s) ?_ ?_ rfl)
      (finishClose_counters ((w.received ra).cancelTimer s) s .refused)
    · exact (Function.update_eq_self s w.mgr.channels).symm
    · intro j hj
      simp [hj]
  next hresult =>
    have hresult := not_not.mp hresult
    refine .configures s hcmd hcode hfind hstate hparse hresult ?_ ⟨?_, ?_⟩ ?_
    · simp [connectedBy, hcmd, hcode, hfind, hstate, hparse, hresult, Except.toOption]
    · simp [startOurConfigureRequest_mgr hq, World.chan]
    · intro j
      by_cases hj : j = s <;> simp [startOurConfigureRequest_mgr hq, hj]
    · simp [startOurConfigureRequest_mgr hq, NextIdentifier]

lemma handleConfigureRequest_moves (hq : Quiet send)
    (hcmd : commandOf link w input = some (hdr, data)) (hcode : hdr.code = sigConfigureRequest) :
    Moves link w input
      (handleConfigureRequest link send (w.received ra) hdr.identifier data).mgr := by
  unfold handleConfigureRequest
  split
  · exact received_idle
  next req hparse =>
  split
  · exact received_idle
  next s hfind =>
  have hfind := hfind
  split
  · exact received_idle
  next hstate =>
  have hstate : (w.chan s).state = .config := not_not.mp hstate
  have hpending : ∀ j, j ∈ w.mgr.timers.timers ↔
      if j = s then w.timerPending s else j ∈ w.mgr.timers.timers := by
    intro j
    by_cases hj : j = s <;> simp [hj, World.timerPending]
  have hsent (w' : World) (e : Except Status Writer) :
      (sendCommand link send w' e).1.chan = w'.chan := chan_of_mgr (sendCommand_mgr hq w' e)
  simp only [World.update_chan, hsent, World.received_chan]
  split
  next hout =>
    refine .acceptsRequest s hcmd hcode hparse hfind hstate ⟨?_, ?_⟩ ?_
    · simp [sendCommand_mgr hq, hsent, hout]
    · simpa [sendCommand_mgr hq] using hpending
    · simp [sendCommand_mgr hq, SameCounters]
  next hout =>
    refine .acceptsRequest s hcmd hcode hparse hfind hstate ⟨?_, ?_⟩ ?_
    · simp [sendCommand_mgr hq, hsent, hout, hstate]
    · simpa [sendCommand_mgr hq] using hpending
    · simp [sendCommand_mgr hq, SameCounters]

lemma handleConfigureResponse_moves (hcmd : commandOf link w input = some (hdr, data))
    (hcode : hdr.code = sigConfigureResponse) :
    Moves link w input (handleConfigureResponse (w.received ra) hdr.identifier data).mgr := by
  unfold handleConfigureResponse
  split
  · exact received_idle
  next s hfind =>
  have hfind : findChannelByIdentifier w hdr.identifier = some s := hfind
  split
  · exact received_idle
  next hstate =>
  have hstate : (w.chan s).state = .config := not_not.mp hstate
  split
  · exact received_idle
  next rsp hparse =>
  have hothers (j : Slot) (hj : j ≠ s) :
      j ∈ (w.mgr.timers.cancel s).timers ↔ j ∈ w.mgr.timers.timers := by simp [hj]
  have hdisarmed (j : Slot) : j ∈ (w.mgr.timers.cancel s).timers ↔
      if j = s then False else j ∈ w.mgr.timers.timers := by by_cases hj : j = s <;> simp [hj]
  split
  next hresult =>
    refine .closes s (.configFailed hcmd hcode hfind hstate hparse hresult)
      (finishClose_sets (c := { w.chan s with pendingIdentifier := 0 }) ?_ hothers rfl)
      (finishClose_counters (((w.received ra).cancelTimer s).update s _) s .configFailed)
    simp
  next hresult =>
    have hresult := not_not.mp hresult
    have hby : configuredBy link w input = some s := by
      simp [configuredBy, hcmd, hcode, hfind, hstate, hparse, hresult, Except.toOption]
    simp only [World.update_chan, World.cancelTimer_chan, World.received_chan]
    split
    next hin =>
      refine .acceptsResponse s hcmd hcode hfind hstate hparse hresult hby ⟨?_, ?_⟩ ?_
      · simp [hin]
      · intro j
        rw [fireEvent_mgr]
        exact hdisarmed j
      · rw [fireEvent_mgr]
        exact ⟨rfl, rfl⟩
    next hin =>
      refine .acceptsResponse s hcmd hcode hfind hstate hparse hresult hby ⟨?_, hdisarmed⟩
        ⟨rfl, rfl⟩
      simp [hin, hstate]

lemma handleDisconnectionRequest_moves (hq : Quiet send)
    (hcmd : commandOf link w input = some (hdr, data))
    (hcode : hdr.code = sigDisconnectionRequest) :
    Moves link w input
      (handleDisconnectionRequest link send (w.received ra) hdr.identifier data).mgr := by
  unfold handleDisconnectionRequest
  split
  · exact received_idle
  next req hparse =>
  split
  · exact received_idle
  next s hfind =>
  exact finishClose_moves (.peer hcmd hcode hparse hfind) (sendCommand_mgr hq (w.received ra) _) _

lemma handleDisconnectionResponse_moves (hcmd : commandOf link w input = some (hdr, data))
    (hcode : hdr.code = sigDisconnectionResponse) :
    Moves link w input (handleDisconnectionResponse (w.received ra) hdr.identifier data).mgr := by
  unfold handleDisconnectionResponse
  split
  · exact received_idle
  next s hfind =>
  split
  · exact received_idle
  next hstate =>
  split
  · exact received_idle
  next rsp hparse =>
  exact finishClose_moves (.acknowledged hcmd hcode hfind (not_not.mp hstate) hparse) rfl _

lemma handleCommandReject_moves (hcmd : commandOf link w input = some (hdr, data))
    (hcode : hdr.code = sigCommandReject) :
    Moves link w input (handleCommandReject (w.received ra) hdr.identifier).mgr := by
  unfold handleCommandReject
  split
  · exact received_idle
  next s hfind => exact finishClose_moves (.rejected hcmd hcode hfind) rfl _

lemma dispatchCommand_moves (hq : Quiet send) (hcmd : commandOf link w input = some (hdr, data)) :
    Moves link w input (dispatchCommand link send (w.received ra) hdr data nowUs).mgr := by
  unfold dispatchCommand
  split
  next hcode => exact handleConnectionResponse_moves hq hcmd hcode
  split
  next hcode => exact handleConfigureRequest_moves hq hcmd hcode
  split
  next hcode => exact handleConfigureResponse_moves hcmd hcode
  split
  next hcode => exact handleDisconnectionRequest_moves hq hcmd hcode
  split
  next hcode => exact handleDisconnectionResponse_moves hcmd hcode
  split
  next hcode => exact handleCommandReject_moves hcmd hcode
  · exact received_idle

end

section

variable {link : Link} {send : Send} {w : World} {input : Input} {nowUs : ℕ}

variable {w' : World}

lemma idle_of_mgr (h : w'.mgr = w.mgr) : Moves link w input w'.mgr := by
  rw [h]
  exact .idle rfl rfl ⟨rfl, rfl⟩

lemma onAcl_moves (hq : Quiet send) (pbFlag : UInt8) (data : Bytes) :
    Moves link w (.onAcl pbFlag data nowUs)
      (channelManagerOnAcl link send w pbFlag data nowUs).mgr := by
  unfold channelManagerOnAcl
  dsimp only
  split
  · exact received_idle
  next hdr payload hpdu =>
  unfold routePdu
  split
  next hcid =>
    unfold processSignalingPdu
    split
    · exact received_idle
    next sig cmd hsig =>
      refine dispatchCommand_moves hq ?_
      simp [commandOf, hpdu, hcid, hsig]
  · split
    · exact received_idle
    · split
      · rw [fireEvent_mgr]
        exact received_idle
      · exact received_idle

lemma open_moves (hq : Quiet send) (psm localMtu : UInt16) (onEvent : Bool) :
    Moves link w (.open psm localMtu onEvent nowUs)
      (channelManagerOpen link send w psm localMtu onEvent nowUs).1.mgr := by
  unfold channelManagerOpen
  split
  · exact idle_of_mgr rfl
  next s hfree =>
  have hsent : (sendConnectionRequest link send
      (allocChannel w s psm localMtu onEvent nowUs) s).1.mgr =
        (allocChannel w s psm localMtu onEvent nowUs).mgr := sendCommand_mgr hq _ _
  have hchannels : (allocChannel w s psm localMtu onEvent nowUs).mgr.channels =
      Function.update w.mgr.channels s
        (connecting psm localMtu w.mgr.nextLocalCid w.mgr.nextIdentifier onEvent) := rfl
  have htimers (j : Slot) : j ∈ (allocChannel w s psm localMtu onEvent nowUs).mgr.timers.timers ↔
      j = s ∨ j ∈ w.mgr.timers.timers := TimerList.mem_timers_add ..
  dsimp only
  split
  · refine .refused s { connecting psm localMtu w.mgr.nextLocalCid w.mgr.nextIdentifier onEvent with
      state := .free } rfl rfl hfree ⟨?_, ?_⟩ ?_
    · simp [hsent, World.chan, hchannels]
    · intro j
      by_cases hj : j = s <;> simp [hsent, htimers, hj]
    · simp only [World.update_mgr, World.release_mgr, World.cancelTimer_mgr, hsent]
      exact ⟨rfl, rfl⟩
  · rw [hsent]
    refine .connects s rfl hfree ⟨hchannels, ?_⟩ ⟨rfl, rfl⟩
    intro j
    by_cases hj : j = s <;> simp [htimers, hj]

lemma openFixed_moves (cid : UInt16) (onEvent : Bool) :
    Moves link w (.openFixed cid onEvent) (channelManagerOpenFixed w cid onEvent).1.mgr := by
  unfold channelManagerOpenFixed
  split
  · exact idle_of_mgr rfl
  next hnone =>
  split
  · exact idle_of_mgr rfl
  next s hfree =>
    refine .registers s rfl hfree (by simpa using hnone) ⟨?_, ?_⟩ ?_
    · simp
    · intro j
      by_cases hj : j = s <;> simp [hj, World.timerPending]
    · simp [SameCounters]

lemma close_moves (hq : Quiet send) (localCid : UInt16) :
    Moves link w (.close localCid nowUs) (channelManagerClose link send w localCid nowUs).mgr := by
  unfold channelManagerClose
  split
  · exact idle_of_mgr rfl
  next s hfind =>
  split
  next hopen =>
    simp only [allocIdentifier]
    refine .disconnects s rfl hfind ⟨hopen.1, by simpa using hopen.2⟩ ⟨?_, ?_⟩ ?_
    · simp [sendCommand_mgr hq, World.chan]
    · intro j
      by_cases hj : j = s <;> simp [sendCommand_mgr hq, hj]
    · simp [sendCommand_mgr hq, NextIdentifier]
  · exact finishClose_moves (.locally rfl hfind)
      (show w.mgr = (w.received w.mgr.reassembler).mgr from rfl) _

lemma send_moves (hq : Quiet send) (localCid : UInt16) (data : Bytes) :
    Moves link w (.send localCid data) (channelManagerSend link send w localCid data).1.mgr := by
  unfold channelManagerSend
  split
  · exact idle_of_mgr rfl
  split
  · exact idle_of_mgr rfl
  split
  · exact idle_of_mgr rfl
  split
  · exact idle_of_mgr rfl
  · exact idle_of_mgr (sendFragments_mgr hq w _)

lemma tickRound_closes (h : tickRound w nowUs = some w') :
    ∃ s, w.timerPending s ∧
      Sets w.mgr w'.mgr s { w.chan s with state := .free, pendingIdentifier := 0 } False ∧
      SameCounters w.mgr w'.mgr := by
  unfold tickRound at h
  split at h
  · cases h
  next s timers hpop =>
    cases h
    have htimers := TimerList.popExpired_some hpop
    refine ⟨s, ?_, finishClose_sets (c := w.chan s) ?_ ?_ rfl,
      finishClose_counters (w.modify fun m => { m with timers }) s .timeout⟩
    · rw [World.timerPending, htimers]
      exact List.mem_cons_self
    · exact (Function.update_eq_self s w.mgr.channels).symm
    · intro j hj
      simp [htimers, hj]

lemma tickRound_moves (h : tickRound w nowUs = some w')
    (hi : input = .tick nowUs ∨ input = .tickRound nowUs) : Moves link w input w'.mgr := by
  obtain ⟨s, hpending, hs, hn⟩ := tickRound_closes h
  exact .closes s (.expired hi hpending) hs hn

lemma apply_moves (hq : Quiet send) (w : World) (hi : ∀ nowUs, input ≠ .tick nowUs) :
    Moves link w input (apply link send w input).mgr := by
  cases input with
  | «open» psm localMtu onEvent nowUs => exact open_moves hq psm localMtu onEvent
  | openFixed cid onEvent => exact openFixed_moves cid onEvent
  | close localCid nowUs => exact close_moves hq localCid
  | send localCid data => exact send_moves hq localCid data
  | onAcl pbFlag data nowUs => exact onAcl_moves hq pbFlag data
  | tick nowUs => exact absurd rfl (hi nowUs)
  | tickRound nowUs =>
    simp only [apply]
    cases h : tickRound w nowUs with
    | none => exact idle_of_mgr rfl
    | some w' => exact tickRound_moves h (.inr rfl)

lemma tick_invariant {I : World → Prop}
    (round : ∀ w w', tickRound w nowUs = some w' → I w → I w') (h : I w) :
    I (channelManagerTick w nowUs) := by
  unfold channelManagerTick
  generalize w.mgr.timers.timers.length = rounds
  induction rounds generalizing w with
  | zero => exact h
  | succ rounds ih =>
    unfold tickRounds
    split
    · exact h
    next w' hw => exact ih (round w w' hw h)

lemma apply_keeps {I : Manager → Prop} {B : World → Input → Prop} (hq : Quiet send)
    (moves : ∀ w input m, Moves link w input m → I w.mgr → ¬ B w input → I m)
    (rounds : ∀ w nowUs, ¬ B w (.tick nowUs)) (h : I w.mgr) (hn : ¬ B w input) :
    I (apply link send w input).mgr := by
  by_cases hi : ∃ nowUs, input = .tick nowUs
  · obtain ⟨nowUs, rfl⟩ := hi
    refine tick_invariant (I := fun w => I w.mgr) (fun w w' hw h => ?_) h
    exact moves w (.tick nowUs) w'.mgr (tickRound_moves hw (.inl rfl)) h (rounds w nowUs)
  · exact moves w input _ (apply_moves hq w fun nowUs h => hi ⟨nowUs, h⟩) h hn

lemma tick_slot (w : World) (nowUs : ℕ) (s : Slot) :
    ((channelManagerTick w nowUs).chan s = w.chan s ∧
      ((channelManagerTick w nowUs).timerPending s ↔ w.timerPending s)) ∨
    (((channelManagerTick w nowUs).chan s).state = .free ∧
      ¬ (channelManagerTick w nowUs).timerPending s) := by
  refine tick_invariant (I := fun w' => (w'.chan s = w.chan s ∧
    (w'.timerPending s ↔ w.timerPending s)) ∨
    ((w'.chan s).state = .free ∧ ¬ w'.timerPending s)) (fun w₁ w₂ hround h => ?_)
    (.inl ⟨rfl, Iff.rfl⟩)
  obtain ⟨t, -, hs, -⟩ := tickRound_closes hround
  by_cases hst : s = t
  · subst hst
    refine .inr ⟨?_, ?_⟩
    · rw [hs.chan_self]
    · rw [World.timerPending, hs.timers, if_pos rfl]
      exact id
  · have hchan := hs.chan_of_ne hst
    have htimer : w₂.timerPending s ↔ w₁.timerPending s := by
      rw [World.timerPending, hs.timers, if_neg hst]
      rfl
    rwa [hchan, htimer]

lemma run_slots {port : ℕ → Bool} {Q : List Input → Slot → Prop} (nil : ∀ s, Q [] s)
    (kept : ∀ inputs nowUs s, Q inputs s →
      (run link port (inputs ++ [.tick nowUs])).chan s = (run link port inputs).chan s →
      ((run link port (inputs ++ [.tick nowUs])).timerPending s ↔
        (run link port inputs).timerPending s) → Q (inputs ++ [.tick nowUs]) s)
    (freed : ∀ inputs nowUs s,
      ((run link port (inputs ++ [.tick nowUs])).chan s).state = .free →
      ¬ (run link port (inputs ++ [.tick nowUs])).timerPending s → Q (inputs ++ [.tick nowUs]) s)
    (moves : ∀ inputs input,
      Moves link (run link port inputs) input (run link port (inputs ++ [input])).mgr →
      (∀ s, Q inputs s) → ∀ s, Q (inputs ++ [input]) s) (inputs : List Input) (s : Slot) :
    Q inputs s := by
  induction inputs using List.reverseRecOn generalizing s with
  | nil => exact nil s
  | append_singleton inputs input ih =>
    by_cases hi : ∃ nowUs, input = .tick nowUs
    · obtain ⟨nowUs, rfl⟩ := hi
      have hstep : run link port (inputs ++ [.tick nowUs]) =
          channelManagerTick (run link port inputs) nowUs := run_concat ..
      rcases tick_slot (run link port inputs) nowUs s with ⟨hchan, htimer⟩ | ⟨hfree, htimer⟩
      · rw [← hstep] at hchan htimer
        exact kept inputs nowUs s (ih s) hchan htimer
      · rw [← hstep] at hfree htimer
        exact freed inputs nowUs s hfree htimer
    · refine moves inputs input ?_ ih s
      rw [run_concat]
      exact apply_moves (answerWith_quiet port) _ fun nowUs h => hi ⟨nowUs, h⟩

lemma apply_command (send : Send) {hdr : SigHeader} {data : Bytes}
    (h : commandOf link w input = some (hdr, data)) :
    ∃ ra nowUs, apply link send w input =
      dispatchCommand link send (w.received ra) hdr data nowUs := by
  cases input with
  | onAcl pbFlag bytes nowUs =>
    simp only [commandOf] at h
    split at h
    · cases h
    next hd payload hpdu =>
      split at h
      next hcid =>
        refine ⟨(receiveFragment w.mgr.reassembler pbFlag bytes).1, nowUs, ?_⟩
        simp only [apply, channelManagerOnAcl, hpdu, routePdu, hcid, ↓reduceIte,
          processSignalingPdu, h]
      · cases h
  | _ => cases h

section

variable (link) (send) (w) {hdr : SigHeader} (data : Bytes) (nowUs)

lemma dispatchCommand_connectionResponse (h : hdr.code = sigConnectionResponse) :
    dispatchCommand link send w hdr data nowUs =
      handleConnectionResponse link send w hdr.identifier data nowUs := by
  simp [dispatchCommand, h]

lemma dispatchCommand_configureResponse (h : hdr.code = sigConfigureResponse) :
    dispatchCommand link send w hdr data nowUs =
      handleConfigureResponse w hdr.identifier data := by
  simp [dispatchCommand, h, sigConfigureResponse, sigConnectionResponse, sigConfigureRequest]

lemma dispatchCommand_disconnectionRequest (h : hdr.code = sigDisconnectionRequest) :
    dispatchCommand link send w hdr data nowUs =
      handleDisconnectionRequest link send w hdr.identifier data := by
  simp [dispatchCommand, h, sigDisconnectionRequest, sigConnectionResponse, sigConfigureRequest,
    sigConfigureResponse]

lemma dispatchCommand_disconnectionResponse (h : hdr.code = sigDisconnectionResponse) :
    dispatchCommand link send w hdr data nowUs =
      handleDisconnectionResponse w hdr.identifier data := by
  simp [dispatchCommand, h, sigDisconnectionResponse, sigConnectionResponse, sigConfigureRequest,
    sigConfigureResponse, sigDisconnectionRequest]

lemma dispatchCommand_commandReject (h : hdr.code = sigCommandReject) :
    dispatchCommand link send w hdr data nowUs = handleCommandReject w hdr.identifier := by
  simp [dispatchCommand, h, sigCommandReject, sigConnectionResponse, sigConfigureRequest,
    sigConfigureResponse, sigDisconnectionRequest, sigDisconnectionResponse]

end

lemma finishClose_free (w : World) (s : Slot) (reason : CloseReason) :
    ((finishClose w s reason).chan s).state = .free := by
  simp [finishClose, World.chan]

lemma apply_peerCloses (send : Send) {s : Slot} {hdr : SigHeader} {data : Bytes}
    (hcmd : commandOf link w input = some (hdr, data))
    (h : (hdr.code = sigDisconnectionRequest ∧ ∃ req, sigParseDisconnection data = .ok req ∧
        findChannelByLocalCid w req.destinationCid = some s) ∨
      (hdr.code = sigCommandReject ∧ findChannelByIdentifier w hdr.identifier = some s)) :
    ((apply link send w input).chan s).state = .free := by
  obtain ⟨ra, nowUs, happly⟩ := apply_command send hcmd
  rw [happly]
  rcases h with ⟨hcode, req, hparse, hfind⟩ | ⟨hcode, hfind⟩
  · have hfind' : findChannelByLocalCid (w.received ra) req.destinationCid = some s := hfind
    rw [dispatchCommand_disconnectionRequest _ _ _ _ _ hcode]
    simp [handleDisconnectionRequest, hparse, hfind', finishClose_free]
  · have hfind' : findChannelByIdentifier (w.received ra) hdr.identifier = some s := hfind
    rw [dispatchCommand_commandReject _ _ _ _ _ hcode]
    simp [handleCommandReject, hfind', finishClose_free]

end

end Bluzing.L2cap
