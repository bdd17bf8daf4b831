import Bluzing.L2cap.ChannelTimers
import Bluzing.L2cap.FixedChannels

/-! Which responses are taken: those to a request that is outstanding, but for the identifier 0. -/
namespace Bluzing.L2cap

inductive Request where
  | connection
  | configure
  | disconnection
  deriving DecidableEq

def ChannelState.awaits : ChannelState → Option Request
  | .waitConnectRsp => some .connection
  | .config => some .configure
  | .waitDisconnectRsp => some .disconnection
  | .free | .opened => none

lemma ChannelState.awaits_some {state : ChannelState} {request : Request}
    (h : state.awaits = some request) : state = match request with
      | .connection => .waitConnectRsp
      | .configure => .config
      | .disconnection => .waitDisconnectRsp := by
  cases state <;> cases h <;> rfl

def Asks (link : Link) (w : World) (input : Input) (s : Slot) : Request → Prop
  | .connection => (∃ psm localMtu onEvent nowUs, input = .open psm localMtu onEvent nowUs) ∧
      findFreeChannel w = some s
  | .configure => connectedBy link w input = some s
  | .disconnection => ∃ localCid nowUs, input = .close localCid nowUs ∧
      findChannelByLocalCid w localCid = some s ∧ (w.chan s).state = .opened ∧
      (w.chan s).isFixed = false

def Answers (request : Request) (code : UInt8) (data : Bytes) : Prop :=
  code = sigCommandReject ∨
  match request with
  | .connection => code = sigConnectionResponse ∧
      ∃ rsp, sigParseConnectionResponse data = .ok rsp ∧ rsp.result ≠ connResultPending
  | .configure => code = sigConfigureResponse ∧ ∃ rsp, sigParseConfigureResponse data = .ok rsp
  | .disconnection => code = sigDisconnectionResponse ∧ ∃ rsp, sigParseDisconnection data = .ok rsp

def AnsweredBy (link : Link) (w : World) (input : Input) (s : Slot) (request : Request)
    (identifier : UInt8) : Prop :=
  ∃ hdr data, commandOf link w input = some (hdr, data) ∧ hdr.identifier = identifier ∧
    Answers request hdr.code data ∧ findChannelByIdentifier w identifier = some s

def Outstanding (link : Link) (port : ℕ → Bool) (s : Slot) (request : Request)
    (identifier : UInt8) : List Input → Prop :=
  HeldSince
    (fun before input => Asks link (run link port before) input s request ∧
      (run link port before).mgr.nextIdentifier = identifier ∧
      LiveAfter link port s (before ++ [input]))
    (fun before input => ¬ AnsweredBy link (run link port before) input s request identifier ∧
      LiveAfter link port s (before ++ [input]))

def IsResponse (code : UInt8) : Prop :=
  code = sigConnectionResponse ∨ code = sigConfigureResponse ∨ code = sigDisconnectionResponse ∨
    code = sigCommandReject

def Misfires (w : World) (hdr : SigHeader) (data : Bytes) : Prop :=
  hdr.identifier = 0 ∧ ∃ s, findChannelByIdentifier w hdr.identifier = some s ∧
    (hdr.code = sigCommandReject ∨
      hdr.code = sigConfigureResponse ∧ (w.chan s).state = .config ∧
        ∃ rsp, sigParseConfigureResponse data = .ok rsp ∧ rsp.result ≠ configResultSuccess)

variable {link : Link} {send : Send} {port : ℕ → Bool} {w : World} {input : Input} {s : Slot}
  {inputs : List Input}

lemma apply_answered (hq : Quiet send) {request : Request} {identifier : UInt8}
    (h : AnsweredBy link w input s request identifier)
    (hawaits : (w.chan s).state.awaits = some request) :
    ((apply link send w input).chan s).live = false ∨
    ((apply link send w input).chan s).pendingIdentifier = 0 ∨
    ((apply link send w input).chan s).state ≠ (w.chan s).state := by
  obtain ⟨hdr, data, hcmd, rfl, hanswers, hfind⟩ := h
  have hclosed (h : ((apply link send w input).chan s).state = .free) :
      ((apply link send w input).chan s).live = false := by simp [Channel.live, h]
  rcases hanswers with hcode | hanswers
  · exact .inl (hclosed (apply_peerCloses send hcmd (.inr ⟨hcode, hfind⟩)))
  obtain ⟨ra, nowUs, happly⟩ := apply_command send hcmd
  have hfind' : findChannelByIdentifier (w.received ra) hdr.identifier = some s := hfind
  rw [happly] at hclosed ⊢
  cases request with
  | connection =>
    obtain ⟨hcode, rsp, hparse, hpending⟩ := hanswers
    have hst := ChannelState.awaits_some hawaits
    rw [dispatchCommand_connectionResponse _ _ _ _ _ hcode] at hclosed ⊢
    by_cases hresult : rsp.result = connResultSuccess
    · have hnever : ¬ connResultSuccess = connResultPending := by decide
      have hchan (w : World) : (startOurConfigureRequest link send w s nowUs).chan s =
          { w.chan s with pendingIdentifier := w.mgr.nextIdentifier } := by
        rw [World.chan, startOurConfigureRequest_mgr hq]
        exact Function.update_self ..
      simp [handleConnectionResponse, hfind', hst, hparse, hresult, hnever, hchan]
    · simp [handleConnectionResponse, hfind', hst, hparse, hpending, hresult, finishClose_free]
  | configure =>
    obtain ⟨hcode, rsp, hparse⟩ := hanswers
    have hst := ChannelState.awaits_some hawaits
    rw [dispatchCommand_configureResponse _ _ _ _ _ hcode] at hclosed ⊢
    by_cases hresult : rsp.result = configResultSuccess
    · refine .inr (.inl ?_)
      have hfired (w : World) (e : ChannelEvent) := chan_of_mgr (fireEvent_mgr w s e)
      cases hin : (w.chan s).inboundConfigDone <;>
        simp [handleConfigureResponse, hfind', hst, hparse, hresult, hin, hfired]
    · simp [handleConfigureResponse, hfind', hst, hparse, hresult, finishClose_free]
  | disconnection =>
    obtain ⟨hcode, rsp, hparse⟩ := hanswers
    have hst := ChannelState.awaits_some hawaits
    rw [dispatchCommand_disconnectionResponse _ _ _ _ _ hcode] at hclosed ⊢
    simp [handleDisconnectionResponse, hfind', hst, hparse, finishClose_free]

def Awaiting (link : Link) (port : ℕ → Bool) (inputs : List Input) (s : Slot) : Prop :=
  ((run link port inputs).chan s).live = true →
  ((run link port inputs).chan s).pendingIdentifier ≠ 0 →
  ∃ request, ((run link port inputs).chan s).state.awaits = some request ∧
    Outstanding link port s request ((run link port inputs).chan s).pendingIdentifier inputs

lemma Awaiting.later (h : Awaiting link port inputs s)
    (hstate : ((run link port (inputs ++ [input])).chan s).state =
      ((run link port inputs).chan s).state)
    (hid : ((run link port (inputs ++ [input])).chan s).pendingIdentifier =
      ((run link port inputs).chan s).pendingIdentifier) :
    Awaiting link port (inputs ++ [input]) s := by
  intro hlive hne
  have hlive' : ((run link port inputs).chan s).live = true := by
    rwa [Channel.live, hstate] at hlive
  obtain ⟨request, hawaits, hout⟩ := h hlive' (hid ▸ hne)
  refine ⟨request, hstate ▸ hawaits, hid ▸ .later hout ⟨fun hanswered => ?_, hlive⟩⟩
  have hdone := apply_answered (answerWith_quiet port) hanswered hawaits
  rw [← run_concat] at hdone
  rcases hdone with hdead | hzero | hchanged
  · exact absurd (hdead.symm.trans hlive) (by simp)
  · exact hne hzero
  · exact hchanged hstate

lemma Sets.awaiting {c : Channel} {pending : Prop}
    (hs : Sets (run link port inputs).mgr (run link port (inputs ++ [input])).mgr s c pending)
    (hinv : ∀ t, Awaiting link port inputs t)
    (hc : c.live = true → c.pendingIdentifier ≠ 0 →
      LiveAfter link port s (inputs ++ [input]) → ∃ request, c.state.awaits = some request ∧
        Outstanding link port s request c.pendingIdentifier (inputs ++ [input])) (t : Slot) :
    Awaiting link port (inputs ++ [input]) t := by
  by_cases hts : t = s
  · subst hts
    have hchan := hs.chan_self
    intro hlive hne
    rw [hchan] at hne ⊢
    exact hc (hchan ▸ hlive) hne hlive
  · have hchan := hs.chan_of_ne hts
    exact (hinv t).later (by rw [hchan]) (by rw [hchan])

lemma Moves.awaiting
    (h : Moves link (run link port inputs) input (run link port (inputs ++ [input])).mgr)
    (hinv : ∀ t, Awaiting link port inputs t) (t : Slot) :
    Awaiting link port (inputs ++ [input]) t := by
  cases h with
  | idle hc _ _ =>
    have hchan : (run link port (inputs ++ [input])).chan t = (run link port inputs).chan t :=
      congrFun hc t
    exact (hinv t).later (by rw [hchan]) (by rw [hchan])
  | connects s hi hf hs _ =>
    refine hs.awaiting hinv (fun _ _ hlive => ⟨.connection, rfl, .now ⟨⟨?_, hf⟩, rfl, hlive⟩⟩) t
    exact ⟨_, _, _, _, hi⟩
  | refused s c _ hfree _ hs _ =>
    refine hs.awaiting hinv (fun hlive => ?_) t
    simp [Channel.live, hfree] at hlive
  | registers s _ _ _ hs _ | acceptsResponse s _ _ _ _ _ _ _ hs _ | closes s _ hs _ =>
    exact hs.awaiting hinv (fun _ hne => absurd rfl hne) t
  | configures s _ _ _ _ _ _ hi hs _ =>
    exact hs.awaiting hinv (fun _ _ hlive => ⟨.configure, rfl, .now ⟨hi, rfl, hlive⟩⟩) t
  | acceptsRequest s _ _ _ _ hst hs _ =>
    by_cases hts : t = s
    · subst hts
      have hchan := hs.chan_self
      cases hout : ((run link port inputs).chan t).outboundConfigDone with
      | true =>
        -- Its Configure Request is answered, so it has no identifier.
        have hconfig := (run_tracked link port inputs t).shaken
        rw [Handshake, hst, if_pos hout] at hconfig
        exact fun _ hne => absurd (by rw [hchan]; exact hconfig.2.1.2.1) hne
      | false => refine (hinv t).later ?_ ?_ <;> simp [hchan, hout, hst]
    · have hchan := hs.chan_of_ne hts
      exact (hinv t).later (by rw [hchan]) (by rw [hchan])
  | disconnects s hi hf hst hs _ =>
    refine hs.awaiting hinv (fun _ _ hlive => ⟨.disconnection, rfl, .now ⟨?_, rfl, hlive⟩⟩) t
    exact ⟨_, _, hi, hf, hst⟩

lemma run_awaiting (link : Link) (port : ℕ → Bool) (inputs : List Input) (s : Slot) :
    Awaiting link port inputs s := by
  refine run_slots (Q := Awaiting link port) (fun _ => nofun) (fun inputs nowUs s h hchan _ => ?_)
    (fun inputs nowUs s hfree _ => ?_) (fun inputs input hm hinv => hm.awaiting hinv) inputs s
  · exact h.later (by rw [hchan]) (by rw [hchan])
  · intro hlive
    simp [Channel.live, hfree] at hlive

lemma Outstanding.identifier_ne_zero {request : Request} {identifier : UInt8}
    (h : Outstanding link port s request identifier inputs) : identifier ≠ 0 := by
  induction h with
  | now h => exact h.2.1 ▸ nextIdentifier_ne_zero link port _
  | later _ _ ih => exact ih

lemma Moves.response_finds {w' : World} {hdr : SigHeader} {data : Bytes}
    (h : Moves link w input w'.mgr) (hcmd : commandOf link w input = some (hdr, data))
    (hresp : IsResponse hdr.code) (hchange : w'.chan s ≠ w.chan s) :
    findChannelByIdentifier w hdr.identifier = some s ∧
    ((w.chan s).state = .waitConnectRsp ∨ (w.chan s).state = .waitDisconnectRsp ∨
      hdr.code = sigCommandReject ∨
      hdr.code = sigConfigureResponse ∧ (w.chan s).state = .config ∧
        ((∃ rsp, sigParseConfigureResponse data = .ok rsp ∧ rsp.result ≠ configResultSuccess) ∨
          w'.chan s = { w.chan s with
            pendingIdentifier := 0, outboundConfigDone := true
            state := if (w.chan s).inboundConfigDone then .opened else .config })) := by
  -- The channel that changes is the one that the step assigns.
  have hself {t : Slot} {c : Channel} {pending : Prop} (hs : Sets w.mgr w'.mgr t c pending) :
      t = s := by
    by_contra hne
    exact hchange (hs.chan_of_ne (Ne.symm hne))
  have hsame {hdr' : SigHeader} {data' : Bytes}
      (hcmd' : commandOf link w input = some (hdr', data')) : hdr' = hdr ∧ data' = data := by
    simpa using hcmd'.symm.trans hcmd
  have hrequest : hdr.code ≠ sigConfigureRequest ∧ hdr.code ≠ sigDisconnectionRequest := by
    rcases hresp with h | h | h | h <;> rw [h] <;> decide
  cases h with
  | idle hc _ _ => exact absurd (congrFun hc s) hchange
  | connects _ hi | refused _ _ hi | registers _ hi | disconnects _ hi => subst hi; cases hcmd
  | configures t hcmd' _ hfind hst _ _ _ hs _ =>
    obtain ⟨rfl, rfl⟩ := hsame hcmd'
    obtain rfl := hself hs
    exact ⟨hfind, .inl hst⟩
  | acceptsRequest t hcmd' hcode _ _ _ hs _ =>
    obtain ⟨rfl, rfl⟩ := hsame hcmd'
    exact absurd hcode hrequest.1
  | acceptsResponse t hcmd' hcode hfind hst _ _ _ hs _ =>
    obtain ⟨rfl, rfl⟩ := hsame hcmd'
    obtain rfl := hself hs
    exact ⟨hfind, .inr (.inr (.inr ⟨hcode, hst, .inr hs.chan_self⟩))⟩
  | closes t hi hs _ =>
    obtain rfl := hself hs
    cases hi with
    | refused hcmd' _ hfind hst _ _ =>
      obtain ⟨rfl, rfl⟩ := hsame hcmd'
      exact ⟨hfind, .inl hst⟩
    | configFailed hcmd' hcode hfind hst hparse hresult =>
      obtain ⟨rfl, rfl⟩ := hsame hcmd'
      exact ⟨hfind, .inr (.inr (.inr ⟨hcode, hst, .inl ⟨_, hparse, hresult⟩⟩))⟩
    | peer hcmd' hcode _ _ =>
      obtain ⟨rfl, rfl⟩ := hsame hcmd'
      exact absurd hcode hrequest.2
    | acknowledged hcmd' _ hfind hst _ =>
      obtain ⟨rfl, rfl⟩ := hsame hcmd'
      exact ⟨hfind, .inr (.inl hst)⟩
    | rejected hcmd' hcode hfind =>
      obtain ⟨rfl, rfl⟩ := hsame hcmd'
      exact ⟨hfind, .inr (.inr (.inl hcode))⟩
    | locally hi => subst hi; cases hcmd
    | expired hi => rcases hi with rfl | rfl <;> cases hcmd

lemma Misfires.closes {hdr : SigHeader} {data : Bytes} (h : Misfires w hdr data)
    (hcmd : commandOf link w input = some (hdr, data)) (send : Send) :
    ∃ s, (w.chan s).live = true ∧ ((apply link send w input).chan s).state = .free := by
  obtain ⟨-, s, hfind, hreject | ⟨hcode, hst, rsp, hparse, hresult⟩⟩ := h
  · exact ⟨s, (findChannelByIdentifier_some hfind).1,
      apply_peerCloses send hcmd (.inr ⟨hreject, hfind⟩)⟩
  · obtain ⟨ra, nowUs, happly⟩ := apply_command send hcmd
    have hfind' : findChannelByIdentifier (w.received ra) hdr.identifier = some s := hfind
    refine ⟨s, (findChannelByIdentifier_some hfind).1, ?_⟩
    rw [happly, dispatchCommand_configureResponse _ _ _ _ _ hcode]
    simp [handleConfigureResponse, hfind', hst, hparse, hresult, finishClose_free]

lemma Channel.configured_again {c : Channel} (hst : c.state = .config)
    (hid : c.pendingIdentifier = 0) (hout : c.outboundConfigDone = true)
    (hin : c.inboundConfigDone = false) :
    { c with
      pendingIdentifier := 0, outboundConfigDone := true
      state := if c.inboundConfigDone then .opened else .config } = c := by
  cases c
  simp_all

lemma misfires_of_change {hdr : SigHeader} {data : Bytes}
    (hm : Moves link (run link port inputs) input (run link port (inputs ++ [input])).mgr)
    (hcmd : commandOf link (run link port inputs) input = some (hdr, data))
    (hresp : IsResponse hdr.code) (hzero : hdr.identifier = 0)
    (hchange : (run link port (inputs ++ [input])).chan s ≠ (run link port inputs).chan s) :
    Misfires (run link port inputs) hdr data := by
  obtain ⟨hfind, hwhy⟩ := hm.response_finds hcmd hresp hchange
  have hid := (findChannelByIdentifier_some hfind).2.trans hzero
  have hinv := (run_tracked link port inputs s).shaken
  rcases hwhy with hst | hst | hcode | ⟨hcode, hst, hfailed | hchan⟩
  · rw [Handshake, hst] at hinv
    exact absurd hid hinv.2.1
  · rw [Handshake, hst] at hinv
    exact absurd hid hinv
  · exact ⟨hzero, s, hfind, .inl hcode⟩
  · exact ⟨hzero, s, hfind, .inr ⟨hcode, hst, hfailed⟩⟩
  · rw [Handshake, hst] at hinv
    obtain ⟨-, hours, -⟩ := hinv
    split at hours
    next hout =>
      exact absurd (hchan.trans (Channel.configured_again hst hid hout hours.2.2)) hchange
    · exact absurd hid hours.2

/-- In every state that a run reaches: a response changes channels only for whose outstanding
requests it has the identifier, exactly when it does not misfire. -/
theorem response_outstanding_iff (link : Link) (port : ℕ → Bool) (inputs : List Input)
    (input : Input) (hdr : SigHeader) (data : Bytes)
    (hcmd : commandOf link (run link port inputs) input = some (hdr, data))
    (hresp : IsResponse hdr.code) :
    (∀ s, (run link port (inputs ++ [input])).chan s ≠ (run link port inputs).chan s →
      ∃ request, Outstanding link port s request hdr.identifier inputs) ↔
    ¬ Misfires (run link port inputs) hdr data := by
  constructor
  · intro h hmis
    obtain ⟨s, hlive, hfree⟩ := hmis.closes hcmd (answerWith port)
    rw [← run_concat] at hfree
    obtain ⟨request, hout⟩ := h s fun hsame => by
      rw [hsame] at hfree
      simp [Channel.live, hfree] at hlive
    exact hout.identifier_ne_zero hmis.1
  · intro hn s hchange
    have hm : Moves link (run link port inputs) input (run link port (inputs ++ [input])).mgr := by
      rw [run_concat]
      refine apply_moves (answerWith_quiet port) _ fun nowUs hi => ?_
      subst hi
      cases hcmd
    have hne := fun hzero => hn (misfires_of_change hm hcmd hresp hzero hchange)
    obtain ⟨hlive, hid⟩ := findChannelByIdentifier_some (hm.response_finds hcmd hresp hchange).1
    obtain ⟨request, -, hout⟩ := run_awaiting link port inputs s hlive (hid ▸ hne)
    exact ⟨request, hid ▸ hout⟩

theorem connectionResponse_outstanding :
    (∀ s, (run classicLink (fun _ => true) ([.open 0x0011 0 true 0] ++
        [.onAcl 0x02 [12, 0, 0x01, 0, 0x03, 1, 8, 0, 0x50, 0, 0x40, 0, 0, 0, 0, 0] 1])).chan s ≠
        (run classicLink (fun _ => true) [.open 0x0011 0 true 0]).chan s →
      ∃ request, Outstanding classicLink (fun _ => true) s request 1 [.open 0x0011 0 true 0]) ↔
    ¬ Misfires (run classicLink (fun _ => true) [.open 0x0011 0 true 0]) ⟨0x03, 1, 8⟩
      [0x50, 0, 0x40, 0, 0, 0, 0, 0] :=
  response_outstanding_iff classicLink (fun _ => true) [.open 0x0011 0 true 0]
    (.onAcl 0x02 [12, 0, 0x01, 0, 0x03, 1, 8, 0, 0x50, 0, 0x40, 0, 0, 0, 0, 0] 1) ⟨0x03, 1, 8⟩
    [0x50, 0, 0x40, 0, 0, 0, 0, 0] (by decide +kernel) (.inl rfl)

/-- A channel whose Configure Request has been answered waits for the peer's. -/
theorem identifierZero_closes :
    (let w := run classicLink (fun _ => true) silentPeer
     let w' := run classicLink (fun _ => true) (silentPeer ++
      [.onAcl 0x02 [10, 0, 0x01, 0, 0x05, 0, 6, 0, 0x40, 0, 0, 0, 2, 0] 3])
     (w.chan 0).state = .config ∧ (w'.chan 0).state = .free ∧
      ∀ request, ¬ Outstanding classicLink (fun _ => true) 0 request 0 silentPeer) ∧
    (let w := run classicLink (fun _ => true) [.openFixed 0x0004 true]
     let w' := run classicLink (fun _ => true) ([.openFixed 0x0004 true] ++
      [.onAcl 0x02 [6, 0, 0x01, 0, 0x01, 0, 2, 0, 0, 0] 1])
     (w.chan 0).state = .opened ∧ (w'.chan 0).state = .free ∧
      ∀ request,
        ¬ Outstanding classicLink (fun _ => true) 0 request 0 [.openFixed 0x0004 true]) := by
  refine ⟨⟨?_, ?_, fun request h => ?_⟩, ?_, ?_, fun request h => ?_⟩
  · decide +kernel
  · decide +kernel
  · exact h.identifier_ne_zero rfl
  · decide +kernel
  · decide +kernel
  · exact h.identifier_ne_zero rfl

end Bluzing.L2cap
