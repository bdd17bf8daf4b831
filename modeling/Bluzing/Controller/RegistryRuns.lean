import Bluzing.Controller.Sightings

/-! The device registry over runs of the controller: whatever events arrive, and however the
transport nests them, the registry is what the sightings of these events make of it one by one. -/
namespace Bluzing.Controller

def inquirySightings : ℕ → InquiryResultIter → List Sighting
  | 0, _ => []
  | rounds + 1, it =>
      match inquiryResultIterNext it with
      | .error _ => []
      | .ok (entry, it) => .inquiry entry.bdAddr entry.classOfDevice :: inquirySightings rounds it

def reportSightings : ℕ → LeAdvReportIter → List Sighting
  | 0, _ => []
  | rounds + 1, it =>
      match leAdvReportIterNext it with
      | .error _ => []
      | .ok (report, it) => .report report :: reportSightings rounds it

def extendedSighting (params : Bytes) : Access Sighting := do
  let addr ← octetsAt params 1 addrLen
  let c0 ← octetAt params 10
  let c1 ← octetAt params 11
  let c2 ← octetAt params 12
  let rssi ← octetAt params 15
  return .extended addr (readLe24 c0 c1 c2) rssi.toInt8

def paramSightings (code : UInt8) (params : Bytes) : Access (List Sighting) :=
  if code = eventInquiryResult then do
    let it ← inquiryResultIterInit params
    return inquirySightings it.count.toNat it
  else if code = eventExtendedInquiryResult then do
    let s ← extendedSighting params
    return [s]
  else if code = eventLeMeta then do
    let it ← leAdvReportIterInit params
    return reportSightings it.remaining.toNat it
  else return []

def eventSightings (data : Bytes) : List Sighting :=
  match parseEventHeader (.init data) with
  | .error _ => []
  | .ok (hdr, r) =>
      match r.peek hdr.paramLen.toNat with
      | none => []
      | some params => (paramSightings hdr.eventCode params).toOption.getD []

def Event.sightings : Event → List Sighting
  | .received data => eventSightings data
  | _ => []

def sightingsOf (h : List Event) : List Sighting := h.flatMap Event.sightings

variable {devices devices' : Registry} {params : Bytes}

lemma noteResponses_traced {it : InquiryResultIter} {rounds : ℕ}
    (h : noteResponses rounds devices it = .ok devices') :
    Trace Noted devices (inquirySightings rounds it) devices' := by
  induction rounds generalizing devices it with
  | zero =>
    obtain rfl := Except.ok.inj h
    exact .nil devices
  | succ rounds ih =>
    unfold noteResponses at h
    unfold inquirySightings
    split at h
    next hnext =>
      obtain rfl := Except.ok.inj h
      simp only [hnext]
      exact .nil devices
    · cases h
    next entry it' hnext =>
      obtain ⟨found, hfound, h⟩ := Access.bind_ok h
      simp only [hnext]
      exact .cons (noted_inquiry hfound) (ih h)

lemma noteReports_traced {it : LeAdvReportIter} {rounds : ℕ}
    (h : noteReports rounds devices it = .ok devices') :
    Trace Noted devices (reportSightings rounds it) devices' := by
  induction rounds generalizing devices it with
  | zero =>
    obtain rfl := Except.ok.inj h
    exact .nil devices
  | succ rounds ih =>
    unfold noteReports at h
    unfold reportSightings
    split at h
    next hnext =>
      obtain rfl := Except.ok.inj h
      simp only [hnext]
      exact .nil devices
    · cases h
    next report it' hnext =>
      obtain ⟨devices₁, hreport, h⟩ := Access.bind_ok h
      simp only [hnext]
      exact .cons (noted_report hreport) (ih h)

lemma onExtendedInquiryResult_noted (hlen : 16 ≤ params.length)
    (h : onExtendedInquiryResult devices params = .ok devices') :
    ∃ s, extendedSighting params = .ok s ∧ Noted s devices devices' := by
  unfold onExtendedInquiryResult at h
  rw [if_neg (by omega)] at h
  obtain ⟨addr, haddr, h⟩ := Access.bind_ok h
  obtain ⟨c0, hc0, h⟩ := Access.bind_ok h
  obtain ⟨c1, hc1, h⟩ := Access.bind_ok h
  obtain ⟨c2, hc2, h⟩ := Access.bind_ok h
  obtain ⟨rssi, hrssi, h⟩ := Access.bind_ok h
  obtain ⟨found, hfound, h⟩ := Access.bind_ok h
  refine ⟨.extended addr (readLe24 c0 c1 c2) rssi.toInt8, ?_, ?_⟩
  · rw [extendedSighting, haddr, hc0, hc1, hc2, hrssi]
    rfl
  rcases deviceRegistryNoteClassic_ok hfound with ⟨rfl, hnew⟩ | ⟨e, d₁, he, hd₁, rfl⟩
  · obtain rfl := Except.ok.inj h
    exact .ignored hnew
  · obtain ⟨length, -, h⟩ := Access.bind_ok h
    obtain ⟨info, -, h⟩ := Access.bind_ok h
    obtain ⟨d₂, hd₂, h⟩ := Access.bind_ok h
    obtain rfl := Except.ok.inj h
    rw [DeviceRef.set_dev] at hd₂
    exact noted_extended he hd₁ hd₂

lemma extendedSighting_length {s : Sighting} (h : extendedSighting params = .ok s) :
    16 ≤ params.length := by
  obtain ⟨_, -, h⟩ := Access.bind_ok h
  obtain ⟨_, -, h⟩ := Access.bind_ok h
  obtain ⟨_, -, h⟩ := Access.bind_ok h
  obtain ⟨_, -, h⟩ := Access.bind_ok h
  obtain ⟨_, hrssi, -⟩ := Access.bind_ok h
  by_contra hlen
  rw [octetAt_outOfRange (by omega)] at hrssi
  cases hrssi

lemma discover_traced (devices : Registry) (code : UInt8) (params : Bytes) :
    Trace Noted devices ((paramSightings code params).toOption.getD [])
      ((discover devices code params).toOption.getD devices) := by
  unfold paramSightings discover
  split
  · unfold onInquiryResult
    cases hinit : inquiryResultIterInit params with
    | error e => exact .nil devices
    | ok it =>
      have hreturns : Returns (noteResponses it.count.toNat devices it) :=
        noteResponses_returns (inquiryResultIterInit_fits hinit) _
      obtain ⟨devices', h⟩ := hreturns
      have htrace := noteResponses_traced h
      simpa [bind, Except.bind, pure, Except.pure, h, Except.toOption] using htrace
  split
  · by_cases hlen : 16 ≤ params.length
    · have hreturns : Returns (onExtendedInquiryResult devices params) :=
        onExtendedInquiryResult_returns (by omega)
      obtain ⟨devices', h⟩ := hreturns
      obtain ⟨s, hs, hnoted⟩ := onExtendedInquiryResult_noted hlen h
      rw [hs, h]
      exact .cons hnoted (.nil devices')
    · have hnone : ∃ e, extendedSighting params = .error e := by
        cases hs : extendedSighting params with
        | error e => exact ⟨e, rfl⟩
        | ok s => exact absurd (extendedSighting_length hs) hlen
      obtain ⟨e, he⟩ := hnone
      have hsame : (onExtendedInquiryResult devices params).toOption.getD devices = devices := by
        by_cases h15 : params.length = 15
        · rw [onExtendedInquiryResult_outOfRange h15]
          rfl
        · rw [onExtendedInquiryResult, if_pos (by omega)]
          rfl
      rw [he, hsame]
      exact .nil devices
  split
  · unfold onLeMeta
    cases hinit : leAdvReportIterInit params with
    | error e => exact .nil devices
    | ok it =>
      have hreturns : Returns (noteReports it.remaining.toNat devices it) := noteReports_returns ..
      obtain ⟨devices', h⟩ := hreturns
      have htrace := noteReports_traced h
      simpa [bind, Except.bind, pure, Except.pure, h, Except.toOption] using htrace
  · exact .nil devices

def Discovers (w w' : Ctrl) : Prop :=
  ∃ log, Trace Noted w.host.devices log w'.host.devices ∧
    (sightingsOf w'.history).Perm (log ++ sightingsOf w.history)

def Event.internal : Event → Bool
  | .received _ => false
  | _ => true

lemma sightingsOf_internal {h h' : List Event} (hx : Extends Event.internal h h') :
    sightingsOf h' = sightingsOf h := by
  refine hx.keeps (J := fun h'' => sightingsOf h'' = sightingsOf h) (fun e h'' he hh => ?_) rfl
  cases e with
  | received => cases he
  | _ => exact hh

lemma Event.internal_of_ofQueue (e : Event) (he : e.ofQueue = true) : e.internal = true := by
  cases e <;> first | rfl | cases he

namespace Discovers
variable {w₀ w w' w'' : Ctrl} {env : Env} {send : Send OnComplete Host}

lemma refl (w : Ctrl) : Discovers w w := ⟨[], .nil _, .refl _⟩

lemma trans (h₁ : Discovers w w') (h₂ : Discovers w' w'') : Discovers w w'' := by
  obtain ⟨log₁, htrace₁, hperm₁⟩ := h₁
  obtain ⟨log₂, htrace₂, hperm₂⟩ := h₂
  refine ⟨log₁ ++ log₂, htrace₁.append htrace₂, hperm₂.trans ((hperm₁.append_left log₂).trans ?_)⟩
  rw [← List.append_assoc]
  exact List.perm_append_comm.append_right _

lemma quiet (hdevices : w'.host.devices = w.host.devices)
    (hhistory : Extends Event.internal w.history w'.history) : Discovers w w' := by
  refine ⟨[], ?_, ?_⟩
  · rw [hdevices]
    exact .nil _
  · rw [sightingsOf_internal hhistory]
    exact .refl _

lemma queueStep (h : QueueStep w w') : Discovers w w' :=
  quiet (by rw [h.host]) (h.history.mono Event.internal_of_ofQueue)

lemma submit (w : Ctrl) (opcode : UInt16) (params : Option Bytes) (paramsLen : UInt8)
    (timeoutUs : ℕ) (onComplete : Option OnComplete) :
    Discovers w (cmdqSubmit w opcode params paramsLen timeoutUs onComplete).1 := by
  refine queueStep ⟨cmdqSubmit_host .., ?_⟩
  rcases cmdqSubmit_history w opcode params paramsLen timeoutUs onComplete with h | h
  · rw [h]
    exact .refl
  · rw [h]
    exact .cons rfl .refl

lemma setState (w : Ctrl) (state : ControllerState) : Discovers w (w.setState state) :=
  quiet rfl .refl

lemma callbacks (cb : OnComplete) (w : Ctrl) (completion : Completion) :
    Discovers w (callbacks cb w completion) := by
  have hhistory := callbacks_history (J := Extends Event.ofQueue w.history)
    (fun e h he hh => .cons he hh) cb w completion .refl
  refine quiet ?_ (hhistory.mono Event.internal_of_ofQueue)
  have hnext (w : Ctrl) (state : ControllerState) (opcode : UInt16) (next : OnComplete) :
      (nextStep w state opcode next).host.devices = w.host.devices := by
    have hsubmit : (cmdqSubmit (w.setState state) opcode none 0 0 (some next)).1.host.devices =
        w.host.devices := by
      rw [cmdqSubmit_host]
      rfl
    unfold nextStep
    dsimp only
    split
    · exact hsubmit
    · exact hsubmit
  have hparse {α : Type} (parse : Bytes → Access α)
      (store : α → ControllerInfo → ControllerInfo) {next : Ctrl → Ctrl}
      (hn : ∀ w, (next w).host.devices = w.host.devices) :
      (parseStep parse store next w completion).host.devices = w.host.devices := by
    unfold parseStep
    split
    · split
      next e _ => cases e <;> rfl
      · exact hn _
    · rfl
  cases cb with
  | onResetComplete =>
    simp only [Controller.callbacks, onResetComplete]
    split
    · exact hnext ..
    · rfl
  | onVersionComplete | onFeaturesComplete => exact hparse _ _ fun w => hnext w ..
  | onBufferSizeComplete => exact hparse _ _ fun _ => rfl
  | ignoreCompletion => rfl

lemma keeps (sent : ∀ w command, Discovers w (send w command).1) (w₀ : Ctrl) :
    Keeps Controller.callbacks send (Discovers w₀) :=
  keeps_of_queueStep (fun _ _ hstep hw => hw.trans (queueStep hstep))
    (fun cb w completion hw => hw.trans (callbacks cb w completion))
    fun w command hw => hw.trans (sent w command)

lemma inspect (w : Ctrl) (hook : Bool) (code : UInt8) (params : Bytes) :
    Trace Noted w.host.devices ((paramSightings code params).toOption.getD [])
        (inspectEvent hook w code params).host.devices ∧
      Extends Event.internal w.history (inspectEvent hook w code params).history := by
  have htraced : (traceInquiry hook w code params).host.devices = w.host.devices ∧
      Extends Event.internal w.history (traceInquiry hook w code params).history := by
    unfold traceInquiry
    split
    · exact ⟨rfl, .cons rfl .refl⟩
    · exact ⟨rfl, .refl⟩
  have hdiscover := discover_traced w.host.devices code params
  unfold inspectEvent
  rw [← htraced.1] at hdiscover ⊢
  dsimp only
  split
  next e he =>
    rw [he] at hdiscover
    cases e with
    | status => exact ⟨hdiscover, htraced.2⟩
    | outOfRange => exact ⟨hdiscover, .cons rfl htraced.2⟩
  next devices hdevices =>
    rw [hdevices] at hdiscover
    exact ⟨hdiscover, htraced.2⟩

lemma handle (sent : ∀ w command, Discovers w (send w command).1) (w : Ctrl)
    (d : Bytes × ℕ) : Discovers w ((reentrant env).handle send w d) := by
  have hevent : Discovers (w.emit (.received d.1))
      (cmdqOnEvent Controller.callbacks send env.fuel (w.emit (.received d.1)) d.1 d.2) :=
    (keeps sent (w.emit (.received d.1))).onEvent env.fuel (refl _) d.1
  obtain ⟨log, htrace, hperm⟩ := hevent
  change Discovers w (controllerOnEvent env.hook send env.fuel (w.emit (.received d.1)) d.1 d.2)
  unfold controllerOnEvent
  generalize
    cmdqOnEvent Controller.callbacks send env.fuel (w.emit (.received d.1)) d.1 d.2 = w₁ at *
  have hreceived : sightingsOf (w.emit (.received d.1)).history =
      eventSightings d.1 ++ sightingsOf w.history := List.flatMap_cons
  rw [hreceived, ← List.append_assoc] at hperm
  unfold eventSightings at hperm
  split
  next e he =>
    simp only [he, List.append_nil] at hperm
    refine trans ⟨log, htrace, hperm⟩ ?_
    cases e with
    | status => exact refl w₁
    | outOfRange => exact quiet rfl (.cons rfl .refl)
  next hdr r hp =>
  simp only [hp] at hperm
  split
  next hpeek =>
    simp only [hpeek, List.append_nil] at hperm
    exact ⟨log, htrace, hperm⟩
  next params hpeek =>
    simp only [hpeek] at hperm
    obtain ⟨hinspect, hhistory⟩ := inspect w₁ env.hook hdr.eventCode params
    refine ⟨_, htrace.append hinspect, ?_⟩
    rw [sightingsOf_internal hhistory]
    exact hperm

lemma sendAt (env : Env) (depth : ℕ) (w : Ctrl) (command : Bytes) :
    Discovers w (sendAt env depth w command).1 :=
  Reentrant.port_rel (C := reentrant env) refl trans (fun _ => quiet rfl .refl)
    (fun _ sent => handle sent) depth w command

lemma pump (env : Env) (depth : ℕ) (w : Ctrl) (nowUs : ℕ) :
    Discovers w (cmdqPump Controller.callbacks (Controller.sendAt env depth) env.fuel w nowUs) :=
  (keeps (sendAt env depth) w).pump env.fuel w nowUs (refl w)

lemma submitDiscovery (w : Ctrl) (commands : List (UInt16 × Bytes)) :
    Discovers w (submitDiscovery w commands).1 := by
  induction commands generalizing w with
  | nil => exact refl w
  | cons command rest ih =>
    have hsubmit := submit w command.1 (some command.2) command.2.length.toUInt8 0
      (some .ignoreCompletion)
    rw [Controller.submitDiscovery]
    split
    · exact hsubmit
    · exact hsubmit.trans (ih _)

lemma discoveryCall (env : Env) (depth : ℕ) (w : Ctrl) (commands : List (UInt16 × Bytes))
    (nowUs : ℕ) :
    Discovers w (discoveryCall (Controller.sendAt env depth) env.fuel w commands nowUs).1 := by
  have hsubmit := submitDiscovery w commands
  unfold Controller.discoveryCall
  split
  · exact refl w
  dsimp only
  split
  · exact hsubmit
  · exact hsubmit.trans (pump ..)

lemma apply (env : Env) (depth : ℕ) (w : Ctrl) (input : ControllerInput) :
    Discovers w (applyController env depth w input) := by
  cases input with
  | start nowUs =>
    have hsubmit := submit w opcodeReset none 0 0 (some .onResetComplete)
    unfold applyController controllerStart
    dsimp only
    split
    · exact refl w
    split
    · exact hsubmit
    · exact (hsubmit.trans (setState _ _)).trans (pump ..)
  | onEvent data nowUs => exact handle (sendAt env depth) w (data, nowUs)
  | tick nowUs => exact (keeps (sendAt env depth) w).tick env.fuel (refl w)
  | startClassicInquiry | startLeScan | stopLeScan => exact discoveryCall ..

lemma run (env : Env) (depth inquiryTraced : ℕ) (before after : List ControllerInput) :
    Discovers (runController env depth inquiryTraced before)
      (runController env depth inquiryTraced (before ++ after)) := by
  rw [runController, runController, List.foldl_append]
  exact foldl_rel refl trans (apply env depth) after _

end Discovers

lemma traced_well {r r' : Registry} {log : List Sighting} (h : Trace Noted r log r')
    (hr : r.Sound) : r'.Sound ∧ Trace NotedWell r log r' :=
  h.invariant (fun _ _ _ hs hstep => ⟨hstep.sound hs, hstep.well hs⟩) hr

/-- In every run of a controller, whatever the transport delivers from `send_command`, and between
any two of its calls: the entries of the registry fit, have different addresses and proper names;
none is removed, moved or given another address; flags are only added, the worth of a name never
falls and a name the device gave stays. -/
theorem run_registry_sound (env : Env) (depth inquiryTraced : ℕ)
    (before after : List ControllerInput) :
    let w := runController env depth inquiryTraced before
    let w' := runController env depth inquiryTraced (before ++ after)
    w'.host.devices.Sound ∧ w.host.devices.Grows w'.host.devices ∧
      ∃ log, Trace NotedWell w.host.devices log w'.host.devices ∧
        (sightingsOf w'.history).Perm (log ++ sightingsOf w.history) := by
  intro w w'
  obtain ⟨early, hearly, -⟩ := Discovers.run env depth inquiryTraced [] before
  have hsound := (traced_well hearly Registry.sound_init).1
  obtain ⟨log, htrace, hperm⟩ := Discovers.run env depth inquiryTraced before after
  obtain ⟨hsound', hwell⟩ := traced_well htrace hsound
  exact ⟨hsound', hwell.rel .refl .trans fun _ _ _ h => h.grows, log, hwell, hperm⟩

end Bluzing.Controller
