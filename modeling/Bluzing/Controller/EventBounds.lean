import Bluzing.Controller.Advertising
import Bluzing.Controller.QueueRules
import Bluzing.Controller.Controller

/-! Which events make the controller read outside them. -/
namespace Bluzing.Controller
open List
variable {name : Bytes} {length i fuel : ℕ}

def NameReadable (name : Bytes) (length : ℕ) : Prop := length ≤ name.length ∨ 0 ∈ name

lemma copyName_returns {buf : Octets deviceNameLen} (h : length ≤ name.length ∨ 0 ∈ name.drop i) :
    Returns (copyName name length fuel i buf) := by
  induction fuel generalizing i buf with
  | zero => exact returns_ok _
  | succ fuel ih =>
    unfold copyName
    split
    next hi =>
      have hlt : i < name.length := by
        rcases h with h | h
        · omega
        · have hpos := length_pos_of_mem h
          rw [length_drop] at hpos
          omega
      rw [octetAt_ok hlt]
      refine (returns_ok _).bind fun c hc => ?_
      obtain rfl := Except.ok.inj hc
      split
      · exact returns_ok _
      next hne =>
        refine ih (h.imp_right fun h => ?_)
        rw [drop_eq_getElem_cons hlt] at h
        exact (mem_cons.mp h).resolve_left fun h0 => hne h0.symm
    · exact returns_ok _

lemma deviceSetName_returns {dev : Device} {name : Option Bytes} {state : UInt8}
    (h : ∀ n, name = some n → NameReadable n length) :
    Returns (deviceSetName dev name length state) := by
  unfold deviceSetName
  split
  · exact returns_ok _
  next n =>
  split
  · exact returns_ok _
  · exact (copyName_returns (i := 0) (h n rfl)).bind fun _ _ => returns_ok _

lemma cString_readable (s : String) (length : ℕ) : NameReadable (cString s) length :=
  .inr (mem_append_right _ (mem_singleton.mpr rfl))

lemma labelFromCod_readable {cod : UInt32} {n : Bytes} (h : labelFromCod cod = some n) :
    NameReadable n length := by
  unfold labelFromCod at h
  repeat' split at h
  all_goals cases h
  all_goals exact cString_readable _ _

lemma labelFromAppearance_readable {appearance : UInt16} {n : Bytes}
    (h : labelFromAppearance appearance = some n) : NameReadable n length := by
  unfold labelFromAppearance at h
  repeat' split at h
  all_goals cases h
  all_goals exact cString_readable _ _

lemma deviceRegistryNoteClassic_returns (reg : Registry) (addr : Address) (cod : UInt32) :
    Returns (deviceRegistryNoteClassic reg addr cod) := by
  unfold deviceRegistryNoteClassic
  split
  · exact returns_ok _
  · refine Returns.bind ?_ fun _ _ => returns_ok _
    exact (deviceSetName_returns fun n => labelFromCod_readable).bind fun _ _ => returns_ok _

def LeAdvInfo.Fits (info : LeAdvInfo) : Prop := ∀ n, info.name = some n → info.nameLen ≤ n.length

lemma leAdvParse_yields (data : Bytes) :
    Yields (leAdvParse data data.length) LeAdvInfo.Fits := by
  refine ⟨_, leAdvParse_eq data, fun n hn => ?_⟩
  rw [(describes_foldl _).nameLen, hn]
  rfl

variable {devices : Registry} {params : Bytes}

lemma noteResponses_returns {it : InquiryResultIter} (h : it.Fits) (rounds : ℕ) :
    Returns (noteResponses rounds devices it) := by
  induction rounds generalizing devices it with
  | zero => exact returns_ok _
  | succ rounds ih =>
    unfold noteResponses
    split
    · exact returns_ok _
    next hnext => exact absurd hnext (inquiryResultIterNext_inRange h)
    next entry it' hnext =>
      exact (deviceRegistryNoteClassic_returns _ _ _).bind fun _ _ =>
        ih (inquiryResultIterNext_fits hnext h)

lemma onInquiryResult_inRange : InRange (onInquiryResult devices params) :=
  (inquiryResultIterInit_inRange params).bind fun _ hit =>
    (noteResponses_returns (inquiryResultIterInit_fits hit) _).inRange

lemma noteAdvertising_returns (dev : Device) {info : LeAdvInfo} (h : info.Fits) :
    Returns (noteAdvertising dev info) := by
  refine Returns.bind ?_ fun _ _ => deviceSetName_returns fun n hn => .inl (h n hn)
  unfold noteAppearance
  split
  · exact deviceSetName_returns fun n => labelFromAppearance_readable
  · exact returns_ok _

lemma noteReport_returns (report : LeAdvReport) : Returns (noteReport devices report) := by
  refine ((leAdvParse_yields _).bind (Q := fun _ => True) fun info hinfo => ?_).returns
  split
  · exact yields_ok trivial
  split
  · exact yields_ok trivial
  next e _ =>
    exact (Returns.bind (noteAdvertising_returns e.dev hinfo) fun _ _ => returns_ok _).yields

lemma noteReports_returns (rounds : ℕ) (it : LeAdvReportIter) :
    Returns (noteReports rounds devices it) := by
  induction rounds generalizing devices it with
  | zero => exact returns_ok _
  | succ rounds ih =>
    unfold noteReports
    split
    · exact returns_ok _
    next hnext => exact absurd hnext (leAdvReportIterNext_inRange it)
    next report it' _ => exact (noteReport_returns report).bind fun _ _ => ih it'

lemma onExtendedInquiryResult_returns (h : params.length ≠ 15) :
    Returns (onExtendedInquiryResult devices params) := by
  unfold onExtendedInquiryResult
  split
  · exact returns_ok _
  have hlen : 16 ≤ params.length := by omega
  refine (octetsAt_returns (by simp only [addrLen]; omega)).bind fun _ _ =>
    (octetAt_returns (by omega)).bind fun _ _ => (octetAt_returns (by omega)).bind fun _ _ =>
    (octetAt_returns (by omega)).bind fun _ _ => (octetAt_returns (by omega)).bind fun _ _ =>
    (deviceRegistryNoteClassic_returns _ _ _).bind fun e _ => ?_
  cases e with
  | none => exact returns_ok _
  | some e =>
    rw [lengthSub_ok hlen]
    refine (returns_ok _).bind fun length hlength => ?_
    rw [← Except.ok.inj hlength, ← length_drop]
    refine ((leAdvParse_yields _).bind (Q := fun _ => True) fun info hinfo => ?_).returns
    refine (Returns.bind ?_ fun _ _ => returns_ok _).yields
    exact deviceSetName_returns fun n hn => .inl (hinfo n hn)

lemma onExtendedInquiryResult_outOfRange (h : params.length = 15) :
    onExtendedInquiryResult devices params = .error .outOfRange := by
  have haddr : 1 + addrLen ≤ params.length := by
    simp only [addrLen]
    omega
  obtain ⟨addr, haddr, -⟩ := octetsAt_ok haddr
  unfold onExtendedInquiryResult
  rw [if_neg (by omega), haddr, octetAt_ok (i := 10) (by omega), octetAt_ok (i := 11) (by omega),
    octetAt_ok (i := 12) (by omega), octetAt_outOfRange (i := 15) (by omega)]
  rfl

lemma discover_inRange {code : UInt8}
    (h : ¬ (code = eventExtendedInquiryResult ∧ params.length = 15)) :
    InRange (discover devices code params) := by
  unfold discover
  split
  · exact onInquiryResult_inRange
  split
  next hcode => exact (onExtendedInquiryResult_returns fun hlen => h ⟨hcode, hlen⟩).inRange
  split
  · exact (leAdvReportIterInit_inRange params).bind fun _ _ => (noteReports_returns _ _).inRange
  · exact inRange_ok _

def ShortExtendedInquiry (data : Bytes) : Prop :=
  ∃ rest, data = eventExtendedInquiryResult :: 15 :: rest ∧ 15 ≤ rest.length

def FaultsExplained (h : List Event) : Prop :=
  .outOfRange ∈ h ↔ ∃ data, .received data ∈ h ∧ ShortExtendedInquiry data

variable {h : List Event} {w : Ctrl} {send : Send OnComplete Host}

lemma FaultsExplained.cons {e : Event} (he : e ≠ .outOfRange)
    (hr : ∀ data, e = .received data → ¬ ShortExtendedInquiry data) (hh : FaultsExplained h) :
    FaultsExplained (e :: h) := by
  unfold FaultsExplained at *
  simp only [mem_cons, he.symm, false_or]
  rw [hh]
  constructor
  · rintro ⟨data, hd, hs⟩
    exact ⟨data, .inr hd, hs⟩
  · rintro ⟨data, hd | hd, hs⟩
    · exact absurd hs (hr data hd.symm)
    · exact ⟨data, hd, hs⟩

lemma faultsExplained_queue (e : Event) (h : List Event) (he : e.ofQueue = true)
    (hh : FaultsExplained h) : FaultsExplained (e :: h) := by
  refine hh.cons ?_ ?_
  · rintro rfl
    cases he
  · rintro data rfl
    cases he

variable (env : Env) {J : List Event → Prop}

lemma callbacks_history
    (queue : ∀ e h, e.ofQueue = true → J h → J (e :: h)) (cb : OnComplete) (w : Ctrl)
    (completion : Completion) (hw : J w.history) : J (callbacks cb w completion).history := by
  have hnext (w : Ctrl) (state : ControllerState) (opcode : UInt16) (next : OnComplete)
      (hw : J w.history) : J (nextStep w state opcode next).history := by
    unfold nextStep
    dsimp only
    have hsubmit : J (cmdqSubmit (w.setState state) opcode none 0 0 (some next)).1.history := by
      rcases cmdqSubmit_history (w.setState state) opcode none 0 0 (some next) with h | h
      · rwa [h]
      · rw [h]
        exact queue _ _ rfl hw
    split
    · exact hsubmit
    · exact hsubmit
  have hparse {α : Type} {parse : Bytes → Access α}
      {store : α → ControllerInfo → ControllerInfo} {next : Ctrl → Ctrl}
      (hp : ∀ params, InRange (parse params)) (hn : ∀ w, J w.history → J (next w).history) :
      J (parseStep parse store next w completion).history := by
    unfold parseStep
    split
    · split
      next e he => cases e with
        | status => exact hw
        | outOfRange => exact absurd he (hp _)
      · exact hn _ hw
    · exact hw
  cases cb with
  | onResetComplete =>
    simp only [callbacks, onResetComplete]
    split
    · exact hnext _ _ _ _ hw
    · exact hw
  | onVersionComplete => exact hparse parseLocalVersion_inRange fun w => hnext w _ _ _
  | onFeaturesComplete => exact hparse parseLocalFeatures_inRange fun w => hnext w _ _ _
  | onBufferSizeComplete => exact hparse parseBufferSize_inRange fun _ hw => hw
  | ignoreCompletion => exact hw

lemma cmdqOnEvent_extendedInquiry {fuel nowUs : ℕ} (len : UInt8) (rest : Bytes)
    (hlen : len.toNat ≤ rest.length) :
    cmdqOnEvent callbacks send fuel w (eventExtendedInquiryResult :: len :: rest) nowUs = w := by
  rw [cmdqOnEvent, parseEventHeader_cons, if_neg (by omega)]
  rfl

lemma traceInquiry_history (traced : ∀ params h, J h → J (.traced params :: h)) (hook : Bool)
    (code : UInt8) (params : Bytes) (hw : J w.history) :
    J (traceInquiry hook w code params).history := by
  unfold traceInquiry
  split
  · exact traced _ _ hw
  · exact hw

variable {hook : Bool} {nowUs : ℕ}

lemma controllerOnEvent_params (code : UInt8) {len : UInt8} {rest : Bytes}
    (hlen : len.toNat ≤ rest.length) :
    controllerOnEvent hook send fuel w (code :: len :: rest) nowUs =
      inspectEvent hook (cmdqOnEvent callbacks send fuel w (code :: len :: rest) nowUs) code
        (rest.take len.toNat) := by
  rw [controllerOnEvent, parseEventHeader_cons, if_neg (by omega)]
  simp [Reader.peek, Reader.remaining, hlen]

lemma onEvent_short {rest : Bytes} (hlen : 15 ≤ rest.length) :
    (controllerOnEvent hook send fuel w (eventExtendedInquiryResult :: 15 :: rest) nowUs).history =
      .outOfRange :: w.history := by
  have hdiscover : discover w.host.devices eventExtendedInquiryResult (rest.take 15) =
      .error .outOfRange := onExtendedInquiryResult_outOfRange (by simpa using hlen)
  have htrace : traceInquiry hook w eventExtendedInquiryResult (rest.take 15) = w :=
    if_neg fun h => nomatch h.1
  rw [controllerOnEvent_params _ (by exact hlen), cmdqOnEvent_extendedInquiry 15 rest hlen,
    show (15 : UInt8).toNat = 15 from rfl]
  simp only [inspectEvent, htrace, hdiscover]
  rfl

lemma onEvent_history (queue : ∀ e h, e.ofQueue = true → J h → J (e :: h))
    (traced : ∀ params h, J h → J (.traced params :: h))
    (sent : ∀ w command, J w.history → J (send w command).1.history) {data : Bytes}
    (hdata : ¬ ShortExtendedInquiry data) (hw : J w.history) :
    J (controllerOnEvent hook send fuel w data nowUs).history := by
  have hqueue : J (cmdqOnEvent callbacks send fuel w data nowUs).history :=
    (keeps_of_history queue (callbacks_history queue) sent).onEvent fuel hw data
  cases hp : parseEventHeader (.init data) with
  | error e =>
    cases e with
    | status st => simpa only [controllerOnEvent, hp, World.readError] using hqueue
    | outOfRange => exact absurd hp (parseEventHeader_inRange _)
  | ok p =>
    obtain ⟨hdr, r⟩ := p
    obtain ⟨rest, rfl, hlen, -⟩ := parseEventHeader_ok hp
    rw [controllerOnEvent_params _ hlen]
    have htraced := traceInquiry_history traced hook hdr.eventCode
      (rest.take hdr.paramLen.toNat) hqueue
    unfold inspectEvent
    dsimp only
    split
    next e he => cases e with
      | status => exact htraced
      | outOfRange =>
        refine absurd he (discover_inRange ?_)
        rintro ⟨hcode, hparams⟩
        rw [length_take, Nat.min_eq_left hlen] at hparams
        refine hdata ⟨rest, ?_, by omega⟩
        have h15 : hdr.paramLen = 15 := UInt8.toNat_inj.mp hparams
        rw [hcode, h15]
    · exact htraced

lemma handle_explained
    (sent : ∀ w command, FaultsExplained w.history → FaultsExplained (send w command).1.history)
    (w : Ctrl) (d : Bytes × ℕ) (hw : FaultsExplained w.history) :
    FaultsExplained ((reentrant env).handle send w d).history := by
  obtain ⟨data, nowUs⟩ := d
  by_cases hs : ShortExtendedInquiry data
  · have hdata := hs
    obtain ⟨rest, rfl, hlen⟩ := hs
    simp only [reentrant, onEvent_short hlen]
    refine ⟨fun _ => ⟨_, ?_, hdata⟩, fun _ => mem_cons_self⟩
    exact mem_cons_of_mem _ mem_cons_self
  · refine onEvent_history faultsExplained_queue (fun params h hh => hh.cons nofun nofun) sent hs ?_
    refine hw.cons nofun fun data' hd => ?_
    cases hd
    exact hs

lemma handle_received {e : Event}
    (sent : ∀ w command, e ∈ w.history → e ∈ (send w command).1.history)
    (w : Ctrl) (d : Bytes × ℕ) (hw : e ∈ (w.emit (.received d.1)).history) :
    e ∈ ((reentrant env).handle send w d).history := by
  obtain ⟨data, nowUs⟩ := d
  by_cases hs : ShortExtendedInquiry data
  · obtain ⟨rest, rfl, hlen⟩ := hs
    simp only [reentrant, onEvent_short hlen]
    exact mem_cons_of_mem _ hw
  · exact onEvent_history (J := fun h => e ∈ h) (fun _ _ _ => mem_cons_of_mem _)
      (fun _ _ => mem_cons_of_mem _) sent hs hw

lemma sendAt_explained (depth : ℕ) (w : Ctrl) (command : Bytes) :
    FaultsExplained w.history → FaultsExplained (sendAt env depth w command).1.history :=
  Reentrant.port_rel (C := reentrant env)
    (R := fun w w' => FaultsExplained w.history → FaultsExplained w'.history) (fun _ => id)
    (fun h₁ h₂ => h₂ ∘ h₁) (fun _ => id) (fun _ => handle_explained env) depth w command

lemma sendAt_received (depth : ℕ) {e : Event} (w : Ctrl) (command : Bytes) :
    e ∈ w.history → e ∈ (sendAt env depth w command).1.history :=
  Reentrant.port_rel (C := reentrant env) (R := fun w w' => e ∈ w.history → e ∈ w'.history)
    (fun _ => id) (fun h₁ h₂ => h₂ ∘ h₁) (fun _ => id)
    (fun _ sent w d hw => handle_received env sent w d (mem_cons_of_mem _ hw)) depth w command

/-- In any state of the controller, whatever the transport delivers from `send_command`: octets
outside an event are read exactly if one of the events is an Extended Inquiry Result with fifteen
octets of parameters. -/
theorem onEvent_outOfRange_iff (env : Env) (depth : ℕ) (q : Cmdq OnComplete) (host : Host)
    (calls submissions : ℕ) (data : Bytes) (nowUs : ℕ) :
    let w := receive env depth ⟨q, host, calls, submissions, []⟩ data nowUs
    .received data ∈ w.history ∧
      (.outOfRange ∈ w.history ↔ ∃ e, .received e ∈ w.history ∧ ShortExtendedInquiry e) := by
  refine ⟨handle_received env (sendAt_received env depth) _ _ mem_cons_self, ?_⟩
  refine handle_explained env (sendAt_explained env depth) _ _ ?_
  simp [FaultsExplained]

def shortExtendedInquiry : Bytes :=
  [0x2F, 15, 1, 1, 2, 3, 4, 5, 6, 1, 0, 0x40, 0x05, 0x00, 0, 0, 0]

theorem shortExtendedInquiry_outOfRange :
    .outOfRange ∈ (receive ⟨fun _ => ([], true), false, 8⟩ 0 (.init (.init 0)) shortExtendedInquiry
      0).history := by
  decide +kernel

end Bluzing.Controller
