import Bluzing.Lib.Reentrant
import Bluzing.Hogp.Server
import Bluzing.Hogp.Steps

/-! The discovery of a HID service: each one is reported at most once, and a success only when the
input reports among the first eight Report characteristics are subscribed to. -/
namespace Bluzing.Hogp
open List
open Gatt (Service Characteristic)

def Event.isDiscovering : Event → Bool
  | .discovering => true
  | _ => false

def current (h : List Event) : List Event := since Event.isDiscovering h

def Answered (s : List Event) (call : Call) (completion : Gatt.Completion) : Prop :=
  .answered call completion ∈ s ∧ completion.result = .ok

def ServiceFound (s : List Event) (service : Service) : Prop :=
  ∃ completion, Answered s .discoverServices completion ∧
    (servicesOf completion).find? (fun x => decide (x.uuid16 = uuidService)) = some service

def CharacteristicsFound (s : List Event) (service : Service) (chars : List Characteristic) :
    Prop :=
  ∃ completion,
    Answered s (.discoverCharacteristics service.startHandle service.endHandle) completion ∧
      characteristicsOf completion = chars

def DescriptorsFound (s : List Event) (service : Service) (descriptors : List Gatt.Descriptor) :
    Prop :=
  ∃ completion,
    Answered s (.discoverDescriptors service.startHandle service.endHandle) completion ∧
      descriptorsOf completion = descriptors

def ReferenceRead (s : List Event) (handle : UInt16) (reportId reportType : UInt8) : Prop :=
  ∃ completion, Answered s (.read handle) completion ∧ completion.value = [reportId, reportType]

def Acknowledged (s : List Event) (cccd : UInt16) : Prop :=
  ∃ completion params older,
    .answered (.write cccd notifyEnabled) completion ::
      .received (Gatt.opcodeWriteResponse :: params) :: older <:+ s ∧
    completion.result = .ok ∧ .issued (.write cccd notifyEnabled) ∈ older

def reportCharacteristics (endHandle : UInt16) (descriptors : List Gatt.Descriptor) :
    List Characteristic → List Report
  | [] => []
  | c :: rest =>
      if c.uuid16 = uuidReport then
        reportOf descriptors c.valueHandle (characteristicEnd endHandle rest) ::
          reportCharacteristics endHandle descriptors rest
      else reportCharacteristics endHandle descriptors rest

def Recorded.reportCharacteristics (r : Recorded) : List Report :=
  Hogp.reportCharacteristics r.service.endHandle r.descriptors r.characteristics

def lastValueHandle (uuid16 : UInt16) (chars : List Characteristic) : UInt16 :=
  chars.foldl (fun handle c => if c.uuid16 = uuid16 then c.valueHandle else handle) 0

structure Listed (r : Recorded) (s : List Event) : Prop where
  service : ServiceFound s r.service
  characteristics : CharacteristicsFound s r.service r.characteristics
  bootKeyboardHandle : r.bootKeyboardInputHandle =
    lastValueHandle uuidBootKeyboardInput r.characteristics
  bootMouseHandle : r.bootMouseInputHandle = lastValueHandle uuidBootMouseInput r.characteristics

structure Discovered (r : Recorded) (s : List Event) : Prop extends Listed r s where
  descriptors : DescriptorsFound s r.service r.descriptors
  reports : r.reports = (r.reportCharacteristics.take maxReports).map Report.handles
  bootKeyboard : r.bootKeyboardInputCccd =
    bootCccd uuidBootKeyboardInput r.service.endHandle r.descriptors r.characteristics 0
  bootMouse : r.bootMouseInputCccd =
    bootCccd uuidBootMouseInput r.service.endHandle r.descriptors r.characteristics 0

def ReportRead (s : List Event) (r : Report) : Prop :=
  if r.referenceHandle = 0 then r.reportType = 0
  else ReferenceRead s r.referenceHandle r.reportId r.reportType

def ReadUpTo (s : List Event) (reports : List Report) (n : ℕ) : Prop :=
  ∀ i r, reports[i]? = some r → if i < n then ReportRead s r else r.reportType = 0

def SubscribedUpTo (s : List Event) (reports : List Report) (n : ℕ) : Prop :=
  ∀ i < n, ∀ r, reports[i]? = some r → r.reportType = reportTypeInput →
    r.cccdHandle ≠ 0 ∧ Acknowledged s r.cccdHandle

structure Done (c : Client) (s : List Event) : Prop extends Discovered c.recorded s where
  read : ReadUpTo s c.reports.items c.reports.items.length
  subscribed : SubscribedUpTo s c.reports.items c.reports.items.length

def Phase (c : Client) (s : List Event) (call : Call) : Callback → Prop
  | .onServices => call = .discoverServices
  | .onCharacteristics =>
      call = .discoverCharacteristics c.service.startHandle c.service.endHandle ∧
        ServiceFound s c.service
  | .onDescriptors =>
      call = .discoverDescriptors c.service.startHandle c.service.endHandle ∧
        Listed c.recorded s
  | .onReportMap => Discovered c.recorded s ∧ ReadUpTo s c.reports.items 0
  | .onReportReference =>
      Discovered c.recorded s ∧ ReadUpTo s c.reports.items c.pendingIndex ∧
        ∃ r, c.reports.items[c.pendingIndex]? = some r ∧ r.referenceHandle ≠ 0 ∧
          call = .read r.referenceHandle
  | .onCccdWrite =>
      Discovered c.recorded s ∧ ReadUpTo s c.reports.items c.reports.items.length ∧
        ∃ i r, c.pendingIndex = i + 1 ∧ c.reports.items[i]? = some r ∧ r.cccdHandle ≠ 0 ∧
          call = .write r.cccdHandle notifyEnabled ∧ SubscribedUpTo s c.reports.items i
  | .onReportWrite | .onProtocolModeWrite | .onBootCccdWrite => True

def Callback.ofDiscovery : Callback → Bool
  | .onServices | .onCharacteristics | .onDescriptors | .onReportMap | .onReportReference |
    .onCccdWrite => true
  | .onReportWrite | .onProtocolModeWrite | .onBootCccdWrite => false

def Unreported (s : List Event) : Prop := ∀ result, .finished result ∉ s

def ReportedOnce (e : Event) (older : List Event) : Prop :=
  ∀ result, e = .finished result → .discovering ∈ older ∧ Unreported (current older)

structure Reported (w : World) : Prop where
  begun : w.client.onComplete = true → .discovering ∈ w.history ∧ Unreported (current w.history)
  once : Always ReportedOnce w.history
  done : .finished .ok ∈ current w.history → Done w.client (current w.history)

structure Waits (w : World) (call : Call) (cb : Callback) : Prop where
  onComplete : w.client.onComplete = true
  op : w.gatt.client.op = call.op
  issued : .issued call ∈ current w.history
  phase : Phase w.client (current w.history) call cb

structure Inv (w : World) : Prop extends Reported w where
  waits : w.gatt.Active → ∀ call cb, w.pending = some (call, cb) → cb.ofDiscovery = true →
    Waits w call cb

variable {s s' : List Event} {c c' : Client}

lemma current_cons {e : Event} (h : List Event) (he : e.isDiscovering = false) :
    current (e :: h) = e :: current h := since_cons he

lemma current_suffix {h h' : List Event} (hx : Extends Event.isAside h h') :
    current h <:+ current h' := by
  induction hx with
  | refl => exact suffix_rfl
  | @cons e h' he _ ih =>
    have hno : e.isDiscovering = false := by cases e <;> first | rfl | cases he
    rw [current_cons h' hno]
    exact ih.trans (suffix_cons ..)

lemma mem_current_extends {h h' : List Event} (hx : Extends Event.isAside h h') {result : Result}
    (hmem : .finished result ∈ current h') : .finished result ∈ current h := by
  induction hx with
  | refl => exact hmem
  | @cons e h' he _ ih =>
    have hno : e.isDiscovering = false := by cases e <;> first | rfl | cases he
    rw [current_cons h' hno] at hmem
    rcases mem_cons.mp hmem with rfl | hmem
    · cases he
    · exact ih hmem

lemma always_extends {h h' : List Event} (hx : Extends Event.isAside h h')
    (hh : Always ReportedOnce h) : Always ReportedOnce h' := by
  refine hx.keeps (fun e h he ih => ih.cons ?_) hh
  rintro result rfl
  cases he

lemma Answered.mono (hs : s <:+ s') {call : Call} {P : Gatt.Completion → Prop}
    (h : ∃ completion, Answered s call completion ∧ P completion) :
    ∃ completion, Answered s' call completion ∧ P completion := by
  obtain ⟨completion, hanswered, hp⟩ := h
  exact ⟨completion, ⟨hs.subset hanswered.1, hanswered.2⟩, hp⟩

lemma Acknowledged.mono (hs : s <:+ s') {cccd : UInt16} (h : Acknowledged s cccd) :
    Acknowledged s' cccd := by
  obtain ⟨completion, params, older, hsuffix, hrest⟩ := h
  exact ⟨completion, params, older, hsuffix.trans hs, hrest⟩

lemma Listed.mono (hs : s <:+ s') {r : Recorded} (h : Listed r s) : Listed r s' :=
  ⟨Answered.mono hs h.service, Answered.mono hs h.characteristics, h.bootKeyboardHandle,
    h.bootMouseHandle⟩

lemma Discovered.mono (hs : s <:+ s') {r : Recorded} (h : Discovered r s) : Discovered r s' :=
  ⟨h.toListed.mono hs, Answered.mono hs h.descriptors, h.reports, h.bootKeyboard, h.bootMouse⟩

lemma ReportRead.mono (hs : s <:+ s') {r : Report} (h : ReportRead s r) : ReportRead s' r := by
  unfold ReportRead at h ⊢
  split at h
  next hzero => rwa [if_pos hzero]
  next hzero =>
    rw [if_neg hzero]
    exact Answered.mono hs h

lemma ReadUpTo.mono (hs : s <:+ s') {reports : List Report} {n : ℕ} (h : ReadUpTo s reports n) :
    ReadUpTo s' reports n := by
  intro i r hr
  have hread := h i r hr
  split at hread
  next hi =>
    rw [if_pos hi]
    exact hread.mono hs
  next hi => rwa [if_neg hi]

lemma SubscribedUpTo.mono (hs : s <:+ s') {reports : List Report} {n : ℕ}
    (h : SubscribedUpTo s reports n) : SubscribedUpTo s' reports n :=
  fun i hi r hr htype => (h i hi r hr htype).imp_right (·.mono hs)

lemma Done.mono (hs : s <:+ s') (h : Done c s) : Done c s' :=
  ⟨h.toDiscovered.mono hs, h.read.mono hs, h.subscribed.mono hs⟩

lemma Phase.mono (hs : s <:+ s') {call : Call} {cb : Callback} (h : Phase c s call cb) :
    Phase c s' call cb := by
  cases cb with
  | onServices => exact h
  | onCharacteristics => exact ⟨h.1, Answered.mono hs h.2⟩
  | onDescriptors => exact ⟨h.1, h.2.mono hs⟩
  | onReportMap => exact ⟨h.1.mono hs, h.2.mono hs⟩
  | onReportReference => exact ⟨h.1.mono hs, h.2.1.mono hs, h.2.2⟩
  | onCccdWrite =>
    obtain ⟨hdiscovered, hread, i, r, hi, hr, hcccd, hcall, hsubscribed⟩ := h
    exact ⟨hdiscovered.mono hs, hread.mono hs, i, r, hi, hr, hcccd, hcall, hsubscribed.mono hs⟩
  | onReportWrite | onProtocolModeWrite | onBootCccdWrite => trivial

lemma SameTables.done (ht : SameTables c c') (h : Done c s) : Done c' s := by
  refine ⟨ht.recorded.symm ▸ h.toDiscovered, ?_, ?_⟩
  · rw [ht.reports]
    exact h.read
  · rw [ht.reports]
    exact h.subscribed

lemma SameTables.phase (ht : SameTables c c') {call : Call} {cb : Callback}
    (h : Phase c s call cb) : Phase c' s call cb := by
  cases cb with
  | onServices => exact h
  | onCharacteristics =>
    dsimp only [Phase]
    rw [ht.service]
    exact h
  | onDescriptors =>
    dsimp only [Phase]
    rw [ht.service, ht.recorded]
    exact h
  | onReportMap =>
    dsimp only [Phase]
    rw [ht.recorded, ht.reports]
    exact h
  | onReportReference | onCccdWrite =>
    dsimp only [Phase]
    rw [ht.recorded, ht.reports, ht.pendingIndex]
    exact h
  | onReportWrite | onProtocolModeWrite | onBootCccdWrite => trivial

lemma Reported.aside {w w' : World} (h : Reported w) (ha : Aside w w') : Reported w' where
  begun hcomplete := by
    rw [ha.onComplete] at hcomplete
    obtain ⟨hmem, hnone⟩ := h.begun hcomplete
    exact ⟨ha.history.keeps (fun e h _ => mem_cons_of_mem e) hmem, fun result hr =>
      hnone result (mem_current_extends ha.history hr)⟩
  once := always_extends ha.history h.once
  done hfinished :=
    ha.tables.done ((h.done (mem_current_extends ha.history hfinished)).mono
      (current_suffix ha.history))

lemma Waits.aside {w w' : World} {call : Call} {cb : Callback} (h : Waits w call cb)
    (ha : Aside w w') (hop : w'.gatt.client.op = w.gatt.client.op) : Waits w' call cb where
  onComplete := ha.onComplete.trans h.onComplete
  op := hop.trans h.op
  issued := (current_suffix ha.history).subset h.issued
  phase := ha.tables.phase (h.phase.mono (current_suffix ha.history))

lemma Inv.passive {w w' : World} (h : Inv w) (hp : Passive w w') : Inv w' where
  toReported := h.toReported.aside hp.toAside
  waits hactive call cb hpending hcb := by
    rw [hp.gatt] at hactive
    rw [hp.pending] at hpending
    exact (h.waits hactive call cb hpending hcb).aside hp.toAside (by rw [hp.gatt])

lemma Reported.idle {w : World} (h : Reported w) (hidle : w.gatt.client.busy = false) : Inv w :=
  ⟨h, fun hactive => absurd hactive (Gatt.not_active_of_idle hidle)⟩

structure Open (w : World) : Prop where
  idle : w.gatt.client.busy = false
  onComplete : w.client.onComplete = true
  begun : .discovering ∈ w.history
  unreported : Unreported (current w.history)
  once : Always ReportedOnce w.history

variable {env : Env} {w : World} {call : Call} {cb : Callback}

namespace Open

lemma reported (h : Open w) : Reported w :=
  ⟨fun _ => ⟨h.begun, h.unreported⟩, h.once, fun hfinished => absurd hfinished (h.unreported .ok)⟩

lemma modify (h : Open w) {f : Client → Client} (hf : (f w.client).onComplete = true) :
    Open (w.modify f) :=
  ⟨h.idle, hf, h.begun, h.unreported, h.once⟩

lemma emit (h : Open w) {e : Event} (he : e.isAside = true) : Open (w.emit e) where
  idle := h.idle
  onComplete := h.onComplete
  begun := mem_cons_of_mem _ h.begun
  unreported result hmem := h.unreported result (mem_current_extends (.cons he .refl) hmem)
  once := always_extends (.cons he .refl) h.once

lemma finish (h : Open w) {result : Result}
    (hdone : result = .ok → Done w.client (current w.history)) : Inv (finish w result) := by
  have hsuccess (hfinished : .finished .ok ∈ current (.finished result :: w.history)) :
      Done w.client (current (.finished result :: w.history)) := by
    rcases mem_cons.mp hfinished with hok | hok
    · exact (hdone (Event.finished.inj hok).symm).mono (suffix_cons ..)
    · exact absurd hok (h.unreported .ok)
  unfold Hogp.finish
  rw [if_pos h.onComplete]
  refine Reported.idle ⟨nofun, h.once.cons fun _ _ => ⟨h.begun, h.unreported⟩, fun hfinished => ?_⟩
    h.idle
  exact SameTables.done (c := w.client) ⟨rfl, rfl, rfl⟩ (hsuccess hfinished)

lemma finish_error (h : Open w) {result : Result} (hresult : result ≠ .ok) :
    Inv (Hogp.finish w result) :=
  h.finish fun hok => absurd hok hresult

lemma startCall (h : Open w) (env : Env) (hcb : cb.ofDiscovery = true)
    (hphase : Phase w.client (current w.history) call cb) (nowUs : ℕ) :
    (startCall env w call cb nowUs).2 ≠ .ok ∧ (startCall env w call cb nowUs).1 = w ∨
      (startCall env w call cb nowUs).2 = .ok ∧ Inv (startCall env w call cb nowUs).1 := by
  refine startCall_cases (P := fun r => r.2 ≠ .ok ∧ r.1 = w ∨ r.2 = .ok ∧ Inv r.1) nowUs
    (fun status hstatus => .inl ⟨hstatus, rfl⟩) (fun g _ hop => .inr ⟨rfl, ?_⟩)
    fun g completion hidle _ => .inr ⟨rfl, ?_⟩
  · have haside : Aside w (w.issued g call cb) := ⟨.refl _, rfl, .cons rfl .refl⟩
    refine ⟨h.reported.aside haside, fun _ call' cb' hpending _ => ?_⟩
    obtain ⟨rfl, rfl⟩ := Prod.mk.inj (Option.some.inj hpending)
    refine ⟨h.onComplete, hop, ?_, ?_⟩
    · exact mem_cons_self
    · exact hphase.mono (suffix_cons ..)
  · have hissued : Open (w.issued g call cb) :=
      ⟨hidle, h.onComplete, (h.emit rfl).begun, (h.emit rfl).unreported, (h.emit rfl).once⟩
    cases cb with
    | onReportWrite | onProtocolModeWrite | onBootCccdWrite => cases hcb
    | _ => exact (hissued.emit rfl).finish_error (by decide)

lemma callOrFinish (h : Open w) (hcb : cb.ofDiscovery = true)
    (hphase : Phase w.client (current w.history) call cb) : Inv (callOrFinish env w call cb) := by
  have htime : Open (eventTime w) := h.modify h.onComplete
  have hsame : SameTables w.client (eventTime w).client := ⟨rfl, rfl, rfl⟩
  unfold Hogp.callOrFinish
  obtain ⟨hrefused, hw⟩ | ⟨hok, hinv⟩ :=
    htime.startCall env hcb (hsame.phase hphase) (eventTime w).client.nowUs
  · rw [if_pos hrefused, hw]
    exact htime.finish_error (by decide)
  · rw [if_neg (not_not.mpr hok)]
    exact hinv

end Open

variable {reports : List Report} {p : Report → Bool} {n : ℕ}

lemma nextReport_bounds (hn : n ≤ reports.length) :
    n ≤ nextReport p reports n ∧ nextReport p reports n ≤ reports.length := by
  have hlen := ( takeWhile_prefix (fun r => !p r) (l := reports.drop n)).length_le
  rw [length_drop] at hlen
  unfold nextReport
  omega

lemma nextReport_skips {i : ℕ} (hn : n ≤ i) (hi : i < nextReport p reports n) {r : Report}
    (hr : reports[i]? = some r) : p r = false := by
  have hmem : r ∈ (reports.drop n).takeWhile fun r => !p r := by
    unfold nextReport at hi
    have hprefix := takeWhile_prefix (fun r => !p r) (l := reports.drop n)
    have hget := prefix_iff_getElem?.mp hprefix (i - n) (by omega)
    rw [getElem?_drop, Nat.add_sub_cancel' hn, hr] at hget
    rw [Option.some.inj hget]
    exact getElem_mem _
  simpa using mem_takeWhile_imp hmem

lemma nextReport_found {r : Report} (hr : reports[nextReport p reports n]? = some r) :
    p r = true := by
  unfold nextReport at hr
  rw [← getElem?_drop] at hr
  generalize reports.drop n = rest at hr
  induction rest with
  | nil => cases hr
  | cons first rest ih =>
    by_cases hfirst : p first = true
    · rw [takeWhile_cons_of_neg (by simpa using hfirst)] at hr
      cases hr
      exact hfirst
    · rw [takeWhile_cons_of_pos (by simpa using hfirst)] at hr
      exact ih hr

lemma noteDescriptor_reportType (endHandle : UInt16) (r : Report) (d : Gatt.Descriptor) :
    (noteDescriptor endHandle r d).reportType = r.reportType := by
  unfold noteDescriptor
  split
  · rfl
  split
  · rfl
  split <;> rfl

lemma reportOf_reportType (descriptors : List Gatt.Descriptor) (valueHandle endHandle : UInt16) :
    (reportOf descriptors valueHandle endHandle).reportType = 0 :=
  foldl_invariant (I := fun r : Report => r.reportType = 0)
    (fun r d hr => (noteDescriptor_reportType endHandle r d).trans hr) descriptors rfl

lemma reportCharacteristics_reportType {endHandle : UInt16} {descriptors : List Gatt.Descriptor}
    {chars : List Characteristic} {r : Report}
    (hr : r ∈ reportCharacteristics endHandle descriptors chars) : r.reportType = 0 := by
  induction chars with
  | nil => cases hr
  | cons c rest ih =>
    unfold reportCharacteristics at hr
    split at hr
    · rcases mem_cons.mp hr with rfl | hr
      · exact reportOf_reportType ..
      · exact ih hr
    · exact ih hr

lemma buildReportList_items (endHandle : UInt16) (descriptors : List Gatt.Descriptor)
    (chars : List Characteristic) (stored : Stored Report maxReports) :
    (buildReportList endHandle descriptors chars stored).items =
      (stored.items ++ reportCharacteristics endHandle descriptors chars).take maxReports := by
  induction chars generalizing stored with
  | nil =>
    rw [reportCharacteristics, append_nil, take_of_length_le stored.fits]
    rfl
  | cons c rest ih =>
    unfold buildReportList reportCharacteristics
    split
    next hpassed =>
      rw [ih]
      rcases hpassed with hother | hfull
      · rw [if_neg hother]
      · rw [take_append_of_le_length (Nat.le_of_eq hfull.symm),
          take_append_of_le_length (Nat.le_of_eq hfull.symm)]
    next hlisted =>
      rw [ih, if_pos (not_not.mp (not_or.mp hlisted).1), append_assoc]
      rfl

lemma noteCharacteristic_fields (client : Client) (c : Characteristic) :
    (noteCharacteristic client c).service = client.service ∧
      (noteCharacteristic client c).characteristics = client.characteristics ∧
      (noteCharacteristic client c).onComplete = client.onComplete ∧
      (if c.uuid16 = uuidBootKeyboardInput then c.valueHandle
        else client.bootKeyboardInputHandle) =
          (noteCharacteristic client c).bootKeyboardInputHandle ∧
      (if c.uuid16 = uuidBootMouseInput then c.valueHandle else client.bootMouseInputHandle) =
        (noteCharacteristic client c).bootMouseInputHandle := by
  have hother {uuid16 : UInt16} {h h' : UInt16} (hc : c.uuid16 = uuid16)
      (hne : uuid16 ≠ uuidBootKeyboardInput ∧ uuid16 ≠ uuidBootMouseInput) :
      (if c.uuid16 = uuidBootKeyboardInput then c.valueHandle else h) = h ∧
        (if c.uuid16 = uuidBootMouseInput then c.valueHandle else h') = h' := by
    rw [hc]
    exact ⟨if_neg hne.1, if_neg hne.2⟩
  unfold noteCharacteristic
  split
  next hc => exact ⟨rfl, rfl, rfl, hother hc (by decide)⟩
  split
  next hc => exact ⟨rfl, rfl, rfl, hother hc (by decide)⟩
  split
  next hc =>
    refine ⟨rfl, rfl, rfl, rfl, if_neg ?_⟩
    rw [hc]
    decide
  split
  next hc => exact ⟨rfl, rfl, rfl, rfl, (hother (h := 0) hc (by decide)).2⟩
  split
  · exact ⟨rfl, rfl, rfl, rfl, rfl⟩
  · exact ⟨rfl, rfl, rfl, rfl, rfl⟩

lemma noteCharacteristics_tables (c : Client)
    (characteristics : Stored Characteristic Gatt.maxCharacteristics) :
    (noteCharacteristics c characteristics).service = c.service ∧
      (noteCharacteristics c characteristics).characteristics = characteristics ∧
      (noteCharacteristics c characteristics).onComplete = c.onComplete ∧
      (noteCharacteristics c characteristics).bootKeyboardInputHandle =
        lastValueHandle uuidBootKeyboardInput characteristics.items ∧
      (noteCharacteristics c characteristics).bootMouseInputHandle =
        lastValueHandle uuidBootMouseInput characteristics.items := by
  have hkept : (noteCharacteristics c characteristics).service = c.service ∧
      (noteCharacteristics c characteristics).characteristics = characteristics ∧
      (noteCharacteristics c characteristics).onComplete = c.onComplete := by
    refine foldl_invariant (I := fun c' : Client => c'.service = c.service ∧
      c'.characteristics = characteristics ∧ c'.onComplete = c.onComplete) (fun c' x h => ?_) _
      ⟨rfl, rfl, rfl⟩
    obtain ⟨hservice, hcharacteristics, hcomplete, -⟩ := noteCharacteristic_fields c' x
    rwa [hservice, hcharacteristics, hcomplete]
  refine ⟨hkept.1, hkept.2.1, hkept.2.2, ?_, ?_⟩
  · exact (foldl_hom Client.bootKeyboardInputHandle fun c' x =>
      (noteCharacteristic_fields c' x).2.2.2.1).symm
  · exact (foldl_hom Client.bootMouseInputHandle fun c' x =>
      (noteCharacteristic_fields c' x).2.2.2.2).symm

lemma Open.subscribeNext (h : Open w)
    (hdiscovered : Discovered w.client.recorded (current w.history))
    (hread : ReadUpTo (current w.history) w.client.reports.items w.client.reports.items.length)
    (hbound : w.client.pendingIndex ≤ w.client.reports.items.length)
    (hsubscribed : SubscribedUpTo (current w.history) w.client.reports.items
      w.client.pendingIndex) : Inv (subscribeNext env w) := by
  unfold Hogp.subscribeNext
  dsimp only
  have hbounds := nextReport_bounds (p := fun r => decide (r.reportType = reportTypeInput)) hbound
  have hskipped : SubscribedUpTo (current w.history) w.client.reports.items
      (nextReport (fun r => decide (r.reportType = reportTypeInput)) w.client.reports.items
        w.client.pendingIndex) := by
    intro j hj r hr htype
    by_cases hold : j < w.client.pendingIndex
    · exact hsubscribed j hold r hr htype
    · have hno := nextReport_skips (Nat.le_of_not_lt hold) hj hr
      exact absurd htype (of_decide_eq_false hno)
  generalize nextReport _ w.client.reports.items w.client.pendingIndex = i at *
  split
  next hnone =>
    have hend := Nat.le_antisymm hbounds.2 (List.getElem?_eq_none_iff.mp hnone)
    rw [hend] at hskipped
    exact (h.modify h.onComplete).finish fun _ => ⟨hdiscovered, hread, hskipped⟩
  next r hr =>
    have hopen : Open (w.modify fun c => { c with pendingIndex := i + 1 }) := h.modify h.onComplete
    split
    · exact hopen.finish_error (by decide)
    next hcccd =>
      exact hopen.callOrFinish rfl ⟨hdiscovered, hread, i, r, rfl, hr, hcccd, rfl, hskipped⟩

lemma Open.readNextReference (h : Open w)
    (hdiscovered : Discovered w.client.recorded (current w.history))
    (hread : ReadUpTo (current w.history) w.client.reports.items w.client.pendingIndex)
    (hbound : w.client.pendingIndex ≤ w.client.reports.items.length) :
    Inv (readNextReference env w) := by
  unfold Hogp.readNextReference
  dsimp only
  have hbounds := nextReport_bounds (p := fun r => decide (r.referenceHandle ≠ 0)) hbound
  have hfound (r : Report) (hr : w.client.reports.items[nextReport
      (fun r => decide (r.referenceHandle ≠ 0)) w.client.reports.items w.client.pendingIndex]? =
        some r) := of_decide_eq_true (nextReport_found hr)
  have hskipped : ReadUpTo (current w.history) w.client.reports.items
      (nextReport (fun r => decide (r.referenceHandle ≠ 0)) w.client.reports.items
        w.client.pendingIndex) := by
    intro j r hr
    have hold := hread j r hr
    by_cases hj : j < w.client.pendingIndex
    · rw [if_pos hj] at hold
      rwa [if_pos (Nat.lt_of_lt_of_le hj hbounds.1)]
    · rw [if_neg hj] at hold
      split
      next hnext =>
        have hno := nextReport_skips (Nat.le_of_not_lt hj) hnext hr
        have hzero := not_not.mp (of_decide_eq_false hno)
        rwa [ReportRead, if_pos hzero]
      · exact hold
  generalize nextReport _ w.client.reports.items w.client.pendingIndex = i at *
  have hopen : Open (w.modify fun c => { c with pendingIndex := i }) := h.modify h.onComplete
  split
  next hend =>
    rw [hend] at hskipped
    refine Open.subscribeNext (hopen.modify h.onComplete) ?_ hskipped (Nat.zero_le _)
      fun j hj => absurd hj (Nat.not_lt_zero j)
    exact hdiscovered
  next hmore =>
    split
    next hnone =>
      exact absurd (Nat.le_antisymm hbounds.2 (List.getElem?_eq_none_iff.mp hnone)) hmore
    next r hr => exact hopen.callOrFinish rfl ⟨hdiscovered, hskipped, r, hr, hfound r hr, rfl⟩

lemma ReadUpTo.note {reports : List Report} {n : ℕ} (h : ReadUpTo s reports n) {r : Report}
    (hr : reports[n]? = some r) (hreference : r.referenceHandle ≠ 0) {reportId reportType : UInt8}
    (hread : ReferenceRead s r.referenceHandle reportId reportType) :
    ReadUpTo s (reports.modify n fun r => { r with reportId, reportType }) (n + 1) := by
  intro i r' hr'
  by_cases hi : n = i
  · subst hi
    rw [getElem?_modify_eq, hr] at hr'
    obtain rfl := Option.some.inj hr'
    rw [if_pos (Nat.lt_succ_self n), ReportRead, if_neg hreference]
    exact hread
  · rw [getElem?_modify_ne _ _ hi] at hr'
    have hold := h i r' hr'
    by_cases hlt : i < n
    · rw [if_pos hlt] at hold
      rwa [if_pos (Nat.lt_succ_of_lt hlt)]
    · rw [if_neg hlt] at hold
      rwa [if_neg (by omega)]

lemma handles_modify (reports : List Report) (n : ℕ) (reportId reportType : UInt8) :
    (reports.modify n fun r => { r with reportId, reportType }).map Report.handles =
      reports.map Report.handles := by
  refine ext_getElem? fun i => ?_
  rw [getElem?_map, getElem?_map]
  by_cases hi : n = i
  · subst hi
    rw [getElem?_modify_eq, Option.map_eq_map, Option.map_map]
    rfl
  · rw [getElem?_modify_ne _ _ hi]

lemma handle_answered (h : Open w) {completion : Gatt.Completion} {pdu : Bytes}
    (hcurrent : current w.history = .answered call completion :: .received pdu :: s)
    (hok : completion.result = .ok) (hissued : .issued call ∈ s)
    (hwrite : call.op = .write → ∃ params, pdu = Gatt.opcodeWriteResponse :: params)
    (hcb : cb.ofDiscovery = true) (hphase : Phase w.client s call cb) :
    Inv (handle env w completion cb) := by
  have hs : s <:+ current w.history := by
    rw [hcurrent]
    exact (suffix_cons ..).trans (suffix_cons ..)
  have hanswered : Answered (current w.history) call completion := by
    rw [hcurrent]
    exact ⟨mem_cons_self, hok⟩
  have hgatt : gattOk completion = true := decide_eq_true hok
  have hnot : ¬ (!gattOk completion) = true := by rw [hgatt]; exact nofun
  cases cb with
  | onReportWrite | onProtocolModeWrite | onBootCccdWrite => cases hcb
  | onServices =>
    obtain rfl : call = .discoverServices := hphase
    dsimp only [handle, onServices]
    rw [if_neg hnot]
    split
    · exact h.finish_error (by decide)
    next service hfind =>
      have hopen : Open (w.modify fun c => { c with service }) := h.modify h.onComplete
      exact hopen.callOrFinish rfl ⟨rfl, completion, hanswered, hfind⟩
  | onCharacteristics =>
    obtain ⟨rfl, hservice⟩ := hphase
    dsimp only [handle, onCharacteristics]
    split
    · exact h.finish_error (by decide)
    next hfits =>
      obtain ⟨hsame, hchars, hcomplete, hkeyboard, hmouse⟩ := noteCharacteristics_tables w.client
        ⟨characteristicsOf completion, Nat.le_of_not_lt (not_or.mp hfits).2⟩
      have hopen : Open (w.modify fun c => noteCharacteristics c
          ⟨characteristicsOf completion, Nat.le_of_not_lt (not_or.mp hfits).2⟩) :=
        h.modify (hcomplete.trans h.onComplete)
      split
      · exact hopen.finish_error (by decide)
      · have hitems := congrArg Stored.items hchars
        refine hopen.callOrFinish rfl ⟨rfl, ?_, ?_, ?_, ?_⟩
        · exact Eq.subst (motive := ServiceFound (current w.history)) hsame.symm
            (Answered.mono hs hservice)
        · exact Eq.subst (motive := fun service => CharacteristicsFound (current w.history)
            service _) hsame.symm ⟨completion, hanswered, hitems.symm⟩
        · exact hkeyboard.trans (congrArg _ hitems.symm)
        · exact hmouse.trans (congrArg _ hitems.symm)
  | onDescriptors =>
    obtain ⟨rfl, hlisted⟩ := hphase
    dsimp only [handle, onDescriptors]
    split
    · exact h.finish_error (by decide)
    next hfits =>
      have hreports := buildReportList_items w.client.service.endHandle (descriptorsOf completion)
        w.client.characteristics.items (.empty _ _)
      rw [show (Stored.empty Report maxReports).items = [] from rfl, nil_append] at hreports
      have hopen : Open (w.modify fun c => noteDescriptors c
        ⟨descriptorsOf completion, Nat.le_of_not_lt (not_or.mp hfits).2⟩) := h.modify h.onComplete
      split
      · exact hopen.finish_error (by decide)
      · refine hopen.callOrFinish rfl ⟨⟨?_, ⟨completion, hanswered, rfl⟩,
          congrArg (map Report.handles) hreports, rfl, rfl⟩, fun i r hr => ?_⟩
        · have hlisted := hlisted.mono hs
          exact ⟨hlisted.service, hlisted.characteristics, hlisted.bootKeyboardHandle,
            hlisted.bootMouseHandle⟩
        have hmem : r ∈ (reportCharacteristics w.client.service.endHandle (descriptorsOf completion)
            w.client.characteristics.items).take maxReports := by
          rw [← hreports]
          exact mem_of_getElem? hr
        exact reportCharacteristics_reportType (mem_of_mem_take hmem)
  | onReportMap =>
    obtain ⟨hdiscovered, hread⟩ := hphase
    dsimp only [handle, onReportMap]
    rw [if_neg hnot]
    split
    · exact h.finish_error (by decide)
    next reportDescriptor _ =>
      refine Open.readNextReference (h.modify h.onComplete) ?_ (hread.mono hs) (Nat.zero_le _)
      exact hdiscovered.mono hs
  | onReportReference =>
    obtain ⟨hdiscovered, hread, r, hr, hreference, rfl⟩ := hphase
    dsimp only [handle, onReportReference]
    rw [if_neg hnot]
    split
    next reportId reportType hvalue =>
      split
      · exact h.finish_error (by decide)
      · have hnoted := (hread.mono hs).note hr hreference ⟨completion, hanswered, hvalue⟩
        have hbound := (List.getElem?_eq_some_iff.mp hr).1
        have hsame := congrArg (fun reports => { w.client.recorded with reports })
          (handles_modify w.client.reports.items w.client.pendingIndex reportId reportType)
        refine Open.readNextReference (h.modify h.onComplete) ?_ hnoted ?_
        · exact Eq.subst (motive := fun r => Discovered r (current w.history)) hsame.symm
            (hdiscovered.mono hs)
        · refine Nat.le_trans hbound (Nat.le_of_eq ?_)
          exact (length_modify ..).symm
    · exact h.finish_error (by decide)
  | onCccdWrite =>
    obtain ⟨hdiscovered, hread, i, r, hindex, hr, hcccd, rfl, hsubscribed⟩ := hphase
    dsimp only [handle, onCccdWrite]
    rw [if_neg hnot]
    obtain ⟨params, rfl⟩ := hwrite rfl
    have hbound := (List.getElem?_eq_some_iff.mp hr).1
    have hacknowledged : r.cccdHandle ≠ 0 ∧ Acknowledged (current w.history) r.cccdHandle :=
      ⟨hcccd, completion, params, s, hcurrent ▸ suffix_rfl, hok, hissued⟩
    refine Open.subscribeNext h (hdiscovered.mono hs) (hread.mono hs) (by omega) ?_
    intro j hj r' hr' htype
    by_cases hlast : j = i
    · subst hlast
      rw [hr] at hr'
      rwa [← Option.some.inj hr']
    · exact (hsubscribed j (by omega) r' hr' htype).imp_right (·.mono hs)

lemma Reported.emit (h : Reported w) {e : Event} (he : e.isAside = true) : Reported (w.emit e) :=
  h.aside ⟨.refl _, rfl, .cons he .refl⟩

lemma Reported.completeWrite (h : Reported w) (hidle : w.gatt.client.busy = false)
    (result : Result) : Inv (completeWrite w result) := by
  unfold Hogp.completeWrite
  split
  · exact Reported.idle (h.aside ⟨⟨rfl, rfl, rfl⟩, rfl, .cons rfl .refl⟩) hidle
  · exact h.idle hidle

lemma Reported.completeMode (h : Reported w) (hidle : w.gatt.client.busy = false)
    (result : Result) : Inv (completeMode w result) := by
  unfold Hogp.completeMode
  split
  · exact Reported.idle (h.aside ⟨⟨rfl, rfl, rfl⟩, rfl, .cons rfl .refl⟩) hidle
  · exact h.idle hidle

lemma Reported.open (h : Reported w) (hidle : w.gatt.client.busy = false)
    (hcomplete : w.client.onComplete = true) : Open w :=
  ⟨hidle, hcomplete, (h.begun hcomplete).1, (h.begun hcomplete).2, h.once⟩

lemma Reported.onFailure (h : Reported w) (hidle : w.gatt.client.busy = false) (cb : Callback) :
    Inv (onFailure w cb) := by
  have hfinish {result : Result} (hresult : result ≠ .ok) : Inv (finish w result) := by
    by_cases hcomplete : w.client.onComplete = true
    · exact (h.open hidle hcomplete).finish_error hresult
    · rw [finish, if_neg hcomplete]
      exact h.idle hidle
  cases cb with
  | onReportWrite => exact h.completeWrite hidle _
  | onProtocolModeWrite | onBootCccdWrite => exact h.completeMode hidle _
  | _ => exact hfinish (by decide)

lemma Inv.startCall (h : Inv w) (env : Env) (call : Call) (cb : Callback)
    (hcb : cb.ofDiscovery = false) (nowUs : ℕ) :
    (startCall env w call cb nowUs).2 ≠ .ok ∧ (startCall env w call cb nowUs).1 = w ∨
      (startCall env w call cb nowUs).2 = .ok ∧ Inv (startCall env w call cb nowUs).1 := by
  have hissued (g : Gatt.World) : Reported (w.issued g call cb) :=
    h.toReported.aside ⟨.refl _, rfl, .cons rfl .refl⟩
  refine startCall_cases (P := fun r => r.2 ≠ .ok ∧ r.1 = w ∨ r.2 = .ok ∧ Inv r.1) nowUs
    (fun status hstatus => .inl ⟨hstatus, rfl⟩) (fun g _ _ => .inr ⟨rfl, hissued g, ?_⟩)
    fun g completion hidle _ => .inr ⟨rfl, ?_⟩
  · intro _ call' cb' hpending hcb'
    obtain ⟨-, rfl⟩ := Prod.mk.inj (Option.some.inj hpending)
    rw [hcb] at hcb'
    cases hcb'
  · exact Reported.onFailure ((hissued g).emit rfl) hidle cb

lemma Reported.subscribeNextBootInput (h : Reported w) (hidle : w.gatt.client.busy = false) :
    Inv (subscribeNextBootInput env w) := by
  unfold Hogp.subscribeNextBootInput
  dsimp only
  generalize nextBootInput w.client = next
  have hstep : Reported (w.modify fun c => { c with bootSubscribeStep := next.1 }) :=
    h.aside ⟨⟨rfl, rfl, rfl⟩, rfl, .refl⟩
  split
  · exact hstep.completeMode hidle .ok
  · have htime : Inv (eventTime (w.modify fun c => { c with bootSubscribeStep := next.1 })) :=
      Reported.idle (hstep.aside ⟨⟨rfl, rfl, rfl⟩, rfl, .refl⟩) hidle
    obtain ⟨hrefused, hw⟩ | ⟨hok, hinv⟩ := htime.startCall env (.write next.2 notifyEnabled)
      .onBootCccdWrite rfl _
    · rw [if_pos hrefused, hw]
      exact htime.toReported.completeMode hidle .errorGatt
    · rw [if_neg (not_not.mpr hok)]
      exact hinv

lemma Reported.handle (h : Reported w) (hidle : w.gatt.client.busy = false)
    (hcb : cb.ofDiscovery = false) (completion : Gatt.Completion) :
    Inv (handle env w completion cb) := by
  by_cases hok : completion.result = .ok
  swap
  · rw [handle_failed hok]
    exact h.onFailure hidle cb
  have hnot : ¬ (!gattOk completion) = true := by
    rw [gattOk, decide_eq_true hok]
    simp
  cases cb with
  | onReportWrite => exact h.completeWrite hidle _
  | onProtocolModeWrite =>
    dsimp only [Hogp.handle, onProtocolModeWrite]
    rw [if_neg hnot]
    split
    · exact h.completeMode hidle .ok
    · refine Reported.subscribeNextBootInput (h.aside ?_) hidle
      exact ⟨⟨rfl, rfl, rfl⟩, rfl, .refl⟩
  | onBootCccdWrite =>
    dsimp only [Hogp.handle, onBootCccdWrite]
    rw [if_neg hnot]
    exact h.subscribeNextBootInput hidle
  | _ => cases hcb

lemma applyGatt_inv (h : Inv w) (input : Gatt.Input) : Inv (applyGatt env w input) := by
  have houtcome := Gatt.apply_outcome env.port w.gatt input
  have hnoted := noteInput_aside w input
  unfold applyGatt
  dsimp only
  generalize Gatt.apply env.port w.gatt input = g at *
  -- the world in which the callbacks of the attribute client are called
  have haside (pending : Option (Call × Callback)) :
      Aside w { w.noteInput input with gatt := g, pending } :=
    ⟨hnoted.tables, hnoted.onComplete, hnoted.history⟩
  cases houtcome with
  | quiet events hhistory hquiet hoperations hactive =>
    rw [newEvents_append _ hhistory, if_pos hoperations]
    refine Inv.passive ⟨h.toReported.aside (haside w.pending), fun hg call cb hp hcb => ?_⟩
      (foldl_observe_passive env _ fun e he => hquiet e (mem_reverse.mp he))
    obtain ⟨hbefore, hop⟩ := hactive hg
    exact (h.waits hbefore call cb hp hcb).aside (haside w.pending) hop
  | begun events hhistory hoperations =>
    rw [newEvents_append _ hhistory, if_neg (by omega)]
    refine Inv.passive ⟨h.toReported.aside (haside none), nofun⟩ (foldl_observe_unowned rfl _)
  | @failed n completion events hhistory hquiet hoperations hidle hfailed =>
    rw [newEvents_append (.completed n completion :: events) hhistory,
      if_pos hoperations, reverse_cons, foldl_append]
    have hpassive := foldl_observe_passive env
      { w.noteInput input with gatt := g, pending := w.pending }
      fun e he => hquiet e (mem_reverse.mp he)
    generalize events.reverse.foldl (observe env)
      { w.noteInput input with gatt := g, pending := w.pending } = v at *
    have hreported := (h.toReported.aside (haside w.pending)).aside hpassive.toAside
    have hvidle : v.gatt.client.busy = false := by rw [hpassive.gatt]; exact hidle
    rw [foldl_cons, foldl_nil]
    dsimp only [observe]
    split
    · exact hreported.idle hvidle
    next call cb _ =>
      rw [handle_failed hfailed]
      exact Reported.onFailure (hreported.emit rfl) hvidle cb
  | @answered n completion opcode params nowUs hinput hbefore hhistory hoperations hidle hwrite =>
    rw [newEvents_append [.completed n completion] hhistory, if_pos hoperations]
    subst hinput
    rw [reverse_singleton, foldl_cons, foldl_nil]
    dsimp only [observe]
    have hreported := h.toReported.aside (haside w.pending)
    cases hown : w.pending with
    | none => exact (hown ▸ hreported).idle hidle
    | some own =>
      obtain ⟨call, cb⟩ := own
      rw [hown] at hreported
      have hanswered : Reported ({ w.noteInput (.data (opcode :: params) nowUs) with
          gatt := g, pending := some (call, cb) }.emit (.answered call completion)) :=
        hreported.emit rfl
      by_cases hok : completion.result = .ok
      swap
      · dsimp only
        rw [handle_failed hok]
        exact hanswered.onFailure hidle cb
      by_cases hcb : cb.ofDiscovery = true
      · have hwaits := h.waits hbefore call cb hown hcb
        have hcurrent : current (.answered call completion ::
            .received (opcode :: params) :: w.history) =
            .answered call completion :: .received (opcode :: params) :: current w.history :=
          (current_cons _ rfl).trans (congrArg _ (current_cons _ rfl))
        refine handle_answered (hanswered.open hidle hwaits.onComplete) hcurrent hok
          hwaits.issued (fun hop => ⟨params, ?_⟩) hcb hwaits.phase
        rw [hwrite (hwaits.op.trans hop)]
      · exact hanswered.handle hidle (Bool.eq_false_iff.mpr hcb) completion

lemma discover_inv (h : Inv w) (onComplete onInput : Bool) (nowUs : ℕ) :
    Inv (discover env w onComplete onInput nowUs).1 := by
  unfold discover
  split
  · exact h
  next hfree =>
  simp only [not_or, Bool.not_eq_true] at hfree
  have hopen : Open ({ w.modify fun c => { c with onComplete := true, onInput, nowUs } with
      gatt := Gatt.setNotifyHandler w.gatt true, notifies := true }.emit .discovering) := by
    refine ⟨hfree.2.2.1, rfl, mem_cons_self, fun result hmem => ?_, h.once.cons nofun⟩
    cases hmem
  have hphase : Phase ({ w.modify fun c => { c with onComplete := true, onInput, nowUs } with
      gatt := Gatt.setNotifyHandler w.gatt true, notifies := true }.emit .discovering).client
      (current (.discovering :: w.history)) .discoverServices .onServices := rfl
  obtain ⟨hrefused, hw⟩ | ⟨hok, hinv⟩ := hopen.startCall env rfl hphase nowUs
  · rw [if_pos hrefused, hw]
    refine Reported.idle ⟨nofun, hopen.once, fun hfinished => ?_⟩ hopen.idle
    exact absurd hfinished (hopen.unreported .ok)
  · rw [if_neg (not_not.mpr hok)]
    exact hinv

lemma startWrite_inv (h : Inv w) (handle : UInt16) (value : Bytes) (nowUs : ℕ) :
    Inv (startWrite env w handle value nowUs).1 := by
  have hset (b : Bool) {v : World} (hv : Inv v) :
      Inv (v.modify fun c => { c with onWriteComplete := b }) :=
    hv.passive ⟨⟨rfl, rfl, rfl⟩, rfl, .refl, rfl, rfl⟩
  unfold startWrite
  obtain ⟨hrefused, hw⟩ | ⟨hok, hinv⟩ := (hset true h).startCall env (.write handle value)
    .onReportWrite rfl nowUs
  · rw [if_pos hrefused, hw]
    exact hset false (hset true h)
  · rw [if_neg (not_not.mpr hok)]
    exact hinv

lemma setProtocolMode_inv (h : Inv w) (mode : UInt8) (onComplete : Bool) (nowUs : ℕ) :
    Inv (setProtocolMode env w mode onComplete nowUs).1 := by
  unfold setProtocolMode
  split
  · exact h
  split
  · exact h
  have hset : Inv (w.modify fun c => { c with onModeComplete := true, pendingMode := mode }) :=
    h.passive ⟨⟨rfl, rfl, rfl⟩, rfl, .refl, rfl, rfl⟩
  generalize (w.modify fun c => { c with onModeComplete := true, pendingMode := mode }) = v at *
  obtain ⟨hrefused, hw⟩ | ⟨hok, hinv⟩ := hset.startCall env
    (.write v.client.protocolModeHandle [mode]) .onProtocolModeWrite rfl nowUs
  · rw [if_pos hrefused, hw]
    exact hset.passive ⟨⟨rfl, rfl, rfl⟩, rfl, .refl, rfl, rfl⟩
  · rw [if_neg (not_not.mpr hok)]
    exact hinv

lemma apply_inv (w : World) (input : Input) (h : Inv w) : Inv (apply env w input) := by
  cases input with
  | gatt input => exact applyGatt_inv h input
  | setEventHandler onEvent =>
    exact h.passive ⟨⟨rfl, rfl, rfl⟩, rfl, .refl, rfl, rfl⟩
  | discover onComplete onInput nowUs => exact discover_inv h onComplete onInput nowUs
  | writeReport reportId reportType value onComplete nowUs =>
    dsimp only [apply, writeReport]
    split
    · exact h
    split
    · exact h
    split
    · exact h
    · exact startWrite_inv h _ _ nowUs
  | writeBootKeyboardOutput leds onComplete nowUs =>
    dsimp only [apply, writeBootKeyboardOutput]
    split
    · exact h
    · exact startWrite_inv h _ _ nowUs
  | setProtocolMode mode onComplete nowUs => exact setProtocolMode_inv h mode onComplete nowUs

lemma run_inv (env : Env) (inputs : List Input) : Inv (run env inputs) := by
  refine foldl_invariant apply_inv inputs ⟨⟨nofun, always_nil, nofun⟩, nofun⟩

end Bluzing.Hogp
