import Bluzing.Gatt.Outcomes
import Bluzing.Hogp.Client

/-! What the functions of the client can do: what becomes of an operation that it asks for, what it
does once it is told of a completion, and what notifications leave alone. -/
namespace Bluzing.Hogp

def Call.op : Call → Gatt.Op
  | .discoverServices => .discoverServices
  | .discoverCharacteristics _ _ => .discoverCharacteristics
  | .discoverDescriptors _ _ => .discoverDescriptors
  | .read _ => .read
  | .write _ _ => .write

lemma newEvents_append {before after : Gatt.World} (events : List Gatt.Event)
    (h : after.history = events ++ before.history) : newEvents before after = events := by
  rw [newEvents, h, List.length_append, Nat.add_sub_cancel, List.take_left]

inductive Issued (g : Gatt.World) (call : Call) : Gatt.World × Status → Prop
  | refused {status : Status} (hstatus : status ≠ .ok) : Issued g call (g, status)
  | sent {g' : Gatt.World} {request accepted : Gatt.Event} (hidle : g.client.busy = false)
      (hhistory : g'.history = [request, accepted] ++ g.history)
      (hquiet : Gatt.Quiet [request, accepted]) (hop : g'.client.op = call.op) :
      Issued g call (g', .ok)
  | failed {g' : Gatt.World} {n : ℕ} {completion : Gatt.Completion} {request accepted : Gatt.Event}
      (hidle : g.client.busy = false)
      (hhistory : g'.history = [.completed n completion, request, accepted] ++ g.history)
      (hfailed : completion.result ≠ .ok) (hbusy : g'.client.busy = false) :
      Issued g call (g', .ok)

variable {port : ℕ → Bool} {g : Gatt.World} {call : Call}

lemma beginOperation_issued {setup : Gatt.Client → Gatt.Client}
    (hop : (setup g.client).op = call.op) (nowUs : ℕ) :
    Issued g call (Gatt.beginOperation port g setup true nowUs) := by
  unfold Gatt.beginOperation
  split
  · exact .refused (by decide)
  next hfree =>
    have hidle : g.client.busy = false := by
      simp only [Bool.or_eq_true, not_or, Bool.not_eq_true] at hfree
      exact hfree.2
    have hmtu : call.op ≠ .mtu := by cases call <;> exact nofun
    refine Gatt.issueCurrentRequest_cases (P := fun g' => Issued g call (g', .ok)) nowUs
      (fun _ _ _ => ?_) (fun h _ => ?_) fun _ requests => ?_
    · refine .sent hidle rfl (fun e he => ?_) hop
      rcases List.mem_cons.mp he with rfl | he
      · rfl
      · rw [List.mem_singleton.mp he]
        rfl
    · exact absurd (hop.symm.trans h) hmtu
    · exact .failed hidle rfl (show Gatt.Result.errorClosed ≠ .ok by decide) rfl

lemma issue_issued (call : Call) (nowUs : ℕ) : Issued g call (call.issue port g nowUs) := by
  cases call with
  | discoverServices | discoverCharacteristics | read => exact beginOperation_issued rfl nowUs
  | discoverDescriptors =>
    dsimp only [Call.issue, Gatt.discoverDescriptors]
    split
    · exact .refused (by decide)
    · exact beginOperation_issued rfl nowUs
  | write =>
    dsimp only [Call.issue, Gatt.write]
    split
    · exact .refused (by decide)
    · exact beginOperation_issued rfl nowUs

variable {env : Env} {w : World} {cb : Callback}

def World.issued (w : World) (g : Gatt.World) (call : Call) (cb : Callback) : World :=
  { w with gatt := g, pending := some (call, cb) }.emit (.issued call)

lemma startCall_cases {P : World × Status → Prop} (nowUs : ℕ)
    (hrefused : ∀ status, status ≠ .ok → P (w, status))
    (hsent : ∀ g, call.issue env.port w.gatt nowUs = (g, .ok) → g.client.op = call.op →
      P (w.issued g call cb, .ok))
    (hfailed : ∀ g completion, g.client.busy = false → completion.result ≠ .ok →
      P (onFailure ((w.issued g call cb).emit (.answered call completion)) cb, .ok)) :
    P (startCall env w call cb nowUs) := by
  unfold startCall
  have hissued := @issue_issued env.port w.gatt call nowUs
  generalize call.issue env.port w.gatt nowUs = r at *
  cases hissued with
  | refused hstatus =>
    rw [if_pos hstatus]
    exact hrefused _ hstatus
  | @sent g request accepted hidle hhistory hquiet hop =>
    rw [if_neg (not_not.mpr rfl), newEvents_append _ hhistory]
    have hnone : completionIn [request, accepted] = none := by
      refine List.findSome?_eq_none_iff.mpr fun e he => ?_
      cases e with
      | completed => cases hquiet _ he
      | _ => rfl
    rw [hnone]
    exact hsent g rfl hop
  | failed hidle hhistory hfailed' hbusy =>
    rw [if_neg (not_not.mpr rfl), newEvents_append _ hhistory]
    exact hfailed _ _ hbusy hfailed'

lemma handle_failed {completion : Gatt.Completion} (h : completion.result ≠ .ok) :
    handle env w completion cb = onFailure w cb := by
  have hok : gattOk completion = false := decide_eq_false h
  cases cb with
  | onCharacteristics | onDescriptors => exact dif_pos (.inl (by rw [hok]; rfl))
  | onReportWrite =>
    dsimp only [handle, onReportWrite]
    rw [hok]
    rfl
  | _ => exact if_pos (by rw [hok]; rfl)

def Event.isAnswered : Event → Bool
  | .answered _ _ => true
  | .discovering | .finished _ | .received _ | .issued _ | .written _ | .modeSet _ | .value _ |
    .input _ | .outOfRange => false

def Client.bootInputs (c : Client) : List Gatt.Characteristic × UInt16 × UInt16 :=
  (c.characteristics.items, c.bootKeyboardInputHandle, c.bootMouseInputHandle)

inductive Move (env : Env) (w : World) : World → Prop
  | client (c : Client) (hkept : c.bootInputs = w.client.bootInputs) :
      Move env w { w with client := c }
  | characteristics (chars : Stored Gatt.Characteristic Gatt.maxCharacteristics) :
      Move env w (w.modify fun c => noteCharacteristics c chars)
  | emit {e : Event} (he : e.isAnswered = false) : Move env w (w.emit e)
  | issued {g : Gatt.World} {call : Call} {cb : Callback} {nowUs : ℕ}
      (hissue : call.issue env.port w.gatt nowUs = (g, .ok)) : Move env w (w.issued g call cb)
  | failed {g : Gatt.World} {call : Call} {cb : Callback} {completion : Gatt.Completion}
      (hidle : g.client.busy = false) (hfailed : completion.result ≠ .ok) :
      Move env w ((w.issued g call cb).emit (.answered call completion))
  | listens (hidle : w.gatt.client.busy = false) :
      Move env w { w with gatt := Gatt.setNotifyHandler w.gatt true, notifies := true }

abbrev Moves (env : Env) : World → World → Prop := Relation.ReflTransGen (Move env)

namespace Moves
variable {env : Env} {w w' : World} {call : Call} {cb : Callback}

lemma invariant {P : World → Prop} (hmove : ∀ {w w'}, Move env w w' → P w → P w')
    (h : Moves env w w') (hw : P w) : P w' := by
  induction h with
  | refl => exact hw
  | tail _ hlast ih => exact hmove hlast ih

lemma modify (w : World) {f : Client → Client}
    (hf : (f w.client).bootInputs = w.client.bootInputs) : Moves env w (w.modify f) :=
  .single (.client _ hf)

lemma finish (w : World) (result : Result) : Moves env w (finish w result) := by
  unfold Hogp.finish
  split
  · exact (modify w rfl).tail (.emit rfl)
  · exact .refl

lemma completeMode (w : World) (result : Result) : Moves env w (completeMode w result) := by
  unfold Hogp.completeMode
  split
  · exact (modify w rfl).tail (.emit rfl)
  · exact .refl

lemma completeWrite (w : World) (result : Result) : Moves env w (completeWrite w result) := by
  unfold Hogp.completeWrite
  split
  · exact (modify w rfl).tail (.emit rfl)
  · exact .refl

lemma onFailure (w : World) (cb : Callback) : Moves env w (onFailure w cb) := by
  cases cb with
  | onReportWrite => exact completeWrite w _
  | onProtocolModeWrite | onBootCccdWrite => exact completeMode w _
  | onServices | onCharacteristics | onDescriptors | onCccdWrite
  | onReportMap | onReportReference => exact finish w _

lemma startCall (env : Env) (w : World) (call : Call) (cb : Callback) (nowUs : ℕ) :
    Moves env w (startCall env w call cb nowUs).1 := by
  refine startCall_cases (P := fun r => Moves env w r.1) nowUs (fun _ _ => .refl)
    (fun g hissue _ => .single (.issued hissue)) fun g completion hidle hfailed => ?_
  have hanswered : Move env w ((w.issued g call cb).emit (.answered call completion)) :=
    .failed hidle hfailed
  exact (onFailure _ cb).head hanswered

lemma eventTime (w : World) : Moves env w (eventTime w) := modify w rfl

lemma callOrFinish (w : World) : Moves env w (callOrFinish env w call cb) := by
  have hcall := (eventTime w).trans
    (startCall env (Hogp.eventTime w) call cb (Hogp.eventTime w).client.nowUs)
  unfold Hogp.callOrFinish
  dsimp only
  split
  · exact hcall.trans (finish _ _)
  · exact hcall

lemma subscribeNext (w : World) : Moves env w (subscribeNext env w) := by
  unfold Hogp.subscribeNext
  dsimp only
  split
  · exact (modify w rfl).trans (finish _ _)
  · split
    · exact (modify w rfl).trans (finish _ _)
    · exact (modify w rfl).trans (callOrFinish _)

lemma readNextReference (w : World) : Moves env w (readNextReference env w) := by
  unfold Hogp.readNextReference
  dsimp only
  split
  · exact ((modify w rfl).trans (modify _ rfl)).trans (subscribeNext _)
  · split
    · exact (modify w rfl).tail (.emit rfl)
    · exact (modify w rfl).trans (callOrFinish _)

lemma subscribeNextBootInput (w : World) : Moves env w (subscribeNextBootInput env w) := by
  unfold Hogp.subscribeNextBootInput
  dsimp only
  split
  · exact (modify w rfl).trans (completeMode _ _)
  · have hcall := ((modify w rfl).trans (eventTime _)).trans
      (startCall env (Hogp.eventTime (w.modify fun c =>
        { c with bootSubscribeStep := (nextBootInput w.client).1 }))
        (.write (nextBootInput w.client).2 notifyEnabled) .onBootCccdWrite
        (Hogp.eventTime (w.modify fun c =>
          { c with bootSubscribeStep := (nextBootInput w.client).1 })).client.nowUs)
    split
    · exact hcall.trans (completeMode _ _)
    · exact hcall

lemma handle (w : World) (completion : Gatt.Completion) (cb : Callback) :
    Moves env w (handle env w completion cb) := by
  by_cases hok : completion.result = .ok
  swap
  · rw [handle_failed hok]
    exact onFailure w cb
  have hnot : ¬ (!gattOk completion) = true := by
    rw [gattOk, decide_eq_true hok]
    exact nofun
  cases cb with
  | onServices =>
    dsimp only [Hogp.handle, onServices]
    rw [if_neg hnot]
    split
    · exact finish w _
    · exact (modify w rfl).trans (callOrFinish _)
  | onCharacteristics =>
    dsimp only [Hogp.handle, onCharacteristics]
    split
    · exact finish w _
    · split
      · exact (finish _ _).head (.characteristics _)
      · exact (callOrFinish _).head (.characteristics _)
  | onDescriptors =>
    dsimp only [Hogp.handle, onDescriptors]
    split
    · exact finish w _
    · split
      · exact (modify w rfl).trans (finish _ _)
      · exact (modify w rfl).trans (callOrFinish _)
  | onReportMap =>
    dsimp only [Hogp.handle, onReportMap]
    rw [if_neg hnot]
    split
    · exact finish w _
    · exact (modify w rfl).trans (readNextReference _)
  | onReportReference =>
    dsimp only [Hogp.handle, onReportReference]
    rw [if_neg hnot]
    split
    · split
      · exact finish w _
      · exact (modify w rfl).trans (readNextReference _)
    · exact finish w _
  | onCccdWrite =>
    dsimp only [Hogp.handle, onCccdWrite]
    rw [if_neg hnot]
    exact subscribeNext w
  | onReportWrite => exact completeWrite w _
  | onProtocolModeWrite =>
    dsimp only [Hogp.handle, onProtocolModeWrite]
    rw [if_neg hnot]
    split
    · exact completeMode w _
    · exact (modify w rfl).trans (subscribeNextBootInput _)
  | onBootCccdWrite =>
    dsimp only [Hogp.handle, onBootCccdWrite]
    rw [if_neg hnot]
    exact subscribeNextBootInput w

lemma startWrite (w : World) (handle : UInt16) (value : Bytes) (nowUs : ℕ) :
    Moves env w (startWrite env w handle value nowUs).1 := by
  have hcall := (modify w rfl).trans (startCall env
    (w.modify fun c => { c with onWriteComplete := true }) (.write handle value) .onReportWrite
    nowUs)
  unfold Hogp.startWrite
  dsimp only
  split
  · exact hcall.tail (.client _ rfl)
  · exact hcall

lemma apply (env : Env) (w : World) (input : Input) :
    (∃ gattInput, input = .gatt gattInput) ∨ Moves env w (apply env w input) := by
  cases input with
  | gatt gattInput => exact .inl ⟨gattInput, rfl⟩
  | setEventHandler => exact .inr (.single (.client _ rfl))
  | discover onComplete onInput nowUs =>
    refine .inr ?_
    dsimp only [Hogp.apply, discover]
    split
    · exact .refl
    next hfree =>
    simp only [not_or, Bool.not_eq_true] at hfree
    have hbegun : Moves env w ({ w.modify fun c => { c with onComplete := true, onInput, nowUs }
        with gatt := Gatt.setNotifyHandler w.gatt true, notifies := true }.emit .discovering) :=
      ((modify w rfl).tail (.listens hfree.2.2.1)).tail (.emit rfl)
    have hcall := hbegun.trans (startCall env _ .discoverServices .onServices nowUs)
    split
    · exact hcall.tail (.client _ rfl)
    · exact hcall
  | writeReport reportId reportType value onComplete nowUs =>
    refine .inr ?_
    dsimp only [Hogp.apply, writeReport]
    split
    · exact .refl
    split
    · exact .refl
    split
    · exact .refl
    · exact startWrite w _ _ nowUs
  | writeBootKeyboardOutput leds onComplete nowUs =>
    refine .inr ?_
    dsimp only [Hogp.apply, writeBootKeyboardOutput]
    split
    · exact .refl
    · exact startWrite w _ _ nowUs
  | setProtocolMode mode onComplete nowUs =>
    refine .inr ?_
    dsimp only [Hogp.apply, setProtocolMode]
    split
    · exact .refl
    split
    · exact .refl
    have hcall := (modify w rfl).trans (startCall env (w.modify fun c =>
      { c with onModeComplete := true, pendingMode := mode })
      (.write w.client.protocolModeHandle [mode]) .onProtocolModeWrite nowUs)
    split
    · exact hcall.tail (.client _ rfl)
    · exact hcall

end Moves

def Event.isAside : Event → Bool
  | .discovering | .finished _ => false
  | .received _ | .issued _ | .answered _ _ | .written _ | .modeSet _ | .value _ | .input _ |
    .outOfRange => true

def Event.isHeard : Event → Bool
  | .value _ | .input _ | .outOfRange => true
  | .discovering | .finished _ | .received _ | .issued _ | .answered _ _ | .written _ |
    .modeSet _ => false

def Report.handles (r : Report) : UInt16 × UInt16 × UInt16 :=
  (r.valueHandle, r.cccdHandle, r.referenceHandle)

structure Recorded where
  service : Gatt.Service
  characteristics : List Gatt.Characteristic
  descriptors : List Gatt.Descriptor
  reports : List (UInt16 × UInt16 × UInt16)
  bootKeyboardInputHandle : UInt16
  bootKeyboardInputCccd : UInt16
  bootMouseInputHandle : UInt16
  bootMouseInputCccd : UInt16

def Client.recorded (c : Client) : Recorded where
  service := c.service
  characteristics := c.characteristics.items
  descriptors := c.descriptors.items
  reports := c.reports.items.map Report.handles
  bootKeyboardInputHandle := c.bootKeyboardInputHandle
  bootKeyboardInputCccd := c.bootKeyboardInputCccd
  bootMouseInputHandle := c.bootMouseInputHandle
  bootMouseInputCccd := c.bootMouseInputCccd

structure SameTables (c c' : Client) : Prop where
  recorded : c'.recorded = c.recorded
  reports : c'.reports = c.reports
  pendingIndex : c'.pendingIndex = c.pendingIndex

structure Aside (w w' : World) : Prop where
  tables : SameTables w.client w'.client
  onComplete : w'.client.onComplete = w.client.onComplete
  history : Extends Event.isAside w.history w'.history

structure Passive (w w' : World) : Prop where
  tables : SameTables w.client w'.client
  onComplete : w'.client.onComplete = w.client.onComplete
  history : Extends Event.isHeard w.history w'.history
  gatt : w'.gatt = w.gatt
  pending : w'.pending = w.pending

lemma SameTables.service {c c' : Client} (h : SameTables c c') : c'.service = c.service :=
  congrArg Recorded.service h.recorded

lemma SameTables.refl (c : Client) : SameTables c c := ⟨rfl, rfl, rfl⟩

lemma SameTables.trans {c₁ c₂ c₃ : Client} (h₁ : SameTables c₁ c₂) (h₂ : SameTables c₂ c₃) :
    SameTables c₁ c₃ where
  recorded := h₂.recorded.trans h₁.recorded
  reports := h₂.reports.trans h₁.reports
  pendingIndex := h₂.pendingIndex.trans h₁.pendingIndex

namespace Passive

lemma refl (w : World) : Passive w w := ⟨.refl _, rfl, .refl, rfl, rfl⟩

lemma trans {w₁ w₂ w₃ : World} (h₁ : Passive w₁ w₂) (h₂ : Passive w₂ w₃) : Passive w₁ w₃ where
  tables := h₁.tables.trans h₂.tables
  onComplete := h₂.onComplete.trans h₁.onComplete
  history := h₁.history.trans h₂.history
  gatt := h₂.gatt.trans h₁.gatt
  pending := h₂.pending.trans h₁.pending

lemma toAside {w w' : World} (h : Passive w w') : Aside w w' where
  tables := h.tables
  onComplete := h.onComplete
  history := h.history.mono fun e he => by
    cases e <;> first | rfl | cases he

end Passive

lemma readError_passive (w : World) (e : ReadError) : Passive w (w.readError e) := by
  cases e with
  | status => exact .refl w
  | outOfRange => exact ⟨.refl _, rfl, .cons rfl .refl, rfl, rfl⟩

lemma decodeReport_passive (w : World) (report : Bytes) :
    Passive w (decodeReport env w report) := by
  unfold decodeReport
  dsimp only
  split
  next e _ => exact readError_passive w e
  · exact ⟨.refl _, rfl, .append (List.forall_mem_map.mpr fun _ _ => rfl), rfl, rfl⟩

lemma processInput_passive {d : Hid.Descriptor} {get : Client → Hid.Input}
    {set : Hid.Input → Client → Client}
    (hset : ∀ input c, SameTables c (set input c) ∧ (set input c).onComplete = c.onComplete)
    (w : World) (report : Bytes) : Passive w (processInput env d get set w report) := by
  unfold processInput
  split
  · exact .refl w
  dsimp only
  split
  next e _ => exact readError_passive w e
  · exact ⟨(hset _ _).1, (hset _ _).2, .append (List.forall_mem_map.mpr fun _ _ => rfl), rfl, rfl⟩

lemma onNotification_passive (w : World) (handle : UInt16) (value : Bytes) :
    Passive w (onNotification env w handle value) := by
  have hreport (report : Bytes) : Passive w (processReport env w report) := by
    have hdecoded : Passive w (decodeReport env w report) := decodeReport_passive w report
    refine hdecoded.trans (processInput_passive ?_ _ report)
    exact fun _ _ => ⟨⟨rfl, rfl, rfl⟩, rfl⟩
  unfold onNotification
  split
  · refine processInput_passive ?_ w value
    exact fun _ _ => ⟨⟨rfl, rfl, rfl⟩, rfl⟩
  split
  · refine processInput_passive ?_ w value
    exact fun _ _ => ⟨⟨rfl, rfl, rfl⟩, rfl⟩
  split
  · exact .refl w
  split
  · split
    · exact .refl w
    · exact hreport _
  · exact hreport _

lemma observe_passive (w : World) {e : Gatt.Event} (he : e.completion? = none) :
    Passive w (observe env w e) := by
  cases e with
  | completed => cases he
  | notified handle value =>
    dsimp only [observe]
    split
    · exact onNotification_passive w handle value
    · exact .refl w
  | _ => exact .refl w

lemma observe_unowned (hpending : w.pending = none) (e : Gatt.Event) :
    Passive w (observe env w e) := by
  cases e with
  | completed =>
    dsimp only [observe]
    rw [hpending]
    exact .refl w
  | _ => exact observe_passive w rfl

lemma foldl_observe_passive (env : Env) (w : World) {events : List Gatt.Event}
    (h : Gatt.Quiet events) : Passive w (events.foldl (observe env) w) := by
  induction events generalizing w with
  | nil => exact .refl w
  | cons e events ih =>
    obtain ⟨he, hrest⟩ := List.forall_mem_cons.mp h
    exact (observe_passive w he).trans (ih _ hrest)

lemma foldl_observe_unowned (hpending : w.pending = none) (events : List Gatt.Event) :
    Passive w (events.foldl (observe env) w) := by
  induction events generalizing w with
  | nil => exact .refl w
  | cons e events ih =>
    have hstep := @observe_unowned env w hpending e
    exact hstep.trans (ih (hstep.pending.trans hpending))

lemma noteInput_aside (w : World) (input : Gatt.Input) : Aside w (w.noteInput input) := by
  cases input with
  | data => exact ⟨.refl _, rfl, .cons rfl .refl⟩
  | _ => exact ⟨.refl _, rfl, .refl⟩

end Bluzing.Hogp
