import Bluzing.Lib.History
import Bluzing.Lib.Reentrant
import Bluzing.Gatt.Alike

/-! Failing calls of `bt_gatt_client_connect`. -/
namespace Bluzing.Gatt

def Input.isConnect : Input → Bool
  | .connect _ _ _ => true
  | _ => false

def Event.isConnected : Event → Bool
  | .connected _ => true
  | _ => false

def World.attempted (w : World) (onConnect : Bool) (nowUs : ℕ) : World :=
  w.modify fun c => { c with onConnect, connectStartedUs := nowUs }

structure Unaffected (port : ℕ → Bool) (w w' : World) : Prop where
  same : ∀ inputs : List Input,
    (inputs.foldl (apply port) w').history = (inputs.foldl (apply port) w).history
  uncalled : ∀ inputs : List Input, (∀ input ∈ inputs, input.isConnect = false) →
    Extends (fun e => !e.isConnected) w'.history (inputs.foldl (apply port) w').history

variable {port : ℕ → Bool} {w w' : World}

lemma connect_error {onConnect granted : Bool} {nowUs : ℕ}
    (h : (connect port w onConnect granted nowUs).2 ≠ .ok) :
    (connect port w onConnect granted nowUs).1 = w.attempted onConnect nowUs := by
  unfold connect openFixed at h ⊢
  split
  · rfl
  next hopen =>
    split
    · rfl
    next hgranted =>
      rw [if_neg hopen, if_neg hgranted] at h
      exact absurd rfl h

structure Within (w w' : World) : Prop where
  channelOpen : w'.channelOpen = w.channelOpen
  channelReady : w'.client.channelReady = w.client.channelReady
  silent : w.client.onConnect = false → w'.client.onConnect = false ∧
    Extends (fun e => !e.isConnected) w.history w'.history

lemma Within.refl (w : World) : Within w w := ⟨rfl, rfl, fun h => ⟨h, .refl⟩⟩

lemma Within.trans {w'' : World} (h₁ : Within w w') (h₂ : Within w' w'') : Within w w'' where
  channelOpen := h₂.channelOpen.trans h₁.channelOpen
  channelReady := h₂.channelReady.trans h₁.channelReady
  silent h :=
    have ⟨hnone, hevents⟩ := h₁.silent h
    have ⟨hnone', hevents'⟩ := h₂.silent hnone
    ⟨hnone', hevents.trans hevents'⟩

lemma Within.of_fields (events : List Event) {c : Client} {requests operations : ℕ}
    (hready : c.channelReady = w.client.channelReady) (hconnect : c.onConnect = w.client.onConnect)
    (hevents : ∀ e ∈ events, e.isConnected = false) :
    Within w ⟨c, w.channelOpen, requests, operations, events ++ w.history⟩ where
  channelOpen := rfl
  channelReady := hready
  silent h := ⟨hconnect.trans h, .append fun e he => by rw [hevents e he]; rfl⟩

lemma complete_within (w : World) (result : Result) (code : UInt8) :
    Within w (complete w result code) := by
  unfold complete
  split
  · exact .of_fields [] rfl rfl (by simp)
  next n _ =>
    exact .of_fields [.completed n (completionOf w.client result code)] rfl rfl
      (by simp [Event.isConnected])

lemma handleMtuResponse_within (w : World) (opcode : UInt8) (params : Bytes) :
    Within w (handleMtuResponse w opcode params) := by
  unfold handleMtuResponse
  dsimp only
  split
  next hconnect => exact ⟨rfl, rfl, fun h => nomatch h.symm.trans hconnect⟩
  · exact .of_fields [] rfl rfl (by simp)

lemma issueCurrentRequest_within (port : ℕ → Bool) (w : World) (nowUs : ℕ) :
    Within w (issueCurrentRequest port w nowUs) := by
  have hrefused (requests : ℕ) : Within w (w.refused requests) :=
    .of_fields [.requested (requestPdu w.client) false] rfl rfl
      (by simp [Event.isConnected])
  refine issueCurrentRequest_cases nowUs (fun _ _ _ => ?_) (fun _ requests => ?_)
    fun _ requests => ?_
  · exact .of_fields [.requested (requestPdu w.client) true] rfl rfl
      (by simp [Event.isConnected])
  · exact (hrefused requests).trans (handleMtuResponse_within _ _ _)
  · exact (hrefused requests).trans (complete_within _ _ _)

lemma dispatchResponse_within (port : ℕ → Bool) (w : World) (opcode : UInt8)
    (params : Bytes) (nowUs : ℕ) : Within w (dispatchResponse port w opcode params nowUs) := by
  obtain ⟨found, value, result, code, h⟩ | ⟨c, hc, h⟩ | ⟨-, h⟩ :=
    dispatchResponse_outcomes port w opcode params nowUs
  · rw [h]
    have hmodify : Within w (w.modify fun c => { c with found, value }) :=
      .of_fields [] rfl rfl (by simp)
    exact hmodify.trans (complete_within _ _ _)
  · rw [h]
    have hclient : Within w { w with client := c } := by
      cases hc with
      | discovery | read => exact .of_fields [] rfl rfl (by simp)
    exact hclient.trans (issueCurrentRequest_within port _ nowUs)
  · rw [h]
    exact .refl w

lemma handleNotification_within (w : World) (isIndication : Bool) (params : Bytes) :
    Within w (handleNotification w isIndication params) := by
  rw [handleNotification_eq]
  refine .of_fields _ rfl rfl fun e he => ?_
  obtain rfl | ⟨handle, value, rfl⟩ := mem_notificationEvents he
  · rfl
  · rfl

lemma arrived_within (w : World) (nowUs : ℕ) : Within w (arrived w nowUs) :=
  .of_fields [] rfl rfl (by simp)

def Unready (w : World) : Prop := w.channelOpen = false → w.client.channelReady = false

lemma Unready.within (h : Unready w) (hw : Within w w') : Unready w' :=
  fun hclosed => hw.channelReady.trans (h (hw.channelOpen.symm.trans hclosed))

lemma onClosed_channelReady (w : World) : (onClosed w).client.channelReady = false := by
  have hunready :
      (w.modify fun c => { c with channelReady := false }).client.channelReady = false :=
    rfl
  refine onClosed_cases (P := fun w => w.client.channelReady = false) rfl (fun _ _ => ?_) rfl
  exact (complete_within _ _ _).channelReady.trans hunready

lemma apply_unready (input : Input) (h : Unready w) : Unready (apply port w input) := by
  have hstep := apply_step port w input
  generalize apply port w input = w' at hstep ⊢
  cases hstep with
  | ignored | notifyHandler | unopened => exact h
  | opened onConnect granted nowUs =>
    have hwithin := issueCurrentRequest_within port (opening w onConnect nowUs) nowUs
    exact fun hclosed => nomatch hwithin.channelOpen.symm.trans hclosed
  | unready => exact fun _ => rfl
  | closed => exact fun _ => onClosed_channelReady _
  | notification =>
    exact h.within ((arrived_within w _).trans (handleNotification_within _ _ _))
  | exchanged => exact h.within ((arrived_within w _).trans (handleMtuResponse_within _ _ _))
  | unsolicited => exact h.within (arrived_within w _)
  | response =>
    exact h.within ((arrived_within w _).trans (dispatchResponse_within port _ _ _ _))
  | @begun _ setup onComplete nowUs _ hready =>
    intro hclosed
    have hwithin := issueCurrentRequest_within port (startOperation w setup onComplete) nowUs
    cases (h (hwithin.channelOpen.symm.trans hclosed)).symm.trans hready
  | mtuExpired => exact h.within (handleMtuResponse_within w 0 [])
  | expired => exact h.within (complete_within w _ _)

lemma run_unready (port : ℕ → Bool) (inputs : List Input) : Unready (run port inputs) :=
  foldl_invariant (fun _ input => apply_unready input) inputs fun _ => rfl

lemma apply_silent (port : ℕ → Bool) {input : Input} (hinput : input.isConnect = false)
    (h : w.client.onConnect = false) :
    (apply port w input).client.onConnect = false ∧
      Extends (fun e => !e.isConnected) w.history (apply port w input).history := by
  have hstep := apply_step port w input
  generalize apply port w input = w' at hstep ⊢
  cases hstep with
  | ignored | notifyHandler | unready => exact ⟨h, .refl⟩
  | unopened | opened => cases hinput
  | closed =>
    unfold onClosed
    dsimp only
    rw [if_neg (by simp [h])]
    split
    · exact (complete_within _ _ _).silent h
    · exact ⟨h, .refl⟩
  | notification => exact ((arrived_within w _).trans (handleNotification_within _ _ _)).silent h
  | exchanged _ _ hconnect | mtuExpired _ hconnect => cases h.symm.trans hconnect
  | unsolicited => exact (arrived_within w _).silent h
  | response => exact ((arrived_within w _).trans (dispatchResponse_within port _ _ _ _)).silent h
  | @begun _ setup onComplete nowUs hsetup =>
    obtain ⟨op, pendingHandle, discoverRangeEnd, found, value, -, hclient⟩ :=
      Input.setup_spec hsetup w.client
    have hconnect : (startOperation w setup onComplete).client.onConnect = false :=
      (congrArg Client.onConnect hclient).trans h
    obtain ⟨hnone, hevents⟩ := (issueCurrentRequest_within port _ nowUs).silent hconnect
    exact ⟨hnone, (Extends.cons rfl .refl).trans hevents⟩
  | expired => exact (complete_within w _ _).silent h

lemma foldl_silent {inputs : List Input} (hinputs : ∀ input ∈ inputs, input.isConnect = false)
    (h : w.client.onConnect = false) :
    Extends (fun e => !e.isConnected) w.history (inputs.foldl (apply port) w).history := by
  induction inputs generalizing w with
  | nil => exact .refl
  | cons input inputs ih =>
    obtain ⟨hinput, hinputs⟩ := List.forall_mem_cons.mp hinputs
    obtain ⟨hnone, hevents⟩ := apply_silent port hinput h
    exact hevents.trans (ih hinputs hnone)

structure Dormant (w : World) : Prop where
  closed : w.channelOpen = false
  unready : w.client.channelReady = false
  unarmed : w.client.busy = true → w.client.requestDeadlineUs = 0

def Input.notify (input : Input) (onNotify : Bool) : Bool :=
  match input with
  | .setNotifyHandler onNotify => onNotify
  | _ => onNotify

lemma Dormant.expired (h : Dormant w) (nowUs : ℕ) : w.client.expired nowUs = false := by
  unfold Client.expired
  cases hbusy : w.client.busy with
  | false => rfl
  | true => rw [h.unarmed hbusy]; rfl

lemma Dormant.apply (h : Dormant w) {input : Input} (hinput : input.isConnect = false) :
    Gatt.apply port w input =
      w.modify fun c => { c with onNotify := input.notify c.onNotify } := by
  have hbegin (setup : Client → Client) (onComplete : Bool) (nowUs : ℕ) :
      (beginOperation port w setup onComplete nowUs).1 = w := by
    unfold beginOperation
    rw [h.unready]
    rfl
  have hclose : closeChannel w = w := if_neg (by simp [h.closed])
  cases input with
  | connect => cases hinput
  | disconnect =>
    have hready : w.modify (fun c => { c with channelReady := false }) = w := by
      rw [← h.unready]
      rfl
    unfold Gatt.apply disconnect
    rw [hclose, ite_self]
    exact hready
  | closed => exact hclose
  | data => exact if_neg (by simp [h.closed])
  | setNotifyHandler => rfl
  | discoverServices | discoverCharacteristics | read => exact hbegin _ _ _
  | discoverDescriptors =>
    unfold Gatt.apply discoverDescriptors
    dsimp only
    split
    · rfl
    · exact hbegin _ _ _
  | write =>
    unfold Gatt.apply write
    dsimp only
    split
    · rfl
    · exact hbegin _ _ _
  | tick nowUs =>
    unfold Gatt.apply tick
    dsimp only
    rw [h.expired nowUs]
    rfl

lemma Dormant.notify (h : Dormant w) (onNotify : Bool → Bool) :
    Dormant (w.modify fun c => { c with onNotify := onNotify c.onNotify }) :=
  ⟨h.closed, h.unready, h.unarmed⟩

lemma Dormant.attempted (h : Dormant w) (onConnect : Bool) (nowUs : ℕ) :
    Dormant (w.attempted onConnect nowUs) :=
  ⟨h.closed, h.unready, h.unarmed⟩

lemma connect_attempted (w : World) (stored : Bool) (storedUs : ℕ) (onConnect granted : Bool)
    (nowUs : ℕ) : connect port (w.attempted stored storedUs) onConnect granted nowUs =
      connect port w onConnect granted nowUs := rfl

lemma Dormant.unaffected (h : Dormant w) (onConnect : Bool) (nowUs : ℕ) :
    Unaffected port w (w.attempted onConnect nowUs) := by
  constructor
  · intro inputs
    induction inputs generalizing w with
    | nil => rfl
    | cons input inputs ih =>
      rw [List.foldl_cons, List.foldl_cons]
      cases hinput : input.isConnect with
      | true =>
        cases input with
        | connect onConnect' granted nowUs' =>
          dsimp only [Gatt.apply]
          rw [connect_attempted]
        | _ => cases hinput
      | false =>
        rw [h.apply hinput, (h.attempted onConnect nowUs).apply hinput]
        exact ih (h.notify input.notify)
  · intro inputs hinputs
    have hdormant := h.attempted onConnect nowUs
    generalize w.attempted onConnect nowUs = w' at hdormant
    induction inputs generalizing w' with
    | nil => exact .refl
    | cons input inputs ih =>
      obtain ⟨hinput, hinputs⟩ := List.forall_mem_cons.mp hinputs
      rw [List.foldl_cons, hdormant.apply hinput]
      exact ih hinputs _ (hdormant.notify input.notify)

lemma unaffected_of_no_callback (h : w.client.onConnect = false) (nowUs : ℕ) :
    Unaffected port w (w.attempted false nowUs) := by
  have halike : Alike (fun _ _ => True) w.history w.history w (w.attempted false nowUs) := by
    have hclient : w.attempted false nowUs =
        w.recast w.client.eventNowUs nowUs ([] ++ w.history) := by
      rw [← h]
      rfl
    rw [hclient]
    exact .recast w.client.eventNowUs nowUs [] rfl trivial
  constructor
  · intro inputs
    have hrun : Alike (fun _ _ => True) w.history w.history (inputs.foldl (apply port) w)
        (inputs.foldl (apply port) (w.attempted false nowUs)) := by
      generalize w.attempted false nowUs = w' at halike
      generalize hold : w.history = old at halike ⊢
      clear hold h
      induction inputs generalizing w w' with
      | nil => exact halike
      | cons input inputs ih =>
        exact ih _ (apply_respects port (fun _ => trivial) input _ _ halike)
    generalize inputs.foldl (apply port) (w.attempted false nowUs) = w' at hrun
    obtain ⟨t, s, events, hevents, -⟩ := hrun
    exact hevents.symm
  · intro inputs hinputs
    exact foldl_silent hinputs rfl

lemma connected_not_extends {success : Bool} {h : List Event} :
    ¬ Extends (fun e => !e.isConnected) h (.connected success :: h) := by
  intro hx
  obtain ⟨newer, heq, hnewer⟩ := hx.exists_append
  cases newer with
  | nil =>
    have hlen := congrArg List.length heq
    simp at hlen
  | cons e newer =>
    obtain ⟨rfl, -⟩ := List.cons.inj heq
    cases hnewer _ (List.mem_cons_self ..)

lemma not_unaffected_of_report {onConnect success : Bool} {nowUs : ℕ} {input : Input}
    (hinput : input.isConnect = false)
    (hpending : w.client.onConnect = true →
      (apply port w input).history = .connected success :: w.history)
    (hstored : onConnect = true →
      (apply port (w.attempted onConnect nowUs) input).history = .connected success :: w.history)
    (hcallback : onConnect = true ∨ w.client.onConnect = true) :
    ¬ Unaffected port w (w.attempted onConnect nowUs) := by
  intro h
  by_cases honConnect : onConnect = true
  · have hcalled := h.uncalled [input] (by simpa using hinput)
    rw [List.foldl_cons, List.foldl_nil, hstored honConnect] at hcalled
    exact connected_not_extends hcalled
  · have hnone : (w.attempted onConnect nowUs).client.onConnect = false :=
      Bool.eq_false_iff.mpr honConnect
    have hcalled := hpending (hcallback.resolve_left honConnect)
    have hsame : (apply port (w.attempted onConnect nowUs) input).history =
        (apply port w input).history := h.same [input]
    have hsilent := (apply_silent port hinput hnone).2
    rw [hsame, hcalled] at hsilent
    exact connected_not_extends hsilent

lemma closed_reports (hopen : w.channelOpen = true) (hconnect : w.client.onConnect = true) :
    (apply port w .closed).history = .connected false :: w.history := by
  have hclosed : apply port w .closed = onClosed { w with channelOpen := false } := if_pos hopen
  have hreport : onClosed { w with channelOpen := false } = reportConnect
      ({ w with channelOpen := false }.modify fun c => { c with channelReady := false }) false :=
    if_pos hconnect
  rw [hclosed, hreport]
  rfl

lemma tick_reports (hbusy : w.client.busy = true) (harmed : w.client.requestDeadlineUs ≠ 0)
    (hconnect : w.client.onConnect = true) :
    (apply port w (.tick w.client.requestDeadlineUs)).history = .connected true :: w.history := by
  have hexpired : w.client.expired w.client.requestDeadlineUs = true := by
    simp [Client.expired, hbusy, harmed]
  have htick : apply port w (.tick w.client.requestDeadlineUs) = handleMtuResponse w 0 [] := by
    dsimp only [apply, tick]
    rw [hexpired, if_neg (by decide), if_pos hconnect]
  have hreport : handleMtuResponse w 0 [] = reportConnect
      (w.modify fun c => { c.settle with mtu := negotiatedMtu c 0 [] }) true := if_pos hconnect
  rw [htick, hreport]
  rfl

/-- A failed call goes unnoticed exactly if there has been no callback and it has given none, or if
there is neither a channel nor a transaction that is being timed. -/
theorem connect_unaffected_iff (port : ℕ → Bool) (inputs : List Input) (onConnect granted : Bool)
    (nowUs : ℕ) (herror : (connect port (run port inputs) onConnect granted nowUs).2 ≠ .ok) :
    Unaffected port (run port inputs) (connect port (run port inputs) onConnect granted nowUs).1 ↔
      onConnect = false ∧ (run port inputs).client.onConnect = false ∨
      (run port inputs).channelOpen = false ∧ ((run port inputs).client.busy = true →
        (run port inputs).client.requestDeadlineUs = 0) := by
  have hunready := run_unready port inputs
  rw [connect_error herror]
  generalize run port inputs = w at hunready
  constructor
  · intro h
    by_contra hno
    obtain ⟨hcallback, hlive⟩ := not_or.mp hno
    have hcallback : onConnect = true ∨ w.client.onConnect = true := by
      cases onConnect <;> cases hw : w.client.onConnect <;> simp_all
    cases hopen : w.channelOpen with
    | true =>
      exact not_unaffected_of_report rfl (closed_reports hopen)
        (closed_reports (w := w.attempted onConnect nowUs) hopen) hcallback h
    | false =>
      obtain ⟨hbusy, harmed⟩ := Classical.not_imp.mp fun hunarmed => hlive ⟨hopen, hunarmed⟩
      exact not_unaffected_of_report rfl (tick_reports hbusy harmed)
        (tick_reports (w := w.attempted onConnect nowUs) hbusy harmed) hcallback h
  · rintro (⟨rfl, hnone⟩ | ⟨hclosed, hunarmed⟩)
    · exact unaffected_of_no_callback hnone nowUs
    · exact Dormant.unaffected ⟨hclosed, hunready hclosed, hunarmed⟩ onConnect nowUs

theorem connect_unaffected_twice :
    let w := run (fun _ => true) [.connect false true 0]
    Unaffected (fun _ => true) w (connect (fun _ => true) w false true 1).1 :=
  (connect_unaffected_iff (fun _ => true) [.connect false true 0] false true 1 (by decide)).mpr
    (.inl ⟨rfl, rfl⟩)

def readInFlight : List Input :=
  [.connect true true 0, .data [opcodeExchangeMtuResponse, 23, 0] 1, .read 3 true 2]

theorem readInFlight_swallowed :
    (connect (fun _ => true) (run (fun _ => true) readInFlight) true true 3).2 = .invalidArgument ∧
    (apply (fun _ => true)
      (connect (fun _ => true) (run (fun _ => true) readInFlight) true true 3).1
      (.data [opcodeReadResponse, 42] 4)).history.head? = some (.connected true) ∧
    (apply (fun _ => true) (run (fun _ => true) readInFlight)
      (.data [opcodeReadResponse, 42] 4)).history.head? =
        some (.completed 0 ⟨.ok, .read, 0, [], [42]⟩) ∧
    ¬ Unaffected (fun _ => true) (run (fun _ => true) readInFlight)
      (connect (fun _ => true) (run (fun _ => true) readInFlight) true true 3).1 := by
  refine ⟨by decide, by decide, by decide, fun h => ?_⟩
  have hsame := h.same [.data [opcodeReadResponse, 42] 4]
  revert hsame
  decide

end Bluzing.Gatt
