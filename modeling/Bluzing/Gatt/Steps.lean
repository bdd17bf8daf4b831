import Bluzing.Gatt.Client

/-! What the client's functions can do: the request that an operation issues, what becomes of it,
and how a response is taken. -/
namespace Bluzing.Gatt
open Writer (Writes writes_bytes)

namespace World
variable (w : World) (e : Event) (f : Client → Client)

@[simp] lemma emit_history : (w.emit e).history = e :: w.history := rfl
@[simp] lemma modify_client : (w.modify f).client = f w.client := rfl

end World

lemma complete_busy (w : World) (result : Result) (code : UInt8) :
    (complete w result code).client.busy = false := by
  unfold complete
  split <;> rfl

def requestPdu (c : Client) : Bytes :=
  let range := writeLe16 c.pendingHandle ++ writeLe16 c.discoverRangeEnd
  match c.op with
  | .mtu => [opcodeExchangeMtuRequest] ++ writeLe16 requestMtu
  | .discoverServices => [opcodeReadByGroupTypeRequest] ++ (range ++ writeLe16 uuidPrimaryService)
  | .discoverCharacteristics => [opcodeReadByTypeRequest] ++ (range ++ writeLe16 uuidCharacteristic)
  | .discoverDescriptors => [opcodeFindInformationRequest] ++ range
  | .read =>
      if c.value.bytes.length = 0 then [opcodeReadRequest] ++ writeLe16 c.pendingHandle
      else [opcodeReadBlobRequest] ++
        (writeLe16 c.pendingHandle ++ writeLe16 c.value.bytes.length.toUInt16)
  | .write => [opcodeWriteRequest] ++ (writeLe16 c.pendingHandle ++ c.value.bytes)

lemma writes_init {f : Writer → Except Status Writer} {src : Bytes} {cap : ℕ}
    (hf : Writes f src) (h : src.length ≤ cap) : ∃ wr, f (.init cap) = .ok wr ∧ wr.data = src := by
  obtain ⟨wr, hok, -, hdata⟩ := hf (.init cap) (by simpa [Writer.init] using h)
  exact ⟨wr, hok, by simpa [Writer.init] using hdata⟩

lemma encodeCurrentRequest_ok (c : Client) :
    ∃ wr, encodeCurrentRequest c = .ok wr ∧ wr.data = requestPdu c := by
  have hone (opcode : UInt8) (v : UInt16) :=
    (writes_bytes [opcode]).bind (writes_bytes (writeLe16 v))
  have htwo (opcode : UInt8) (u v : UInt16) :=
    (writes_bytes [opcode]).bind ((writes_bytes (writeLe16 u)).bind (writes_bytes (writeLe16 v)))
  have htyped (opcode : UInt8) (u v t : UInt16) :
      Writes (encodeTypedRequest opcode · u v t)
        ([opcode] ++ ((writeLe16 u ++ writeLe16 v) ++ writeLe16 t)) := by
    exact (writes_bytes [opcode]).bind ((writes_bytes (writeLe16 u)).bind
      ((writes_bytes (writeLe16 v)).bind (writes_bytes (writeLe16 t))))
  have hthree : 3 ≤ 3 + maxValueLen := by decide
  have hfive : 5 ≤ 3 + maxValueLen := by decide
  have hseven : 7 ≤ 3 + maxValueLen := by decide
  unfold encodeCurrentRequest requestPdu
  cases c.op with
  | mtu => exact writes_init (hone _ _) hthree
  | discoverServices | discoverCharacteristics => exact writes_init (htyped _ _ _ _) hseven
  | discoverDescriptors => exact writes_init (htwo _ _ _) hfive
  | read =>
    dsimp only
    split
    · exact writes_init (hone _ _) hthree
    · exact writes_init (htwo _ _ _) hfive
  | write =>
    have hvalue := c.value.fits
    have hwrites := (writes_bytes [opcodeWriteRequest]).bind
        ((writes_bytes (writeLe16 c.pendingHandle)).bind (writes_bytes c.value.bytes))
    refine writes_init hwrites ?_
    simp only [List.length_append, writeLe16, List.length_cons, List.length_nil]
    omega

lemma requestPdu_length (c : Client) :
    (requestPdu c).length ≤ 7 ∨
      c.op = .write ∧ (requestPdu c).length = 3 + c.value.bytes.length := by
  unfold requestPdu
  cases c.op with
  | read =>
    dsimp only
    split
    · exact .inl (show 3 ≤ 7 by decide)
    · exact .inl (show 5 ≤ 7 by decide)
  | write =>
    refine .inr ⟨rfl, ?_⟩
    simp only [List.length_append, writeLe16, List.length_cons, List.length_nil]
    omega
  | mtu => exact .inl (show 3 ≤ 7 by decide)
  | discoverServices | discoverCharacteristics => exact .inl (show 7 ≤ 7 by decide)
  | discoverDescriptors => exact .inl (show 5 ≤ 7 by decide)

variable {port : ℕ → Bool} {w : World}

lemma sendRequest_frame (port : ℕ → Bool) (w : World) (pdu : Bytes) :
    (sendRequest port w pdu).1.client = w.client ∧
      (sendRequest port w pdu).1.channelOpen = w.channelOpen ∧
      (sendRequest port w pdu).1.operations = w.operations ∧
      (sendRequest port w pdu).1.history =
        .requested pdu (sendRequest port w pdu).2 :: w.history := by
  unfold sendRequest
  split <;> exact ⟨rfl, rfl, rfl, rfl⟩

def sentRequest (port : ℕ → Bool) (w : World) (nowUs : ℕ) : World :=
  (sendRequest port w (requestPdu w.client)).1.modify fun c =>
    { c with requestDeadlineUs := requestDeadline nowUs }

lemma issueCurrentRequest_eq (port : ℕ → Bool) (w : World) (nowUs : ℕ) :
    issueCurrentRequest port w nowUs =
      if (sendRequest port w (requestPdu w.client)).2 then sentRequest port w nowUs
      else failRequest (sendRequest port w (requestPdu w.client)).1 .errorClosed := by
  obtain ⟨wr, hok, hdata⟩ := encodeCurrentRequest_ok w.client
  unfold issueCurrentRequest
  rw [hok]
  dsimp only
  rw [hdata]
  rfl

def World.taken (w : World) (nowUs : ℕ) : World :=
  { w with
    client := { w.client with requestDeadlineUs := requestDeadline nowUs }
    requests := w.requests + 1
    history := .requested (requestPdu w.client) true :: w.history }

def World.refused (w : World) (requests : ℕ) : World :=
  { w with requests, history := .requested (requestPdu w.client) false :: w.history }

lemma issueCurrentRequest_cases {P : World → Prop} (nowUs : ℕ)
    (htaken : (requestPdu w.client).length ≤ maxSendLen → w.channelOpen = true →
      port w.requests = true → P (w.taken nowUs))
    (hmtu : w.client.op = .mtu → ∀ requests, P (handleMtuResponse (w.refused requests) 0 []))
    (hfailed : w.client.op ≠ .mtu → ∀ requests, P (complete (w.refused requests) .errorClosed 0)) :
    P (issueCurrentRequest port w nowUs) := by
  have hrefused (requests : ℕ) : P (failRequest (w.refused requests) .errorClosed) := by
    unfold failRequest
    split
    next hop => exact hmtu hop requests
    next hop => exact hfailed hop requests
  rw [issueCurrentRequest_eq]
  unfold sentRequest sendRequest
  split
  · exact hrefused w.requests
  next hno =>
    simp only [not_or, Nat.not_lt, Bool.not_eq_false] at hno
    cases hport : port w.requests with
    | true => exact htaken hno.1 hno.2 hport
    | false => exact hrefused (w.requests + 1)

lemma issueCurrentRequest_taken (hport : port w.requests = true) (hopen : w.channelOpen = true)
    (hlen : (requestPdu w.client).length ≤ maxSendLen) (nowUs : ℕ) :
    issueCurrentRequest port w nowUs = w.taken nowUs := by
  have hsent : sendRequest port w (requestPdu w.client) =
      ({ w with requests := w.requests + 1 }.emit (.requested (requestPdu w.client) true),
        true) := by
    unfold sendRequest
    rw [hport, if_neg]
    simp only [not_or, Nat.not_lt, hlen, hopen, Bool.true_eq_false, not_false_eq_true, and_self]
  rw [issueCurrentRequest_eq, sentRequest, hsent]
  rfl

def discoveryOf : Op → Option Discovery
  | .discoverServices => some servicesDiscovery
  | .discoverCharacteristics => some characteristicsDiscovery
  | .discoverDescriptors => some descriptorsDiscovery
  | .mtu | .read | .write => none

inductive Continues (c : Client) (opcode : UInt8) (params : Bytes) : Client → Prop
  | discovery {d : Discovery} {entries : List Entry} {entry : Entry}
      (hd : discoveryOf c.op = some d) (hopcode : opcode = d.opcode)
      (hentries : d.entries params = some entries)
      (hroom : (collect d.full c.found entries).2 = false) (hlast : entries.getLast? = some entry)
      (hmore : d.done entry.last c.discoverRangeEnd = false) :
      Continues c opcode params
        { c with found := (collect d.full c.found entries).1, pendingHandle := entry.last + 1 }
  | read {value : Value} (hop : c.op = .read) (hfull : params.length = fullChunk c.mtu)
      (hvalue : value.bytes = c.value.bytes ++ params) : Continues c opcode params { c with value }

variable {d : Discovery}

lemma handleDiscoverResponse_cases (hd : discoveryOf w.client.op = some d)
    (opcode : UInt8) (params : Bytes) (nowUs : ℕ) :
    (∃ found result, handleDiscoverResponse port d w opcode params nowUs =
        complete (w.modify fun c => { c with found }) result 0) ∨
      ∃ c, Continues w.client opcode params c ∧
        handleDiscoverResponse port d w opcode params nowUs =
          issueCurrentRequest port { w with client := c } nowUs := by
  unfold handleDiscoverResponse
  split
  · exact .inl ⟨w.client.found, .errorProtocol, rfl⟩
  next hopcode =>
    split
    · exact .inl ⟨w.client.found, .errorProtocol, rfl⟩
    next entries hentries =>
      dsimp only
      split
      · exact .inl ⟨_, .errorTooLarge, rfl⟩
      next hroom =>
        split
        · exact .inl ⟨_, .errorProtocol, rfl⟩
        next entry hlast =>
          split
          · exact .inl ⟨_, .ok, rfl⟩
          next hmore =>
            exact .inr ⟨_, .discovery hd (not_not.mp hopcode) hentries (Bool.eq_false_iff.mpr hroom)
              hlast (Bool.eq_false_iff.mpr hmore), rfl⟩

lemma handleDiscoverResponse_entries {params : Bytes} {entries : List Entry}
    {entry : Entry} (hentries : d.entries params = some entries)
    (hroom : (collect d.full w.client.found entries).2 = false)
    (hlast : entries.getLast? = some entry) (nowUs : ℕ) :
    handleDiscoverResponse port d w d.opcode params nowUs =
      let found := (collect d.full w.client.found entries).1
      if d.done entry.last w.client.discoverRangeEnd then
        complete (w.modify fun c => { c with found }) .ok 0
      else
        issueCurrentRequest port
          (w.modify fun c => { c with found, pendingHandle := entry.last + 1 }) nowUs := by
  rw [handleDiscoverResponse, if_neg (not_not.mpr rfl), hentries]
  dsimp only
  rw [if_neg (Bool.eq_false_iff.mp hroom), hlast]
  rfl

lemma handleReadResponse_cases (hop : w.client.op = .read) (opcode : UInt8)
    (params : Bytes) (nowUs : ℕ) :
    (∃ value result, handleReadResponse port w opcode params nowUs =
        complete (w.modify fun c => { c with value }) result 0) ∨
      ∃ c, Continues w.client opcode params c ∧
        handleReadResponse port w opcode params nowUs =
          issueCurrentRequest port { w with client := c } nowUs := by
  unfold handleReadResponse
  dsimp only
  split
  · exact .inl ⟨w.client.value, .errorProtocol, rfl⟩
  · split
    · exact .inl ⟨w.client.value, .errorTooLarge, rfl⟩
    · split
      next hfull =>
        split
        · exact .inl ⟨_, .errorTooLarge, rfl⟩
        · exact .inr ⟨_, .read hop hfull rfl, rfl⟩
      · exact .inl ⟨_, .ok, rfl⟩

lemma handleErrorResponse_cases (w : World) (params : Bytes) :
    ∃ result code, handleErrorResponse w params = complete w result code := by
  unfold handleErrorResponse
  split
  · exact ⟨_, _, rfl⟩
  · split
    · exact ⟨_, _, rfl⟩
    · split <;> exact ⟨_, _, rfl⟩

lemma dispatchResponse_cases (hop : w.client.op ≠ .mtu) (opcode : UInt8) (params : Bytes)
    (nowUs : ℕ) :
    (∃ found value result code, dispatchResponse port w opcode params nowUs =
        complete (w.modify fun c => { c with found, value }) result code) ∨
      ∃ c, Continues w.client opcode params c ∧
        dispatchResponse port w opcode params nowUs =
          issueCurrentRequest port { w with client := c } nowUs := by
  unfold dispatchResponse
  split
  · obtain ⟨result, code, h⟩ := handleErrorResponse_cases w params
    exact .inl ⟨w.client.found, w.client.value, result, code, h⟩
  · have hdiscover {d : Discovery} (hd : discoveryOf w.client.op = some d) :
        (∃ found value result code, handleDiscoverResponse port d w opcode params nowUs =
          complete (w.modify fun c => { c with found, value }) result code) ∨
        ∃ c, Continues w.client opcode params c ∧
          handleDiscoverResponse port d w opcode params nowUs =
            issueCurrentRequest port { w with client := c } nowUs := by
      obtain ⟨found, result, h⟩ | h := handleDiscoverResponse_cases hd opcode params nowUs
      · exact .inl ⟨found, w.client.value, result, 0, h⟩
      · exact .inr h
    split
    next h => exact hdiscover (by rw [h]; rfl)
    next h => exact hdiscover (by rw [h]; rfl)
    next h => exact hdiscover (by rw [h]; rfl)
    next h =>
      obtain ⟨value, result, h⟩ | h := handleReadResponse_cases h opcode params nowUs
      · exact .inl ⟨w.client.found, value, result, 0, h⟩
      · exact .inr h
    · unfold handleWriteResponse
      split <;> exact .inl ⟨w.client.found, w.client.value, _, _, rfl⟩
    next h => exact absurd h hop

lemma dispatchResponse_outcomes (port : ℕ → Bool) (w : World) (opcode : UInt8)
    (params : Bytes) (nowUs : ℕ) :
    (∃ found value result code, dispatchResponse port w opcode params nowUs =
        complete (w.modify fun c => { c with found, value }) result code) ∨
      (∃ c, Continues w.client opcode params c ∧
        dispatchResponse port w opcode params nowUs =
          issueCurrentRequest port { w with client := c } nowUs) ∨
      w.client.op = .mtu ∧ dispatchResponse port w opcode params nowUs = w := by
  by_cases hmtu : w.client.op = .mtu
  · unfold dispatchResponse
    split
    · obtain ⟨result, code, h⟩ := handleErrorResponse_cases w params
      exact .inl ⟨w.client.found, w.client.value, result, code, h⟩
    · rw [hmtu]
      exact .inr (.inr ⟨rfl, rfl⟩)
  · obtain hended | hnext := @dispatchResponse_cases port w hmtu opcode params nowUs
    · exact .inl hended
    · exact .inr (.inl hnext)

def notificationEvents (onNotify isIndication : Bool) (params : Bytes) : List Event :=
  (if isIndication then [.confirmed [opcodeHandleValueConfirmation]] else []) ++
    match parseHandleValue params with
    | .ok hv => if onNotify then [.notified hv.handle hv.value isIndication] else []
    | .error _ => []

lemma mem_notificationEvents {onNotify isIndication : Bool} {params : Bytes} {e : Event}
    (h : e ∈ notificationEvents onNotify isIndication params) :
    e = .confirmed [opcodeHandleValueConfirmation] ∨
      ∃ handle value, e = .notified handle value isIndication := by
  unfold notificationEvents at h
  rw [List.mem_append] at h
  obtain hconfirmed | hnotified := h
  · split at hconfirmed
    · exact .inl (List.mem_singleton.mp hconfirmed)
    · cases hconfirmed
  · split at hnotified
    next hv _ =>
      split at hnotified
      · exact .inr ⟨hv.handle, hv.value, List.mem_singleton.mp hnotified⟩
      · cases hnotified
    · cases hnotified

lemma handleNotification_eq (w : World) (isIndication : Bool) (params : Bytes) :
    handleNotification w isIndication params =
      { w with
        history := notificationEvents w.client.onNotify isIndication params ++ w.history } := by
  unfold handleNotification notificationEvents
  cases isIndication <;> cases parseHandleValue params <;> cases w.client.onNotify <;> rfl

lemma fits_of_not_long {value : Bytes} (h : ¬ maxValueLen < value.length) :
    value.length ≤ maxValueLen := Nat.le_of_not_lt h

def Input.setup : Input → Option ((Client → Client) × Bool × ℕ)
  | .discoverServices onComplete nowUs =>
      some (.setDiscovery .discoverServices 0x0001 0xFFFF, onComplete, nowUs)
  | .discoverCharacteristics startHandle endHandle onComplete nowUs =>
      some (.setDiscovery .discoverCharacteristics startHandle endHandle, onComplete, nowUs)
  | .discoverDescriptors startHandle endHandle onComplete nowUs =>
      if startHandle = 0 ∨ endHandle < startHandle then none
      else some (.setDiscovery .discoverDescriptors startHandle endHandle, onComplete, nowUs)
  | .read handle onComplete nowUs => some (.setValue .read handle .empty, onComplete, nowUs)
  | .write handle value onComplete nowUs =>
      if h : maxValueLen < value.length then none
      else some (.setValue .write handle ⟨value, fits_of_not_long h⟩, onComplete, nowUs)
  | _ => none

def arrived (w : World) (nowUs : ℕ) : World := w.modify fun c => { c with eventNowUs := nowUs }

def IsNotification (opcode : UInt8) : Prop :=
  opcode = opcodeHandleValueNotification ∨ opcode = opcodeHandleValueIndication

instance (opcode : UInt8) : Decidable (IsNotification opcode) :=
  inferInstanceAs (Decidable (_ ∨ _))

def opening (w : World) (onConnect : Bool) (nowUs : ℕ) : World :=
  { w with
    channelOpen := true
    client := { w.client with
      onConnect, connectStartedUs := nowUs, channelReady := true, busy := true, op := .mtu } }

inductive Step (port : ℕ → Bool) (w : World) : Input → World → Prop
  | ignored {input : Input} : Step port w input w
  | notifyHandler (onNotify : Bool) :
      Step port w (.setNotifyHandler onNotify) (setNotifyHandler w onNotify)
  | unopened (onConnect granted : Bool) (nowUs : ℕ) :
      Step port w (.connect onConnect granted nowUs)
        (w.modify fun c => { c with onConnect, connectStartedUs := nowUs })
  | opened (onConnect granted : Bool) (nowUs : ℕ) (hclosed : w.channelOpen = false) :
      Step port w (.connect onConnect granted nowUs)
        (issueCurrentRequest port (opening w onConnect nowUs) nowUs)
  | unready : Step port w .disconnect (w.modify fun c => { c with channelReady := false })
  | closed {input : Input} (hinput : input = .closed ∨ input = .disconnect)
      (hopen : w.channelOpen = true) :
      Step port w input (onClosed { w with channelOpen := false })
  | notification {opcode : UInt8} {params : Bytes} {nowUs : ℕ} (hopen : w.channelOpen = true)
      (hop : IsNotification opcode) :
      Step port w (.data (opcode :: params) nowUs) (handleNotification (arrived w nowUs)
        (decide (opcode = opcodeHandleValueIndication)) params)
  | exchanged {opcode : UInt8} {params : Bytes} {nowUs : ℕ} (hopen : w.channelOpen = true)
      (hop : ¬ IsNotification opcode) (hconnect : w.client.onConnect = true) :
      Step port w (.data (opcode :: params) nowUs)
        (handleMtuResponse (arrived w nowUs) opcode params)
  | unsolicited {opcode : UInt8} {params : Bytes} {nowUs : ℕ} (hopen : w.channelOpen = true)
      (hop : ¬ IsNotification opcode) (hconnect : w.client.onConnect = false)
      (hidle : w.client.busy = false) :
      Step port w (.data (opcode :: params) nowUs) (arrived w nowUs)
  | response {opcode : UInt8} {params : Bytes} {nowUs : ℕ} (hopen : w.channelOpen = true)
      (hop : ¬ IsNotification opcode) (hconnect : w.client.onConnect = false)
      (hbusy : w.client.busy = true) :
      Step port w (.data (opcode :: params) nowUs)
        (dispatchResponse port (arrived w nowUs) opcode params nowUs)
  | begun {input : Input} {setup : Client → Client} {onComplete : Bool} {nowUs : ℕ}
      (hsetup : input.setup = some (setup, onComplete, nowUs))
      (hready : w.client.channelReady = true) (hidle : w.client.busy = false) :
      Step port w input (issueCurrentRequest port (startOperation w setup onComplete) nowUs)
  | mtuExpired {nowUs : ℕ} (hexpired : w.client.expired nowUs = true)
      (hconnect : w.client.onConnect = true) :
      Step port w (.tick nowUs) (handleMtuResponse w 0 [])
  | expired {nowUs : ℕ} (hexpired : w.client.expired nowUs = true)
      (hconnect : w.client.onConnect = false) :
      Step port w (.tick nowUs) (complete w .errorTimeout 0)

lemma onClosed_unready (w : World) :
    (onClosed w).modify (fun c => { c with channelReady := false }) = onClosed w := by
  unfold onClosed complete
  dsimp only
  split
  · rfl
  · split
    · split <;> rfl
    · rfl

lemma onClosed_cases {P : World → Prop}
    (hconnect : P (reportConnect (w.modify fun c => { c with channelReady := false }) false))
    (hbusy : w.client.onConnect = false → w.client.busy = true →
      P (complete (w.modify fun c => { c with channelReady := false }) .errorClosed 0))
    (hidle : P (w.modify fun c => { c with channelReady := false })) : P (onClosed w) := by
  unfold onClosed
  dsimp only
  split
  · exact hconnect
  next hnone =>
    split
    next h => exact hbusy (Bool.eq_false_iff.mpr hnone) h
    · exact hidle

lemma disconnect_step (w : World) : Step port w .disconnect (disconnect w) := by
  unfold disconnect closeChannel
  split
  · split
    next hopen =>
      rw [onClosed_unready]
      exact .closed (.inr rfl) hopen
    · exact .unready
  · exact .unready

lemma connect_step (w : World) (onConnect granted : Bool) (nowUs : ℕ) :
    Step port w (.connect onConnect granted nowUs) (connect port w onConnect granted nowUs).1 := by
  unfold connect openFixed
  split
  · exact .unopened onConnect granted nowUs
  next hopen =>
    split
    · exact .unopened onConnect granted nowUs
    · exact .opened onConnect granted nowUs (Bool.eq_false_iff.mpr hopen)

lemma data_step (hopen : w.channelOpen = true) (pdu : Bytes) (nowUs : ℕ) :
    Step port w (.data pdu nowUs) (handleResponse port w pdu nowUs) := by
  unfold handleResponse
  split
  · exact .ignored
  next opcode params =>
    dsimp only
    split
    next hop => exact .notification hopen hop
    next hop =>
      split
      next hconnect => exact .exchanged hopen hop hconnect
      next hconnect =>
        have hnone := Bool.eq_false_iff.mpr hconnect
        cases hbusy : w.client.busy with
        | false =>
          rw [if_pos (by simp [hbusy])]
          exact .unsolicited hopen hop hnone hbusy
        | true =>
          rw [if_neg (by simp [hbusy])]
          exact .response hopen hop hnone hbusy

variable {input : Input} {setup : Client → Client} {onComplete : Bool}

lemma operation_step {nowUs : ℕ} (hsetup : input.setup = some (setup, onComplete, nowUs)) :
    Step port w input (beginOperation port w setup onComplete nowUs).1 := by
  unfold beginOperation
  split
  · exact .ignored
  next hok =>
    simp only [Bool.or_eq_true, Bool.not_eq_true', not_or, Bool.not_eq_false,
      Bool.not_eq_true] at hok
    exact .begun hsetup hok.1 hok.2

lemma apply_step (port : ℕ → Bool) (w : World) (input : Input) :
    Step port w input (apply port w input) := by
  cases input with
  | connect onConnect granted nowUs => exact connect_step w onConnect granted nowUs
  | disconnect => exact disconnect_step w
  | closed =>
    dsimp only [apply, closeChannel]
    split
    next hopen => exact .closed (.inl rfl) hopen
    · exact .ignored
  | data pdu nowUs =>
    dsimp only [apply]
    split
    next hopen => exact data_step hopen pdu nowUs
    · exact .ignored
  | setNotifyHandler onNotify => exact .notifyHandler onNotify
  | discoverServices | discoverCharacteristics | read => exact operation_step rfl
  | discoverDescriptors startHandle endHandle onComplete nowUs =>
    dsimp only [apply, discoverDescriptors]
    split
    · exact .ignored
    next hrange => exact operation_step (if_neg hrange)
  | write handle value onComplete nowUs =>
    dsimp only [apply, write]
    split
    · exact .ignored
    next hlen => exact operation_step (dif_neg hlen)
  | tick nowUs =>
    dsimp only [apply, tick]
    split
    · exact .ignored
    next hno =>
      have hexpired : w.client.expired nowUs = true := by simpa using hno
      split
      next hconnect => exact .mtuExpired hexpired hconnect
      next hconnect => exact .expired hexpired (Bool.eq_false_iff.mpr hconnect)

lemma apply_response {opcode : UInt8} (hopen : w.channelOpen = true)
    (hop : ¬ IsNotification opcode) (params : Bytes) (nowUs : ℕ) :
    apply port w (.data (opcode :: params) nowUs) =
      if w.client.onConnect = true then handleMtuResponse (arrived w nowUs) opcode params
      else if w.client.busy = true then dispatchResponse port (arrived w nowUs) opcode params nowUs
      else arrived w nowUs := by
  unfold IsNotification at hop
  have hdata : apply port w (.data (opcode :: params) nowUs) =
      handleResponse port w (opcode :: params) nowUs := if_pos hopen
  rw [hdata, handleResponse, if_neg hop]
  cases hbusy : w.client.busy <;> simp [arrived, hbusy]

lemma discoveryOf_opcode {op : Op} {d : Discovery} (hd : discoveryOf op = some d) :
    ¬ IsNotification d.opcode ∧ d.opcode ≠ opcodeErrorResponse := by
  unfold discoveryOf at hd
  split at hd <;> cases hd <;> decide

lemma apply_discovery (hopen : w.channelOpen = true)
    (hconnect : w.client.onConnect = false) (hbusy : w.client.busy = true)
    (hd : discoveryOf w.client.op = some d) (params : Bytes) (nowUs : ℕ) :
    apply port w (.data (d.opcode :: params) nowUs) =
      handleDiscoverResponse port d (arrived w nowUs) d.opcode params nowUs := by
  obtain ⟨hop, herror⟩ := discoveryOf_opcode hd
  have hsame : (arrived w nowUs).client.op = w.client.op := rfl
  rw [apply_response hopen hop, if_neg (Bool.eq_false_iff.mp hconnect), if_pos hbusy,
    dispatchResponse, if_neg herror, hsame]
  unfold discoveryOf at hd
  split at hd
  next hservices =>
    cases hd
    rw [hservices]
    rfl
  next hcharacteristics =>
    cases hd
    rw [hcharacteristics]
    rfl
  next hdescriptors =>
    cases hd
    rw [hdescriptors]
    rfl
  · cases hd
  · cases hd
  · cases hd

inductive Begins (onComplete : Bool) (nowUs : ℕ) : Input → (Client → Client) → Prop
  | services : Begins onComplete nowUs (.discoverServices onComplete nowUs)
      (.setDiscovery .discoverServices 0x0001 0xFFFF)
  | characteristics (startHandle endHandle : UInt16) : Begins onComplete nowUs
      (.discoverCharacteristics startHandle endHandle onComplete nowUs)
      (.setDiscovery .discoverCharacteristics startHandle endHandle)
  | descriptors (startHandle endHandle : UInt16) (hstart : startHandle ≠ 0)
      (hrange : startHandle ≤ endHandle) : Begins onComplete nowUs
      (.discoverDescriptors startHandle endHandle onComplete nowUs)
      (.setDiscovery .discoverDescriptors startHandle endHandle)
  | read (handle : UInt16) :
      Begins onComplete nowUs (.read handle onComplete nowUs) (.setValue .read handle .empty)
  | write (handle : UInt16) (value : Value) : Begins onComplete nowUs
      (.write handle value.bytes onComplete nowUs) (.setValue .write handle value)

lemma Input.setup_begins {nowUs : ℕ}
    (h : input.setup = some (setup, onComplete, nowUs)) : Begins onComplete nowUs input setup := by
  unfold Input.setup at h
  split at h
  · cases h; exact .services
  · cases h; exact .characteristics _ _
  · split at h
    · cases h
    next hno =>
      cases h
      obtain ⟨hstart, hrange⟩ := not_or.mp hno
      exact .descriptors _ _ hstart (UInt16.not_lt.mp hrange)
  · cases h; exact .read _
  · split at h
    · cases h
    next hlen => cases h; exact .write _ ⟨_, Nat.le_of_not_lt hlen⟩
  · cases h

lemma Input.setup_spec {nowUs : ℕ}
    (h : input.setup = some (setup, onComplete, nowUs)) (c : Client) :
    ∃ op pendingHandle discoverRangeEnd found value, op ≠ .mtu ∧
      setup c = { c with op, pendingHandle, discoverRangeEnd, found, value } := by
  cases Input.setup_begins h with
  | services | characteristics | descriptors => exact ⟨_, _, _, _, c.value, by decide, rfl⟩
  | read | write => exact ⟨_, _, c.discoverRangeEnd, c.found, _, by decide, rfl⟩

end Bluzing.Gatt
