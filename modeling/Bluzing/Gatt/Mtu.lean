import Bluzing.Gatt.Requests
import Bluzing.Lib.History
import Bluzing.Lib.Reentrant

/-! The MTU of the client: what the server can make of it, how many requests a read then takes, and
which PDUs are longer than it. -/
namespace Bluzing.Gatt
open List

def LowMtu (w : World) : Input → Prop
  | .data (opcode :: params) _ => w.channelOpen = true ∧ w.client.onConnect = true ∧
      opcode = opcodeExchangeMtuResponse ∧
      ∃ serverMtu, parseExchangeMtuResponse params = .ok serverMtu ∧ serverMtu < attDefaultMtu
  | _ => False

def MtuInRange (mtu : UInt16) : Prop := attDefaultMtu ≤ mtu ∧ mtu ≤ requestMtu

variable {port : ℕ → Bool} {w : World} {input : Input}

lemma complete_mtu (w : World) (result : Result) (code : UInt8) :
    (complete w result code).client.mtu = w.client.mtu := by
  unfold complete
  split <;> rfl

lemma handleMtuResponse_mtu (w : World) (opcode : UInt8) (params : Bytes) :
    (handleMtuResponse w opcode params).client.mtu = negotiatedMtu w.client opcode params := by
  unfold handleMtuResponse
  dsimp only
  split <;> rfl

lemma issueCurrentRequest_mtu (w : World) (nowUs : ℕ) :
    (issueCurrentRequest port w nowUs).client.mtu = w.client.mtu := by
  refine issueCurrentRequest_cases (P := fun v => v.client.mtu = w.client.mtu) nowUs
    (fun _ _ _ => rfl) (fun _ requests => ?_) fun _ requests => ?_
  · exact handleMtuResponse_mtu (w.refused requests) 0 []
  · exact complete_mtu (w.refused requests) .errorClosed 0

lemma apply_mtu (port : ℕ → Bool) (w : World) (input : Input) :
    (apply port w input).client.mtu = w.client.mtu ∨
      ∃ opcode params nowUs, input = .data (opcode :: params) nowUs ∧ w.channelOpen = true ∧
        w.client.onConnect = true ∧
        (apply port w input).client.mtu = negotiatedMtu w.client opcode params := by
  generalize hw : apply port w input = w'
  have hstep := apply_step port w input
  rw [hw] at hstep
  cases hstep with
  | ignored | notifyHandler | unopened | unready | unsolicited => exact .inl rfl
  | opened onConnect granted nowUs hclosed => exact .inl (issueCurrentRequest_mtu _ _)
  | closed =>
    exact .inl (onClosed_cases (P := fun v => v.client.mtu = w.client.mtu) rfl
      (fun _ _ => complete_mtu _ _ _) rfl)
  | notification =>
    rw [handleNotification_eq]
    exact .inl rfl
  | @exchanged opcode params nowUs hopen hop hconnect =>
    exact .inr ⟨opcode, params, nowUs, rfl, hopen, hconnect, handleMtuResponse_mtu _ _ _⟩
  | @response opcode params nowUs hopen hop hconnect hbusy =>
    obtain ⟨found, value, result, code, hdone⟩ | ⟨c, hcontinues, hnext⟩ | ⟨-, hsame⟩ :=
      dispatchResponse_outcomes port (arrived w nowUs) opcode params nowUs
    · rw [hdone]
      exact .inl (complete_mtu _ _ _)
    · rw [hnext]
      have hkept : c.mtu = w.client.mtu := by cases hcontinues <;> rfl
      exact .inl ((issueCurrentRequest_mtu _ _).trans hkept)
    · rw [hsame]
      exact .inl rfl
  | @begun _ setup onComplete nowUs hsetup hready hidle =>
    obtain ⟨op, pendingHandle, discoverRangeEnd, found, value, hop, hset⟩ :=
      Input.setup_spec hsetup w.client
    refine .inl ((issueCurrentRequest_mtu _ _).trans ?_)
    change (setup w.client).mtu = w.client.mtu
    rw [hset]
  | mtuExpired => exact .inl (handleMtuResponse_mtu _ _ _)
  | expired => exact .inl (complete_mtu _ _ _)

lemma negotiatedMtu_inRange {c : Client} (h : MtuInRange c.mtu) {opcode : UInt8}
    {params : Bytes} (hhigh : ∀ serverMtu, opcode = opcodeExchangeMtuResponse →
      parseExchangeMtuResponse params = .ok serverMtu → ¬ serverMtu < attDefaultMtu) :
    MtuInRange (negotiatedMtu c opcode params) := by
  unfold negotiatedMtu
  split
  next hop =>
    split
    next serverMtu hparse =>
      have hleast := UInt16.not_lt.mp (hhigh serverMtu hop hparse)
      split
      next hlt => exact ⟨hleast, UInt16.le_of_lt hlt⟩
      · exact ⟨by decide, UInt16.le_refl _⟩
    · exact h
  · exact h

lemma apply_mtuInRange (h : MtuInRange w.client.mtu) (hhigh : ¬ LowMtu w input) :
    MtuInRange (apply port w input).client.mtu := by
  obtain hsame | ⟨opcode, params, nowUs, rfl, hopen, hconnect, hmtu⟩ := apply_mtu port w input
  · rw [hsame]
    exact h
  · rw [hmtu]
    exact negotiatedMtu_inRange h fun serverMtu hop hparse hlow =>
      hhigh ⟨hopen, hconnect, hop, serverMtu, hparse, hlow⟩

lemma run_mtuInRange {inputs : List Input} (hhigh : ∀ done input rest,
      done ++ input :: rest = inputs → ¬ LowMtu (run port done) input) (done rest : List Input)
    (h : done ++ rest = inputs) : MtuInRange (run port done).client.mtu := by
  have hinit : MtuInRange World.init.client.mtu := ⟨by decide, by decide⟩
  exact foldl_invariant_along (I := fun w : World => MtuInRange w.client.mtu) hinit
    (fun _ _ _ => apply_mtuInRange) hhigh done rest h

lemma LowMtu.not_inRange (h : LowMtu w input) : ¬ MtuInRange (apply port w input).client.mtu := by
  unfold LowMtu at h
  split at h
  next opcode params nowUs =>
    obtain ⟨hopen, hconnect, rfl, serverMtu, hparse, hlow⟩ := h
    have hrequest := UInt16.lt_of_lt_of_le hlow (show attDefaultMtu ≤ requestMtu by decide)
    have hmtu : negotiatedMtu (arrived w nowUs).client opcodeExchangeMtuResponse params =
        serverMtu := by
      rw [negotiatedMtu, if_pos rfl, hparse]
      exact if_pos hrequest
    rw [apply_response hopen (by decide), if_pos hconnect, handleMtuResponse_mtu, hmtu]
    exact fun hrange => UInt16.not_le.mpr hlow hrange.1
  · exact h.elim

def readRequest : Bytes → Option Bytes
  | [] => none
  | opcode :: params =>
      if opcode = opcodeReadRequest ∨ opcode = opcodeReadBlobRequest then some (opcode :: params)
      else none

def reads (history : List Event) : List Bytes := requestsSince readRequest history

lemma readRequest_requestPdu (c : Client) :
    (readRequest (requestPdu c)).toList.length = if c.op = .read then 1 else 0 := by
  unfold requestPdu
  cases c.op with
  | read =>
    dsimp only
    split <;> rfl
  | _ => rfl

lemma one_le_fullChunk {mtu : UInt16} (h : MtuInRange mtu) : 1 ≤ fullChunk mtu := by
  have hleast := UInt16.le_iff_toNat_le.mp h.1
  have hdefault : attDefaultMtu.toNat = 23 := rfl
  have htwo : 1 ≤ mtu.toUInt32 := by
    change 1 ≤ mtu.toNat
    omega
  have hchunk : fullChunk mtu = mtu.toNat - 1 := UInt32.toNat_sub_of_le _ _ htwo
  omega

def ReadsBounded (o : Option Operation) (reads : List Bytes) : Prop :=
  reads.length ≤ 1 + maxValueLen ∧ ∀ operation, o = some operation → operation.op = .read →
    reads.length ≤ 1 + operation.value.bytes.length

lemma apply_readsBounded (h : ReadsBounded w.client.operation (reads w.history))
    (hmtu : MtuInRange w.client.mtu) :
    ReadsBounded (apply port w input).client.operation (reads (apply port w input).history) := by
  refine apply_requests (fun _ _ hreads => ⟨hreads.1, nofun⟩) ?_ h ?_ ?_
  · intro c hop
    have hnone := readRequest_requestPdu c
    rw [hop] at hnone
    exact Option.toList_eq_nil_iff.mp (length_eq_zero_iff.mp hnone)
  · intro setup onComplete nowUs _
    have hone : (readRequest (requestPdu (setup w.client))).toList.length ≤ 1 := by
      rw [readRequest_requestPdu]
      split <;> decide
    exact ⟨Nat.le_trans hone (Nat.le_add_right _ _),
      fun _ _ _ => Nat.le_trans hone (Nat.le_add_right _ _)⟩
  · intro opcode params nowUs c _ _ _ hbusy hcontinues
    have hlength : ((readRequest (requestPdu c)).toList ++ reads w.history).length =
        (if c.op = .read then 1 else 0) + (reads w.history).length := by
      rw [length_append, readRequest_requestPdu]
    cases hcontinues with
    | discovery hd =>
      have hop : w.client.op ≠ .read := fun hread => by
        rw [hread] at hd
        cases hd
      rw [if_neg hop, Nat.zero_add] at hlength
      exact ⟨hlength.trans_le h.1, fun _ hoperation hread =>
        absurd hread (by cases hoperation; exact hop)⟩
    | @read value hop hfull hvalue =>
      have hoperation := Client.operation_busy hbusy (by rw [hop]; decide)
      have hbefore := h.2 _ hoperation hop
      have hchunk := one_le_fullChunk hmtu
      have hgrown : value.bytes.length = w.client.value.bytes.length + params.length := by
        rw [hvalue, length_append]
      have hfits := value.fits
      have hcount : ((readRequest (requestPdu { w.client with value })).toList ++
          reads w.history).length ≤ 1 + value.bytes.length := by
        rw [hlength, if_pos hop]
        change (reads w.history).length ≤ 1 + w.client.value.bytes.length at hbefore
        omega
      refine ⟨Nat.le_trans hcount (Nat.add_le_add_left hfits 1), ?_⟩
      rintro _ ⟨⟩ _
      exact hcount

/-- In every run: the MTU stays between the default and the one that the client asks for, and no
read takes more than `1 + BT_GATT_CLIENT_MAX_VALUE_LEN` requests, exactly as long as no server
announces an MTU below the default. -/
theorem run_mtu_iff (port : ℕ → Bool) (inputs : List Input) :
    (∀ done rest, done ++ rest = inputs → MtuInRange (run port done).client.mtu ∧
        (reads (run port done).history).length ≤ 1 + maxValueLen) ↔
      ∀ done input rest, done ++ input :: rest = inputs → ¬ LowMtu (run port done) input := by
  constructor
  · intro hrange
    exact foldl_good_of_along (P := fun w : World => MtuInRange w.client.mtu)
      (fun done input => LowMtu.not_inRange) fun done rest hinputs => (hrange done rest hinputs).1
  · intro hhigh done rest hinputs
    have hkeeps (w : World) (input : Input) (_ : input ∈ inputs) (h : MtuInRange w.client.mtu ∧
        ReadsBounded w.client.operation (reads w.history)) (hok : ¬ LowMtu w input) :
        MtuInRange (apply port w input).client.mtu ∧
          ReadsBounded (apply port w input).client.operation
            (reads (apply port w input).history) :=
      ⟨apply_mtuInRange h.1 hok, apply_readsBounded h.2 h.1⟩
    have hinit : MtuInRange World.init.client.mtu ∧
        ReadsBounded World.init.client.operation (reads World.init.history) :=
      ⟨⟨by decide, by decide⟩, Nat.zero_le _, nofun⟩
    obtain ⟨hmtu, hreads⟩ := foldl_invariant_along (I := fun w : World =>
      MtuInRange w.client.mtu ∧ ReadsBounded w.client.operation (reads w.history)) hinit hkeeps
      hhigh done rest hinputs
    exact ⟨hmtu, hreads.1⟩

/-! A server whose MTU is 1 and that answers every read with an empty value. -/

def emptyRead : Input := .data [opcodeReadResponse] 3

def endlessRead (n : ℕ) : List Input :=
  [.connect true true 0, .data [opcodeExchangeMtuResponse, 1, 0] 1, .read 3 true 2] ++
    replicate n emptyRead

def readingWorld (deadline now requests : ℕ) (history : List Event) : World :=
  ⟨⟨true, 1, false, false, true, .read, 0, deadline, now, 3, 0, [], .empty, some 0⟩, true, requests,
    1, history⟩

lemma readingWorld_step (deadline now requests : ℕ) (history : List Event) :
    apply (fun _ => true) (readingWorld deadline now requests history) emptyRead =
      readingWorld (requestDeadline 3) 3 (requests + 1)
        (.requested (requestPdu (readingWorld deadline now requests history).client) true ::
          history) := by
  have hchunk : ([] : Bytes).length = fullChunk 1 := by decide
  have hissued : handleReadResponse (fun _ => true)
      (arrived (readingWorld deadline now requests history) 3) opcodeReadResponse [] 3 =
        issueCurrentRequest (fun _ => true) (readingWorld deadline 3 requests history) 3 := by
    exact if_pos hchunk
  have hsent := @issueCurrentRequest_taken (fun _ => true)
    (readingWorld deadline 3 requests history) rfl rfl (show 3 ≤ 512 by decide) 3
  exact hissued.trans hsent

lemma readingWorld_run (n deadline now requests : ℕ) (history : List Event) :
    let w := (replicate n emptyRead).foldl (apply fun _ => true)
      (readingWorld deadline now requests history)
    w.client.mtu = 1 ∧ (reads w.history).length = n + (reads history).length := by
  induction n generalizing deadline now requests history with
  | zero => exact ⟨rfl, (Nat.zero_add _).symm⟩
  | succ n ih =>
    rw [replicate_succ, foldl_cons, readingWorld_step]
    obtain ⟨hmtu, hreads⟩ := ih (requestDeadline 3) 3 (requests + 1)
      (.requested (requestPdu (readingWorld deadline now requests history).client) true :: history)
    refine ⟨hmtu, hreads.trans ?_⟩
    rw [reads, requestsSince, length_append, readRequest_requestPdu, ← Nat.add_assoc]
    rfl

/-- The MTU is 1, every response fills a chunk of no octets, and the read never ends. -/
theorem endlessRead_repeats : (run (fun _ => true) (endlessRead 0)).client.mtu = 1 ∧
    ∀ n, (reads (run (fun _ => true) (endlessRead n)).history).length = n + 1 :=
  ⟨(readingWorld_run 0 30000002 1 2 _).1, fun n => (readingWorld_run n 30000002 1 2 _).2⟩

def Event.fits (mtu : UInt16) : Event → Bool
  | .requested pdu sent =>
      !sent || pdu.head? == some opcodeExchangeMtuRequest || decide (pdu.length ≤ mtu.toNat)
  | .confirmed pdu => decide (pdu.length ≤ mtu.toNat)
  | .accepted _ | .completed _ _ | .connected _ | .notified _ _ _ => true

def SendsWithin (port : ℕ → Bool) (w : World) (input : Input) : Prop :=
  Extends (Event.fits (apply port w input).client.mtu) w.history (apply port w input).history

def LongWrite (port : ℕ → Bool) (w : World) : Input → Prop
  | .write _ value _ _ => w.client.channelReady = true ∧ w.client.busy = false ∧
      w.channelOpen = true ∧ 3 + value.length ≤ maxSendLen ∧ port w.requests = true ∧
      w.client.mtu.toNat < 3 + value.length
  | _ => False

variable {mtu : UInt16}

lemma complete_fits {history : List Event} (hw : w.history = history) (result : Result)
    (code : UInt8) : Extends (Event.fits mtu) history (complete w result code).history := by
  subst hw
  unfold complete
  split
  · exact .refl
  · exact .cons rfl .refl

lemma handleMtuResponse_fits {history : List Event} (hw : w.history = history) (opcode : UInt8)
    (params : Bytes) :
    Extends (Event.fits mtu) history (handleMtuResponse w opcode params).history := by
  subst hw
  unfold handleMtuResponse
  dsimp only
  split
  · exact .cons rfl .refl
  · exact .refl

lemma issueCurrentRequest_fits (nowUs : ℕ) (h : (requestPdu w.client).length ≤ maxSendLen →
      w.channelOpen = true → port w.requests = true →
      Event.fits mtu (.requested (requestPdu w.client) true) = true) :
    Extends (Event.fits mtu) w.history (issueCurrentRequest port w nowUs).history := by
  have hrefused (requests : ℕ) : Extends (Event.fits mtu) w.history (w.refused requests).history :=
    .cons rfl .refl
  refine issueCurrentRequest_cases (P := fun v => Extends (Event.fits mtu) w.history v.history)
    nowUs (fun hlen hopen hport => ?_) (fun _ requests => ?_) fun _ requests => ?_
  · exact .cons (h hlen hopen hport) .refl
  · exact (hrefused requests).trans (handleMtuResponse_fits (by rfl) _ _)
  · exact (hrefused requests).trans (complete_fits (by rfl) _ _)

lemma fits_of_length {pdu : Bytes} (h : pdu.length ≤ mtu.toNat) :
    Event.fits mtu (.requested pdu true) = true := by
  simp [Event.fits, h]

lemma begun_fits {setup : Client → Client} {onComplete : Bool} {nowUs : ℕ}
    (hsetup : input.setup = some (setup, onComplete, nowUs)) (hready : w.client.channelReady = true)
    (hidle : w.client.busy = false) (hmtu : 7 ≤ w.client.mtu.toNat)
    (hshort : ¬ LongWrite port w input) :
    Extends (Event.fits w.client.mtu) w.history
      (issueCurrentRequest port (startOperation w setup onComplete) nowUs).history := by
  have haccepted : Extends (Event.fits w.client.mtu) w.history
      (startOperation w setup onComplete).history := .cons rfl .refl
  refine haccepted.trans (issueCurrentRequest_fits nowUs fun hmax hopen hport => ?_)
  refine fits_of_length ?_
  cases Input.setup_begins hsetup with
  | services | characteristics | descriptors | read =>
    exact Nat.le_trans ((requestPdu_length _).resolve_right fun hwrite => by cases hwrite.1) hmtu
  | write handle value =>
    set v := startOperation w (.setValue .write handle value) onComplete
    obtain hlength | ⟨-, hlength⟩ := requestPdu_length v.client
    · exact Nat.le_trans hlength hmtu
    · refine Nat.le_of_not_lt fun hlong => ?_
      rw [hlength] at hmax hlong
      exact hshort ⟨hready, hidle, hopen, hmax, hport, hlong⟩

lemma Continues.fits {c c' : Client} {opcode : UInt8} {params : Bytes}
    (h : Continues c opcode params c') (hmtu : 7 ≤ mtu.toNat) :
    Event.fits mtu (.requested (requestPdu c') true) = true := by
  have hop : c'.op ≠ .write := by
    cases h with
    | discovery hd => exact fun hwrite => by rw [show c.op = .write from hwrite] at hd; cases hd
    | read hop => exact fun hwrite => by cases hop.symm.trans hwrite
  have hlength := (requestPdu_length c').resolve_right fun hwrite => hop hwrite.1
  exact fits_of_length (Nat.le_trans hlength hmtu)

lemma apply_sendsWithin (hmtu : 7 ≤ (apply port w input).client.mtu.toNat)
    (hshort : ¬ LongWrite port w input) : SendsWithin port w input := by
  unfold SendsWithin
  generalize hw : apply port w input = w' at hmtu
  have hstep := apply_step port w input
  rw [hw] at hstep
  cases hstep with
  | ignored | notifyHandler | unopened | unready | unsolicited => exact .refl
  | opened onConnect granted nowUs hclosed =>
    exact issueCurrentRequest_fits (w := opening w onConnect nowUs) nowUs fun _ _ _ => rfl
  | closed =>
    exact onClosed_cases (P := fun v => Extends (Event.fits _) w.history v.history)
      (.cons rfl .refl) (fun _ _ => complete_fits (by rfl) _ _) .refl
  | notification =>
    rw [handleNotification_eq] at hmtu ⊢
    refine .append fun e he => ?_
    obtain rfl | ⟨handle, value, rfl⟩ := mem_notificationEvents he
    · exact decide_eq_true (Nat.le_trans (by decide) hmtu)
    · rfl
  | exchanged | mtuExpired => exact handleMtuResponse_fits (by rfl) _ _
  | @response opcode params nowUs hopen hop hconnect hbusy =>
    obtain ⟨found, value, result, code, hdone⟩ | ⟨c, hcontinues, hnext⟩ | ⟨-, hsame⟩ :=
      dispatchResponse_outcomes port (arrived w nowUs) opcode params nowUs
    · rw [hdone]
      exact complete_fits (by rfl) _ _
    · rw [hnext] at hmtu ⊢
      exact issueCurrentRequest_fits (w := { arrived w nowUs with client := c }) nowUs
        fun _ _ _ => hcontinues.fits hmtu
    · rw [hsame]
      exact .refl
  | @begun _ setup onComplete nowUs hsetup hready hidle =>
    obtain ⟨op, pendingHandle, discoverRangeEnd, found, value, hop, hset⟩ :=
      Input.setup_spec hsetup w.client
    have hkept : (issueCurrentRequest port (startOperation w setup onComplete) nowUs).client.mtu =
        w.client.mtu := by
      rw [issueCurrentRequest_mtu]
      change (setup w.client).mtu = w.client.mtu
      rw [hset]
    rw [hkept] at hmtu ⊢
    exact begun_fits hsetup hready hidle hmtu hshort
  | expired => exact complete_fits (by rfl) _ _

lemma LongWrite.not_sendsWithin (h : LongWrite port w input) : ¬ SendsWithin port w input := by
  cases input with
  | write handle value onComplete nowUs =>
    obtain ⟨hready, hidle, hopen, hmax, hport, hlong⟩ := h
    have hlen : ¬ maxValueLen < value.length := by
      change 3 + value.length ≤ 512 at hmax
      change ¬ 512 < value.length
      omega
    let v := startOperation w (.setValue .write handle ⟨value, Nat.le_of_not_lt hlen⟩) onComplete
    let pdu := [opcodeWriteRequest] ++ (writeLe16 handle ++ value)
    have hlength : pdu.length = 3 + value.length := by
      simp only [pdu, length_append, writeLe16, length_cons, length_nil]
      omega
    have hhistory : (apply port w (.write handle value onComplete nowUs)).history =
        [.requested pdu true, .accepted w.operations] ++ w.history := by
      dsimp only [apply, write]
      rw [dif_neg hlen, beginOperation, if_neg (by simp [hready, hidle])]
      have hissued := @issueCurrentRequest_taken port v hport hopen (hlength.trans_le hmax) nowUs
      exact congrArg World.history hissued
    have hmtu := (apply_mtu port w (.write handle value onComplete nowUs)).resolve_right nofun
    intro hwithin
    obtain ⟨newer, hnewer, hfits⟩ := Extends.exists_append hwithin
    rw [hhistory] at hnewer
    rw [hmtu] at hfits
    have hpdu := hfits (.requested pdu true) (by rw [← append_cancel_right hnewer]; simp)
    have hle := of_decide_eq_true hpdu
    omega
  | _ => exact h.elim

/-- In every run with servers of proper MTUs: whatever is sent after the exchange of MTUs fits in
the MTU, exactly as long as no write is too long for it. -/
theorem run_sendsWithin_iff (port : ℕ → Bool) (inputs : List Input)
    (hhigh : ∀ done input rest, done ++ input :: rest = inputs → ¬ LowMtu (run port done) input) :
    (∀ done input rest, done ++ input :: rest = inputs → SendsWithin port (run port done) input) ↔
      ∀ done input rest, done ++ input :: rest = inputs →
        ¬ LongWrite port (run port done) input := by
  constructor
  · intro hwithin done input rest hinputs hlong
    exact hlong.not_sendsWithin (hwithin done input rest hinputs)
  · intro hshort done input rest hinputs
    have hmtu := run_mtuInRange hhigh (done ++ [input]) rest (by simpa using hinputs)
    rw [run, foldl_append] at hmtu
    refine apply_sendsWithin ?_ (hshort done input rest hinputs)
    have hleast := UInt16.le_iff_toNat_le.mp hmtu.1
    exact Nat.le_trans (by decide) hleast

def longWrite : List Input :=
  [.connect true true 0, .data [opcodeExchangeMtuResponse, 23, 0] 1,
    .write 3 (replicate 21 7) true 2]

/-- With the default MTU a Write Request of 24 octets is sent. -/
theorem longWrite_exceeds :
    let w := run (fun _ => true) longWrite
    w.client.mtu = 23 ∧ w.history.head? =
      some (.requested ([opcodeWriteRequest, 3, 0] ++ replicate 21 7) true) := by
  decide +kernel

def shortWrite : List Input :=
  [.connect true true 0, .data [opcodeExchangeMtuResponse, 23, 0] 1,
    .write 3 (replicate 20 7) true 2]

lemma shortWrite_high : ∀ done input rest, done ++ input :: rest = shortWrite →
    ¬ LowMtu (run (fun _ => true) done) input := by
  intro done input rest hinputs hlow
  have hmem : input ∈ shortWrite := by rw [← hinputs]; simp
  simp only [shortWrite, mem_cons, not_mem_nil, or_false] at hmem
  obtain rfl | rfl | rfl := hmem
  · exact hlow
  · obtain ⟨-, -, -, serverMtu, hparse, hless⟩ := hlow
    obtain rfl : 23 = serverMtu := Except.ok.inj hparse
    exact absurd hless (by decide)
  · exact hlow

theorem shortWrite_sendsWithin :
    (∀ done input rest, done ++ input :: rest = shortWrite →
      ¬ LowMtu (run (fun _ => true) done) input) ∧
    ∀ done input rest, done ++ input :: rest = shortWrite →
      SendsWithin (fun _ => true) (run (fun _ => true) done) input := by
  refine ⟨shortWrite_high,
    (run_sendsWithin_iff (fun _ => true) shortWrite shortWrite_high).mpr ?_⟩
  intro done input rest hinputs hlong
  have hmem : input ∈ shortWrite := by rw [← hinputs]; simp
  simp only [shortWrite, mem_cons, not_mem_nil, or_false] at hmem
  obtain rfl | rfl | rfl := hmem
  · exact hlong
  · exact hlong
  · have hmtu := run_mtuInRange shortWrite_high done _ hinputs
    obtain ⟨-, -, -, -, -, hless⟩ := hlong
    exact absurd hless (Nat.not_lt.mpr (UInt16.le_iff_toNat_le.mp hmtu.1))

end Bluzing.Gatt
