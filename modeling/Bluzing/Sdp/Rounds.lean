import Bluzing.Sdp.Transfer

/-! How many requests one operation makes: each response with octets uses up some of the result
buffer, but a server may send empty responses with a continuation state for ever. -/
namespace Bluzing.Sdp

def requestsSince : List Event → ℕ
  | [] | .accepted :: _ => 0
  | .requested _ _ _ :: h => requestsSince h + 1
  | .received _ :: h | .completed _ :: h | .connected _ :: h | .closing _ :: h => requestsSince h

def emptyResponse : Bytes → Bool
  | pduId :: _ :: _ :: _ :: _ :: params =>
      (pduId == pduServiceSearchResponse && (params.drop 2).take 2 == [0, 0]) ||
        (pduId == pduServiceAttributeResponse && params.take 2 == [0, 0])
  | _ => false

def emptyResponsesSince : List Event → ℕ
  | [] | .accepted :: _ => 0
  | .received pdu :: h => emptyResponsesSince h + if emptyResponse pdu = true then 1 else 0
  | .requested _ _ _ :: h | .completed _ :: h | .connected _ :: h | .closing _ :: h =>
      emptyResponsesSince h

variable {port : ℕ → Bool} {w : World} {data params : Bytes}

inductive Outcome (port : ℕ → Bool) (w : World) (empty : Prop) : World → Prop where
  | ignored : Outcome port w empty w
  | failed (c : Client) (result : Result) :
      Outcome port w empty (fail { w with client := c } result)
  | finished {c : Client} {body : Bytes} (busy : w.client.busy = true)
      (appended : c.result.bytes = w.client.result.bytes ++ body) (nothing : body = [] → empty) :
      Outcome port w empty (finishRound port { w with client := c })

lemma appendResult_bytes {result result' : Filled maxResult} {body : Bytes}
    (h : appendResult result body = .ok result') : result'.bytes = result.bytes ++ body := by
  unfold appendResult at h
  split at h
  · cases h
  · obtain rfl := Except.ok.inj h
    rfl

lemma peek_initial {r : Reader} {n : ℕ} {p : Bytes} (h : r.peek n = some p) :
    p.length = n ∧ p <+: r.rest := by
  unfold Reader.peek at h
  split at h
  next hroom =>
    obtain rfl := Option.some.inj h
    rw [List.length_take, ← Reader.rest, r.length_rest]
    exact ⟨Nat.min_eq_left hroom, List.take_prefix n r.rest⟩
  · cases h

lemma handleAttributeResponse_outcome (hbusy : w.client.busy = true) :
    Outcome port w (params.take 2 = [0, 0]) (handleAttributeResponse port w params) := by
  unfold handleAttributeResponse
  split
  · exact .failed w.client _
  next byteCount r hread =>
    have hparams := (reads_be16.exact hread).2
    split
    next chunk r' hpeek hskip =>
      obtain ⟨hlen, -⟩ := peek_initial hpeek
      split
      · exact .failed w.client _
      next result happend =>
        split
        · exact .failed _ _
        next continuation r'' hcont =>
          refine .finished hbusy (appendResult_bytes happend) ?_
          rintro rfl
          have hzero : byteCount = 0 := UInt16.toNat_inj.mp hlen.symm
          rw [Reader.rest_init, hzero] at hparams
          rw [hparams]
          rfl
    · exact .failed w.client _

lemma handleSearchResponse_outcome (hbusy : w.client.busy = true) :
    Outcome port w ((params.drop 2).take 2 = [0, 0]) (handleSearchResponse port w params) := by
  unfold handleSearchResponse
  split
  · exact .failed w.client _
  next rsp hparse =>
    dsimp only
    split
    · exact .failed _ _
    next result happend =>
      refine .finished hbusy (appendResult_bytes happend) ?_
      intro hempty
      obtain ⟨⟨total, r₁⟩, h₁, hparse⟩ := Access.bind_ok hparse
      obtain ⟨⟨count, r₂⟩, h₂, hparse⟩ := Access.bind_ok hparse
      dsimp only at hparse
      split at hparse
      · cases hparse
      next handles hpeek =>
        obtain ⟨r₃, -, hparse⟩ := Access.bind_ok hparse
        obtain ⟨⟨cont, r₄⟩, -, hparse⟩ := Access.bind_ok hparse
        obtain rfl := Except.ok.inj hparse
        obtain rfl : handles = [] := hempty
        obtain ⟨hlen, -⟩ := peek_initial hpeek
        have hzero : count = 0 := by
          apply UInt16.toNat_inj.mp
          have hcount : 0 = count.toNat * 4 := hlen
          rw [UInt16.toNat_zero]
          omega
        have hparams := (reads_be16.exact h₁).2
        rw [Reader.rest_init, (reads_be16.exact h₂).2, hzero] at hparams
        rw [hparams]
        rfl

lemma Outcome.imp {empty empty' : Prop} {w' : World} (h : Outcome port w empty w')
    (himp : empty → empty') : Outcome port w empty' w' := by
  cases h with
  | ignored => exact .ignored
  | failed c result => exact .failed c result
  | finished busy appended nothing => exact .finished busy appended fun h => himp (nothing h)

lemma take_append_eq {l m : Bytes} {n : ℕ} (h : l.take n = m) (hm : m.length = n)
    (t : Bytes) : (l ++ t).take n = m := by
  have hlen := congrArg List.length h
  rw [List.length_take, hm] at hlen
  rw [List.take_append_of_le_length (by omega), h]

lemma parseHeader_exact {r r' : Reader} {hdr : Header} (h : parseHeader r = .ok (hdr, r')) :
    r.rest = [hdr.pduId] ++ (writeBe16 hdr.transactionId ++
      (writeBe16 hdr.paramLen ++ r'.rest)) := by
  obtain ⟨⟨pduId, r₁⟩, h₁, h⟩ := Access.bind_ok h
  obtain ⟨⟨transactionId, r₂⟩, h₂, h⟩ := Access.bind_ok h
  obtain ⟨⟨paramLen, r₃⟩, h₃, h⟩ := Access.bind_ok h
  cases h
  rw [(reads_u8.exact h₁).2, (reads_be16.exact h₂).2, (reads_be16.exact h₃).2]

lemma handleResponse_outcome (port : ℕ → Bool) (w : World) (data : Bytes) :
    Outcome port w (emptyResponse data = true) (handleResponse port w data) := by
  unfold handleResponse
  split
  · exact .ignored
  next hidle =>
  have hbusy : w.client.busy = true := by simpa using hidle
  split
  · exact .failed w.client _
  next hdr r hheader =>
    split
    · exact .ignored
    split
    · exact .failed w.client _
    next params hpeek =>
      have hdata := parseHeader_exact hheader
      rw [Reader.rest_init] at hdata
      obtain ⟨-, tail, htail⟩ := peek_initial hpeek
      split
      · exact .failed w.client _
      split
      · split
        · exact .failed w.client _
        next hid =>
          refine (handleSearchResponse_outcome hbusy).imp fun hempty => ?_
          have hcount : (r.rest.drop 2).take 2 = [0, 0] := by
            have hlen := congrArg List.length hempty
            rw [List.length_take, List.length_drop] at hlen
            rw [← htail, List.drop_append_of_le_length (by simp at hlen; omega)]
            exact take_append_eq hempty rfl tail
          rw [hdata, not_not.mp hid]
          simp [emptyResponse, writeBe16, hcount]
      · split
        · exact .failed w.client _
        next hid =>
          refine (handleAttributeResponse_outcome hbusy).imp fun hempty => ?_
          have hcount : r.rest.take 2 = [0, 0] := by
            rw [← htail]
            exact take_append_eq hempty rfl tail
          rw [hdata, not_not.mp hid]
          simp [emptyResponse, writeBe16, hcount]

structure Bounded (w : World) : Prop where
  waiting : w.client.busy = true → requestsSince w.history ≤
    1 + w.client.result.bytes.length + emptyResponsesSince w.history
  total : requestsSince w.history ≤ 1 + maxResult + emptyResponsesSince w.history

lemma complete_bounded {completion : Completion}
    (h : requestsSince w.history ≤ 1 + maxResult + emptyResponsesSince w.history) :
    Bounded (complete w completion) := by
  unfold complete
  dsimp only
  split
  · exact ⟨nofun, h⟩
  · exact ⟨nofun, h⟩

lemma issueRequest_bounded (h : requestsSince w.history ≤
      w.client.result.bytes.length + emptyResponsesSince w.history) :
    Bounded (issueRequest port w) := by
  have hfits := w.client.result.fits
  unfold issueRequest
  dsimp only
  split
  · exact complete_bounded (by
      show requestsSince w.history ≤ 1 + maxResult + emptyResponsesSince w.history
      omega)
  next wr _ =>
    have hnext : requestsSince w.history + 1 ≤ 1 + maxResult + emptyResponsesSince w.history := by
      omega
    split
    · constructor
      · intro _
        show requestsSince w.history + 1 ≤
          1 + w.client.result.bytes.length + emptyResponsesSince w.history
        omega
      · exact hnext
    · exact complete_bounded hnext

lemma finishRound_bounded (h : requestsSince w.history ≤
      w.client.result.bytes.length + emptyResponsesSince w.history) :
    Bounded (finishRound port w) := by
  have hfits := w.client.result.fits
  have htotal : requestsSince w.history ≤ 1 + maxResult + emptyResponsesSince w.history := by omega
  unfold finishRound
  split
  · exact issueRequest_bounded h
  · split
    · exact complete_bounded htotal
    · split
      · exact complete_bounded htotal
      · exact complete_bounded htotal

lemma Bounded.receive (h : Bounded w) (pdu : Bytes) :
    Bounded (apply port w (.data pdu)) := by
  have hlater : requestsSince (w.emit (.received pdu)).history ≤
      1 + maxResult + emptyResponsesSince (w.emit (.received pdu)).history := by
    have htotal := h.total
    show requestsSince w.history ≤ 1 + maxResult + (emptyResponsesSince w.history + _)
    omega
  generalize hw' : apply port w (.data pdu) = w'
  have houtcome := handleResponse_outcome port (w.emit (.received pdu)) pdu
  rw [show handleResponse port (w.emit (.received pdu)) pdu = w' from hw'] at houtcome
  cases houtcome with
  | ignored =>
    refine ⟨fun hbusy => ?_, hlater⟩
    have hwaiting := h.waiting hbusy
    show requestsSince w.history ≤ 1 + w.client.result.bytes.length +
      (emptyResponsesSince w.history + _)
    omega
  | failed c result => exact complete_bounded hlater
  | @finished c body busy appended nothing =>
    have hwaiting := h.waiting busy
    apply finishRound_bounded
    show requestsSince w.history ≤ c.result.bytes.length +
      (emptyResponsesSince w.history + if emptyResponse pdu = true then 1 else 0)
    rw [appended, List.length_append]
    show requestsSince w.history ≤ w.client.result.bytes.length + body.length + _
    by_cases hbody : body = []
    · rw [if_pos (nothing hbody)]
      omega
    · have hpos := List.length_pos_iff.mpr hbody
      omega

lemma startOperation_bounded (setup : Client → Client) (onComplete : Bool) :
    Bounded (issueRequest port (startOperation w setup onComplete)) :=
  issueRequest_bounded (Nat.zero_le _)

lemma Bounded.quiet (h : Bounded w) {w' : World}
    (hrequests : requestsSince w'.history = requestsSince w.history)
    (hempty : emptyResponsesSince w'.history = emptyResponsesSince w.history)
    (hresult : w'.client.result = w.client.result) (hbusy : w'.client.busy = w.client.busy) :
    Bounded w' := by
  refine ⟨fun h' => ?_, ?_⟩
  · rw [hrequests, hempty, hresult]
    exact h.waiting (hbusy ▸ h')
  · rw [hrequests, hempty]
    exact h.total

lemma reportConnect_bounded (h : Bounded w) (success : Bool) :
    Bounded (reportConnect w success) := by
  unfold reportConnect
  split
  · exact h.quiet rfl rfl rfl rfl
  · exact h

lemma Bounded.apply (h : Bounded w) (input : Input) : Bounded (apply port w input) := by
  cases input with
  | connect onConnect opened =>
    cases opened with
    | error | ok => exact h.quiet rfl rfl rfl rfl
  | disconnect =>
    rw [Sdp.apply, disconnect]
    split
    · exact h.quiet rfl rfl rfl rfl
    · exact h.quiet rfl rfl rfl rfl
  | opened =>
    apply reportConnect_bounded
    exact h.quiet rfl rfl rfl rfl
  | closed =>
    have hreported : Bounded (reportConnect (w.modify fun c => { c with channelReady := false })
        false) := by
      apply reportConnect_bounded
      exact h.quiet rfl rfl rfl rfl
    rw [Sdp.apply, onClosed]
    split
    · exact complete_bounded hreported.total
    · exact hreported
  | data pdu => exact h.receive pdu
  | search serviceSearchPattern maxRecordCount onComplete =>
    rw [Sdp.apply, search]
    split
    · exact h
    · split
      · exact h
      · exact startOperation_bounded _ onComplete
  | getAttributes serviceRecordHandle maxAttributeByteCount attributeIdList onComplete =>
    rw [Sdp.apply, getAttributes]
    split
    · exact h
    · split
      · exact h
      · exact startOperation_bounded _ onComplete

/-- Whatever the server and the link do, an operation makes at most one request more than the result
has room for octets and the server has sent empty responses. -/
theorem run_requests_bounded (port : ℕ → Bool) (inputs : List Input) :
    requestsSince (run port inputs).history ≤
      1 + maxResult + emptyResponsesSince (run port inputs).history := by
  have hinit : Bounded World.init := ⟨nofun, Nat.zero_le _⟩
  have hrun : Bounded (run port inputs) :=
    foldl_invariant (fun _ input h => h.apply input) inputs hinit
  exact hrun.total

lemma one_le_maxContinuation : 1 ≤ maxContinuation := by decide

def emptyRound : Round := ⟨0, [], ⟨[0x01], one_le_maxContinuation⟩⟩

lemma Query.divides_nil (q : Query) : q.Divides [] := by
  cases q with
  | search pattern maxCount => exact Nat.dvd_zero 4
  | attributes handle maxBytes idList => trivial

lemma Waiting.stalls {q : Query} {w : World} (h : Waiting q w []) (n : ℕ) :
    ∃ pdus, Waiting q (receiveAll (fun _ => true) pdus w) [] ∧
      requestsSince (receiveAll (fun _ => true) pdus w).history = requestsSince w.history + n := by
  induction n generalizing w with
  | zero => exact ⟨[], h, rfl⟩
  | succ n ih =>
    have hmore : emptyRound.continuation.data ≠ [] := by decide
    obtain ⟨hwaiting, -, hhistory⟩ := h.continues (fun _ => rfl) q.divides_nil (Nat.zero_le _) hmore
    obtain ⟨pdus, hpdus, hcount⟩ := ih hwaiting
    refine ⟨q.response (lastTransaction w.history) emptyRound :: pdus, hpdus, hcount.trans ?_⟩
    rw [hhistory]
    show requestsSince w.history + 1 + n = _
    omega

lemma Query.requests_exceed (q : Query) (bound : ℕ) :
    ∃ pdus, bound < requestsSince (receiveAll (fun _ => true) pdus
      (q.start (fun _ => true) connectedWorld true).1).history := by
  obtain ⟨-, hstarted⟩ := q.start_started (w := connectedWorld) (fun _ => rfl) rfl rfl
  obtain ⟨pdus, -, hcount⟩ := hstarted.waiting.stalls bound
  refine ⟨pdus, ?_⟩
  rw [hcount, hstarted.history]
  show bound < 0 + 1 + bound
  omega

def hidSearch : Query := .search ⟨[0x35, 0x03, 0x19, 0x11, 0x24], by decide⟩ 8

/-- There is no bound on the requests of one search. -/
theorem requests_unbounded : maxResult = 1024 ∧ ∀ bound, ∃ pdus, bound < requestsSince
    (receiveAll (fun _ => true) pdus
      (hidSearch.start (fun _ => true) connectedWorld true).1).history :=
  ⟨rfl, hidSearch.requests_exceed⟩

end Bluzing.Sdp
