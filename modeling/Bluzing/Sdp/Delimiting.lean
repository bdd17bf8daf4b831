import Bluzing.Sdp.Rounds

/-! Two ways to find the end of an attribute list: the client goes by the byte count of the
response, `bt_sdp_parse_service_attribute_response` by the length of the element itself. -/
namespace Bluzing.Sdp

def surplus (params : Bytes) : Bytes :=
  match (Reader.init params).readBe16 with
  | .error _ => []
  | .ok (byteCount, r) =>
      match parseElement (.init ((r.peek byteCount.toNat).getD [])) with
      | .error _ => []
      | .ok (_, r) => r.rest

variable (sizeDesc : UInt8)

lemma parseUint_local : Local (parseUint sizeDesc) := by
  refine .ite (reads_u8.isLocal.bind fun _ => local_ok _) ?_
  refine .ite (reads_be16.isLocal.bind fun _ => local_ok _) ?_
  exact .ite (reads_be32.isLocal.bind fun _ => local_ok _) (local_error _)

lemma parseUuid_local : Local (parseUuid sizeDesc) := by
  refine .ite (reads_be16.isLocal.bind fun _ => local_ok _) ?_
  exact .ite ((reads_bytes 16).isLocal.bind fun _ => local_ok _) (local_error _)

lemma parseNestedLen_local : Local (parseNestedLen sizeDesc) := by
  refine .ite (reads_u8.isLocal.bind fun _ => local_ok _) ?_
  refine .ite (reads_be16.isLocal.bind fun _ => local_ok _) ?_
  exact .ite (reads_be32.isLocal.bind fun _ => local_ok _) (local_error _)

lemma parseSequence_local : Local (parseSequence sizeDesc) := by
  refine (parseNestedLen_local sizeDesc).bind fun n => ?_
  intro r r' s v more hread hrest
  dsimp only at hread
  split at hread
  · cases hread
  next data hpeek =>
    obtain ⟨r₁, hskip, hread⟩ := Access.bind_ok hread
    cases hread
    obtain ⟨rfl, hdata⟩ := Reader.peek_skip hpeek hskip
    rw [hdata, List.append_assoc] at hrest
    obtain ⟨s', hs', hend⟩ := Reader.skip_rest hrest
    refine ⟨s', ?_, hend⟩
    simp [Reader.peek_rest hrest, hs', bind, Except.bind, pure, Except.pure]

lemma parseElement_local : Local parseElement := by
  refine reads_u8.isLocal.bind fun header => ?_
  refine .ite (.ite (local_error _) (local_ok _)) ?_
  refine .ite (parseUint_local _) ?_
  refine .ite (parseUuid_local _) ?_
  exact .ite (parseSequence_local _) (local_error _)

lemma readContinuation_none_iff (r : Reader) :
    (∃ r', readContinuation r = .ok (.none, r')) ↔ r.rest.head? = some 0 := by
  constructor
  · rintro ⟨r', hread⟩
    obtain ⟨⟨len, r₁⟩, hlen, hread⟩ := Access.bind_ok hread
    have hrest := (reads_u8.exact hlen).2
    have hzero : len = 0 := by
      dsimp only at hread
      split at hread
      · cases hread
      split at hread
      next hzero => exact hzero
      · obtain ⟨⟨data, r₂⟩, hdata, hread⟩ := Access.bind_ok hread
        have hempty : data.bytes = [] := congrArg (·.1.data) (Except.ok.inj hread)
        have hlength := data.length_eq
        rw [hempty] at hlength
        exact UInt8.toNat_inj.mp hlength.symm
    rw [hrest, hzero]
    rfl
  · intro hhead
    obtain ⟨tail, htail⟩ := List.head?_eq_some_iff.mp hhead
    have hempty : r.rest = Continuation.none.octets ++ tail := htail
    obtain ⟨r', hread, -⟩ := readContinuation_rest hempty
    exact ⟨r', hread⟩

variable {port : ℕ → Bool} {w : World} {params data : Bytes} {total : UInt16}

def Unsuccessful (older : List Completion) (w : World) : Prop :=
  ∃ failed, completionsOf w.history = failed ++ older ∧ ∀ c ∈ failed, c.result ≠ .ok

lemma fail_unsuccessful (w : World) {result : Result} (hresult : result ≠ .ok) :
    Unsuccessful (completionsOf w.history) (fail w result) := by
  unfold fail complete
  dsimp only
  split
  · exact ⟨[⟨result, w.client.op, [], 0⟩], rfl, by simpa using hresult⟩
  · exact ⟨[], rfl, by simp⟩

lemma issueRequest_unsuccessful (port : ℕ → Bool) (w : World) :
    Unsuccessful (completionsOf w.history) (issueRequest port w) := by
  unfold issueRequest
  dsimp only
  split
  · exact fail_unsuccessful _ (by decide)
  split
  · exact ⟨[], rfl, by simp⟩
  · exact fail_unsuccessful _ (by decide)

lemma Unsuccessful.not_done {older : List Completion} (h : Unsuccessful older w) {op : Op}
    (hdone : completionsOf w.history = ⟨.ok, op, data, total⟩ :: older) : False := by
  obtain ⟨failed, hfailed, herrors⟩ := h
  have hone : failed = [⟨.ok, op, data, total⟩] :=
    List.append_cancel_right (hfailed.symm.trans hdone)
  exact herrors _ (by rw [hone]; exact List.mem_singleton_self _) rfl

lemma finishRound_done (hdone : completionsOf (finishRound port w).history =
      ⟨.ok, .attributes, data, total⟩ :: completionsOf w.history)
    (hop : w.client.op = .attributes) :
    w.client.continuation.data = [] ∧
      ∃ r, parseElement (.init w.client.result.bytes) = .ok (.sequence data, r) := by
  unfold finishRound at hdone
  split at hdone
  · exact ((issueRequest_unsuccessful port w).not_done hdone).elim
  next hlast =>
  refine ⟨List.length_eq_zero_iff.mp (Nat.eq_zero_of_not_pos hlast), ?_⟩
  rw [hop] at hdone
  dsimp only at hdone
  split at hdone
  next nested r hparse =>
    refine ⟨r, ?_⟩
    unfold succeed complete at hdone
    dsimp only at hdone
    split at hdone
    · have hsame : nested = data := congrArg Completion.data (List.cons.inj hdone).1
      rw [hparse, hsame]
    · exact absurd hdone.symm (List.cons_ne_self _ _)
  · exact ((fail_unsuccessful w (by decide)).not_done hdone).elim

lemma handleAttributeResponse_done (hop : w.client.op = .attributes)
    (hfirst : w.client.result.bytes = [])
    (hdone : completionsOf (handleAttributeResponse port w params).history =
      ⟨.ok, .attributes, data, total⟩ :: completionsOf w.history) :
    ∃ byteCount r chunk r₂ r₃ r₄, (Reader.init params).readBe16 = .ok (byteCount, r) ∧
      r.peek byteCount.toNat = some chunk ∧ r.skip byteCount.toNat = .ok r₂ ∧
      readContinuation r₂ = .ok (.none, r₃) ∧
      parseElement (.init chunk) = .ok (.sequence data, r₄) := by
  have hfailed {v : World} {result : Result} (hdone : completionsOf (fail v result).history =
      ⟨.ok, .attributes, data, total⟩ :: completionsOf w.history) (hv : v.history = w.history)
      (hresult : result ≠ .ok) : False := by
    rw [← hv] at hdone
    exact (fail_unsuccessful v hresult).not_done hdone
  unfold handleAttributeResponse at hdone
  split at hdone
  · exact (hfailed hdone rfl (by decide)).elim
  next byteCount r hcount =>
  split at hdone
  swap
  · exact (hfailed hdone rfl (by decide)).elim
  next chunk r₂ hpeek hskip =>
  split at hdone
  · exact (hfailed hdone rfl (by decide)).elim
  next result happend =>
  split at hdone
  · exact (hfailed hdone rfl (by decide)).elim
  next continuation r₃ hcontinuation =>
  obtain ⟨hempty, r₄, hparse⟩ := finishRound_done hdone hop
  have hresult : result.bytes = chunk := by
    rw [appendResult_bytes happend, hfirst, List.nil_append]
  have hnone : continuation = .none := by
    cases continuation
    cases hempty
    rfl
  dsimp only [World.modify] at hparse
  rw [hresult] at hparse
  exact ⟨byteCount, r, chunk, r₂, r₃, r₄, hcount, hpeek, hskip, hnone ▸ hcontinuation, hparse⟩

/-- The decoders agree unless the first octet that they delimit differently is taken for the length
of a continuation state. -/
theorem attributeResponse_agree_iff (hop : w.client.op = .attributes)
    (hfirst : w.client.result.bytes = [])
    (hdone : completionsOf (handleAttributeResponse port w params).history =
      ⟨.ok, .attributes, data, total⟩ :: completionsOf w.history) :
    parseServiceAttributeResponse params = .ok ⟨data, .none⟩ ↔ (surplus params).headD 0 = 0 := by
  obtain ⟨byteCount, r, chunk, r₂, r₃, r₄, hcount, hpeek, hskip, hnone, hparse⟩ :=
    handleAttributeResponse_done hop hfirst hdone
  have hchunk := (Reader.peek_skip hpeek hskip).2
  obtain ⟨s, hlist, hrest⟩ := parseElement_local hparse hchunk
  have hsurplus : surplus params = r₄.rest := by
    simp [surplus, hcount, hpeek, hparse]
  have hhead : s.rest.head? = some ((surplus params).headD 0) := by
    have hzero := (readContinuation_none_iff r₂).mp ⟨r₃, hnone⟩
    rw [hrest, hsurplus]
    cases r₄.rest with
    | nil => exact hzero
    | cons b rest => rfl
  have hcodec : parseServiceAttributeResponse params =
      readContinuation s >>= fun p => .ok ⟨data, p.1⟩ := by
    rw [parseServiceAttributeResponse, hcount]
    simp only [bind, Except.bind, hlist]
    rfl
  rw [hcodec]
  constructor
  · intro h
    obtain ⟨⟨continuation, s'⟩, hread, h⟩ := Access.bind_ok h
    have hempty : continuation = .none := congrArg (·.continuation) (Except.ok.inj h)
    rw [hempty] at hread
    have hzero := (readContinuation_none_iff s).mp ⟨s', hread⟩
    exact Option.some.inj (hhead.symm.trans hzero)
  · intro h
    rw [h] at hhead
    obtain ⟨s', hread⟩ := (readContinuation_none_iff s).mpr hhead
    rw [hread]
    rfl

def waitingWorld : World := (allAttributes.start (fun _ => true) connectedWorld true).1

theorem padded_agree :
    surplus [0x00, 0x06, 0x35, 0x03, 0x09, 0x00, 0x01, 0x00, 0x00] = [0x00] ∧
      parseServiceAttributeResponse [0x00, 0x06, 0x35, 0x03, 0x09, 0x00, 0x01, 0x00, 0x00] =
        .ok ⟨[0x09, 0x00, 0x01], .none⟩ := by
  have hdone : completionsOf (handleAttributeResponse (fun _ => true) waitingWorld
      [0x00, 0x06, 0x35, 0x03, 0x09, 0x00, 0x01, 0x00, 0x00]).history =
      ⟨.ok, .attributes, [0x09, 0x00, 0x01], 0⟩ :: completionsOf waitingWorld.history := by
    decide +kernel
  have hsurplus : surplus [0x00, 0x06, 0x35, 0x03, 0x09, 0x00, 0x01, 0x00, 0x00] = [0x00] := by
    decide +kernel
  refine ⟨hsurplus, (attributeResponse_agree_iff rfl rfl hdone).mpr ?_⟩
  rfl

/-- The client completes with an empty list, the codec looks for a continuation state of five
octets. -/
theorem surplus_disagree :
    completionsOf (apply (fun _ => true) waitingWorld (.data (pdu pduServiceAttributeResponse
        waitingWorld.client.pendingTransactionId [0x00, 0x03, 0x35, 0x00, 0x05, 0x00]))).history =
      [⟨.ok, .attributes, [], 0⟩] ∧
      parseServiceAttributeResponse [0x00, 0x03, 0x35, 0x00, 0x05, 0x00] =
        .error (.status .bufferUnderflow) := by
  decide +kernel

end Bluzing.Sdp
