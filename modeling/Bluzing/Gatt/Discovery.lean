import Bluzing.Gatt.Cursor
import Bluzing.Gatt.Server

/-! Discovery against an honest server: however it packs its entries, the client ends with exactly
those of the table that lie in the range and have 16-bit UUIDs. -/
namespace Bluzing.Gatt
open List

lemma collect_found {full : ℕ → Bool} {found : List Found} {entries : List Entry}
    (h : (collect full found entries).2 = false) :
    (collect full found entries).1 = found ++ entries.filterMap Entry.found := by
  induction entries generalizing found with
  | nil => rw [filterMap_nil, append_nil]; rfl
  | cons entry entries ih =>
    cases hentry : entry.found with
    | none =>
      rw [filterMap_cons_none hentry]
      rw [collect, hentry] at h ⊢
      exact ih h
    | some f =>
      rw [filterMap_cons_some hentry]
      rw [collect, hentry] at h ⊢
      dsimp only at h ⊢
      by_cases hfull : full found.length = true
      · rw [if_pos hfull] at h
        cases h
      · rw [if_neg hfull] at h ⊢
        rw [ih h, append_assoc]
        rfl

lemma collect_room {full : ℕ → Bool} {limit : ℕ}
    (hfull : ∀ count, full count = true → limit ≤ count) {found : List Found}
    {entries : List Entry} (h : (found ++ entries.filterMap Entry.found).length ≤ limit) :
    (collect full found entries).2 = false := by
  induction entries generalizing found with
  | nil => rfl
  | cons entry entries ih =>
    cases hentry : entry.found with
    | none =>
      rw [filterMap_cons_none hentry] at h
      rw [collect, hentry]
      exact ih h
    | some f =>
      rw [filterMap_cons_some hentry] at h
      have hroom : ¬ full found.length = true := fun hno => by
        have hle := hfull _ hno
        rw [length_append, length_cons] at h
        omega
      rw [collect, hentry]
      dsimp only
      rw [if_neg hroom]
      exact ih (by simpa using h)

namespace Kind

lemma limit_le_of_full (kind : Kind) {count : ℕ} (h : kind.discovery.full count = true) :
    kind.limit ≤ count := by
  cases kind with
  | services | characteristics => exact of_decide_eq_true h
  | descriptors => exact Nat.le_of_eq (of_decide_eq_true h).symm

lemma rangeEnd_le_of_done (kind : Kind) {last rangeEnd : UInt16}
    (h : kind.discovery.done last rangeEnd = true)
    (hservices : kind = .services → rangeEnd = 0xFFFF) : rangeEnd ≤ last := by
  have hmax (v : UInt16) : v ≤ 0xFFFF := UInt16.le_iff_toNat_le.mpr (Nat.le_of_lt_succ v.toNat_lt)
  cases kind with
  | services =>
    rw [hservices rfl, show last = 0xFFFF from of_decide_eq_true h]
    exact hmax _
  | characteristics => exact of_decide_eq_true h
  | descriptors =>
    obtain hend | hlast := Bool.or_eq_true_iff.mp h
    · exact of_decide_eq_true hend
    · rw [of_decide_eq_true hlast]
      exact hmax _

lemma lt_rangeEnd_of_not_done (kind : Kind) {last rangeEnd : UInt16}
    (h : ¬ kind.discovery.done last rangeEnd = true)
    (hservices : kind = .services → rangeEnd = 0xFFFF) : last < rangeEnd := by
  refine lt_rangeEnd_of_more kind.discoveryOf_op (Bool.eq_false_iff.mpr h) fun hop => hservices ?_
  cases kind with
  | services => rfl
  | characteristics | descriptors => cases hop

lemma requestPdu_short (kind : Kind) {c : Client} (hop : c.op = kind.op) :
    (requestPdu c).length ≤ maxSendLen := by
  have hseven := (requestPdu_length c).resolve_right fun hwrite => by
    cases kind <;> cases hop.symm.trans hwrite.1
  exact Nat.le_trans hseven (by decide)

lemma parseRequest_requestPdu (kind : Kind) {c : Client} (hop : c.op = kind.op) :
    parseRequest (requestPdu c) = some (kind, c.pendingHandle, c.discoverRangeEnd) := by
  have htyped (opcode : UInt8) (uuid16 : UInt16) : parseRequest ([opcode] ++
      ((writeLe16 c.pendingHandle ++ writeLe16 c.discoverRangeEnd) ++ writeLe16 uuid16)) =
        if opcode = opcodeReadByGroupTypeRequest ∧ uuid16 = uuidPrimaryService then
          some (.services, c.pendingHandle, c.discoverRangeEnd)
        else if opcode = opcodeReadByTypeRequest ∧ uuid16 = uuidCharacteristic then
          some (.characteristics, c.pendingHandle, c.discoverRangeEnd)
        else none := by
    simp only [parseRequest, writeLe16, cons_append, nil_append, readLe16_writeLe16]
  unfold requestPdu
  rw [hop]
  cases kind with
  | services => exact (htyped _ _).trans (if_pos ⟨rfl, rfl⟩)
  | characteristics =>
    exact (htyped _ _).trans ((if_neg (by decide)).trans (if_pos ⟨rfl, rfl⟩))
  | descriptors =>
    simp only [op, parseRequest, writeLe16, cons_append, nil_append, readLe16_writeLe16,
      if_true]

end Kind

lemma parseErrorResponse_octets (requestOpcode : UInt8) (handle : UInt16) (errorCode : UInt8) :
    parseErrorResponse (requestOpcode :: (writeLe16 handle ++ [errorCode])) =
      .ok ⟨requestOpcode, handle, errorCode⟩ := by
  have hrest : (Reader.init (requestOpcode :: (writeLe16 handle ++ [errorCode]))).rest =
      [requestOpcode] ++ (writeLe16 handle ++ [errorCode]) := rfl
  obtain ⟨r₁, hopcode, hrest₁⟩ := reads_u8.accepts trivial hrest
  obtain ⟨r₂, hhandle, hrest₂⟩ := reads_le16.accepts trivial hrest₁
  obtain ⟨r₃, hcode, -⟩ := reads_u8.accepts trivial
    (show r₂.rest = [errorCode] ++ [] from hrest₂)
  unfold parseErrorResponse
  rw [if_neg (by simp [writeLe16])]
  simp only [hopcode, hhandle, hcode, bind, Except.bind, pure, Except.pure]

def lastRequest : List Event → Bytes
  | [] => []
  | .requested pdu _ :: _ => pdu
  | .confirmed _ :: h | .accepted _ :: h | .completed _ _ :: h | .connected _ :: h |
    .notified _ _ _ :: h => lastRequest h

section

variable {port : ℕ → Bool} {table : Table} {kind : Kind} {n : ℕ} {expected : List Found}
  {w : World}

structure Discovering (table : Table) (kind : Kind) (n : ℕ) (expected : List Found) (w : World) :
    Prop where
  isOpen : w.channelOpen = true
  connected : w.client.onConnect = false
  busy : w.client.busy = true
  op : w.client.op = kind.op
  callback : w.client.onComplete = some n
  asked : lastRequest w.history = requestPdu w.client
  rangeEnd : kind = .services → w.client.discoverRangeEnd = 0xFFFF
  found : w.client.found ++ (inRange (table.items kind) w.client.pendingHandle
    w.client.discoverRangeEnd).filterMap Item.found = expected

def Discovered (kind : Kind) (n : ℕ) (expected : List Found) (history : List Event) (w : World) :
    Prop :=
  w.client.busy = false ∧ w.history = .completed n ⟨.ok, kind.op, 0, expected, []⟩ :: history

lemma discovered_complete (hop : w.client.op = kind.op) (hcallback : w.client.onComplete = some n)
    (hfound : w.client.found = expected) :
    Discovered kind n expected w.history (complete w .ok 0) := by
  have hcompletion : completionOf w.client .ok 0 = ⟨.ok, kind.op, 0, expected, []⟩ := by
    unfold completionOf
    rw [hop, hfound]
    cases kind <;> rfl
  unfold complete
  rw [hcallback]
  rw [hcompletion]
  exact ⟨rfl, rfl⟩

lemma handleErrorResponse_notFound (hop : w.client.op = kind.op) (requestOpcode : UInt8)
    (handle : UInt16) : handleErrorResponse w (requestOpcode ::
      (writeLe16 handle ++ [errorAttributeNotFound])) = complete w .ok 0 := by
  have hdiscovery : w.client.op.isDiscovery = true := by
    rw [hop]
    cases kind <;> rfl
  rw [handleErrorResponse, parseErrorResponse_octets]
  exact if_pos (by rw [hdiscovery]; rfl)

lemma Discovering.notFound (h : Discovering table kind n expected w)
    (hnone : inRange (table.items kind) w.client.pendingHandle w.client.discoverRangeEnd = [])
    (requestOpcode : UInt8) (handle : UInt16) (nowUs : ℕ) :
    Discovered kind n expected w.history
      (apply port w (.data (notFoundReply requestOpcode handle) nowUs)) := by
  have hfound : w.client.found = expected := by
    have hall := h.found
    rwa [hnone, filterMap_nil, append_nil] at hall
  have hresponse : apply port w (.data (notFoundReply requestOpcode handle) nowUs) =
      complete (arrived w nowUs) .ok 0 := by
    unfold notFoundReply
    rw [apply_response h.isOpen (by decide), if_neg (Bool.eq_false_iff.mp h.connected),
      if_pos h.busy, dispatchResponse, if_pos rfl]
    exact handleErrorResponse_notFound (w := arrived w nowUs) h.op requestOpcode handle
  rw [hresponse]
  exact discovered_complete h.op h.callback hfound

section

variable {before rest : List Item} {a : Item} {entryLen : ℕ} {startHandle endHandle : UInt16}

lemma page_rest (hservices : kind = .services → endHandle = 0xFFFF)
    (hpage : inRange (table.items kind) startHandle endHandle = before ++ a :: rest) :
    if kind.discovery.done a.last endHandle then rest = []
    else inRange (table.items kind) (a.last + 1) endHandle = rest := by
  have hnext : between (fun item => item.handle.toNat) (table.items kind) (a.last.toNat + 1)
      endHandle.toNat = rest := (table.items_ascending kind).between_next hpage
  split
  next hdone =>
    -- behind the end of the range there is nothing left
    have hend := UInt16.le_iff_toNat_le.mp (kind.rangeEnd_le_of_done hdone hservices)
    refine eq_nil_iff_forall_not_mem.mpr fun item hitem => ?_
    rw [← hnext] at hitem
    have hhandle := (mem_between.mp hitem).2
    omega
  next hdone =>
    unfold inRange
    rw [toNat_succ_of_lt (kind.lt_rangeEnd_of_not_done hdone hservices)]
    exact hnext

lemma entries_page
    (hpage : inRange (table.items kind) startHandle endHandle = before ++ a :: rest)
    (hlen : ∀ item ∈ before ++ [a], item.octets.length = entryLen) :
    kind.discovery.entries (responseParams kind entryLen (before ++ [a])) =
      some ((before ++ [a]).map Item.entry) := by
  have hmem (item : Item) (hitem : item ∈ before ++ [a]) : item ∈ table.items kind := by
    have hin : item ∈ inRange (table.items kind) startHandle endHandle := by
      rw [hpage, append_cons]
      exact mem_append_left rest hitem
    exact (mem_between.mp hin).1
  exact entries_responseParams hmem (by simp) hlen

lemma handleDiscoverResponse_page
    (hpage : inRange (table.items kind) startHandle endHandle = before ++ a :: rest)
    (hlen : ∀ item ∈ before ++ [a], item.octets.length = entryLen)
    (hroom : (collect kind.discovery.full w.client.found
      ((before ++ [a]).map Item.entry)).2 = false) (nowUs : ℕ) :
    handleDiscoverResponse port kind.discovery w kind.discovery.opcode
        (responseParams kind entryLen (before ++ [a])) nowUs =
      let found := w.client.found ++ (before ++ [a]).filterMap Item.found
      if kind.discovery.done a.last w.client.discoverRangeEnd then
        complete (w.modify fun c => { c with found }) .ok 0
      else
        issueCurrentRequest port
          (w.modify fun c => { c with found, pendingHandle := a.last + 1 }) nowUs := by
  have hlast : ((before ++ [a]).map Item.entry).getLast? = some a.entry := by
    rw [map_append, map_singleton, getLast?_concat]
  rw [handleDiscoverResponse_entries (entries_page hpage hlen) hroom hlast, collect_found hroom,
    filterMap_map]
  rfl

end

lemma Discovering.page (hport : ∀ k, port k = true) (h : Discovering table kind n expected w)
    (hlimit : expected.length ≤ kind.limit) {before rest : List Item} {a : Item} {entryLen : ℕ}
    (hpage : inRange (table.items kind) w.client.pendingHandle w.client.discoverRangeEnd =
      before ++ a :: rest) (hlen : ∀ item ∈ before ++ [a], item.octets.length = entryLen)
    (nowUs : ℕ) :
    let w' := apply port w
      (.data (kind.responseOpcode :: responseParams kind entryLen (before ++ [a])) nowUs)
    Discovered kind n expected w.history w' ∨
      Discovering table kind n expected w' ∧
        (∃ pdu, w'.history = .requested pdu true :: w.history) ∧
        inRange (table.items kind) w'.client.pendingHandle w'.client.discoverRangeEnd = rest := by
  have hrest := page_rest h.rangeEnd hpage
  have hfound : w.client.found ++ (before ++ [a]).filterMap Item.found ++
      rest.filterMap Item.found = expected := by
    have hall := h.found
    rwa [hpage, append_cons, filterMap_append, ← append_assoc] at hall
  have hroom : (collect kind.discovery.full w.client.found
      ((before ++ [a]).map Item.entry)).2 = false := by
    refine collect_room (fun _ => kind.limit_le_of_full) (Nat.le_trans ?_ hlimit)
    rw [filterMap_map, ← hfound]
    exact (sublist_append_left _ _).length_le
  have hd : discoveryOf w.client.op = some kind.discovery := by
    rw [h.op]
    exact kind.discoveryOf_op
  intro w'
  have hresponse : w' = handleDiscoverResponse port kind.discovery (arrived w nowUs)
      kind.discovery.opcode (responseParams kind entryLen (before ++ [a])) nowUs := by
    rw [← apply_discovery h.isOpen h.connected h.busy hd, kind.discovery_opcode]
  rw [handleDiscoverResponse_page (w := arrived w nowUs) hpage hlen hroom] at hresponse
  by_cases hdone : kind.discovery.done a.last w.client.discoverRangeEnd = true
  · have hcomplete : w' = _ := hresponse.trans (if_pos hdone)
    rw [if_pos hdone] at hrest
    rw [hrest, filterMap_nil, append_nil] at hfound
    rw [hcomplete]
    exact .inl (discovered_complete (w := (arrived w nowUs).modify _) h.op h.callback hfound)
  · rw [if_neg hdone] at hrest
    let v := (arrived w nowUs).modify fun c =>
      { c with
        found := w.client.found ++ (before ++ [a]).filterMap Item.found
        pendingHandle := a.last + 1 }
    have hissued : w' = issueCurrentRequest port v nowUs := hresponse.trans (if_neg hdone)
    have hsent := @issueCurrentRequest_taken port v (hport _) h.isOpen
      (kind.requestPdu_short h.op) nowUs
    rw [hissued, hsent]
    refine .inr ⟨⟨h.isOpen, h.connected, h.busy, h.op, h.callback, rfl, h.rangeEnd, ?_⟩, ⟨_, rfl⟩,
      hrest⟩
    exact (congrArg (fun items => v.client.found ++ items.filterMap Item.found)
      hrest).trans hfound

lemma Discovering.answer (hport : ∀ k, port k = true) (h : Discovering table kind n expected w)
    (hlimit : expected.length ≤ kind.limit) {pdu : Bytes}
    (hhonest : Honest table (requestPdu w.client) pdu) (nowUs : ℕ) :
    let w' := apply port w (.data pdu nowUs)
    Discovered kind n expected w.history w' ∨
      Discovering table kind n expected w' ∧
        (∃ request, w'.history = .requested request true :: w.history) ∧
        (inRange (table.items kind) w'.client.pendingHandle
          w'.client.discoverRangeEnd).length <
        (inRange (table.items kind) w.client.pendingHandle w.client.discoverRangeEnd).length := by
  have hparse := kind.parseRequest_requestPdu h.op
  cases hhonest with
  | notFound hrequest hnone requestOpcode handle =>
    obtain ⟨rfl, rfl, rfl⟩ : _ ∧ _ ∧ _ := by simpa using hparse.symm.trans hrequest
    exact .inl (h.notFound hnone requestOpcode handle nowUs)
  | @found _ _ _ page rest entryLen hrequest hpage hne hlen =>
    obtain ⟨rfl, rfl, rfl⟩ : _ ∧ _ ∧ _ := by simpa using hparse.symm.trans hrequest
    obtain ⟨before, a, rfl⟩ : ∃ before a, page = before ++ [a] :=
      ⟨page.dropLast, page.getLast hne, (dropLast_concat_getLast hne).symm⟩
    rw [append_assoc, singleton_append] at hpage
    obtain hdone | ⟨hnext, hrequested, hrest⟩ := h.page hport hlimit hpage hlen nowUs
    · exact .inl hdone
    · refine .inr ⟨hnext, hrequested, ?_⟩
      rw [hrest, hpage, length_append, length_cons]
      omega

def converse (port : ℕ → Bool) (reply : ℕ → Bytes → Bytes) (time : ℕ → ℕ) :
    ℕ → World → World
  | 0, w => w
  | n + 1, w => converse port (fun k => reply (k + 1)) (fun k => time (k + 1)) n
      (apply port w (.data (reply 0 (lastRequest w.history)) (time 0)))

lemma Discovering.converse (hport : ∀ k, port k = true) (hlimit : expected.length ≤ kind.limit)
    (remaining : ℕ) {reply : ℕ → Bytes → Bytes} {time : ℕ → ℕ}
    (hhonest : ∀ k request, (parseRequest request).isSome = true →
      Honest table request (reply k request)) (h : Discovering table kind n expected w)
    (hremaining : (inRange (table.items kind) w.client.pendingHandle
      w.client.discoverRangeEnd).length < remaining) :
    ∃ (rounds : ℕ) (requests : List Bytes), Discovered kind n expected
      (requests.map (Event.requested · true) ++ w.history)
      (Gatt.converse port reply time rounds w) := by
  induction remaining generalizing w reply time with
  | zero => cases hremaining
  | succ remaining ih =>
    have hreply : Honest table (requestPdu w.client) (reply 0 (lastRequest w.history)) := by
      rw [h.asked]
      exact hhonest 0 _ (by rw [kind.parseRequest_requestPdu h.op]; rfl)
    obtain hdone | ⟨hnext, ⟨request, hrequest⟩, hless⟩ := h.answer hport hlimit hreply (time 0)
    · exact ⟨1, [], hdone⟩
    · obtain ⟨rounds, requests, hrun⟩ := @ih _ (fun k => reply (k + 1)) (fun k => time (k + 1))
        (fun k => hhonest (k + 1)) hnext (by omega)
      refine ⟨rounds + 1, requests ++ [request], ?_⟩
      rw [hrequest] at hrun
      rw [map_append, append_assoc]
      exact hrun

end

inductive Query where
  | services
  | characteristics (startHandle endHandle : UInt16)
  | descriptors (startHandle endHandle : UInt16)

namespace Query

def kind : Query → Kind
  | .services => .services
  | .characteristics _ _ => .characteristics
  | .descriptors _ _ => .descriptors

def startHandle : Query → UInt16
  | .services => 0x0001
  | .characteristics startHandle _ | .descriptors startHandle _ => startHandle

def endHandle : Query → UInt16
  | .services => 0xFFFF
  | .characteristics _ endHandle | .descriptors _ endHandle => endHandle

def input (nowUs : ℕ) : Query → Input
  | .services => .discoverServices true nowUs
  | .characteristics startHandle endHandle =>
      .discoverCharacteristics startHandle endHandle true nowUs
  | .descriptors startHandle endHandle => .discoverDescriptors startHandle endHandle true nowUs

def expected (query : Query) (table : Table) : List Found :=
  (inRange (table.items query.kind) query.startHandle query.endHandle).filterMap Item.found

end Query

structure Ready (w : World) : Prop where
  isOpen : w.channelOpen = true
  ready : w.client.channelReady = true
  connected : w.client.onConnect = false
  idle : w.client.busy = false

lemma Ready.begin {port : ℕ → Bool} (hport : ∀ k, port k = true) {w : World} (h : Ready w)
    (table : Table) {query : Query} (hstart : query.startHandle ≠ 0)
    (hrange : query.startHandle ≤ query.endHandle) (nowUs : ℕ) :
    let w' := apply port w (query.input nowUs)
    Discovering table query.kind w.operations (query.expected table) w' ∧
      ∃ request, w'.history = .requested request true :: .accepted w.operations :: w.history := by
  let v := startOperation w (.setDiscovery query.kind.op query.startHandle query.endHandle) true
  have hfree : ¬ (!w.client.channelReady || w.client.busy) = true := by simp [h.ready, h.idle]
  have hbegin : apply port w (query.input nowUs) = issueCurrentRequest port v nowUs := by
    cases query with
    | services | characteristics =>
      exact congrArg Prod.fst (if_neg hfree)
    | descriptors startHandle endHandle =>
      have haccepted := not_or.mpr ⟨hstart, UInt16.not_lt.mpr hrange⟩
      exact congrArg Prod.fst ((if_neg haccepted).trans (if_neg hfree))
  have hservices : query.kind = .services → query.endHandle = 0xFFFF := by
    cases query with
    | services => exact fun _ => rfl
    | characteristics | descriptors => nofun
  have hsent := @issueCurrentRequest_taken port v (hport _) h.isOpen
    (query.kind.requestPdu_short rfl) nowUs
  rw [hbegin, hsent]
  exact ⟨⟨h.isOpen, h.connected, rfl, rfl, rfl, rfl, hservices, rfl⟩, _, rfl⟩

/-- Every discovery of a range that does not begin with handle 0 completes, after some answers of
the server, with exactly the entries of the table in that range that have 16-bit UUIDs, in their
order. -/
theorem discovery_complete {port : ℕ → Bool} (hport : ∀ k, port k = true) (table : Table)
    {reply : ℕ → Bytes → Bytes} (hhonest : ∀ k request,
      (parseRequest request).isSome = true → Honest table request (reply k request))
    (time : ℕ → ℕ) {w : World} (hready : Ready w) (query : Query) (hstart : 1 ≤ query.startHandle)
    (hrange : query.startHandle ≤ query.endHandle)
    (hlimit : (query.expected table).length ≤ query.kind.limit) (nowUs : ℕ) :
    ∃ (rounds : ℕ) (requests : List Bytes),
      let w' := converse port reply time rounds (apply port w (query.input nowUs))
      w'.history = .completed w.operations ⟨.ok, query.kind.op, 0, query.expected table, []⟩ ::
          (requests.map (Event.requested · true) ++ .accepted w.operations :: w.history) ∧
        w'.client.busy = false := by
  have hne : query.startHandle ≠ 0 := fun hzero => by
    rw [hzero] at hstart
    exact absurd hstart (by decide)
  obtain ⟨hdiscovering, request, hrequest⟩ := hready.begin hport table hne hrange nowUs
  obtain ⟨rounds, requests, hidle, hhistory⟩ := hdiscovering.converse hport hlimit _ hhonest
    (Nat.lt_succ_self _)
  refine ⟨rounds, requests ++ [request], ?_, hidle⟩
  rw [map_append, append_assoc]
  rw [hrequest] at hhistory
  exact hhistory

def singleReply (table : Table) (request : Bytes) : Bytes :=
  match parseRequest request with
  | none => []
  | some (kind, startHandle, endHandle) =>
      match inRange (table.items kind) startHandle endHandle with
      | [] => notFoundReply (request.headD 0) startHandle
      | item :: _ => kind.responseOpcode :: responseParams kind item.octets.length [item]

lemma singleReply_honest (table : Table) {request : Bytes}
    (h : (parseRequest request).isSome = true) :
    Honest table request (singleReply table request) := by
  obtain ⟨⟨kind, startHandle, endHandle⟩, hrequest⟩ := Option.isSome_iff_exists.mp h
  unfold singleReply
  rw [hrequest]
  dsimp only
  split
  next hnone => exact .notFound hrequest hnone _ _
  next item rest hitems =>
    exact @Honest.found table request kind startHandle endHandle [item] rest _ hrequest hitems
      (cons_ne_nil _ _) (by simp)

def smallTable : Table where
  attributes :=
    [⟨1, .primaryService 3 (.short 0x180F)⟩, ⟨2, .characteristic 0x12 3 (.short 0x2A19)⟩,
      ⟨3, .other (.short 0x2A19)⟩, ⟨4, .primaryService 0xFFFF (.long default)⟩]
  ascending := by decide
  groups := ⟨by decide, by decide⟩

def connectedWorld : World :=
  run (fun _ => true) [.connect true true 0, .data [opcodeExchangeMtuResponse, 23, 0] 1]

theorem discovery_complete_smallTable : ∃ (rounds : ℕ) (requests : List Bytes),
    let w' := converse (fun _ => true) (fun _ => singleReply smallTable) (· + 3) rounds
      (apply (fun _ => true) connectedWorld (.discoverServices true 2))
    w'.history = .completed 0 ⟨.ok, .discoverServices, 0, [.service ⟨1, 3, 0x180F⟩], []⟩ ::
        (requests.map (Event.requested · true) ++ .accepted 0 :: connectedWorld.history) ∧
      w'.client.busy = false := by
  have hready : Ready connectedWorld := ⟨by decide, by decide, by decide, by decide⟩
  exact discovery_complete (fun _ => rfl) smallTable (fun _ _ => singleReply_honest smallTable)
    (· + 3) hready .services (by decide) (by decide) (by decide) 2

end Bluzing.Gatt
