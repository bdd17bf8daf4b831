import Bluzing.Gatt.Discovery
import Bluzing.Gatt.Outcomes

/-! Discovery in a run that may hold anything else: as long as the server answers the requests of a
discovery honestly, one that completes without an error has found what the table holds. -/
namespace Bluzing.Gatt
open List

inductive Answer (table : Table) (request : Bytes) : Bytes → Prop
  | honest {pdu : Bytes} (h : Honest table request pdu) : Answer table request pdu
  | refused {params : Bytes} {err : ErrorResponse}
      (hparse : parseErrorResponse params = .ok err)
      (hcode : err.errorCode ≠ errorAttributeNotFound) :
      Answer table request (opcodeErrorResponse :: params)

def Answering (table : Table) (w : World) : Input → Prop
  | .data (opcode :: params) _ =>
      w.Active → (parseRequest (lastRequest w.history)).isSome = true → ¬ IsNotification opcode →
        Answer table (lastRequest w.history) (opcode :: params)
  | _ => True

structure Searching (table : Table) (query : Query) (w : World) : Prop where
  op : w.client.op = query.kind.op
  asked : lastRequest w.history = requestPdu w.client
  rangeEnd : query.kind = .services → w.client.discoverRangeEnd = 0xFFFF
  found : w.client.found ++ (inRange (table.items query.kind) w.client.pendingHandle
    w.client.discoverRangeEnd).filterMap Item.found = query.expected table

variable {port : ℕ → Bool} {table : Table} {query : Query} {w w' : World}

lemma Searching.of_same (h : Searching table query w) (hop : w'.client.op = w.client.op)
    (hpending : w'.client.pendingHandle = w.client.pendingHandle)
    (hend : w'.client.discoverRangeEnd = w.client.discoverRangeEnd)
    (hfound : w'.client.found = w.client.found)
    (hasked : lastRequest w'.history = lastRequest w.history) : Searching table query w' where
  op := hop.trans h.op
  asked := by
    have hkind : requestPdu w'.client = requestPdu w.client := by
      unfold requestPdu
      rw [hop, hpending, hend, h.op]
      cases query <;> rfl
    rw [hasked, h.asked, hkind]
  rangeEnd hservices := hend.trans (h.rangeEnd hservices)
  found := by rw [hfound, hpending, hend]; exact h.found

lemma lastRequest_notificationEvents (onNotify isIndication : Bool) (params : Bytes)
    (history : List Event) :
    lastRequest (notificationEvents onNotify isIndication params ++ history) =
      lastRequest history := by
  have hskip (events : List Event) (h : ∀ e ∈ events, ∀ pdu sent, e ≠ .requested pdu sent) :
      lastRequest (events ++ history) = lastRequest history := by
    induction events with
    | nil => rfl
    | cons e events ih =>
      obtain ⟨he, hrest⟩ := forall_mem_cons.mp h
      cases e with
      | requested pdu sent => exact absurd rfl (he pdu sent)
      | _ => exact ih hrest
  refine hskip _ fun e he pdu sent => ?_
  rcases mem_notificationEvents he with rfl | ⟨handle, value, rfl⟩ <;> exact nofun

structure Searched (table : Table) (query : Query) (w w' : World) : Prop where
  next : w'.Active → Searching table query w'
  completed : ∀ n completion, w'.history = .completed n completion :: w.history →
    completion.result = .ok → completion.found = query.expected table

lemma Searched.of_quiet (events : List Event) (hhistory : w'.history = events ++ w.history)
    (hquiet : Quiet events) (hnext : w'.Active → Searching table query w') :
    Searched table query w w' := by
  refine ⟨hnext, fun n completion hcompleted _ => ?_⟩
  have hevents : events = [.completed n completion] :=
    append_cancel_right (hhistory.symm.trans hcompleted)
  cases hquiet _ (by rw [hevents]; exact mem_singleton_self _)

variable {v : World}

lemma Searched.of_failed (events : List Event)
    (hhistory : v.history = events ++ w.history) (hquiet : Quiet events) {result : Result}
    (hfailed : result ≠ .ok) (code : UInt8) : Searched table query w (complete v result code) := by
  unfold complete
  split
  · exact .of_quiet events hhistory hquiet fun h => absurd h (not_active_of_idle rfl)
  · refine ⟨fun h => absurd h (not_active_of_idle rfl), fun n completion hcompleted hok => ?_⟩
    obtain ⟨-, rfl⟩ := Event.completed.inj (cons.inj hcompleted).1
    exact absurd hok hfailed

lemma Searched.of_complete (hhistory : v.history = w.history)
    (hop : v.client.op = query.kind.op) (hfound : v.client.found = query.expected table) :
    Searched table query w (complete v .ok 0) := by
  unfold complete
  split
  · exact .of_quiet [] hhistory quiet_nil fun h => absurd h (not_active_of_idle rfl)
  · refine ⟨fun h => absurd h (not_active_of_idle rfl), fun n completion hcompleted _ => ?_⟩
    obtain ⟨-, rfl⟩ := Event.completed.inj (cons.inj hcompleted).1
    unfold completionOf
    rw [hop, hfound]
    cases query <;> rfl

lemma Searched.of_request (hhistory : v.history = w.history) (hop : v.client.op = query.kind.op)
    (hend : query.kind = .services → v.client.discoverRangeEnd = 0xFFFF)
    (hfound : v.client.found ++ (inRange (table.items query.kind) v.client.pendingHandle
      v.client.discoverRangeEnd).filterMap Item.found = query.expected table) (nowUs : ℕ) :
    Searched table query w (issueCurrentRequest port v nowUs) := by
  have hcons (e : Event) : e :: v.history = [e] ++ w.history := by rw [hhistory]; rfl
  refine issueCurrentRequest_cases nowUs (fun _ _ _ => ?_) (fun hmtu _ => ?_) fun _ _ => ?_
  · exact .of_quiet [_] (hcons _) (quiet_nil.cons (by rfl)) fun _ => ⟨hop, rfl, hend, hfound⟩
  · cases query <;> cases hop.symm.trans hmtu
  · exact .of_failed [_] (hcons _) (quiet_nil.cons (by rfl)) (by decide) 0

lemma Searching.notFound (h : Searching table query w)
    (hnone : inRange (table.items query.kind) w.client.pendingHandle w.client.discoverRangeEnd = [])
    (requestOpcode : UInt8) (handle : UInt16) (nowUs : ℕ) :
    Searched table query w (handleErrorResponse (arrived w nowUs)
      (requestOpcode :: (writeLe16 handle ++ [errorAttributeNotFound]))) := by
  have hfound : w.client.found = query.expected table := by
    have hall := h.found
    rwa [hnone, filterMap_nil, append_nil] at hall
  rw [handleErrorResponse_notFound (w := arrived w nowUs) h.op]
  exact .of_complete rfl h.op hfound

lemma Searching.refused (h : Searching table query w) {params : Bytes} {err : ErrorResponse}
    (hparse : parseErrorResponse params = .ok err) (hcode : err.errorCode ≠ errorAttributeNotFound)
    (nowUs : ℕ) : Searched table query w (handleErrorResponse (arrived w nowUs) params) := by
  have hread : (arrived w nowUs).client.op ≠ .read := by
    change w.client.op ≠ .read
    rw [h.op]
    cases query <;> exact nofun
  unfold handleErrorResponse
  rw [hparse]
  dsimp only
  rw [if_neg (by simp [hcode]), if_neg fun hno => hread hno.1]
  exact .of_failed [] (by rfl) quiet_nil (by decide) err.errorCode

lemma Searching.page (h : Searching table query w) {page rest : List Item} {entryLen : ℕ}
    (hpage : inRange (table.items query.kind) w.client.pendingHandle w.client.discoverRangeEnd =
      page ++ rest) (hne : page ≠ []) (hlen : ∀ item ∈ page, item.octets.length = entryLen)
    (nowUs : ℕ) :
    Searched table query w (handleDiscoverResponse port query.kind.discovery (arrived w nowUs)
      query.kind.discovery.opcode (responseParams query.kind entryLen page) nowUs) := by
  obtain ⟨before, a, rfl⟩ : ∃ before a, page = before ++ [a] :=
    ⟨page.dropLast, page.getLast hne, (dropLast_concat_getLast hne).symm⟩
  rw [append_assoc, singleton_append] at hpage
  by_cases hroom : (collect query.kind.discovery.full (arrived w nowUs).client.found
      ((before ++ [a]).map Item.entry)).2 = false
  swap
  · -- too many entries are an error
    unfold handleDiscoverResponse
    rw [if_neg (not_not.mpr rfl), entries_page hpage hlen]
    dsimp only
    rw [if_pos (by simpa using hroom)]
    exact .of_failed [] (by rfl) quiet_nil (by decide) 0
  have hrest := page_rest h.rangeEnd hpage
  have hfound : w.client.found ++ (before ++ [a]).filterMap Item.found ++
      rest.filterMap Item.found = query.expected table := by
    have hall := h.found
    rwa [hpage, append_cons, filterMap_append, ← append_assoc] at hall
  rw [handleDiscoverResponse_page hpage hlen hroom]
  by_cases hdone : query.kind.discovery.done a.last
      (arrived w nowUs).client.discoverRangeEnd = true
  · have hnone : rest = [] := (if_pos hdone).mp hrest
    rw [hnone, filterMap_nil, append_nil] at hfound
    rw [if_pos hdone]
    exact .of_complete (by rfl) h.op hfound
  · have hrest := (if_neg hdone).mp hrest
    rw [if_neg hdone]
    refine .of_request ?_ ?_ ?_ ?_ nowUs
    · rfl
    · exact h.op
    · exact h.rangeEnd
    · rw [← hfound, ← hrest]
      rfl

lemma Searching.dispatch (h : Searching table query w) {opcode : UInt8} {params : Bytes}
    (hanswer : Answer table (requestPdu w.client) (opcode :: params)) (nowUs : ℕ) :
    Searched table query w (dispatchResponse port (arrived w nowUs) opcode params nowUs) := by
  have hparse := query.kind.parseRequest_requestPdu h.op
  generalize hpdu : opcode :: params = pdu at hanswer
  cases hanswer with
  | refused hrefused hcode =>
    obtain ⟨rfl, rfl⟩ := cons.inj hpdu
    exact h.refused hrefused hcode nowUs
  | honest hhonest =>
    cases hhonest with
    | notFound hrequest hnone requestOpcode handle =>
      obtain ⟨rfl, rfl, rfl⟩ : _ ∧ _ ∧ _ := by simpa using hparse.symm.trans hrequest
      obtain ⟨rfl, rfl⟩ := cons.inj hpdu
      exact h.notFound hnone requestOpcode handle nowUs
    | found hrequest hpage hne hlen =>
      obtain ⟨rfl, rfl, rfl⟩ : _ ∧ _ ∧ _ := by simpa using hparse.symm.trans hrequest
      obtain ⟨rfl, rfl⟩ := cons.inj hpdu
      have hop : (arrived w nowUs).client.op = query.kind.op := h.op
      have hresponse (params : Bytes) : dispatchResponse port (arrived w nowUs)
          query.kind.responseOpcode params nowUs = handleDiscoverResponse port query.kind.discovery
            (arrived w nowUs) query.kind.discovery.opcode params nowUs := by
        unfold dispatchResponse
        rw [hop]
        cases query <;> rfl
      rw [hresponse]
      exact h.page hpage hne hlen nowUs

lemma apply_searched (port : ℕ → Bool) {input : Input} (hactive : w.Active)
    (h : Searching table query w) (hanswering : Answering table w input) :
    Searched table query w (apply port w input) := by
  have hkept {w' : World} (hhistory : w'.history = w.history)
      (hop : w'.client.op = w.client.op)
      (hpending : w'.client.pendingHandle = w.client.pendingHandle)
      (hend : w'.client.discoverRangeEnd = w.client.discoverRangeEnd)
      (hfound : w'.client.found = w.client.found) : Searched table query w w' :=
    .of_quiet [] hhistory quiet_nil fun _ =>
      h.of_same hop hpending hend hfound (congrArg lastRequest hhistory)
  have hexchanged {v : World} (events : List Event) (hhistory : v.history = events ++ w.history)
      (hquiet : Quiet events) (opcode : UInt8) (params : Bytes) :
      Searched table query w (handleMtuResponse v opcode params) := by
    unfold handleMtuResponse
    dsimp only
    split
    · exact .of_quiet (.connected true :: events) (congrArg (Event.connected true :: ·) hhistory)
        (hquiet.cons rfl) fun hno => absurd hno (not_active_of_idle rfl)
    · exact .of_quiet events hhistory hquiet fun hno => absurd hno (not_active_of_idle rfl)
  generalize happly : apply port w input = w' at *
  have hstep := apply_step port w input
  rw [happly] at hstep
  cases hstep with
  | ignored | notifyHandler | unopened | unready | unsolicited => exact hkept rfl rfl rfl rfl rfl
  | opened onConnect granted nowUs =>
    refine issueCurrentRequest_cases nowUs (fun _ _ _ => ?_) (fun _ requests => ?_)
      fun hop _ => absurd rfl hop
    · exact .of_quiet [_] rfl (quiet_nil.cons (by rfl)) fun hno => absurd rfl hno.2
    · exact hexchanged [_] (by rfl) (quiet_nil.cons (by rfl)) 0 []
  | closed =>
    refine onClosed_cases ?_ (fun _ _ => ?_) (hkept rfl rfl rfl rfl rfl)
    · exact .of_quiet [.connected false] rfl (quiet_nil.cons rfl) fun _ =>
        h.of_same rfl rfl rfl rfl rfl
    · exact .of_failed [] (by rfl) quiet_nil (by decide) 0
  | notification hopen hop =>
    rw [handleNotification_eq]
    refine .of_quiet _ rfl (fun e he => ?_) fun _ => h.of_same rfl rfl rfl rfl ?_
    · rcases mem_notificationEvents he with rfl | ⟨handle, value, rfl⟩ <;> rfl
    · exact lastRequest_notificationEvents _ _ _ _
  | exchanged => exact hexchanged [] (by rfl) quiet_nil _ _
  | response hopen hop hconnect hbusy =>
    have hrequest : (parseRequest (lastRequest w.history)).isSome = true := by
      rw [h.asked, query.kind.parseRequest_requestPdu h.op]
      rfl
    have hanswer := hanswering hactive hrequest hop
    rw [h.asked] at hanswer
    exact h.dispatch hanswer _
  | begun hsetup hready hidle => exact absurd hactive (not_active_of_idle hidle)
  | mtuExpired => exact hexchanged [] (by rfl) quiet_nil 0 []
  | expired => exact .of_failed [] (by rfl) quiet_nil (by decide) 0

lemma beginOperation_searching (port : ℕ → Bool) (table : Table) (query : Query)
    (onComplete : Bool) (nowUs : ℕ)
    (hok : (beginOperation port w
      (.setDiscovery query.kind.op query.startHandle query.endHandle) onComplete nowUs).2 = .ok) :
    let w' := (beginOperation port w
      (.setDiscovery query.kind.op query.startHandle query.endHandle) onComplete nowUs).1
    w'.Active → Searching table query w' := by
  unfold beginOperation at hok ⊢
  split
  next hfree =>
    rw [if_pos hfree] at hok
    cases hok
  · refine issueCurrentRequest_cases (P := fun w' => w'.Active → Searching table query w') nowUs
      (fun _ _ _ _ => ?_) (fun hmtu _ => ?_) fun _ _ => ?_
    · refine ⟨rfl, rfl, fun hservices => ?_, rfl⟩
      cases query with
      | services => rfl
      | characteristics | descriptors => cases hservices
    · cases query <;> cases hmtu
    · exact fun hno => absurd hno (not_active_of_idle (complete_busy _ _ _))

end Bluzing.Gatt
