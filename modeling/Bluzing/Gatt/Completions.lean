import Bluzing.Gatt.Steps
import Bluzing.Lib.History
import Bluzing.Lib.Reentrant

/-! Each operation completes at most once, and nothing completes that is not outstanding, unless a
deadline of an abandoned MTU exchange is still ticking. -/
namespace Bluzing.Gatt

def outstanding : List Event → Option ℕ
  | [] => none
  | .accepted n :: _ => some n
  | .completed _ _ :: _ => none
  | _ :: history => outstanding history

def Event.completion? : Event → Option ℕ
  | .completed n _ => some n
  | _ => none

def Event.isAccepted : Event → Bool
  | .accepted _ => true
  | _ => false

def completions (history : List Event) : List ℕ := history.filterMap Event.completion?

def acceptances (history : List Event) : ℕ := history.countP Event.isAccepted

def Matched (e : Event) (older : List Event) : Prop :=
  ∀ n completion, e = .completed n completion → outstanding older = some n

def Numbered (e : Event) (older : List Event) : Prop :=
  ∀ n, e = .accepted n → n = acceptances older

def CalledOnce (history : List Event) : Prop :=
  Always Matched history ∧ (completions history).Nodup

def Event.Neutral : Event → Prop
  | .accepted _ | .completed _ _ => False
  | .requested _ _ | .confirmed _ | .connected _ | .notified _ _ _ => True

variable {e : Event} {h : List Event}

lemma Event.Neutral.outstanding (he : e.Neutral) : outstanding (e :: h) = Gatt.outstanding h := by
  cases e with
  | accepted | completed => exact he.elim
  | _ => rfl

lemma Event.Neutral.matched (he : e.Neutral) : Matched e h := by
  rintro n c rfl
  exact he.elim

lemma Event.Neutral.numbered (he : e.Neutral) : Numbered e h := by
  rintro n rfl
  exact he.elim

lemma Event.Neutral.acceptances (he : e.Neutral) : acceptances (e :: h) = Gatt.acceptances h := by
  cases e with
  | accepted | completed => exact he.elim
  | _ => rfl

lemma acceptances_accepted (n : ℕ) : acceptances (.accepted n :: h) = acceptances h + 1 :=
  List.countP_cons_of_pos rfl

lemma completions_fresh (hm : Always Matched h) (hn : Always Numbered h) :
    (∀ n ∈ completions h, n < acceptances h) ∧ (completions h).Nodup ∧
      ∀ n, outstanding h = some n → n < acceptances h ∧ n ∉ completions h := by
  induction h with
  | nil => exact ⟨nofun, List.nodup_nil, nofun⟩
  | cons e h ih =>
    obtain ⟨hlt, hnodup, hfresh⟩ := ih hm.tail hn.tail
    cases e with
    | accepted n =>
      have hnumber := hn.head n rfl
      rw [acceptances_accepted]
      refine ⟨fun m hm => Nat.lt_succ_of_lt (hlt m hm), hnodup, ?_⟩
      rintro m hm
      obtain rfl : n = m := Option.some.inj hm
      exact ⟨by omega, fun hmem => absurd (hlt n hmem) (by omega)⟩
    | completed n c =>
      obtain ⟨hn_lt, hn_fresh⟩ := hfresh n (hm.head n c rfl)
      exact ⟨List.forall_mem_cons.mpr ⟨hn_lt, hlt⟩, List.nodup_cons.mpr ⟨hn_fresh, hnodup⟩, nofun⟩
    | _ => exact ⟨hlt, hnodup, hfresh⟩

structure Tracked (w : World) : Prop where
  /-- The exchange of MTUs reports to a callback as long as the channel is open. -/
  exchange : w.client.busy = true → w.client.op = .mtu → w.client.onConnect = false →
    w.channelOpen = false
  waits : w.client.busy = true → w.client.op ≠ .mtu → (outstanding w.history).isSome = true
  callback : ∀ n k, w.client.onComplete = some n → outstanding w.history = some k → n = k
  matched : Always Matched w.history
  numbered : Always Numbered w.history
  counted : w.operations = acceptances w.history

lemma Tracked.calledOnce {w : World} (h : Tracked w) : CalledOnce w.history :=
  ⟨h.matched, (completions_fresh h.matched h.numbered).2.1⟩

lemma init_tracked : Tracked World.init :=
  ⟨nofun, nofun, nofun, always_nil, always_nil, rfl⟩

namespace Tracked
variable {port : ℕ → Bool} {w : World}

lemma congr (h : Tracked w) {w' : World} (hbusy : w'.client.busy = w.client.busy)
    (hop : w'.client.op = w.client.op) (hconnect : w'.client.onConnect = w.client.onConnect)
    (hcomplete : w'.client.onComplete = w.client.onComplete)
    (hopen : w'.channelOpen = w.channelOpen) (hoperations : w'.operations = w.operations)
    (hhistory : w'.history = w.history) : Tracked w' := by
  obtain ⟨hexchange, hwaits, hcallback, hmatched, hnumbered, hcounted⟩ := h
  constructor
  · rwa [hbusy, hop, hconnect, hopen]
  · rwa [hbusy, hop, hhistory]
  · rwa [hcomplete, hhistory]
  · rwa [hhistory]
  · rwa [hhistory]
  · rwa [hoperations, hhistory]

lemma emit (h : Tracked w) {e : Event} (he : e.Neutral) : Tracked (w.emit e) where
  exchange := h.exchange
  waits hbusy hop := by
    rw [World.emit_history, he.outstanding]
    exact h.waits hbusy hop
  callback n k hn hk := by
    rw [World.emit_history, he.outstanding] at hk
    exact h.callback n k hn hk
  matched := h.matched.cons he.matched
  numbered := h.numbered.cons he.numbered
  counted := h.counted.trans he.acceptances.symm

lemma settle (h : Tracked w) (mtu : UInt16) :
    Tracked (w.modify fun c => { c.settle with mtu }) where
  exchange := nofun
  waits := nofun
  callback := h.callback
  matched := h.matched
  numbered := h.numbered
  counted := h.counted

lemma complete (h : Tracked w) (hwaits : (outstanding w.history).isSome = true)
    (result : Result) (code : UInt8) : Tracked (Gatt.complete w result code) := by
  unfold Gatt.complete
  split
  · exact h.settle w.client.mtu
  next n hn =>
    obtain ⟨k, hk⟩ := Option.isSome_iff_exists.mp hwaits
    have hmatch : outstanding w.history = some n := by rw [hk, h.callback n k hn hk]
    constructor
    · exact nofun
    · exact nofun
    · exact nofun
    · refine h.matched.cons ?_
      rintro m c hcompleted
      obtain ⟨rfl, -⟩ := Event.completed.inj hcompleted
      exact hmatch
    · exact h.numbered.cons nofun
    · exact h.counted

lemma reportConnect (h : Tracked w) (success : Bool)
    (hidle : w.client.busy = true → w.channelOpen = false) :
    Tracked (Gatt.reportConnect w success) := by
  have hmodified : Tracked (w.modify fun c => { c with onConnect := false }) :=
    ⟨fun hbusy _ _ => hidle hbusy, h.waits, h.callback, h.matched, h.numbered, h.counted⟩
  exact hmodified.emit trivial

lemma handleMtuResponse (h : Tracked w) (opcode : UInt8) (params : Bytes) :
    Tracked (Gatt.handleMtuResponse w opcode params) := by
  have hsettled := h.settle (negotiatedMtu w.client opcode params)
  unfold Gatt.handleMtuResponse
  dsimp only
  split
  · exact hsettled.reportConnect true nofun
  · exact hsettled

lemma issueCurrentRequest (h : Tracked w) (hbusy : w.client.busy = true) (nowUs : ℕ) :
    Tracked (Gatt.issueCurrentRequest port w nowUs) := by
  have hemitted (sent : Bool) : Tracked (w.emit (.requested (requestPdu w.client) sent)) :=
    h.emit trivial
  refine issueCurrentRequest_cases nowUs (fun _ _ _ => ?_) (fun _ requests => ?_)
    fun hop requests => ?_
  · exact (hemitted true).congr rfl rfl rfl rfl rfl rfl rfl
  · have hrefused : Tracked (w.refused requests) :=
      (hemitted false).congr rfl rfl rfl rfl rfl rfl rfl
    exact hrefused.handleMtuResponse 0 []
  · have hrefused : Tracked (w.refused requests) :=
      (hemitted false).congr rfl rfl rfl rfl rfl rfl rfl
    exact hrefused.complete (hrefused.waits hbusy hop) _ _

lemma startOperation (h : Tracked w) {setup : Client → Client} (onComplete : Bool)
    (hop : (setup w.client).op ≠ .mtu) : Tracked (Gatt.startOperation w setup onComplete) where
  exchange _ hmtu := absurd hmtu hop
  waits _ _ := rfl
  callback n k hn hk := by
    obtain rfl : w.operations = k := Option.some.inj hk
    change (if onComplete then some w.operations else none) = some n at hn
    split at hn
    · exact (Option.some.inj hn).symm
    · cases hn
  matched := h.matched.cons nofun
  numbered := by
    refine h.numbered.cons ?_
    rintro n haccepted
    rw [← Event.accepted.inj haccepted]
    exact h.counted
  counted := by
    refine Eq.trans ?_ (acceptances_accepted w.operations).symm
    exact congrArg (· + 1) h.counted

lemma dispatchResponse (h : Tracked w) (hopen : w.channelOpen = true)
    (hconnect : w.client.onConnect = false) (hbusy : w.client.busy = true) (opcode : UInt8)
    (params : Bytes) (nowUs : ℕ) :
    Tracked (Gatt.dispatchResponse port w opcode params nowUs) := by
  have hop : w.client.op ≠ .mtu := fun hmtu => by
    rw [h.exchange hbusy hmtu hconnect] at hopen
    cases hopen
  obtain ⟨found, value, result, code, hdone⟩ | ⟨c, hcontinues, hnext⟩ :=
    dispatchResponse_cases hop opcode params nowUs
  · rw [hdone]
    have hsame : Tracked (w.modify fun c => { c with found, value }) :=
      h.congr rfl rfl rfl rfl rfl rfl rfl
    exact hsame.complete (h.waits hbusy hop) result code
  · rw [hnext]
    have hsame : Tracked { w with client := c } := by
      cases hcontinues <;> exact h.congr rfl rfl rfl rfl rfl rfl rfl
    refine hsame.issueCurrentRequest ?_ nowUs
    cases hcontinues <;> exact hbusy

lemma onClosed (h : Tracked w) (hopen : w.channelOpen = true) :
    Tracked (Gatt.onClosed { w with channelOpen := false }) := by
  have hclosed : Tracked ({ w with channelOpen := false }.modify fun c =>
      { c with channelReady := false }) :=
    ⟨fun _ _ _ => rfl, h.waits, h.callback, h.matched, h.numbered, h.counted⟩
  refine onClosed_cases ?_ (fun hconnect hbusy => ?_) hclosed
  · exact hclosed.reportConnect false fun _ => rfl
  · have hop : w.client.op ≠ .mtu := fun hmtu => by
      rw [h.exchange hbusy hmtu hconnect] at hopen
      cases hopen
    exact hclosed.complete (h.waits hbusy hop) _ _

lemma appendHistory (h : Tracked w) {events : List Event} (he : ∀ e ∈ events, e.Neutral) :
    Tracked { w with history := events ++ w.history } := by
  induction events with
  | nil => exact h
  | cons e events ih =>
    obtain ⟨hhead, htail⟩ := List.forall_mem_cons.mp he
    exact (ih htail).emit hhead

end Tracked

def Input.ReportsConnect : Input → Prop
  | .connect onConnect _ _ => onConnect = true
  | _ => True

def Stale (w : World) : Input → Prop
  | .tick nowUs => w.client.expired nowUs = true ∧ w.client.onConnect = false ∧
      w.client.op = .mtu ∧ w.client.onComplete ≠ none ∧ outstanding w.history = none
  | _ => False

variable {port : ℕ → Bool} {w : World} {input : Input}

lemma expired_busy {c : Client} {nowUs : ℕ} (h : c.expired nowUs = true) : c.busy = true := by
  simp only [Client.expired, Bool.and_eq_true] at h
  exact h.1.1

lemma Tracked.apply (h : Tracked w) (hreports : input.ReportsConnect) (hstale : ¬ Stale w input) :
    Tracked (apply port w input) := by
  generalize hw : Gatt.apply port w input = w'
  have hstep := apply_step port w input
  rw [hw] at hstep
  cases hstep with
  | ignored => exact h
  | notifyHandler | unready | unsolicited => exact h.congr rfl rfl rfl rfl rfl rfl rfl
  | unopened onConnect granted nowUs =>
    obtain rfl : onConnect = true := hreports
    exact ⟨nofun, h.waits, h.callback, h.matched, h.numbered, h.counted⟩
  | opened onConnect granted nowUs hclosed =>
    obtain rfl : onConnect = true := hreports
    have hopening : Tracked (opening w true nowUs) :=
      ⟨nofun, fun _ hop => absurd rfl hop, h.callback, h.matched, h.numbered, h.counted⟩
    exact hopening.issueCurrentRequest rfl nowUs
  | closed _ hopen => exact h.onClosed hopen
  | @notification opcode params nowUs hopen hop =>
    have harrived : Tracked (arrived w nowUs) := h.congr rfl rfl rfl rfl rfl rfl rfl
    rw [handleNotification_eq]
    refine harrived.appendHistory fun e he => ?_
    obtain hconfirmed | ⟨handle, value, hnotified⟩ := mem_notificationEvents he
    · rw [hconfirmed]
      trivial
    · rw [hnotified]
      trivial
  | @exchanged opcode params nowUs hopen hop hconnect =>
    have harrived : Tracked (arrived w nowUs) := h.congr rfl rfl rfl rfl rfl rfl rfl
    exact harrived.handleMtuResponse opcode params
  | @response opcode params nowUs hopen hop hconnect hbusy =>
    have harrived : Tracked (arrived w nowUs) := h.congr rfl rfl rfl rfl rfl rfl rfl
    exact harrived.dispatchResponse hopen hconnect hbusy opcode params nowUs
  | @begun _ setup onComplete nowUs hsetup hready hidle =>
    obtain ⟨op, pendingHandle, discoverRangeEnd, found, value, hop, hset⟩ :=
      Input.setup_spec hsetup w.client
    have hstart : Tracked (Gatt.startOperation w setup onComplete) :=
      h.startOperation onComplete (by rw [hset]; exact hop)
    exact hstart.issueCurrentRequest rfl nowUs
  | mtuExpired hexpired hconnect => exact h.handleMtuResponse 0 []
  | @expired nowUs hexpired hconnect =>
    by_cases hwaits : (outstanding w.history).isSome = true
    · exact h.complete hwaits _ _
    · -- with nothing outstanding only the exchange of MTUs can be in progress
      have hnone := Option.not_isSome_iff_eq_none.mp hwaits
      have hop : w.client.op = .mtu := by
        by_contra hop
        exact hwaits (h.waits (expired_busy hexpired) hop)
      have hcallback : w.client.onComplete = none := by
        by_contra hcallback
        exact hstale ⟨hexpired, hconnect, hop, hcallback, hnone⟩
      have hdone : Gatt.complete w .errorTimeout 0 = w.modify Client.settle := by
        simp only [Gatt.complete, hcallback]
      rw [hdone]
      exact h.settle w.client.mtu

lemma Stale.not_calledOnce (h : Stale w input) : ¬ CalledOnce (apply port w input).history := by
  cases input with
  | tick nowUs =>
    obtain ⟨hexpired, hconnect, -, hcallback, hnone⟩ := h
    obtain ⟨n, hn⟩ := Option.ne_none_iff_exists'.mp hcallback
    rintro ⟨hmatched, -⟩
    have hhistory : (Gatt.apply port w (.tick nowUs)).history =
        .completed n (completionOf w.client .errorTimeout 0) :: w.history := by
      simp only [Gatt.apply, tick, hexpired, hconnect, Gatt.complete, hn]
      rfl
    rw [hhistory] at hmatched
    have hmatch := hmatched.head n _ rfl
    rw [hnone] at hmatch
    cases hmatch
  | _ => exact h.elim

/-- In every run whose connect calls have a callback: completions are for outstanding operations
only, and each operation completes at most once, exactly as long as no deadline is stale. -/
theorem run_calledOnce_iff (port : ℕ → Bool) (inputs : List Input)
    (hconnect : ∀ input ∈ inputs, input.ReportsConnect) :
    (∀ done rest, done ++ rest = inputs → CalledOnce (run port done).history) ↔
      ∀ done input rest, done ++ input :: rest = inputs → ¬ Stale (run port done) input := by
  refine ⟨foldl_good_of_along (P := fun w : World => CalledOnce w.history)
    fun done input => Stale.not_calledOnce, ?_⟩
  intro hgood done rest hinputs
  have hkeeps (w : World) (input : Input) (hmem : input ∈ inputs) (h : Tracked w)
      (hok : ¬ Stale w input) : Tracked (apply port w input) := h.apply (hconnect input hmem) hok
  exact (foldl_invariant_along init_tracked hkeeps hgood done rest hinputs).calledOnce

/-! A write completes, and the channel is opened again and lost while MTUs are exchanged. -/

def plainWrite : List Input :=
  [.connect true true 0, .data [0x03, 23, 0] 1, .write 3 [7] true 2, .data [0x13] 3]

theorem plainWrite_calledOnce : (∀ input ∈ plainWrite, input.ReportsConnect) ∧
    ∀ done rest, done ++ rest = plainWrite → CalledOnce (run (fun _ => true) done).history := by
  have hconnect : ∀ input ∈ plainWrite, input.ReportsConnect := by
    simp [plainWrite, Input.ReportsConnect]
  refine ⟨hconnect, (run_calledOnce_iff (fun _ => true) plainWrite hconnect).mpr ?_⟩
  · intro done input rest hinputs hstale
    have hmem : input ∈ plainWrite := by rw [← hinputs]; simp
    simp only [plainWrite, List.mem_cons, List.not_mem_nil, or_false] at hmem
    obtain rfl | rfl | rfl | rfl := hmem <;> exact hstale

def abandonedExchange : List Input :=
  plainWrite ++ [.disconnect, .connect true true 4, .closed, .tick 40000000]

/-- The callback of the write is called again when the exchange times out. -/
theorem abandonedExchange_calledTwice :
    let w := run (fun _ => true) abandonedExchange
    completions w.history = [0, 0] ∧ ¬ CalledOnce w.history := by
  have hcompletions : completions (run (fun _ => true) abandonedExchange).history = [0, 0] := by
    decide +kernel
  refine ⟨hcompletions, fun honce => ?_⟩
  have hnodup := honce.2
  exact absurd hnodup (by decide)

end Bluzing.Gatt
