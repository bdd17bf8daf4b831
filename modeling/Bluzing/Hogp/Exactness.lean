import Bluzing.Gatt.Exactness
import Bluzing.Hogp.Subscription

/-! Discovery of an honest server: whatever else the run holds, a discovery of the attribute client
that completes without an error has given this client what the table of the server holds. -/
namespace Bluzing.Hogp
open List

def Call.query? : Call → Option Gatt.Query
  | .discoverServices => some .services
  | .discoverCharacteristics startHandle endHandle => some (.characteristics startHandle endHandle)
  | .discoverDescriptors startHandle endHandle => some (.descriptors startHandle endHandle)
  | .read _ | .write _ _ => none

structure Exact (table : Gatt.Table) (w : World) : Prop where
  searching : w.gatt.Active → ∀ call cb query, w.pending = some (call, cb) →
    call.query? = some query → Gatt.Searching table query w.gatt
  answers : ∀ call completion query, .answered call completion ∈ w.history →
    completion.result = .ok → call.query? = some query →
      completion.found = query.expected table

def Input.Answering (table : Gatt.Table) (w : World) : Input → Prop
  | .gatt input => Gatt.Answering table w.gatt input
  | .setEventHandler _ | .discover _ _ _ | .writeReport _ _ _ _ _ |
    .writeBootKeyboardOutput _ _ _ | .setProtocolMode _ _ _ => True

def Served (table : Gatt.Table) (env : Env) (inputs : List Input) : Prop :=
  ∀ done input rest, done ++ input :: rest = inputs → input.Answering table (run env done)

variable {port : ℕ → Bool} {g g' : Gatt.World} {call : Call} {query : Gatt.Query}

lemma issue_searching (table : Gatt.Table) (nowUs : ℕ)
    (hissue : call.issue port g nowUs = (g', .ok)) (hquery : call.query? = some query)
    (hactive : g'.Active) : Gatt.Searching table query g' := by
  have hbegun (hbegin : Gatt.beginOperation port g (.setDiscovery query.kind.op query.startHandle
      query.endHandle) true nowUs = (g', .ok)) : Gatt.Searching table query g' := by
    have hsearching := Gatt.beginOperation_searching (w := g) port table query true nowUs
      (by rw [hbegin])
    rw [hbegin] at hsearching
    exact hsearching hactive
  cases call with
  | discoverServices | discoverCharacteristics =>
    obtain rfl := Option.some.inj hquery
    exact hbegun hissue
  | discoverDescriptors =>
    obtain rfl := Option.some.inj hquery
    dsimp only [Call.issue, Gatt.discoverDescriptors] at hissue
    split at hissue
    · cases hissue
    · exact hbegun hissue
  | read | write => cases hquery

variable {env : Env} {table : Gatt.Table} {w w' : World} {cb : Callback}

namespace Exact

lemma emit (h : Exact table w) {e : Event} (he : e.isAnswered = false) :
    Exact table (w.emit e) := by
  refine ⟨h.searching, fun call completion query hmem => h.answers call completion query ?_⟩
  rcases mem_cons.mp hmem with rfl | hmem
  · cases he
  · exact hmem

lemma answered (h : Exact table w) {completion : Gatt.Completion}
    (hexact : completion.result = .ok → ∀ query, call.query? = some query →
      completion.found = query.expected table) :
    Exact table (w.emit (.answered call completion)) := by
  refine ⟨h.searching, fun call' completion' query hmem hok hquery => ?_⟩
  rcases mem_cons.mp hmem with hnew | hmem
  · obtain ⟨rfl, rfl⟩ := Event.answered.inj hnew
    exact hexact hok query hquery
  · exact h.answers call' completion' query hmem hok hquery

lemma passive (h : Exact table w) (hp : Passive w w') : Exact table w' := by
  refine ⟨fun hactive call cb query hpending => ?_, fun call completion query hmem => ?_⟩
  · rw [hp.gatt] at hactive ⊢
    rw [hp.pending] at hpending
    exact h.searching hactive call cb query hpending
  · obtain ⟨newer, hnewer, hheard⟩ := hp.history.exists_append
    rw [hnewer] at hmem
    rcases mem_append.mp hmem with hmem | hmem
    · cases hheard _ hmem
    · exact h.answers call completion query hmem

lemma move (h : Exact table w) (hmove : Move env w w') : Exact table w' := by
  cases hmove with
  | client | characteristics => exact ⟨h.searching, h.answers⟩
  | emit he => exact h.emit he
  | @issued g call cb nowUs hissue =>
    have hissued : Exact table { w with gatt := g, pending := some (call, cb) } := by
      refine ⟨fun hactive call' cb' query hpending hquery => ?_, h.answers⟩
      obtain ⟨rfl, rfl⟩ := Prod.mk.inj (Option.some.inj hpending)
      exact issue_searching table nowUs hissue hquery hactive
    exact hissued.emit rfl
  | @failed g call cb completion hidle hfailed =>
    have hissued : Exact table { w with gatt := g, pending := some (call, cb) } :=
      ⟨fun hactive => absurd hactive (Gatt.not_active_of_idle hidle), h.answers⟩
    exact (hissued.emit rfl).answered fun hok => absurd hok hfailed
  | listens hidle =>
    exact ⟨fun hactive => absurd hactive (Gatt.not_active_of_idle hidle), h.answers⟩

lemma moves (h : Exact table w) (hmoves : Moves env w w') : Exact table w' :=
  hmoves.invariant (fun hmove hw => hw.move hmove) h

end Exact

lemma applyGatt_exact (h : Exact table w) {input : Gatt.Input}
    (hanswering : Gatt.Answering table w.gatt input) : Exact table (applyGatt env w input) := by
  have houtcome := Gatt.apply_outcome env.port w.gatt input
  have hsearched (hactive : w.gatt.Active) {call : Call} {cb : Callback} {query : Gatt.Query}
      (hpending : w.pending = some (call, cb)) (hquery : call.query? = some query) :=
    Gatt.apply_searched env.port hactive (h.searching hactive call cb query hpending hquery)
      hanswering
  have hanswers : ∀ call completion query,
      .answered call completion ∈ (w.noteInput input).history → completion.result = .ok →
        call.query? = some query → completion.found = query.expected table := by
    cases input with
    | data pdu nowUs => exact (h.emit (e := .received pdu) rfl).answers
    | _ => exact h.answers
  unfold applyGatt
  dsimp only
  generalize Gatt.apply env.port w.gatt input = g at *
  have hidle (hbusy : g.client.busy = false) (pending : Option (Call × Callback)) :
      Exact table { w.noteInput input with gatt := g, pending } :=
    ⟨fun hactive => absurd hactive (Gatt.not_active_of_idle hbusy), hanswers⟩
  cases houtcome with
  | quiet events hhistory hquiet hoperations hactive =>
    rw [newEvents_append _ hhistory, if_pos hoperations]
    have hnext : Exact table { w.noteInput input with gatt := g, pending := w.pending } :=
      ⟨fun hg call cb query hpending hquery =>
        (hsearched (hactive hg).1 hpending hquery).next hg, hanswers⟩
    exact hnext.passive (foldl_observe_passive env _ fun e he => hquiet e (mem_reverse.mp he))
  | begun events hhistory hoperations =>
    rw [newEvents_append _ hhistory, if_neg (by omega)]
    have hunowned : Exact table { w.noteInput input with gatt := g, pending := none } :=
      ⟨fun _ _ _ _ hnone => (nomatch hnone), hanswers⟩
    exact hunowned.passive (foldl_observe_unowned rfl _)
  | @failed n completion events hhistory hquiet hoperations hbusy hfailed =>
    rw [newEvents_append (.completed n completion :: events) hhistory, if_pos hoperations,
      reverse_cons, foldl_append]
    have hpassive := foldl_observe_passive env
      { w.noteInput input with gatt := g, pending := w.pending }
      fun e he => hquiet e (mem_reverse.mp he)
    have hv := (hidle hbusy w.pending).passive hpassive
    rw [foldl_cons, foldl_nil]
    dsimp only [observe]
    split
    · exact hv
    · exact (hv.answered fun hok => absurd hok hfailed).moves (Moves.handle _ completion _)
  | @answered n completion opcode params nowUs hinput hactive hhistory hoperations hbusy _ =>
    rw [newEvents_append [.completed n completion] hhistory, if_pos hoperations,
      reverse_singleton, foldl_cons, foldl_nil]
    dsimp only [observe]
    have hv := hidle hbusy w.pending
    split
    · exact hv
    next call cb hpending =>
      refine (hv.answered fun hok query hquery => ?_).moves (Moves.handle _ completion cb)
      exact (hsearched hactive hpending hquery).completed n completion hhistory hok

lemma apply_exact (w : World) (input : Input) (h : Exact table w)
    (hanswering : input.Answering table w) : Exact table (apply env w input) := by
  obtain ⟨gattInput, rfl⟩ | hmoves := Moves.apply env w input
  · exact applyGatt_exact h hanswering
  · exact h.moves hmoves

lemma run_exact {inputs : List Input} (h : Served table env inputs) :
    Exact table (run env inputs) := by
  have hinit : Exact table World.init :=
    ⟨fun _ _ _ _ hnone => (nomatch hnone), fun _ _ _ hmem => (nomatch hmem)⟩
  have hkeeps (w : World) (input : Input) (_ : input ∈ inputs) (hw : Exact table w)
      (hgood : ¬ ¬ Input.Answering table w input) : Exact table (apply env w input) :=
    apply_exact w input hw (not_not.mp hgood)
  exact foldl_invariant_along hinit hkeeps
    (fun done input rest hinputs => not_not.mpr (h done input rest hinputs)) inputs []
    (append_nil inputs)

end Bluzing.Hogp
