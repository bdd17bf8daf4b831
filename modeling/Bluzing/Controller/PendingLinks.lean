import Bluzing.Controller.QueueInvariant
import Bluzing.Core.EventQueue

/-! The pending commands of `bt_cmdq` on the links of its intrusive queue. -/
namespace Bluzing.Controller
open EventQueues Function List
variable {κ σ : Type} {w : World κ σ} {links : EventQueues Unit SlotId} {i : SlotId}

/-- The links of the queue are the list of the pending slots. -/
def Linked (links : EventQueues Unit SlotId) (w : World κ σ) : Prop :=
  Holds links fun _ => w.q.pending

lemma findFreeSlot_free (h : findFreeSlot w.q = some i) : (w.slot i).inUse = false := by
  have hfree := find?_some h
  simpa [World.slot] using hfree

lemma QueueShape.free_notMem (h : QueueShape w) (hfree : findFreeSlot w.q = some i) :
    i ∉ w.q.pending := by
  intro hmem
  have hused := (h.slots i).mpr (.inl hmem)
  rw [findFreeSlot_free hfree] at hused
  cases hused

lemma holds_push {pending : List SlotId} (h : Holds links fun _ => pending)
    (hnew : i ∉ pending) : Holds (links.push () i) fun _ => pending ++ [i] := by
  have hpush := h.push (k := ()) fun _ => hnew
  have heq : update (fun _ : Unit => pending) () (pending ++ [i]) =
      fun _ => pending ++ [i] := funext fun _ => update_self ..
  rwa [heq] at hpush

lemma holds_pop {pending : List SlotId} (h : Holds links fun _ => pending) :
    (links.pop ()).1 = pending.head? ∧ Holds (links.pop ()).2 fun _ => pending.tail := by
  obtain ⟨hhead, hpop⟩ := h.pop ()
  have heq : update (fun _ : Unit => pending) () pending.tail = fun _ => pending.tail :=
    funext fun _ => update_self ..
  rw [heq] at hpop
  exact ⟨hhead, hpop⟩

lemma exists_holds {pending : List SlotId} (h : pending.Nodup) :
    ∃ links : EventQueues Unit SlotId, Holds links fun _ => pending := by
  induction pending using reverseRecOn with
  | nil =>
    exact ⟨.init, fun _ => rfl, fun _ => rfl, fun _ => h, fun _ _ hk => absurd rfl hk⟩
  | append_singleton pending i ih =>
    obtain ⟨hpending, -, hdisjoint⟩ := nodup_append.mp h
    obtain ⟨links, hlinks⟩ := ih hpending
    exact ⟨_, holds_push hlinks fun hmem => hdisjoint i hmem i (mem_singleton_self i) rfl⟩

/-- After any run the pending commands have links that stand for them, and any such links still do
so after the push of `bt_cmdq_submit`, whose slot is never linked already, and after the pop of
`bt_cmdq_pump`, which finds the command that is next. -/
theorem run_linked (env : QueueEnv) (depth : ℕ) (inputs : List QueueInput) :
    (∃ links, Linked links (runQueue env depth inputs)) ∧
    ∀ links, Linked links (runQueue env depth inputs) →
      (∀ i slot, findFreeSlot (runQueue env depth inputs).q = some i →
        Linked (links.push () i) ((runQueue env depth inputs).enqueue i slot)) ∧
      ((links.queue ()).head = none ↔ (runQueue env depth inputs).q.pending = []) ∧
      (links.pop ()).1 = (runQueue env depth inputs).q.pending.head? ∧ Linked (links.pop ()).2
        ((runQueue env depth inputs).dequeue (runQueue env depth inputs).q.pending.tail) := by
  have hinv : QueueInv (runQueue env depth inputs) :=
    foldl_invariant (applyQueue_inv depth) inputs (init_inv 0)
  have hshape := hinv.toQueueShape
  refine ⟨exists_holds hshape.nodup, fun links h => ⟨fun i slot hfree => ?_, ?_, ?_⟩⟩
  · exact holds_push h (hshape.free_notMem hfree)
  · exact (h.chain ()).eq_none_iff
  · exact holds_pop h

end Bluzing.Controller
