import Bluzing.Controller.BringUp

/-! Discovery calls that fail (`core/controller/controller.c`). -/
namespace Bluzing.Controller

def Cmdq.Full {κ : Type} (q : Cmdq κ) : Prop := ∀ i, (q.pool i).inUse = true

instance {κ : Type} (q : Cmdq κ) : Decidable q.Full :=
  inferInstanceAs (Decidable (∀ i, (q.pool i).inUse = true))

variable {w : Ctrl} {commands : List (UInt16 × Bytes)}

lemma findFreeSlot_eq_none_iff (q : Cmdq OnComplete) : findFreeSlot q = none ↔ q.Full := by
  simp [findFreeSlot, Cmdq.Full]

lemma cmdqSubmit_some (w : Ctrl) (opcode : UInt16) (params : Bytes) (paramsLen : UInt8)
    (timeoutUs : ℕ) (onComplete : Option OnComplete) :
    cmdqSubmit w opcode (some params) paramsLen timeoutUs onComplete =
      match findFreeSlot w.q with
      | none => (w, .noResources)
      | some i => (w.enqueue i (.submitted opcode (some params) paramsLen timeoutUs onComplete
          w.submissions), .ok) :=
  if_neg fun h => nomatch h.2

lemma submitDiscovery_full (hfull : w.q.Full) (hne : commands ≠ []) :
    submitDiscovery w commands = (w, .noResources) := by
  cases commands with
  | nil => exact absurd rfl hne
  | cons command commands =>
    rw [submitDiscovery, cmdqSubmit_some, (findFreeSlot_eq_none_iff w.q).mpr hfull]
    rfl

lemma submitDiscovery_cons (hfree : ¬ w.q.Full) (command : UInt16 × Bytes)
    (commands : List (UInt16 × Bytes)) :
    ∃ w' i, w'.q.pending = w.q.pending ++ [i] ∧
      submitDiscovery w (command :: commands) = submitDiscovery w' commands := by
  rw [submitDiscovery, cmdqSubmit_some]
  cases hslot : findFreeSlot w.q with
  | none => exact absurd ((findFreeSlot_eq_none_iff w.q).mp hslot) hfree
  | some i => exact ⟨_, i, rfl, if_neg fun hne => hne rfl⟩

lemma submitDiscovery_pending (w : Ctrl) (commands : List (UInt16 × Bytes)) :
    ∃ queued, (submitDiscovery w commands).1.q.pending = w.q.pending ++ queued := by
  induction commands generalizing w with
  | nil => exact ⟨[], (List.append_nil _).symm⟩
  | cons command commands ih =>
    by_cases hfull : w.q.Full
    · rw [submitDiscovery_full hfull (List.cons_ne_nil _ _)]
      exact ⟨[], (List.append_nil _).symm⟩
    · obtain ⟨w', i, hpending, hrest⟩ := submitDiscovery_cons hfull command commands
      obtain ⟨queued, hqueued⟩ := ih w'
      rw [hrest, hqueued, hpending, List.append_assoc]
      exact ⟨_, rfl⟩

lemma submitDiscovery_free (hfree : ¬ w.q.Full) (hne : commands ≠ []) :
    (submitDiscovery w commands).1.q ≠ w.q := by
  cases commands with
  | nil => exact absurd rfl hne
  | cons command commands =>
    obtain ⟨w', i, hpending, hrest⟩ := submitDiscovery_cons hfree command commands
    obtain ⟨queued, hqueued⟩ := submitDiscovery_pending w' commands
    intro hq
    rw [hrest] at hq
    rw [hq, hpending] at hqueued
    have hlen := congrArg List.length hqueued
    simp at hlen

variable {send : Send OnComplete Host} {fuel nowUs : ℕ}

lemma discoveryCall_error (hready : w.host.state = .ready)
    (herror : (discoveryCall send fuel w commands nowUs).2 ≠ .ok) :
    discoveryCall send fuel w commands nowUs = submitDiscovery w commands ∧
      (submitDiscovery w commands).2 ≠ .ok := by
  unfold discoveryCall at herror ⊢
  rw [if_neg (fun hne => hne hready)] at herror ⊢
  dsimp only at herror ⊢
  split at herror
  next hrefused => exact ⟨if_pos hrefused, hrefused⟩
  · exact absurd rfl herror

lemma discoveryCall_unchanged_iff (hready : w.host.state = .ready) (hne : commands ≠ [])
    (herror : (discoveryCall send fuel w commands nowUs).2 ≠ .ok) :
    (discoveryCall send fuel w commands nowUs).1.q = w.q ↔ w.q.Full := by
  rw [(discoveryCall_error hready herror).1]
  constructor
  · exact fun hq => by_contra fun hfree => submitDiscovery_free hfree hne hq
  · intro hfull
    rw [submitDiscovery_full hfull hne]

lemma discoveryCall_single {command : UInt16 × Bytes} (hready : w.host.state = .ready)
    (herror : (discoveryCall send fuel w [command] nowUs).2 ≠ .ok) : w.q.Full := by
  by_contra hfree
  obtain ⟨w', i, -, hrest⟩ := submitDiscovery_cons hfree command []
  refine (discoveryCall_error hready herror).2 ?_
  rw [hrest]
  rfl

/-- What a failing discovery call of a ready controller leaves of the command queue: the calls that
submit two commands leave it as it was exactly if every slot was in use, and the one that submits a
single command always does. -/
theorem discovery_error_unchanged_iff (send : Send OnComplete Host) (fuel : ℕ) (w : Ctrl)
    (inquiryLength : UInt8) (nowUs : ℕ) (hready : w.host.state = .ready) :
    ((controllerStartClassicInquiry send fuel w inquiryLength nowUs).2 ≠ .ok →
      ((controllerStartClassicInquiry send fuel w inquiryLength nowUs).1.q = w.q ↔ w.q.Full)) ∧
    ((controllerStartLeScan send fuel w nowUs).2 ≠ .ok →
      ((controllerStartLeScan send fuel w nowUs).1.q = w.q ↔ w.q.Full)) ∧
    ((controllerStopLeScan send fuel w nowUs).2 ≠ .ok →
      (controllerStopLeScan send fuel w nowUs).1.q = w.q) :=
  ⟨discoveryCall_unchanged_iff hready (List.cons_ne_nil _ _),
    discoveryCall_unchanged_iff hready (List.cons_ne_nil _ _),
    fun herror => (discoveryCall_unchanged_iff hready (List.cons_ne_nil _ _) herror).mpr
      (discoveryCall_single hready herror)⟩

def threeQueued : Ctrl :=
  runController promptController 4 0 [.start 0, .stopLeScan 1, .startLeScan 2]

theorem fullQueue_unchanged :
    (controllerStartLeScan (sendAt promptController 4) 8
      (controllerStopLeScan (sendAt promptController 4) 8 threeQueued 3).1 4).1.q =
      (controllerStopLeScan (sendAt promptController 4) 8 threeQueued 3).1.q :=
  ((discovery_error_unchanged_iff (sendAt promptController 4) 8
    (controllerStopLeScan (sendAt promptController 4) 8 threeQueued 3).1 0 4
    (by decide +kernel)).2.1 (by decide +kernel)).mpr (by decide +kernel)

/-- The inquiry finds one free slot: Write Inquiry Mode is queued in it, and the call fails. -/
theorem threeQueued_half_done :
    threeQueued.host.state = .ready ∧
    (controllerStartClassicInquiry (sendAt promptController 4) 8 threeQueued 8 3).2 =
      .noResources ∧
    threeQueued.q.pending = [1, 2] ∧
    (controllerStartClassicInquiry (sendAt promptController 4) 8 threeQueued 8 3).1.q.pending =
      [1, 2, 3] ∧
    ((controllerStartClassicInquiry (sendAt promptController 4) 8 threeQueued 8 3).1.slot 3).opcode
      = opcodeWriteInquiryMode := by
  decide +kernel

end Bluzing.Controller
