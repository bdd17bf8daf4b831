import Bluzing.Gatt.Alike

/-! Notifications and indications are handled aside: a run in which some are inserted sends the same
requests and delivers the same completions. -/
namespace Bluzing.Gatt

def World.withPast (w : World) (eventNowUs : ℕ) (history : List Event) : World :=
  { w with client := { w.client with eventNowUs }, history }

def Oblivious (f : World → World) : Prop :=
  ∀ w t h, ∃ t' events, (f w).history = events ++ w.history ∧
    f (w.withPast t h) = (f w).withPast t' (events ++ h)

variable (port : ℕ → Bool)

lemma apply_oblivious (input : Input) : Oblivious (apply port · input) := by
  intro w t h
  have halike : Alike Eq w.history h w (w.withPast t h) :=
    .recast t w.client.connectStartedUs [] rfl rfl
  have happly := apply_respects port (fun _ => rfl) input _ _ halike
  dsimp only at happly ⊢
  generalize apply port (w.withPast t h) input = w' at happly
  obtain ⟨t', s, events, hevents, hstarted⟩ := happly
  subst hstarted
  exact ⟨t', events, hevents, rfl⟩

structure Notice where
  isIndication : Bool
  params : Bytes
  nowUs : ℕ

def Notice.opcode (n : Notice) : UInt8 :=
  if n.isIndication then opcodeHandleValueIndication else opcodeHandleValueNotification

def Notice.input (n : Notice) : Input := .data (n.opcode :: n.params) n.nowUs

def Notice.events (n : Notice) (w : World) : List Event :=
  if w.channelOpen then notificationEvents w.client.onNotify n.isIndication n.params else []

def Event.isNotice : Event → Bool
  | .confirmed _ | .notified _ _ _ => true
  | .requested _ _ | .accepted _ | .completed _ _ | .connected _ => false

def Event.isConfirmation : Event → Bool
  | .confirmed _ => true
  | _ => false

def withoutNotices (stream : List (Input ⊕ Notice)) : List Input := stream.filterMap Sum.getLeft?

def withNotices (stream : List (Input ⊕ Notice)) : List Input :=
  stream.map (Sum.elim id Notice.input)

def noticeEvents (w : World) : List (Input ⊕ Notice) → List Event
  | [] => []
  | .inl input :: stream => noticeEvents (apply port w input) stream
  | .inr n :: stream => noticeEvents w stream ++ n.events w

def indications (w : World) : List (Input ⊕ Notice) → ℕ
  | [] => 0
  | .inl input :: stream => indications (apply port w input) stream
  | .inr n :: stream => indications w stream + (w.channelOpen && n.isIndication).toNat

lemma Notice.apply_input (n : Notice) (w : World) :
    ∃ t, apply port w n.input = w.withPast t (n.events w ++ w.history) := by
  have hop : n.opcode = opcodeHandleValueNotification ∨ n.opcode = opcodeHandleValueIndication := by
    unfold Notice.opcode
    cases n.isIndication <;> decide
  have hkind : decide (n.opcode = opcodeHandleValueIndication) = n.isIndication := by
    unfold Notice.opcode
    cases n.isIndication <;> decide
  unfold Notice.events
  dsimp only [apply, Notice.input]
  split
  · refine ⟨n.nowUs, ?_⟩
    rw [handleResponse, if_pos hop, hkind, handleNotification_eq]
    rfl
  · exact ⟨w.client.eventNowUs, rfl⟩

lemma Notice.countP_events (n : Notice) (w : World) :
    (n.events w).countP Event.isConfirmation = (w.channelOpen && n.isIndication).toNat := by
  unfold Notice.events notificationEvents
  cases w.channelOpen with
  | false => rfl
  | true =>
    cases n.isIndication <;> cases parseHandleValue n.params <;> cases w.client.onNotify <;> rfl

structure Adds (added old new : List Event) : Prop where
  sublist : old.Sublist new
  perm : new.Perm (added ++ old)

variable (stream : List (Input ⊕ Notice)) (w : World)

lemma foldl_withNotices (t : ℕ) {added h : List Event} (hadds : Adds added w.history h) :
    ∃ t' h', (withNotices stream).foldl (apply port) (w.withPast t h) =
        ((withoutNotices stream).foldl (apply port) w).withPast t' h' ∧
      Adds (noticeEvents port w stream ++ added)
        ((withoutNotices stream).foldl (apply port) w).history h' := by
  induction stream generalizing w t added h with
  | nil => exact ⟨t, h, rfl, hadds⟩
  | cons x stream ih =>
    cases x with
    | inl input =>
      obtain ⟨t', events, hhistory, hpast⟩ := apply_oblivious port input w t h
      have hnext : Adds added (apply port w input).history (events ++ h) := by
        rw [hhistory]
        refine ⟨hadds.sublist.append_left events, ?_⟩
        exact (hadds.perm.append_left events).trans (List.perm_append_comm_assoc _ _ _)
      obtain ⟨t'', h', hrun, hdone⟩ := ih (apply port w input) t' hnext
      rw [← hpast] at hrun
      exact ⟨t'', h', hrun, hdone⟩
    | inr n =>
      obtain ⟨t', hpast⟩ := n.apply_input port (w.withPast t h)
      have hnext : Adds (n.events w ++ added) w.history (n.events w ++ h) := by
        refine ⟨hadds.sublist.trans (List.sublist_append_right _ _), ?_⟩
        rw [List.append_assoc]
        exact hadds.perm.append_left _
      obtain ⟨t'', h', hrun, hdone⟩ := ih w t' hnext
      rw [← List.append_assoc] at hdone
      have hstep : apply port (w.withPast t h) n.input = w.withPast t' (n.events w ++ h) := hpast
      rw [← hstep] at hrun
      exact ⟨t'', h', hrun, hdone⟩

lemma noticeEvents_isNotice : ∀ e ∈ noticeEvents port w stream, e.isNotice = true := by
  induction stream generalizing w with
  | nil => exact List.forall_mem_nil _
  | cons x stream ih =>
    cases x with
    | inl input => exact ih (apply port w input)
    | inr n =>
      intro e he
      obtain hlater | hnow := List.mem_append.mp he
      · exact ih w e hlater
      · unfold Notice.events at hnow
        split at hnow
        · obtain rfl | ⟨handle, value, rfl⟩ := mem_notificationEvents hnow
          · rfl
          · rfl
        · cases hnow

lemma countP_noticeEvents :
    (noticeEvents port w stream).countP Event.isConfirmation = indications port w stream := by
  induction stream generalizing w with
  | nil => rfl
  | cons x stream ih =>
    cases x with
    | inl input => exact ih (apply port w input)
    | inr n => rw [noticeEvents, indications, List.countP_append, ih, n.countP_events]

lemma Adds.filter_eq {added old new : List Event} (h : Adds added old new)
    (hadded : ∀ e ∈ added, e.isNotice = true) :
    new.filter (!·.isNotice) = old.filter (!·.isNotice) := by
  have hnone : added.filter (!·.isNotice) = [] := by
    simpa [List.filter_eq_nil_iff] using hadded
  have hperm := h.perm.filter (!·.isNotice)
  rw [List.filter_append, hnone, List.nil_append] at hperm
  exact ((h.sublist.filter _).eq_of_length hperm.length_eq.symm).symm

/-- Notices that are inserted anywhere in a run leave the client and the channel as they are without
them, but for the time of the last arrival; they change no request, completion or other event, and
add their own: the calls of the handler and one confirmation for each indication delivered. -/
theorem run_withNotices (stream : List (Input ⊕ Notice)) :
    let w := run port (withoutNotices stream)
    let w' := run port (withNotices stream)
    let added := noticeEvents port World.init stream
    (∃ t, w' = w.withPast t w'.history) ∧
      w'.history.filter (!·.isNotice) = w.history.filter (!·.isNotice) ∧
      w.history.Sublist w'.history ∧ w'.history.Perm (added ++ w.history) ∧
      (∀ e ∈ added, e.isNotice = true) ∧
      added.countP Event.isConfirmation = indications port World.init stream := by
  have hinit : Adds [] World.init.history World.init.history := ⟨List.Sublist.refl _, .refl _⟩
  obtain ⟨t, h, hrun, hadds⟩ := foldl_withNotices port stream World.init 0 hinit
  have hrun' := hrun
  have hnotices := noticeEvents_isNotice port stream World.init
  rw [List.append_nil] at hadds
  intro w w' added
  have hhistory : w'.history = h := congrArg World.history hrun'
  rw [hhistory]
  exact ⟨⟨t, hrun'⟩, hadds.filter_eq hnotices, hadds.sublist, hadds.perm, hnotices,
    countP_noticeEvents port stream World.init⟩

end Bluzing.Gatt
