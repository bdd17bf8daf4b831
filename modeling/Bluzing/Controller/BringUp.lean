import Bluzing.Controller.Controller
import Bluzing.Controller.QueueInvariant

/-! Bring-up (`bt_controller_start` and the callbacks that follow it): a controller is ready only
once its four commands have been sent and answered one after another, and what it has recorded about
itself is what the last three answers say. -/
namespace Bluzing.Controller
open List

def bareCommand (opcode : UInt16) : Bytes := writeLe16 opcode ++ [0]

def Exchanged (answers : Bytes → UInt16 → UInt8 → Bytes → Prop) (opcode : UInt16)
    (returnParams : Bytes) (older h : List Event) : Prop :=
  ∃ serial credits data before rest, older <:+ before ∧
    .sent serial credits (bareCommand opcode) :: before <:+ rest ∧
    .completed serial ⟨.complete, opcode, 0, returnParams⟩ :: .received data :: rest <:+ h ∧
    answers data opcode 0 returnParams

def ReadBack {α : Type} (prior : List Event → Prop) (opcode : UInt16)
    (parse : Bytes → Access α) (value : α) (h : List Event) : Prop :=
  ∃ older returnParams, prior older ∧ Exchanged CompleteAnswers opcode returnParams older h ∧
    parse returnParams = .ok value

def ResetDone (h : List Event) : Prop :=
  ∃ returnParams, Exchanged Answers opcodeReset returnParams [] h

def VersionRead (info : ControllerInfo) : List Event → Prop :=
  ReadBack ResetDone opcodeReadLocalVersionInfo parseLocalVersion info.version

def FeaturesRead (info : ControllerInfo) : List Event → Prop :=
  ReadBack (VersionRead info) opcodeReadLocalSupportedFeatures parseLocalFeatures info.features

def BroughtUp (info : ControllerInfo) : List Event → Prop :=
  ReadBack (FeaturesRead info) opcodeReadBufferSize parseBufferSize info.bufferSize

def Progress (info : ControllerInfo) : ControllerState → List Event → Prop
  | .readingVersion => ResetDone
  | .readingFeatures => VersionRead info
  | .readingBufferSize => FeaturesRead info
  | .ready => BroughtUp info
  | .uninitialized | .resetting | .error => fun _ => True

def awaited : ControllerState → Option (UInt16 × OnComplete)
  | .resetting => some (opcodeReset, .onResetComplete)
  | .readingVersion => some (opcodeReadLocalVersionInfo, .onVersionComplete)
  | .readingFeatures => some (opcodeReadLocalSupportedFeatures, .onFeaturesComplete)
  | .readingBufferSize => some (opcodeReadBufferSize, .onBufferSizeComplete)
  | .uninitialized | .ready | .error => none

structure World.Awaits (w : Ctrl) (i : SlotId) (cb : OnComplete) : Prop where
  inUse : (w.slot i).inUse = true
  callback : (w.slot i).onComplete = some cb
  step : cb ≠ .ignoreCompletion

def World.SentAfter (w : Ctrl) (i : SlotId) (older : List Event) : Prop :=
  ∃ credits before, .sent (w.slot i).serial credits (w.slot i).wire :: before <:+ w.history ∧
    older <:+ before

structure BringUp (w : Ctrl) : Prop where
  slots : ∀ i cb, w.Awaits i cb → awaited w.host.state = some ((w.slot i).opcode, cb) ∧
    (w.slot i).wire = bareCommand (w.slot i).opcode
  unique : ∀ i j cb cb', w.Awaits i cb → w.Awaits j cb' → i = j
  progress : ∃ older, older <:+ w.history ∧ Progress w.host.info w.host.state older ∧
    ∀ i cb, w.q.outstanding = some i → w.Awaits i cb → w.SentAfter i older

variable {opcode : UInt16} {returnParams : Bytes} {older h h' : List Event}

lemma Exchanged.mono {answers : Bytes → UInt16 → UInt8 → Bytes → Prop}
    (he : Exchanged answers opcode returnParams older h) (hh : h <:+ h') :
    Exchanged answers opcode returnParams older h' := by
  obtain ⟨serial, credits, data, before, rest, holder, hsent, hdone, hans⟩ := he
  exact ⟨serial, credits, data, before, rest, holder, hsent, hdone.trans hh, hans⟩

lemma Exchanged.after {answers : Bytes → UInt16 → UInt8 → Bytes → Prop}
    {older' : List Event} (he : Exchanged answers opcode returnParams older h)
    (hh : older' <:+ older) : Exchanged answers opcode returnParams older' h := by
  obtain ⟨serial, credits, data, before, rest, holder, hsent, hdone, hans⟩ := he
  exact ⟨serial, credits, data, before, rest, hh.trans holder, hsent, hdone, hans⟩

variable {α : Type}

lemma Exchanged.readBack {prior : List Event → Prop} {parse : Bytes → Access α}
    {value : α} (he : Exchanged Answers opcode returnParams older h) (hprior : prior older)
    (hparse : parse returnParams = .ok value) (hnil : ∀ v, parse [] ≠ .ok v) :
    ReadBack prior opcode parse value h := by
  obtain ⟨serial, credits, data, before, rest, holder, hsent, hdone, hans⟩ := he
  refine ⟨older, returnParams, hprior, ?_, hparse⟩
  refine ⟨serial, credits, data, before, rest, holder, hsent, hdone, ?_⟩
  refine hans.resolve_right fun hstatus => hnil value ?_
  rw [← hstatus.2, hparse]

namespace BringUp
variable {w w' : Ctrl} {i : SlotId}

lemma awaits_congr {cb : OnComplete} (h : w'.Awaits i cb) (hpool : w'.q.pool = w.q.pool) :
    w.Awaits i cb := by
  have hslot : w'.slot i = w.slot i := congrFun hpool i
  exact ⟨hslot ▸ h.inUse, hslot ▸ h.callback, h.step⟩

lemma quiet (h : BringUp w) (hpool : w'.q.pool = w.q.pool)
    (hout : w'.q.outstanding = w.q.outstanding) (hstate : w'.host.state = w.host.state)
    (hinfo : w'.host.info = w.host.info) (hh : w.history <:+ w'.history) : BringUp w' where
  slots i cb hi := by
    rw [hstate, show w'.slot i = w.slot i from congrFun hpool i]
    exact h.slots i cb (awaits_congr hi hpool)
  unique i j cb cb' hi hj := h.unique i j cb cb' (awaits_congr hi hpool) (awaits_congr hj hpool)
  progress := by
    obtain ⟨older, holder, hprogress, hsent⟩ := h.progress
    refine ⟨older, holder.trans hh, by rwa [hstate, hinfo], fun i cb ho hi => ?_⟩
    rw [hout] at ho
    obtain ⟨credits, before, hs, hb⟩ := hsent i cb ho (awaits_congr hi hpool)
    refine ⟨credits, before, ?_, hb⟩
    rw [show w'.slot i = w.slot i from congrFun hpool i]
    exact hs.trans hh

lemma launched (h : BringUp w) (rest : List SlotId) (nowUs : ℕ) :
    BringUp (w.launched i rest nowUs) where
  slots j cb hj := h.slots j cb (awaits_congr hj rfl)
  unique j k cb cb' hj hk := h.unique j k cb cb' (awaits_congr hj rfl) (awaits_congr hk rfl)
  progress := by
    obtain ⟨older, holder, hprogress, -⟩ := h.progress
    refine ⟨older, holder.trans (suffix_cons ..), hprogress, fun j cb hj _ => ?_⟩
    obtain rfl := Option.some.inj hj
    exact ⟨_, w.history, suffix_rfl, holder⟩

lemma release_awaits (hout : w.q.outstanding = some i) {completion : Completion} {j : SlotId}
    {cb : OnComplete} (h : (w.release i completion).Awaits j cb) :
    j ≠ i ∧ (w.release i completion).slot j = w.slot j ∧ w.Awaits j cb := by
  have hpool := (release_released hout completion).pool
  have hne : j ≠ i := by
    rintro rfl
    have huse := h.inUse
    rw [World.slot, hpool, Function.update_self] at huse
    cases huse
  have hslot : (w.release i completion).slot j = w.slot j := by
    rw [World.slot, hpool, Function.update_of_ne hne]
    rfl
  exact ⟨hne, hslot, hslot ▸ h.inUse, hslot ▸ h.callback, h.step⟩

lemma release (h : BringUp w) (hout : w.q.outstanding = some i) (completion : Completion) :
    BringUp (w.release i completion) := by
  refine ⟨fun j cb hj => ?_, fun j k cb cb' hj hk => ?_, ?_⟩
  · obtain ⟨-, hslot, hback⟩ := release_awaits hout hj
    rw [World.release_host, hslot]
    exact h.slots j cb hback
  · exact h.unique j k cb cb' (release_awaits hout hj).2.2 (release_awaits hout hk).2.2
  · obtain ⟨older, holder, hprogress, -⟩ := h.progress
    refine ⟨older, ?_, by rwa [World.release_host], fun j cb hj => ?_⟩
    · rw [World.release_history]
      exact holder.trans (suffix_cons ..)
    · rw [(release_released hout completion).outstanding] at hj
      cases hj

lemma release_none (h : BringUp w) (hout : w.q.outstanding = some i) {cb : OnComplete}
    (hi : w.Awaits i cb) (completion : Completion) (j : SlotId) (cb' : OnComplete) :
    ¬ (w.release i completion).Awaits j cb' := by
  intro hj
  obtain ⟨hne, -, hback⟩ := release_awaits hout hj
  exact hne (h.unique j i cb' cb hback hi)

lemma enter (hnone : ∀ j cb, ¬ w.Awaits j cb) {state : ControllerState}
    (hprogress : Progress w.host.info state w.history) : BringUp (w.setState state) := by
  have hnone (i : SlotId) (cb : OnComplete) : ¬ (w.setState state).Awaits i cb :=
    fun hi => hnone i cb (awaits_congr hi rfl)
  exact ⟨fun i cb hi => absurd hi (hnone i cb), fun i _ cb _ hi => absurd hi (hnone i cb),
    w.history, suffix_rfl, hprogress, fun i cb _ hi => absurd hi (hnone i cb)⟩

lemma enqueue (hq : QueueInv w) (hunused : (w.slot i).inUse = false) (h : BringUp w)
    {slot : CmdSlot OnComplete}
    (hslot : ∀ cb, slot.onComplete = some cb → cb ≠ .ignoreCompletion →
      awaited w.host.state = some (slot.opcode, cb) ∧ slot.wire = bareCommand slot.opcode ∧
        ∀ j cb', ¬ w.Awaits j cb') : BringUp (w.enqueue i slot) := by
  have hself : (w.enqueue i slot).slot i = slot := Function.update_self ..
  have hother (j : SlotId) (hj : j ≠ i) : (w.enqueue i slot).slot j = w.slot j :=
    Function.update_of_ne hj ..
  have hback {j : SlotId} {cb : OnComplete} (hne : j ≠ i) (hj : (w.enqueue i slot).Awaits j cb) :
      w.Awaits j cb :=
    ⟨hother j hne ▸ hj.inUse, hother j hne ▸ hj.callback, hj.step⟩
  have hnew {cb : OnComplete} (hi : (w.enqueue i slot).Awaits i cb) := hself ▸ hi.callback
  refine ⟨fun j cb hj => ?_, fun j k cb cb' hj hk => ?_, ?_⟩
  · by_cases hne : j = i
    · subst hne
      obtain ⟨haw, hwire, -⟩ := hslot cb (hnew hj) hj.step
      rw [hself]
      exact ⟨haw, hwire⟩
    · rw [hother j hne]
      exact h.slots j cb (hback hne hj)
  · by_cases hji : j = i <;> by_cases hki : k = i
    · rw [hji, hki]
    · subst hji
      exact absurd (hback hki hk) ((hslot cb (hnew hj) hj.step).2.2 k cb')
    · subst hki
      exact absurd (hback hji hj) ((hslot cb' (hnew hk) hk.step).2.2 j cb)
    · exact h.unique j k cb cb' (hback hji hj) (hback hki hk)
  · obtain ⟨older, holder, hprogress, hsent⟩ := h.progress
    have hhist : w.history <:+ (w.enqueue i slot).history := suffix_cons ..
    refine ⟨older, holder.trans hhist, hprogress, fun j cb hout hj => ?_⟩
    have hout := hout
    have hne : j ≠ i := by
      rintro rfl
      rw [(hq.slots j).mpr (.inr hout)] at hunused
      cases hunused
    obtain ⟨credits, before, hs, hb⟩ := hsent j cb hout (hback hne hj)
    refine ⟨credits, before, ?_, hb⟩
    rw [hother j hne]
    exact hs.trans hhist

lemma submit (hq : QueueInv w) (h : BringUp w) {opcode : UInt16}
    {params : Option Bytes} {paramsLen : UInt8} {timeoutUs : ℕ} {cb : OnComplete}
    (hcb : cb ≠ .ignoreCompletion → awaited w.host.state = some (opcode, cb) ∧ params = none ∧
      ∀ j cb', ¬ w.Awaits j cb') :
    BringUp (cmdqSubmit w opcode params paramsLen timeoutUs (some cb)).1 := by
  unfold cmdqSubmit
  split
  · exact h
  split
  · exact h
  next i hfree =>
    have hunused : (w.q.pool i).inUse = false := by
      simpa using find?_some (p := fun i => !(w.q.pool i).inUse) hfree
    refine enqueue hq hunused h fun cb' hcb' hne => ?_
    obtain rfl := Option.some.inj hcb'
    obtain ⟨haw, rfl, hnone⟩ := hcb hne
    refine ⟨haw, ?_, hnone⟩
    simp [CmdSlot.wire, CmdSlot.submitted, bareCommand]

end BringUp

lemma submit_setState (w : Ctrl) (state : ControllerState) (opcode : UInt16)
    (params : Option Bytes) (paramsLen : UInt8) (timeoutUs : ℕ) (cb : Option OnComplete) :
    cmdqSubmit (w.setState state) opcode params paramsLen timeoutUs cb =
      ((cmdqSubmit w opcode params paramsLen timeoutUs cb).1.setState state,
        (cmdqSubmit w opcode params paramsLen timeoutUs cb).2) := by
  unfold cmdqSubmit
  split
  · rfl
  rw [show findFreeSlot (w.setState state).q = findFreeSlot w.q from rfl]
  split
  · rfl
  · rfl

variable {w : Ctrl}

lemma setState_queueInv (h : QueueInv w) (state : ControllerState) :
    QueueInv (w.setState state) :=
  h.quiet ⟨rfl, rfl, rfl, rfl, rfl⟩ rfl (fun _ => rfl) h.alone

lemma setInfo_queueInv (h : QueueInv w) (f : ControllerInfo → ControllerInfo) :
    QueueInv (w.setInfo f) :=
  h.quiet ⟨rfl, rfl, rfl, rfl, rfl⟩ rfl (fun _ => rfl) h.alone

lemma setInfo_none (hnone : ∀ j cb, ¬ w.Awaits j cb) {f : ControllerInfo → ControllerInfo}
    (j : SlotId) (cb : OnComplete) : ¬ (w.setInfo f).Awaits j cb :=
  fun hj => hnone j cb (BringUp.awaits_congr hj rfl)

lemma readError_queueInv (h : QueueInv w) (e : ReadError) : QueueInv (w.readError e) := by
  cases e with
  | status => exact h
  | outOfRange => exact h.quiet ⟨rfl, rfl, rfl, rfl, rfl⟩ rfl (fun _ => rfl) (h.alone.cons nofun)

lemma nextStep_queueInv (h : QueueInv w) (state : ControllerState) (opcode : UInt16)
    (cb : OnComplete) : QueueInv (nextStep w state opcode cb) := by
  have hsubmit : QueueInv (cmdqSubmit (w.setState state) opcode none 0 0 (some cb)).1 :=
    (setState_queueInv h state).submit ..
  unfold nextStep
  dsimp only
  split
  · exact setState_queueInv hsubmit .error
  · exact hsubmit

lemma parseStep_queueInv {parse : Bytes → Access α}
    {store : α → ControllerInfo → ControllerInfo} {next : Ctrl → Ctrl}
    (hnext : ∀ w, QueueInv w → QueueInv (next w)) (h : QueueInv w) (completion : Completion) :
    QueueInv (parseStep parse store next w completion) := by
  unfold parseStep
  split
  · split
    next e _ => exact setState_queueInv (readError_queueInv h e) .error
    next v _ => exact hnext _ (setInfo_queueInv h _)
  · exact setState_queueInv h .error

lemma callbacks_queueInv (cb : OnComplete) (w : Ctrl) (completion : Completion)
    (h : QueueInv w) : QueueInv (callbacks cb w completion) := by
  cases cb with
  | onResetComplete =>
    simp only [callbacks, onResetComplete]
    split
    · exact nextStep_queueInv h ..
    · exact setState_queueInv h .error
  | onVersionComplete | onFeaturesComplete =>
    exact parseStep_queueInv (fun _ h => nextStep_queueInv h ..) h completion
  | onBufferSizeComplete =>
    exact parseStep_queueInv (fun _ h => setState_queueInv h .ready) h completion
  | ignoreCompletion => exact h

lemma nextStep_bringUp (hq : QueueInv w) (hnone : ∀ j cb, ¬ w.Awaits j cb)
    {state : ControllerState} {opcode : UInt16} {cb : OnComplete}
    (haw : awaited state = some (opcode, cb))
    (hprogress : Progress w.host.info state w.history) : BringUp (nextStep w state opcode cb) := by
  have hnone' (j : SlotId) (cb' : OnComplete) : ¬ (w.setState state).Awaits j cb' :=
    fun hj => hnone j cb' (BringUp.awaits_congr hj rfl)
  have hsubmit : BringUp (cmdqSubmit (w.setState state) opcode none 0 0 (some cb)).1 :=
    BringUp.submit (setState_queueInv hq state) (BringUp.enter hnone hprogress)
      fun _ => ⟨haw, rfl, hnone'⟩
  unfold nextStep
  dsimp only
  split
  next hrc =>
    rw [cmdqSubmit_refused hrc]
    exact BringUp.enter hnone' trivial
  · exact hsubmit

lemma parseStep_bringUp {parse : Bytes → Access α}
    {store : α → ControllerInfo → ControllerInfo} {next : Ctrl → Ctrl} {completion : Completion}
    (hnone : ∀ j cb, ¬ w.Awaits j cb)
    (hnext : ∀ v, stepOk completion = true → parse completion.returnParams = .ok v →
      BringUp (next (w.setInfo (store v)))) :
    BringUp (parseStep parse store next w completion) := by
  unfold parseStep
  split
  next hok =>
    split
    next e _ =>
      refine BringUp.enter (fun j cb hj => ?_) trivial
      cases e with
      | status => exact hnone j cb hj
      | outOfRange => exact hnone j cb (BringUp.awaits_congr hj rfl)
    next v hv => exact hnext v hok hv
  · exact BringUp.enter hnone trivial

lemma BringUp.exchanged (h : BringUp w) {i : SlotId} {cb : OnComplete} (hi : w.Awaits i cb)
    (hout : w.q.outstanding = some i) {data returnParams : Bytes} {rest : List Event}
    (hh : w.history = .received data :: rest)
    (hans : Answers data (w.slot i).opcode 0 returnParams) :
    ∃ older, Progress w.host.info w.host.state older ∧
      Exchanged Answers (w.slot i).opcode returnParams older
        (w.release i (w.completionOf i .complete 0 returnParams)).history := by
  obtain ⟨older, -, hprogress, hsent⟩ := h.progress
  obtain ⟨credits, before, hs, hb⟩ := hsent i cb hout hi
  rw [hh, (h.slots i cb hi).2] at hs
  have hs := (suffix_cons_iff.mp hs).resolve_left fun he => by cases he
  refine ⟨older, hprogress, (w.slot i).serial, credits, data, before, rest, hb, hs, ?_, hans⟩
  rw [World.release_history, hh]
  exact suffix_rfl

lemma completionOf_of_stepOk {i : SlotId} {completion : Completion}
    (hop : completion.opcode = (w.slot i).opcode) (hok : stepOk completion = true) :
    completion = w.completionOf i .complete 0 completion.returnParams := by
  obtain ⟨result, opcode, status, returnParams⟩ := completion
  obtain ⟨hresult, hstatus⟩ := of_decide_eq_true hok
  simp only at hresult hstatus hop
  rw [hresult, hstatus, hop]
  rfl

def Caused (w : Ctrl) (i : SlotId) (completion : Completion) : Prop :=
  completion.opcode = (w.slot i).opcode ∧ (completion.result = .complete →
    ∃ data rest, w.history = .received data :: rest ∧
      Answers data (w.slot i).opcode completion.status completion.returnParams)

lemma callbacks_bringUp (h : BringUp w) {i : SlotId} {cb : OnComplete} (hi : w.Awaits i cb)
    (hout : w.q.outstanding = some i) {completion : Completion} (hc : Caused w i completion)
    (hq : QueueInv (w.release i completion)) :
    BringUp (callbacks cb (w.release i completion) completion) := by
  have hnone := h.release_none hout hi completion
  have hdone (hok : stepOk completion = true) : ∃ older,
      Progress w.host.info w.host.state older ∧ Exchanged Answers (w.slot i).opcode
        completion.returnParams older (w.release i completion).history := by
    have hcomplete := completionOf_of_stepOk hc.1 hok
    obtain ⟨data, rest, hh, hans⟩ := hc.2 (by rw [hcomplete]; rfl)
    rw [show completion.status = 0 by rw [hcomplete]; rfl] at hans
    rw [hcomplete]
    exact h.exchanged hi hout hh hans
  have haw := (h.slots i cb hi).1
  have hhost : (w.release i completion).host = w.host := World.release_host completion
  generalize w.release i completion = w₁ at *
  rw [← hhost] at haw hdone
  cases hstate : w₁.host.state with
  | uninitialized | ready | error =>
    rw [hstate] at haw
    cases haw
  | resetting =>
    rw [hstate] at haw
    obtain ⟨hopcode, rfl⟩ := Prod.mk.inj (Option.some.inj haw)
    simp only [callbacks, onResetComplete]
    split
    next hok =>
      obtain ⟨older, -, he⟩ := hdone hok
      rw [← hopcode] at he
      exact nextStep_bringUp hq hnone rfl ⟨_, he.after nil_suffix⟩
    · exact BringUp.enter hnone trivial
  | readingVersion | readingFeatures =>
    rw [hstate] at haw hdone
    obtain ⟨hopcode, rfl⟩ := Prod.mk.inj (Option.some.inj haw)
    simp only [callbacks, onVersionComplete, onFeaturesComplete]
    refine parseStep_bringUp hnone fun v hok hv => ?_
    obtain ⟨older, hprogress, he⟩ := hdone hok
    rw [← hopcode] at he
    exact nextStep_bringUp (setInfo_queueInv hq _) (setInfo_none hnone) rfl
      (he.readBack hprogress hv nofun)
  | readingBufferSize =>
    rw [hstate] at haw hdone
    obtain ⟨hopcode, rfl⟩ := Prod.mk.inj (Option.some.inj haw)
    simp only [callbacks, onBufferSizeComplete]
    refine parseStep_bringUp hnone fun v hok hv => ?_
    obtain ⟨older, hprogress, he⟩ := hdone hok
    rw [← hopcode] at he
    exact BringUp.enter (setInfo_none hnone) (he.readBack hprogress hv nofun)

def ControllerState.Final (state : ControllerState) : Prop := state = .ready ∨ state = .error

def Stable (P : ControllerState → Prop) : Prop := ∀ s s', ¬ s.Final → P s → P s'

structure Sequenced (P : ControllerState → Prop) (w : Ctrl) : Prop where
  queue : QueueInv w
  bringUp : BringUp w
  state : P w.host.state

structure Aside (w w' : Ctrl) : Prop where
  q : w'.q = w.q
  submissions : w'.submissions = w.submissions
  state : w'.host.state = w.host.state
  info : w'.host.info = w.host.info
  history : w'.history = w.history ∨ ∃ e, e.ofQueue = false ∧ w'.history = e :: w.history

variable {P : ControllerState → Prop} {w' : Ctrl}

lemma QueueInv.aside (h : QueueInv w) (ha : Aside w w') : QueueInv w' := by
  have hsame : SameQueue w w' :=
    ⟨by rw [ha.q], by rw [ha.q], by rw [ha.q], by rw [ha.q], ha.submissions⟩
  rcases ha.history with hh | ⟨e, he, hh⟩
  · exact h.quiet hsame (by rw [hh]) (fun _ => by rw [hh]) (by rw [hh]; exact h.alone)
  · refine h.quiet hsame ?_ (fun _ => ?_) ?_ <;> rw [hh]
    all_goals cases e <;> cases he
    all_goals first | rfl | exact h.alone.cons nofun

lemma BringUp.aside (h : BringUp w) (ha : Aside w w') : BringUp w' := by
  refine h.quiet (by rw [ha.q]) (by rw [ha.q]) ha.state ha.info ?_
  rcases ha.history with hh | ⟨e, -, hh⟩
  · exact hh ▸ suffix_rfl
  · rw [hh]
    exact suffix_cons ..

lemma Sequenced.aside (h : Sequenced P w) (ha : Aside w w') : Sequenced P w' :=
  ⟨h.queue.aside ha, h.bringUp.aside ha, ha.state ▸ h.state⟩

lemma BringUp.settle_final (h : BringUp w) {i : SlotId} (huse : (w.slot i).inUse = true)
    (hfinal : w.host.state.Final) (completion : Completion) :
    (w.settle callbacks i completion).host.state = w.host.state := by
  unfold World.settle
  split
  · rw [World.release_host]
  next cb hcb =>
    by_cases hstep : cb = .ignoreCompletion
    · subst hstep
      exact congrArg Host.state (World.release_host completion)
    · have haw := (h.slots i cb ⟨huse, hcb, hstep⟩).1
      rcases hfinal with hstate | hstate <;> rw [hstate] at haw <;> cases haw

lemma settle_sequenced (hP : Stable P) (h : BringUp w) (hs : P w.host.state) {i : SlotId}
    (huse : (w.slot i).inUse = true) (hout : w.q.outstanding = some i) {completion : Completion}
    (hc : Caused w i completion) (hq : QueueInv (w.release i completion)) :
    Sequenced P (w.settle callbacks i completion) := by
  refine ⟨?_, ?_, ?_⟩
  · unfold World.settle
    split
    · exact hq
    · exact callbacks_queueInv _ _ _ hq
  · unfold World.settle
    split
    · exact h.release hout completion
    next cb hcb =>
      by_cases hstep : cb = .ignoreCompletion
      · subst hstep
        exact h.release hout completion
      · exact callbacks_bringUp h ⟨huse, hcb, hstep⟩ hout hc hq
  · by_cases hfinal : w.host.state.Final
    · rw [h.settle_final huse hfinal]
      exact hs
    · exact hP _ _ hfinal hs

variable {send : Send OnComplete Host}

lemma Sequenced.settles (hP : Stable P)
    (sentQueue : ∀ w command, QueueInv w → QueueInv (send w command).1)
    (sent : ∀ w command, Sequenced P w → Sequenced P (send w command).1) :
    Settles callbacks send (Sequenced P) := by
  have hkeeps := QueueInv.keeps callbacks_queueInv sentQueue
  have hlaunched (w : Ctrl) (i : SlotId) (rest : List SlotId) (nowUs : ℕ) (h : Sequenced P w)
      (hs : w.Sends i rest) : Sequenced P (w.launched i rest nowUs) :=
    ⟨h.queue.launched hs nowUs, h.bringUp.launched rest nowUs, h.state⟩
  refine ⟨⟨fun w nowUs h => ?_, fun w credits h => ?_, fun w i rest nowUs h hs => ?_,
    fun w i rest nowUs w' h hs hrc hout => ?_, fun w i rest nowUs w' h hs hrc hout => ?_⟩,
    fun w nowUs i timers h hpop => ?_⟩
  · exact ⟨hkeeps.clock w nowUs h.queue, h.bringUp.quiet rfl rfl rfl rfl suffix_rfl, h.state⟩
  · exact ⟨hkeeps.credits w credits h.queue, h.bringUp.quiet rfl rfl rfl rfl suffix_rfl,
      h.state⟩
  · exact sent _ _ (hlaunched w i rest nowUs h hs)
  · have h' := sent _ (w.slot i).wire (hlaunched w i rest nowUs h hs)
    rw [hrc] at h'
    exact ⟨hkeeps.failed w i rest nowUs w' h.queue hs hrc hout,
      h'.bringUp.quiet rfl rfl rfl rfl (suffix_cons ..), h'.state⟩
  · have h' := sent _ (w.slot i).wire (hlaunched w i rest nowUs h hs)
    rw [hrc] at h'
    have huse := (h'.queue.slots i).mpr (.inr hout)
    have hgrows : w'.history <:+ (w'.failed (w.slot i).serial).restoreCredit.history :=
      (suffix_cons ..).trans (suffix_cons ..)
    refine settle_sequenced hP ?_ ?_ ?_ ?_ ⟨rfl, fun hresult => ?_⟩ ?_
    · exact h'.bringUp.quiet rfl rfl rfl rfl hgrows
    · exact h'.state
    · exact huse
    · exact hout
    · cases hresult
    · exact hkeeps.aborted w i rest nowUs w' h.queue hs hrc hout
  · have hout := h.queue.expired_outstanding hpop
    have huse := (h.queue.slots i).mpr (.inr hout)
    refine settle_sequenced hP ?_ ?_ ?_ ?_ ⟨rfl, fun hresult => ?_⟩ ?_
    · exact h.bringUp.quiet rfl rfl rfl rfl suffix_rfl
    · exact h.state
    · exact huse
    · exact hout
    · cases hresult
    · exact hkeeps.expired w nowUs i timers h.queue hpop

lemma Sequenced.answersKeep (hP : Stable P) {data : Bytes}
    (h : Sequenced P (w.emit (.received data))) :
    AnswersKeep callbacks (Sequenced P) (w.emit (.received data)) data := by
  intro credits i status returnParams hout hans
  have huse := (h.queue.slots i).mpr (.inr hout)
  have hcredits : QueueInv ((w.emit (.received data)).setCredits credits) :=
    h.queue.quiet ⟨rfl, rfl, rfl, rfl, rfl⟩ rfl (fun _ => rfl) h.queue.alone
  refine settle_sequenced hP ?_ ?_ ?_ ?_ ⟨rfl, fun _ => ?_⟩ ?_
  · exact h.bringUp.quiet rfl rfl rfl rfl suffix_rfl
  · exact h.state
  · exact huse
  · exact hout
  · exact ⟨data, w.history, rfl, hans⟩
  · exact hcredits.release hout _

lemma readError_aside (w : Ctrl) (e : ReadError) : Aside w (w.readError e) := by
  cases e with
  | status => exact ⟨rfl, rfl, rfl, rfl, .inl rfl⟩
  | outOfRange => exact ⟨rfl, rfl, rfl, rfl, .inr ⟨_, rfl, rfl⟩⟩

lemma received_aside (w : Ctrl) (data : Bytes) : Aside w (w.emit (.received data)) :=
  ⟨rfl, rfl, rfl, rfl, .inr ⟨_, rfl, rfl⟩⟩

lemma handle_keeps {I : Ctrl → Prop} {env : Env} (h : Settles callbacks send I)
    (aside : ∀ w w', Aside w w' → I w → I w')
    (answered : ∀ w data, I w → AnswersKeep callbacks I (w.emit (.received data)) data)
    (w : Ctrl) (d : Bytes × ℕ) (hw : I w) : I ((reentrant env).handle send w d) := by
  have hreceived := aside w _ (received_aside w d.1) hw
  have hevent : I (cmdqOnEvent callbacks send env.fuel (w.emit (.received d.1)) d.1 d.2) :=
    h.onEvent env.fuel hreceived (answered w d.1 hw)
  change I (controllerOnEvent env.hook send env.fuel (w.emit (.received d.1)) d.1 d.2)
  unfold controllerOnEvent
  generalize cmdqOnEvent callbacks send env.fuel (w.emit (.received d.1)) d.1 d.2 = w₁ at *
  split
  next e _ => exact aside _ _ (readError_aside w₁ e) hevent
  next hdr r _ =>
  split
  · exact hevent
  next params _ =>
  have htrace : I (traceInquiry env.hook w₁ hdr.eventCode params) := by
    unfold traceInquiry
    split
    · exact aside w₁ _ ⟨rfl, rfl, rfl, rfl, .inr ⟨_, rfl, rfl⟩⟩ hevent
    · exact hevent
  unfold inspectEvent
  dsimp only
  split
  next e _ => exact aside _ _ (readError_aside _ e) htrace
  · refine aside _ _ ?_ htrace
    exact ⟨rfl, rfl, rfl, rfl, .inl rfl⟩

lemma sendAt_keeps (hP : Stable P) (env : Env) (depth : ℕ) (w : Ctrl) (command : Bytes) :
    (QueueInv w → QueueInv (sendAt env depth w command).1) ∧
      (Sequenced P w → Sequenced P (sendAt env depth w command).1) :=
  Reentrant.port_rel (C := reentrant env)
    (R := fun w w' => (QueueInv w → QueueInv w') ∧ (Sequenced P w → Sequenced P w'))
    (fun _ => ⟨id, id⟩) (fun h₁ h₂ => ⟨h₂.1 ∘ h₁.1, h₂.2 ∘ h₁.2⟩)
    (fun _ => ⟨fun h => h.aside ⟨rfl, rfl, rfl, rfl, .inl rfl⟩,
      fun h => h.aside ⟨rfl, rfl, rfl, rfl, .inl rfl⟩⟩)
    (fun send sent w d => by
      have hkeeps := QueueInv.keeps callbacks_queueInv fun w command => (sent w command).1
      have hsettles := Sequenced.settles hP (fun w command => (sent w command).1) fun w command =>
          (sent w command).2
      exact ⟨handle_keeps hkeeps.settles (fun _ _ ha h => h.aside ha)
          (fun w data h => hkeeps.answersKeep (h.aside (received_aside w data)) data) w d,
        handle_keeps hsettles (fun _ _ ha h => h.aside ha)
          (fun w data h => Sequenced.answersKeep hP (h.aside (received_aside w data))) w d⟩)
    depth w command

lemma sendAt_settles (hP : Stable P) (env : Env) (depth : ℕ) :
    Settles callbacks (sendAt env depth) (Sequenced P) :=
  Sequenced.settles hP (fun w command => (sendAt_keeps hP env depth w command).1)
    fun w command => (sendAt_keeps hP env depth w command).2

variable {env : Env} {depth : ℕ}

lemma submitDiscovery_sequenced (commands : List (UInt16 × Bytes)) (h : Sequenced P w) :
    Sequenced P (submitDiscovery w commands).1 := by
  induction commands generalizing w with
  | nil => exact h
  | cons command rest ih =>
    have hsubmit : Sequenced P (cmdqSubmit w command.1 (some command.2)
        command.2.length.toUInt8 0 (some .ignoreCompletion)).1 := by
      refine ⟨h.queue.submit .., BringUp.submit h.queue h.bringUp fun hne => absurd rfl hne, ?_⟩
      rw [cmdqSubmit_host]
      exact h.state
    rw [submitDiscovery]
    split
    · exact hsubmit
    · exact ih hsubmit

lemma discoveryCall_sequenced (hP : Stable P) (commands : List (UInt16 × Bytes))
    (nowUs : ℕ) (h : Sequenced P w) :
    Sequenced P (discoveryCall (sendAt env depth) env.fuel w commands nowUs).1 := by
  have hsubmit := submitDiscovery_sequenced commands h
  unfold discoveryCall
  split
  · exact h
  dsimp only
  split
  · exact hsubmit
  · exact (sendAt_settles hP env depth).pump env.fuel _ nowUs hsubmit

lemma controllerStart_sequenced (hP : Stable P) (nowUs : ℕ) (h : Sequenced P w) :
    Sequenced P (controllerStart (sendAt env depth) env.fuel w nowUs).1 := by
  unfold controllerStart
  split
  · exact h
  next hstate =>
  have hstate := not_not.mp hstate
  have hnone (j : SlotId) (cb : OnComplete) : ¬ w.Awaits j cb := fun hj => by
    have haw := (h.bringUp.slots j cb hj).1
    rw [hstate] at haw
    cases haw
  dsimp only
  split
  next hrc =>
    rw [cmdqSubmit_refused hrc]
    exact h
  next hrc =>
  have hstarted : Sequenced P
      (cmdqSubmit (w.setState .resetting) opcodeReset none 0 0 (some .onResetComplete)).1 := by
    refine ⟨(setState_queueInv h.queue _).submit .., ?_, ?_⟩
    · have hentered : BringUp (w.setState .resetting) := BringUp.enter hnone trivial
      refine BringUp.submit (setState_queueInv h.queue _) hentered fun _ => ?_
      exact ⟨rfl, rfl, fun j cb hj => hnone j cb (BringUp.awaits_congr hj rfl)⟩
    · exact hP _ _ (by rw [hstate]; exact nofun) h.state
  rw [submit_setState] at hstarted
  exact (sendAt_settles hP env depth).pump env.fuel _ nowUs hstarted

lemma applyController_sequenced (hP : Stable P) (w : Ctrl) (input : ControllerInput)
    (h : Sequenced P w) : Sequenced P (applyController env depth w input) := by
  have hsettles := sendAt_settles hP env depth
  cases input with
  | start nowUs => exact controllerStart_sequenced hP nowUs h
  | onEvent data nowUs =>
    exact handle_keeps hsettles (fun _ _ ha h => h.aside ha)
      (fun w data h => Sequenced.answersKeep hP (h.aside (received_aside w data))) w (data, nowUs) h
  | tick nowUs => exact hsettles.tick env.fuel h
  | startClassicInquiry inquiryLength nowUs | startLeScan nowUs | stopLeScan nowUs =>
    exact discoveryCall_sequenced hP _ nowUs h

lemma runController_sequenced (env : Env) (depth inquiryTraced : ℕ)
    (inputs : List ControllerInput) :
    Sequenced (fun _ => True) (runController env depth inquiryTraced inputs) := by
  refine foldl_invariant (applyController_sequenced fun _ _ _ => id) inputs ?_
  have hnone (i : SlotId) (cb : OnComplete) :
      ¬ (World.init (.init inquiryTraced) : Ctrl).Awaits i cb := fun hi => nomatch hi.inUse
  exact ⟨init_inv _, BringUp.enter hnone trivial, trivial⟩

/-- In every run of a controller: it is ready only if Reset, Read Local Version, Read Local
Supported Features and Read Buffer Size were sent in this order, each once the one before had been
completed, and each was completed with status 0 by an event for its opcode, the last three by a
Command Complete whose return parameters parse to the recorded info. -/
theorem run_ready_broughtUp (env : Env) (depth inquiryTraced : ℕ) (inputs : List ControllerInput) :
    ((runController env depth inquiryTraced inputs).host.state = .ready →
      BroughtUp (runController env depth inquiryTraced inputs).host.info
        (runController env depth inquiryTraced inputs).history) ∧
    ((runController env depth inquiryTraced inputs).host.state.Final →
      ∀ later, (runController env depth inquiryTraced (inputs ++ later)).host.state =
        (runController env depth inquiryTraced inputs).host.state) := by
  have hrun := runController_sequenced env depth inquiryTraced inputs
  constructor
  · intro hready
    obtain ⟨older, holder, hprogress, -⟩ := hrun.bringUp.progress
    rw [hready] at hprogress
    obtain ⟨older, returnParams, hprior, he, hparse⟩ := hprogress
    exact ⟨older, returnParams, hprior, he.mono holder, hparse⟩
  · intro hfinal later
    have hstable : Stable (· = (runController env depth inquiryTraced inputs).host.state) := by
      rintro s s' hs rfl
      exact absurd hfinal hs
    rw [runController, foldl_append]
    exact (foldl_invariant (applyController_sequenced hstable) later
      ⟨hrun.queue, hrun.bringUp, rfl⟩).state

def completeWith (opcode : UInt16) (returnParams : Bytes) : Bytes :=
  [eventCommandComplete, (returnParams.length + 3).toUInt8, 1] ++ writeLe16 opcode ++ returnParams

def promptController : Env where
  answers k := ([
    (completeWith opcodeReset [0], 0),
    (completeWith opcodeReadLocalVersionInfo [0, 9, 1, 0, 9, 15, 0, 2, 0], 0),
    (completeWith opcodeReadLocalSupportedFeatures [0, 1, 2, 3, 4, 5, 6, 7, 8], 0),
    (completeWith opcodeReadBufferSize [0, 0xFD, 0x03, 64, 8, 0, 1, 0], 0)][k]?.toList, true)
  hook := false
  fuel := 8

theorem promptController_ready :
    (runController promptController 4 0 [.start 0]).host.state = .ready ∧
      BroughtUp (runController promptController 4 0 [.start 0]).host.info
        (runController promptController 4 0 [.start 0]).history ∧
      (runController promptController 4 0 [.start 0, .startLeScan 1]).host.state = .ready := by
  have hready : (runController promptController 4 0 [.start 0]).host.state = .ready := by
    decide +kernel
  obtain ⟨hup, hstays⟩ := run_ready_broughtUp promptController 4 0 [.start 0]
  exact ⟨hready, hup hready, (hstays (.inl hready) [.startLeScan 1]).trans hready⟩

end Bluzing.Controller
