import Bluzing.Gatt.Steps

/-! Two clients are alike if they differ in what no call looks at: the events before a certain
point, the time of the last PDU and the time at which the last connection attempt has started. -/
namespace Bluzing.Gatt

def World.recast (w : World) (eventNowUs connectStartedUs : ℕ) (history : List Event) : World :=
  { w with client := { w.client with eventNowUs, connectStartedUs }, history }

inductive Alike (same : ℕ → ℕ → Prop) (old old' : List Event) (w : World) : World → Prop
  | recast (eventNowUs connectStartedUs : ℕ) (events : List Event)
      (hevents : w.history = events ++ old)
      (hstarted : same w.client.connectStartedUs connectStartedUs) :
      Alike same old old' w (w.recast eventNowUs connectStartedUs (events ++ old'))

variable (same : ℕ → ℕ → Prop) (old old' : List Event)

def Respects (f : World → World) : Prop :=
  ∀ w w', Alike same old old' w w' → Alike same old old' (f w) (f w')

variable {same : ℕ → ℕ → Prop} {old old' : List Event}

namespace Respects
variable {f g : World → World}

lemma refl : Respects same old old' fun w => w := fun _ _ h => h

lemma comp (hg : Respects same old old' g) (hf : Respects same old old' f) :
    Respects same old old' fun w => g (f w) :=
  fun w w' h => hg (f w) (f w') (hf w w' h)

lemma ite {p : World → Prop} [DecidablePred p] (hp : ∀ w t s h, p (w.recast t s h) ↔ p w)
    (hf : Respects same old old' f) (hg : Respects same old old' g) :
    Respects same old old' fun w => if p w then f w else g w := by
  rintro w _ ⟨t, s, events, hevents, hstarted⟩
  have halike : Alike same old old' w (w.recast t s (events ++ old')) :=
    .recast t s events hevents hstarted
  by_cases hw : p w
  · dsimp only
    rw [if_pos hw, if_pos ((hp w t s _).mpr hw)]
    exact hf _ _ halike
  · dsimp only
    rw [if_neg hw, if_neg fun h => hw ((hp w t s _).mp h)]
    exact hg _ _ halike

lemma modify {f : Client → Client}
    (hf : ∀ c t s, ∃ t', f { c with eventNowUs := t, connectStartedUs := s } =
      { f c with eventNowUs := t', connectStartedUs := s }) :
    Respects same old old' (·.modify f) := by
  rintro w _ ⟨t, s, events, hevents, hstarted⟩
  obtain ⟨t', hclient⟩ := hf w.client t s
  have hkept : (f w.client).connectStartedUs = w.client.connectStartedUs := by
    obtain ⟨t₀, hsame⟩ := hf w.client w.client.eventNowUs w.client.connectStartedUs
    have hstart := congrArg Client.connectStartedUs hsame
    exact hstart
  have heq : (w.recast t s (events ++ old')).modify f =
      (w.modify f).recast t' s (events ++ old') :=
    congrArg (World.mk · w.channelOpen w.requests w.operations (events ++ old')) hclient
  dsimp only
  rw [heq]
  exact .recast t' s events hevents (hkept.symm ▸ hstarted)

lemma emit (e : World → Event) (he : ∀ w t s h, e (w.recast t s h) = e w) :
    Respects same old old' fun w => w.emit (e w) := by
  rintro w _ ⟨t, s, events, hevents, hstarted⟩
  dsimp only
  rw [he]
  exact .recast t s (e w :: events) (congrArg (e w :: ·) hevents) hstarted

end Respects

lemma complete_respects (result : Result) (code : UInt8) :
    Respects same old old' (complete · result code) := by
  rintro w _ ⟨t, s, events, hevents, hstarted⟩
  have hcallback (w : World) (t s : ℕ) (h : List Event) :
      (w.recast t s h).client.onComplete = w.client.onComplete := rfl
  unfold complete
  dsimp only
  rw [hcallback]
  cases w.client.onComplete with
  | none => exact .recast t s events hevents hstarted
  | some n =>
    exact .recast t s (_ :: events) (congrArg (_ :: ·) hevents) hstarted

lemma reportConnect_respects (success : Bool) :
    Respects same old old' (reportConnect · success) :=
  .comp (g := (·.emit (.connected success))) (.emit _ fun _ _ _ _ => rfl)
    (.modify fun _ t _ => ⟨t, rfl⟩)

lemma handleMtuResponse_respects (opcode : UInt8) (params : Bytes) :
    Respects same old old' (handleMtuResponse · opcode params) :=
  .comp (g := fun w => if w.client.onConnect then reportConnect w true else w)
    (.ite (fun _ _ _ _ => Iff.rfl) (reportConnect_respects true) .refl)
    (.modify fun _ t _ => ⟨t, rfl⟩)

lemma failRequest_respects (result : Result) : Respects same old old' (failRequest · result) :=
  .ite (fun _ _ _ _ => Iff.rfl) (handleMtuResponse_respects 0 []) (complete_respects result 0)

variable (port : ℕ → Bool)

lemma sendRequest_recast (w : World) (t s : ℕ) (h : List Event) (pdu : Bytes) :
    sendRequest port (w.recast t s h) pdu =
      ((sendRequest port w pdu).1.recast t s (.requested pdu (sendRequest port w pdu).2 :: h),
        (sendRequest port w pdu).2) := by
  have hchannel : (w.recast t s h).channelOpen = w.channelOpen := rfl
  unfold sendRequest
  rw [hchannel]
  split <;> rfl

lemma issueCurrentRequest_respects (nowUs : ℕ) :
    Respects same old old' (issueCurrentRequest port · nowUs) := by
  rintro w _ ⟨t, s, events, hevents, hstarted⟩
  have hpdu : requestPdu (w.recast t s (events ++ old')).client = requestPdu w.client := rfl
  obtain ⟨hclient, -, -, hhistory⟩ := sendRequest_frame port w (requestPdu w.client)
  rw [hevents, ← List.cons_append] at hhistory
  rw [← hclient] at hstarted
  simp only [issueCurrentRequest_eq, sentRequest, hpdu, sendRequest_recast]
  split
  · exact .recast t s (_ :: events) hhistory hstarted
  · exact failRequest_respects .errorClosed _ _ (.recast t s (_ :: events) hhistory hstarted)

lemma handleDiscoverResponse_respects (d : Discovery) (opcode : UInt8) (params : Bytes)
    (nowUs : ℕ) : Respects same old old' (handleDiscoverResponse port d · opcode params nowUs) := by
  refine .ite (fun _ _ _ _ => Iff.rfl) (complete_respects _ _) ?_
  cases d.entries params with
  | none => exact complete_respects _ _
  | some entries =>
    have hcollect : Respects same old old' fun w => w.modify fun c =>
        { c with found := (collect d.full c.found entries).1 } :=
      .modify fun _ t _ => ⟨t, rfl⟩
    refine .ite (p := fun w => (collect d.full w.client.found entries).2 = true)
      (fun _ _ _ _ => Iff.rfl) ((complete_respects _ _).comp hcollect) ?_
    cases entries.getLast? with
    | none => exact (complete_respects _ _).comp hcollect
    | some entry =>
      refine .ite (p := fun w => d.done entry.last w.client.discoverRangeEnd = true)
        (fun _ _ _ _ => Iff.rfl) ((complete_respects _ _).comp hcollect) ?_
      exact (issueCurrentRequest_respects port nowUs).comp
        (.comp (g := (·.modify fun c => { c with pendingHandle := entry.last + 1 }))
          (.modify fun _ t _ => ⟨t, rfl⟩) hcollect)

lemma handleReadResponse_respects (opcode : UInt8) (params : Bytes) (nowUs : ℕ) :
    Respects same old old' (handleReadResponse port · opcode params nowUs) := by
  refine .ite (p := fun w => opcode ≠ expectedReadResponse w.client) (fun _ _ _ _ => Iff.rfl)
    (complete_respects _ _) ?_
  rintro w _ ⟨t, s, events, hevents, hstarted⟩
  have halike : Alike same old old' w (w.recast t s (events ++ old')) :=
    .recast t s events hevents hstarted
  have hvalue : (w.recast t s (events ++ old')).client.value = w.client.value := rfl
  dsimp only
  by_cases hlen : maxValueLen - w.client.value.bytes.length < params.length
  · rw [dif_pos hlen, dif_pos (hvalue ▸ hlen)]
    exact complete_respects _ _ _ _ halike
  · rw [dif_neg hlen, dif_neg (hvalue ▸ hlen)]
    let value : Value := ⟨w.client.value.bytes ++ params, by
      have hfits := w.client.value.fits
      rw [List.length_append]
      omega⟩
    have hmodify : Respects same old old' (·.modify fun c => { c with value }) :=
      .modify fun _ t _ => ⟨t, rfl⟩
    have hrest : Respects same old old' fun w => if params.length = fullChunk w.client.mtu then
        if 65535 < value.bytes.length then
          complete (w.modify fun c => { c with value }) .errorTooLarge 0
        else issueCurrentRequest port (w.modify fun c => { c with value }) nowUs
      else complete (w.modify fun c => { c with value }) .ok 0 :=
      .ite (fun _ _ _ _ => Iff.rfl)
        (.ite (fun _ _ _ _ => Iff.rfl) ((complete_respects _ _).comp hmodify)
          ((issueCurrentRequest_respects port nowUs).comp hmodify))
        ((complete_respects _ _).comp hmodify)
    exact hrest w (w.recast t s (events ++ old')) halike

lemma handleErrorResponse_respects (params : Bytes) :
    Respects same old old' (handleErrorResponse · params) := by
  unfold handleErrorResponse
  cases parseErrorResponse params with
  | error => exact complete_respects _ _
  | ok err =>
    exact .ite (fun _ _ _ _ => Iff.rfl) (complete_respects _ _)
      (.ite (fun _ _ _ _ => Iff.rfl) (complete_respects _ _) (complete_respects _ _))

lemma handleWriteResponse_respects (opcode : UInt8) :
    Respects same old old' (handleWriteResponse · opcode) :=
  .ite (fun _ _ _ _ => Iff.rfl) (complete_respects _ _) (complete_respects _ _)

lemma dispatchResponse_respects (opcode : UInt8) (params : Bytes) (nowUs : ℕ) :
    Respects same old old' (dispatchResponse port · opcode params nowUs) := by
  refine .ite (fun _ _ _ _ => Iff.rfl) (handleErrorResponse_respects params) ?_
  rintro w _ ⟨t, s, events, hevents, hstarted⟩
  have halike : Alike same old old' w (w.recast t s (events ++ old')) :=
    .recast t s events hevents hstarted
  have hop : (w.recast t s (events ++ old')).client.op = w.client.op := rfl
  dsimp only
  rw [hop]
  cases w.client.op with
  | discoverServices | discoverCharacteristics | discoverDescriptors =>
    exact handleDiscoverResponse_respects port _ opcode params nowUs _ _ halike
  | read => exact handleReadResponse_respects port opcode params nowUs _ _ halike
  | write => exact handleWriteResponse_respects opcode _ _ halike
  | mtu => exact halike

lemma handleNotification_respects (isIndication : Bool) (params : Bytes) :
    Respects same old old' (handleNotification · isIndication params) := by
  rintro w _ ⟨t, s, events, hevents, hstarted⟩
  dsimp only
  rw [handleNotification_eq, handleNotification_eq]
  have hpast := congrArg (notificationEvents w.client.onNotify isIndication params ++ ·) hevents
  rw [← List.append_assoc] at hpast
  rw [show (w.recast t s (events ++ old')).history = events ++ old' from rfl, ← List.append_assoc]
  exact .recast t s _ hpast hstarted

lemma handleResponse_respects (data : Bytes) (nowUs : ℕ) :
    Respects same old old' (handleResponse port · data nowUs) := by
  cases data with
  | nil => exact .refl
  | cons opcode params =>
    have harrived : Respects same old old' (arrived · nowUs) :=
      .modify fun _ _ _ => ⟨nowUs, rfl⟩
    exact .ite (fun _ _ _ _ => Iff.rfl) ((handleNotification_respects _ params).comp harrived)
      (.ite (fun _ _ _ _ => Iff.rfl) ((handleMtuResponse_respects opcode params).comp harrived)
        (.ite (fun _ _ _ _ => Iff.rfl) harrived
          ((dispatchResponse_respects port opcode params nowUs).comp harrived)))

lemma setChannelOpen_respects (channelOpen : Bool) :
    Respects same old old' fun w => { w with channelOpen } := by
  rintro w _ ⟨t, s, events, hevents, hstarted⟩
  exact .recast t s events hevents hstarted

lemma closeChannel_respects : Respects same old old' closeChannel := by
  have honClosed : Respects same old old' onClosed :=
    .comp (f := (·.modify fun c => { c with channelReady := false }))
      (g := fun w => if w.client.onConnect then reportConnect w false
        else if w.client.busy then complete w .errorClosed 0 else w)
      (.ite (fun _ _ _ _ => Iff.rfl) (reportConnect_respects false)
        (.ite (fun _ _ _ _ => Iff.rfl) (complete_respects _ _) .refl))
      (.modify fun _ t _ => ⟨t, rfl⟩)
  exact .ite (fun _ _ _ _ => Iff.rfl) (honClosed.comp (setChannelOpen_respects false)) .refl

lemma connect_respects (hsame : ∀ s, same s s) (onConnect granted : Bool) (nowUs : ℕ) :
    Respects same old old' fun w => (connect port w onConnect granted nowUs).1 := by
  have hset : Respects same old old'
      (·.modify fun c => { c with onConnect, connectStartedUs := nowUs }) := by
    rintro w _ ⟨t, s, events, hevents, -⟩
    exact .recast t nowUs events hevents (hsame nowUs)
  have hopened :=
    (issueCurrentRequest_respects port nowUs).comp (f := (opening · onConnect nowUs)) <|
      .comp (g := (·.modify fun c => { c with channelReady := true, busy := true, op := .mtu }))
        (f := fun w => { w.modify (fun c => { c with onConnect, connectStartedUs := nowUs }) with
          channelOpen := true })
        (.modify fun _ t _ => ⟨t, rfl⟩) ((setChannelOpen_respects true).comp hset)
  have hconnect (w : World) : (connect port w onConnect granted nowUs).1 =
      if w.channelOpen = true then w.modify fun c => { c with onConnect, connectStartedUs := nowUs }
      else if (!granted) = true then
        w.modify fun c => { c with onConnect, connectStartedUs := nowUs }
      else issueCurrentRequest port (opening w onConnect nowUs) nowUs := by
    by_cases hopen : w.channelOpen = true
    · rw [if_pos hopen]
      exact congrArg Prod.fst (if_pos hopen)
    · rw [if_neg hopen]
      refine (congrArg Prod.fst (if_neg hopen)).trans ?_
      cases granted <;> rfl
  simp only [hconnect]
  exact .ite (fun _ _ _ _ => Iff.rfl) hset (.ite (fun _ _ _ _ => Iff.rfl) hset hopened)

lemma beginOperation_respects {setup : Client → Client}
    (hsetup : ∀ c t s, setup { c with eventNowUs := t, connectStartedUs := s } =
      { setup c with eventNowUs := t, connectStartedUs := s })
    (onComplete : Bool) (nowUs : ℕ) :
    Respects same old old' fun w => (beginOperation port w setup onComplete nowUs).1 := by
  have hstartOperation : Respects same old old' (startOperation · setup onComplete) := by
    rintro w _ ⟨t, s, events, hevents, hstarted⟩
    have hclient := hsetup w.client t s
    have hkept : (setup w.client).connectStartedUs = w.client.connectStartedUs := by
      have hstart := congrArg Client.connectStartedUs
        (hsetup w.client w.client.eventNowUs w.client.connectStartedUs)
      exact hstart
    have heq : startOperation (w.recast t s (events ++ old')) setup onComplete =
        (startOperation w setup onComplete).recast t s (.accepted w.operations :: events ++ old') :=
      congrArg (fun c => World.mk { c with
          busy := true
          onComplete := if onComplete then some w.operations else none }
        w.channelOpen w.requests (w.operations + 1)
        (.accepted w.operations :: (events ++ old'))) hclient
    dsimp only
    rw [heq]
    exact .recast t s _ (congrArg (Event.accepted w.operations :: ·) hevents)
      (hkept.symm ▸ hstarted)
  simp only [beginOperation, apply_ite Prod.fst]
  exact .ite (fun _ _ _ _ => Iff.rfl) .refl
    ((issueCurrentRequest_respects port nowUs).comp hstartOperation)

lemma tick_respects (nowUs : ℕ) : Respects same old old' (tick · nowUs) :=
  .ite (fun _ _ _ _ => Iff.rfl) .refl
    (.ite (fun _ _ _ _ => Iff.rfl) (handleMtuResponse_respects 0 []) (complete_respects _ _))

lemma apply_respects (hsame : ∀ s, same s s) (input : Input) :
    Respects same old old' (apply port · input) := by
  cases input with
  | connect onConnect granted nowUs => exact connect_respects port hsame onConnect granted nowUs
  | disconnect => exact .comp (g := (·.modify fun c => { c with channelReady := false }))
                    (f := fun w => if w.client.channelReady then closeChannel w else w)
                    (.modify fun _ t _ => ⟨t, rfl⟩)
                    (.ite (fun _ _ _ _ => Iff.rfl) closeChannel_respects .refl)
  | closed => exact closeChannel_respects
  | data pdu nowUs =>
    exact .ite (fun _ _ _ _ => Iff.rfl) (handleResponse_respects port pdu nowUs) .refl
  | setNotifyHandler onNotify =>
    exact Respects.modify (f := fun c => { c with onNotify }) fun _ t _ => ⟨t, rfl⟩
  | discoverServices onComplete nowUs
  | discoverCharacteristics startHandle endHandle onComplete nowUs | read handle onComplete nowUs =>
    exact beginOperation_respects port (fun _ _ _ => rfl) onComplete nowUs
  | discoverDescriptors startHandle endHandle onComplete nowUs =>
    simp only [apply, discoverDescriptors, apply_ite Prod.fst]
    exact .ite (fun _ _ _ _ => Iff.rfl) .refl
      (beginOperation_respects port (fun _ _ _ => rfl) onComplete nowUs)
  | write handle value onComplete nowUs =>
    by_cases hlen : maxValueLen < value.length
    · simp only [apply, write, dif_pos hlen]
      exact .refl
    · simp only [apply, write, dif_neg hlen]
      exact beginOperation_respects port (fun _ _ _ => rfl) onComplete nowUs
  | tick nowUs => exact tick_respects nowUs

end Bluzing.Gatt
