import Bluzing.Transport.H4

/-! The H4 receiver (`core/transport/h4.c`) on arbitrary streams: its counters stay in bounds, what
it delivers has the length that its header declares, and an error leaves it ready for a packet. -/
namespace Bluzing.H4
open List

def rxFeedCopies : ℕ → Rx → Bytes → List (Rx × Bytes)
  | 0, _, _ => []
  | _ + 1, _, [] => []
  | fuel + 1, rx, b :: data =>
      if !rx.haveType then
        match beginPacket rx b with
        | none => []
        | some rx => rxFeedCopies fuel rx data
      else
        let take := min (b :: data).length (rx.expected - rx.length)
        (rx, (b :: data).take take) ::
          match afterCopy (rx.copy ((b :: data).take take)) with
          | .error _ => []
          | .ok (rx, _) => rxFeedCopies fuel rx ((b :: data).drop take)

lemma rxFeedCopies_bounds {fuel : ℕ} {rx : Rx} {data : Bytes} (hs : rx.Sound) :
    ∀ c ∈ rxFeedCopies fuel rx data, c.1.length < c.1.expected ∧
      c.1.length + c.2.length ≤ c.1.expected ∧ c.1.expected ≤ maxPacketSize := by
  induction fuel generalizing rx data with
  | zero => nofun
  | succ fuel ih =>
    cases data with
    | nil => nofun
    | cons b data =>
      rw [rxFeedCopies]
      split
      · cases hbegin : beginPacket rx b with
        | none => nofun
        | some rx' => exact ih (beginPacket_sound hbegin)
      next htype =>
        have htype : rx.haveType = true := by simpa using htype
        obtain ⟨hlen, -, hmax⟩ := hs htype
        have htake : ((b :: data).take (min (b :: data).length (rx.expected - rx.length))).length ≤
            rx.expected - rx.length := by
          rw [length_take]
          omega
        have hafter := afterCopy_sound (Rx.copied_copy hs htype htake)
        rw [forall_mem_cons]
        refine ⟨⟨hlen, by dsimp only; omega, hmax⟩, ?_⟩
        split
        · nofun
        next hok =>
          rw [hok] at hafter
          exact ih hafter

structure Rx.Framed (rx : Rx) : Prop where
  sound : rx.Sound
  idle : rx.haveType = false → rx.length = 0 ∧ rx.expected = 0
  header : rx.haveType = true → headerOf (h4WireType rx.type) = some (rx.type, rx.headerLength)
  payload : rx.haveType = true → rx.expected ≠ rx.headerLength →
    rx.headerLength ≤ rx.length ∧ rx.expected = rx.headerLength + payloadLength rx

lemma resetPacket_framed (rx : Rx) : (resetPacket rx).Framed :=
  ⟨resetPacket_sound rx, fun _ => ⟨rfl, rfl⟩, nofun, nofun⟩

lemma headerOf_wireType {wireType : UInt8} {type : PacketType} {headerLength : ℕ}
    (h : headerOf wireType = some (type, headerLength)) : h4WireType type = wireType := by
  unfold headerOf at h
  split_ifs at h with h₁ h₂ h₃ h₄ <;> cases h
  · exact h₁.symm
  · exact h₂.symm
  · exact h₃.symm
  · exact h₄.symm

variable {rx : Rx}

lemma beginPacket_framed {rx' : Rx} {b : UInt8} (h : beginPacket rx b = some rx') :
    rx'.Framed := by
  have hsound := beginPacket_sound h
  obtain ⟨⟨type, headerLength⟩, hheader, rfl⟩ := Option.map_eq_some_iff.mp h
  exact ⟨hsound, nofun, fun _ => (headerOf_wireType hheader).symm ▸ hheader,
    fun _ hne => absurd rfl hne⟩

lemma payloadLength_copy {data : Bytes}
    (hheader : headerOf (h4WireType rx.type) = some (rx.type, rx.headerLength))
    (hlen : rx.headerLength ≤ rx.length) (hroom : rx.length + data.length ≤ maxPacketSize) :
    payloadLength (rx.copy data) = payloadLength rx := by
  have hbytes : (rx.copy data).packet.bytes.take rx.headerLength =
      rx.packet.bytes.take rx.headerLength := by
    have hlength : rx.headerLength ≤ (rx.packet.bytes.take rx.length).length := by
      rw [length_take, rx.packet.length_eq]
      omega
    rw [Rx.copy, rx.packet.writeAt_bytes _ _ hroom, append_assoc,
      take_append_of_le_length hlength, take_take, Nat.min_eq_left hlen]
  rw [payloadLength, payloadLength, ← declaredLength_take hheader rx.packet.bytes, ← hbytes]
  exact (declaredLength_take hheader _).symm

lemma deliver_wellFormed
    (hheader : headerOf (h4WireType rx.type) = some (rx.type, rx.headerLength))
    (hexpected : rx.expected = rx.headerLength + payloadLength rx)
    (hmax : rx.expected ≤ maxPacketSize) : ∀ p ∈ (deliver rx).2, p.WellFormed := by
  have hlength : (rx.packet.bytes.take rx.expected).length = rx.expected := by
    rw [length_take, rx.packet.length_eq]
    omega
  have hdeclared :
      declaredLength rx.type (rx.packet.bytes.take rx.expected) = payloadLength rx := by
    rw [← declaredLength_take hheader, take_take, Nat.min_eq_left (by omega),
      declaredLength_take hheader]
    rfl
  intro p hp
  obtain rfl := mem_singleton.mp hp
  refine ⟨rx.headerLength, hheader, ?_, ?_⟩
  · dsimp only
    rw [hlength, hdeclared, hexpected]
  · dsimp only
    omega

lemma afterCopy_framed (hc : rx.Copied) (htype : rx.haveType = true)
    (hheader : headerOf (h4WireType rx.type) = some (rx.type, rx.headerLength))
    (hpayload : rx.expected ≠ rx.headerLength →
      rx.headerLength ≤ rx.length ∧ rx.expected = rx.headerLength + payloadLength rx) :
    match afterCopy rx with
    | .error (rx', _) => rx'.Framed ∧ rx'.haveType = false
    | .ok (rx', packets) => rx'.Framed ∧ ∀ p ∈ packets, p.WellFormed := by
  have hsound := afterCopy_sound hc
  have hmax := hc.expected_le
  have hbusy : ¬ rx.haveType = false := by simp [htype]
  dsimp only [afterCopy] at hsound ⊢
  by_cases hmore : rx.length ≠ rx.expected
  · rw [if_pos hmore] at hsound ⊢
    exact ⟨⟨hsound, fun h => absurd h hbusy, fun _ => hheader, fun _ => hpayload⟩, nofun⟩
  rw [if_neg hmore] at hsound ⊢
  by_cases hhead : rx.expected = rx.headerLength
  · rw [if_pos hhead] at hsound ⊢
    by_cases hbig : maxPacketSize - rx.headerLength < payloadLength rx
    · rw [if_pos hbig]
      exact ⟨resetPacket_framed rx, rfl⟩
    rw [if_neg hbig] at hsound ⊢
    by_cases hsome : payloadLength rx ≠ 0
    · rw [if_pos hsome] at hsound ⊢
      refine ⟨⟨hsound, fun h => absurd h hbusy, fun _ => hheader, fun _ _ => ⟨?_, rfl⟩⟩, nofun⟩
      dsimp only
      omega
    · rw [if_neg hsome]
      refine ⟨resetPacket_framed _, deliver_wellFormed hheader rfl ?_⟩
      dsimp only
      omega
  · rw [if_neg hhead]
    exact ⟨resetPacket_framed rx, deliver_wellFormed hheader (hpayload hhead).2 hmax⟩

lemma octetStep_framed (h : rx.Framed) (b : UInt8) :
    match octetStep rx b with
    | .error (rx', _) => rx'.Framed ∧ rx'.haveType = false
    | .ok (rx', packets) => rx'.Framed ∧ ∀ p ∈ packets, p.WellFormed := by
  cases htype : rx.haveType with
  | false =>
    cases hbegin : beginPacket rx b with
    | none =>
      simp only [octetStep, htype, hbegin, Bool.not_false, if_true]
      exact ⟨resetPacket_framed rx, rfl⟩
    | some rx' =>
      simp only [octetStep, htype, hbegin, Bool.not_false, if_true]
      exact ⟨beginPacket_framed hbegin, (by simp)⟩
  | true =>
    obtain ⟨hlen, -, hmax⟩ := h.sound htype
    rw [octetStep_copy htype]
    apply afterCopy_framed (Rx.copied_copy h.sound htype (by rw [length_singleton]; omega))
      htype (h.header htype)
    intro hne
    obtain ⟨hheader, hexpected⟩ := h.payload htype hne
    rw [payloadLength_copy (h.header htype) hheader (by rw [length_singleton]; omega)]
    exact ⟨Nat.le_succ_of_le hheader, hexpected⟩

lemma feed_framed (h : rx.Framed) (data : Bytes) :
    (octetStep.feed rx data).state.Framed ∧
      (∀ p ∈ (octetStep.feed rx data).output, p.WellFormed) ∧
      ((octetStep.feed rx data).failure ≠ none →
        (octetStep.feed rx data).state.haveType = false) := by
  induction data generalizing rx with
  | nil => exact ⟨h, nofun, fun hfailed => absurd rfl hfailed⟩
  | cons b data ih =>
    have hstep := octetStep_framed h b
    cases hb : octetStep rx b with
    | error r =>
      rw [hb] at hstep
      rw [Consumer.feed_error hb]
      exact ⟨hstep.1, nofun, fun _ => hstep.2⟩
    | ok r =>
      rw [hb] at hstep
      rw [Consumer.feed_ok hb]
      obtain ⟨hframed, hpackets, hidle⟩ := ih hstep.1
      refine ⟨hframed, fun p hp => ?_, hidle⟩
      rcases mem_append.mp hp with hp | hp
      · exact hstep.2 p hp
      · exact hpackets p hp

lemma feedCalls_framed (h : rx.Framed) (chunks : List Bytes) :
    (feedCalls rx chunks).state.Framed ∧ ∀ p ∈ (feedCalls rx chunks).output, p.WellFormed := by
  induction chunks generalizing rx with
  | nil => exact ⟨h, nofun⟩
  | cons data chunks ih =>
    obtain ⟨hframed, hpackets, -⟩ := feed_framed h data
    rw [← rxFeed_eq_feed h.sound] at hframed hpackets
    obtain ⟨hlast, hothers⟩ := ih hframed
    refine ⟨hlast, fun p hp => ?_⟩
    rcases mem_append.mp hp with hp | hp
    · exact hpackets p hp
    · exact hothers p hp

/-- Whatever the receiver has been fed, its counters are in bounds, it has delivered packets of the
declared length only, no copy of a further call leaves the buffer, and after a call that fails the
next packet is received. -/
theorem feedCalls_recovers (chunks : List Bytes) :
    (let rx := (feedCalls rxInit chunks).state
    (rx.length ≤ rx.expected ∧ rx.expected ≤ maxPacketSize ∧
      (rx.haveType = true → rx.length < rx.expected)) ∧
    (∀ p ∈ (feedCalls rxInit chunks).output, p.WellFormed) ∧
    ∀ data, (∀ c ∈ rxFeedCopies data.length rx data, c.1.length < c.1.expected ∧
        c.1.length + c.2.length ≤ c.1.expected ∧ c.1.expected ≤ maxPacketSize) ∧
      ((rxFeed rx data).failure ≠ none → (rxFeed rx data).state.haveType = false ∧
        ∀ (p : Packet) (pieces : List Bytes), p.WellFormed → pieces.flatten = p.encode →
          (∀ f ∈ (feedCalls (rxFeed rx data).state pieces).failures, f = none) ∧
            (feedCalls (rxFeed rx data).state pieces).output = [p])) := by
  obtain ⟨hframed, hpackets⟩ := feedCalls_framed (resetPacket_framed rxInit) chunks
  have hinit : resetPacket rxInit = rxInit := rfl
  rw [hinit] at hframed hpackets
  intro rx
  replace hframed : rx.Framed := hframed
  have hs := hframed.sound
  refine ⟨?_, hpackets, fun data => ⟨rxFeedCopies_bounds hs, fun hfailed => ?_⟩⟩
  · cases htype : rx.haveType with
    | false =>
      obtain ⟨hlength, hexpected⟩ := hframed.idle htype
      rw [hlength, hexpected]
      exact ⟨Nat.le_refl 0, Nat.zero_le _, nofun⟩
    | true =>
      obtain ⟨hlength, -, hexpected⟩ := hs htype
      exact ⟨Nat.le_of_lt hlength, hexpected, fun _ => hlength⟩
  · obtain ⟨hafter, -, hidle⟩ := feed_framed hframed data
    rw [← rxFeed_eq_feed hs] at hafter hidle
    refine ⟨hidle hfailed, fun p pieces hp hpieces => ?_⟩
    apply feedCalls_packets hafter.sound (hidle hfailed)
    · simpa using hp
    · simpa using hpieces

end Bluzing.H4
