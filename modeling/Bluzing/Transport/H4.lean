import Bluzing.Core.Buffer
import Bluzing.Lib.Feed

/-! The receiver of the UART transport (`core/transport/h4.c`): packets are told apart by a type
octet and the length field of their header, and may arrive in any pieces. -/
namespace Bluzing.H4
open List

abbrev maxPacketSize : ℕ := 4100

inductive PacketType where
  | command
  | event
  | acl
  | sco
  | iso
  deriving DecidableEq

structure Packet where
  type : PacketType
  data : Bytes
  deriving DecidableEq

structure Rx where
  packet : Octets maxPacketSize
  length : ℕ
  expected : ℕ
  headerLength : ℕ
  type : PacketType
  haveType : Bool

def rxInit : Rx := ⟨.zero _, 0, 0, 0, .command, false⟩

def resetPacket (rx : Rx) : Rx :=
  { rx with length := 0, expected := 0, headerLength := 0, haveType := false }

def headerOf (wireType : UInt8) : Option (PacketType × ℕ) :=
  if wireType = 0x02 then some (.acl, 4)
  else if wireType = 0x03 then some (.sco, 3)
  else if wireType = 0x04 then some (.event, 2)
  else if wireType = 0x05 then some (.iso, 4)
  else none

def beginPacket (rx : Rx) (wireType : UInt8) : Option Rx :=
  (headerOf wireType).map fun (type, headerLength) =>
    { rx with type, headerLength, haveType := true, length := 0, expected := headerLength }

def declaredLength (type : PacketType) (packet : Bytes) : ℕ :=
  let field := (packet.getD 2 0).toNat ||| ((packet.getD 3 0).toNat <<< 8)
  match type with
  | .event => (packet.getD 1 0).toNat
  | .acl => field
  | .sco => (packet.getD 2 0).toNat
  | .iso => field &&& 0x3fff
  | .command => maxPacketSize

def payloadLength (rx : Rx) : ℕ := declaredLength rx.type rx.packet.bytes

def Rx.copy (rx : Rx) (data : Bytes) : Rx :=
  { rx with packet := rx.packet.writeAt rx.length data, length := rx.length + data.length }

def deliver (rx : Rx) : Rx × List Packet :=
  (resetPacket rx, [⟨rx.type, rx.packet.bytes.take rx.expected⟩])

def afterCopy (rx : Rx) : Except (Rx × Status) (Rx × List Packet) :=
  if rx.length ≠ rx.expected then .ok (rx, [])
  else if rx.expected = rx.headerLength then
    let payload := payloadLength rx
    if maxPacketSize - rx.headerLength < payload then .error (resetPacket rx, .bufferOverflow)
    else
      let rx := { rx with expected := rx.headerLength + payload }
      if payload ≠ 0 then .ok (rx, []) else .ok (deliver rx)
  else .ok (deliver rx)

def rxFeedLoop : ℕ → Rx → Bytes → Fed Rx Packet Status
  | 0, rx, _ => ⟨rx, [], none⟩
  | _ + 1, rx, [] => ⟨rx, [], none⟩
  | fuel + 1, rx, b :: data =>
      if !rx.haveType then
        match beginPacket rx b with
        | none => ⟨resetPacket rx, [], some .io⟩
        | some rx => rxFeedLoop fuel rx data
      else
        let take := min (b :: data).length (rx.expected - rx.length)
        match afterCopy (rx.copy ((b :: data).take take)) with
        | .error (rx, status) => ⟨rx, [], some status⟩
        | .ok (rx, packets) => (rxFeedLoop fuel rx ((b :: data).drop take)).after packets

def rxFeed (rx : Rx) (data : Bytes) : Fed Rx Packet Status := rxFeedLoop data.length rx data

def octetStep : Consumer Rx UInt8 Packet Status := fun rx b =>
  if !rx.haveType then
    match beginPacket rx b with
    | none => .error (resetPacket rx, .io)
    | some rx => .ok (rx, [])
  else afterCopy (rx.copy [b])

def Rx.Sound (rx : Rx) : Prop :=
  rx.haveType = true →
    rx.length < rx.expected ∧ rx.headerLength ≤ rx.expected ∧ rx.expected ≤ maxPacketSize

lemma rxInit_sound : rxInit.Sound := nofun

lemma resetPacket_sound (rx : Rx) : (resetPacket rx).Sound := nofun

lemma headerOf_bounds {wireType : UInt8} {type : PacketType} {headerLength : ℕ}
    (h : headerOf wireType = some (type, headerLength)) : 0 < headerLength ∧ headerLength ≤ 4 := by
  unfold headerOf at h
  split_ifs at h <;> cases h <;> decide

variable {rx : Rx}

lemma beginPacket_sound {rx' : Rx} {b : UInt8} (h : beginPacket rx b = some rx') : rx'.Sound := by
  obtain ⟨⟨type, headerLength⟩, hheader, rfl⟩ := Option.map_eq_some_iff.mp h
  have hbounds := headerOf_bounds hheader
  intro _
  exact ⟨hbounds.1, Nat.le_refl _, Nat.le_trans hbounds.2 (by decide)⟩

structure Rx.Copied (rx : Rx) : Prop where
  length_le : rx.length ≤ rx.expected
  header_le : rx.headerLength ≤ rx.expected
  expected_le : rx.expected ≤ maxPacketSize

lemma Rx.copied_copy {data : Bytes} (hs : rx.Sound) (htype : rx.haveType = true)
    (hdata : data.length ≤ rx.expected - rx.length) : (rx.copy data).Copied := by
  obtain ⟨hlen, hheader, hmax⟩ := hs htype
  exact ⟨by simp only [copy]; omega, hheader, hmax⟩

lemma afterCopy_sound (hc : rx.Copied) :
    match afterCopy rx with
    | .error (rx', _) => rx'.Sound
    | .ok (rx', _) => rx'.Sound := by
  have hlen := hc.length_le
  have hheader := hc.header_le
  have hmax := hc.expected_le
  dsimp only [afterCopy]
  by_cases hmore : rx.length ≠ rx.expected
  · rw [if_pos hmore]
    intro _
    exact ⟨by omega, hheader, hmax⟩
  · rw [if_neg hmore]
    by_cases hhead : rx.expected = rx.headerLength
    · rw [if_pos hhead]
      split_ifs with hbig hpayload
      · exact resetPacket_sound rx
      · intro _
        dsimp only
        omega
      · exact resetPacket_sound _
    · rw [if_neg hhead]
      exact resetPacket_sound _

lemma octetStep_sound {b : UInt8} (hs : rx.Sound) :
    match octetStep rx b with
    | .error (rx', _) => rx'.Sound
    | .ok (rx', _) => rx'.Sound := by
  unfold octetStep
  cases htype : rx.haveType with
  | false =>
    cases hbegin : beginPacket rx b with
    | none => exact resetPacket_sound rx
    | some rx' => exact beginPacket_sound hbegin
  | true =>
    have hlen := (hs htype).1
    exact afterCopy_sound (Rx.copied_copy hs htype (by rw [length_singleton]; omega))

lemma octetStep_copy (htype : rx.haveType = true) (b : UInt8) :
    octetStep rx b = afterCopy (rx.copy [b]) := by
  simp [octetStep, htype]

lemma Rx.copy_cons (rx : Rx) (b : UInt8) (data : Bytes) :
    rx.copy (b :: data) = (rx.copy [b]).copy data := by
  simp only [copy, Octets.writeAt, length_cons, length_nil, Nat.zero_add]
  congr 1
  omega

lemma afterCopy_more (h : rx.length ≠ rx.expected) : afterCopy rx = .ok (rx, []) := by
  rw [afterCopy, if_pos h]

lemma feed_copy (htype : rx.haveType = true) {chunk : Bytes} (hne : chunk ≠ [])
    (hle : chunk.length ≤ rx.expected - rx.length) (rest : Bytes) :
    octetStep.feed rx (chunk ++ rest) =
      Fed.andThen (afterCopy (rx.copy chunk)) fun rx' => octetStep.feed rx' rest := by
  induction chunk generalizing rx with
  | nil => exact absurd rfl hne
  | cons b chunk ih =>
    rw [cons_append, Consumer.feed_cons, octetStep_copy htype]
    by_cases hlast : chunk = []
    · rw [hlast, nil_append]
    · have hpos := length_pos_iff.mpr hlast
      rw [length_cons] at hle
      have hmore : (rx.copy [b]).length ≠ (rx.copy [b]).expected := by
        simp only [Rx.copy, length_singleton]
        omega
      have hless : chunk.length ≤ (rx.copy [b]).expected - (rx.copy [b]).length := by
        simp only [Rx.copy, length_singleton]
        omega
      rw [afterCopy_more hmore, Rx.copy_cons rx b chunk]
      exact @ih (rx.copy [b]) htype hlast hless

lemma rxFeedLoop_eq_feed {fuel : ℕ} {rx : Rx} {data : Bytes} (hs : rx.Sound)
    (hfuel : data.length ≤ fuel) : rxFeedLoop fuel rx data = octetStep.feed rx data := by
  induction fuel generalizing rx data with
  | zero =>
    obtain rfl := eq_nil_of_length_eq_zero (Nat.le_zero.mp hfuel)
    rfl
  | succ fuel ih =>
    cases data with
    | nil => rfl
    | cons b data =>
      rw [length_cons] at hfuel
      cases htype : rx.haveType with
      | false =>
        have hstep := @octetStep_sound rx b hs
        rw [Consumer.feed_cons]
        cases hbegin : beginPacket rx b with
        | none => simp [rxFeedLoop, octetStep, htype, hbegin, Fed.andThen]
        | some rx' =>
          simp only [rxFeedLoop, octetStep, htype, hbegin, Fed.andThen, Bool.not_false, if_true,
            Fed.after_nil]
          exact ih (beginPacket_sound hbegin) (by omega)
      | true =>
        -- at least one octet is taken, since something is missing
        obtain ⟨hlen, -, -⟩ := hs htype
        obtain ⟨take, htake⟩ : ∃ take, min (b :: data).length (rx.expected - rx.length) =
            take + 1 := ⟨min (b :: data).length (rx.expected - rx.length) - 1, by
              rw [length_cons]; omega⟩
        have hle : (b :: data.take take).length ≤ rx.expected - rx.length := by
          rw [length_cons, length_take]
          omega
        have hcut : b :: data = b :: data.take take ++ data.drop take := by
          rw [cons_append, take_append_drop]
        have hsound := afterCopy_sound (Rx.copied_copy hs htype hle)
        rw [hcut, feed_copy htype (cons_ne_nil _ _) hle, ← hcut]
        simp only [rxFeedLoop, htype, Bool.not_true, htake, take_succ_cons,
          drop_succ_cons, Bool.false_eq_true, if_false]
        cases hafter : afterCopy (rx.copy (b :: data.take take)) with
        | error r => rfl
        | ok r =>
          rw [hafter] at hsound
          simp only [Fed.andThen]
          rw [ih hsound (by rw [length_drop]; omega)]

lemma rxFeed_eq_feed (hs : rx.Sound) (data : Bytes) :
    rxFeed rx data = octetStep.feed rx data :=
  rxFeedLoop_eq_feed hs (Nat.le_refl _)

lemma feed_sound (hs : rx.Sound) (data : Bytes) : (octetStep.feed rx data).state.Sound := by
  induction data generalizing rx with
  | nil => exact hs
  | cons b data ih =>
    have hstep := @octetStep_sound rx b hs
    rw [Consumer.feed_cons]
    cases hb : octetStep rx b with
    | error r =>
      rw [hb] at hstep
      exact hstep
    | ok r =>
      rw [hb] at hstep
      exact ih hstep

def feedCalls (rx : Rx) (chunks : List Bytes) : Calls Rx Packet Status :=
  calls rxFeed rx chunks

lemma feedCalls_eq_calls (hs : rx.Sound) (chunks : List Bytes) :
    feedCalls rx chunks = calls octetStep.feed rx chunks := by
  induction chunks generalizing rx with
  | nil => rfl
  | cons data chunks ih =>
    have hrest := ih (feed_sound hs data)
    simp only [feedCalls, calls] at hrest ⊢
    rw [rxFeed_eq_feed hs, hrest]

lemma feedCalls_sound (hs : rx.Sound) (chunks : List Bytes) :
    (feedCalls rx chunks).state.Sound := by
  induction chunks generalizing rx with
  | nil => exact hs
  | cons data chunks ih =>
    have hfirst := feed_sound hs data
    rw [← rxFeed_eq_feed hs] at hfirst
    exact ih hfirst

def h4WireType : PacketType → UInt8
  | .command => 0x01
  | .acl => 0x02
  | .sco => 0x03
  | .event => 0x04
  | .iso => 0x05

def Packet.encode (p : Packet) : Bytes := h4WireType p.type :: p.data

def Packet.WellFormed (p : Packet) : Prop :=
  ∃ headerLength, headerOf (h4WireType p.type) = some (p.type, headerLength) ∧
    p.data.length = headerLength + declaredLength p.type p.data ∧ p.data.length ≤ maxPacketSize

lemma declaredLength_take {wireType : UInt8} {type : PacketType} {headerLength : ℕ}
    (h : headerOf wireType = some (type, headerLength)) (packet : Bytes) :
    declaredLength type (packet.take headerLength) = declaredLength type packet := by
  unfold headerOf at h
  split_ifs at h <;> cases h <;> simp [declaredLength]

lemma afterCopy_header (hlen : rx.length = rx.expected) (hhead : rx.expected = rx.headerLength)
    (hroom : rx.headerLength + payloadLength rx ≤ maxPacketSize) (hpayload : payloadLength rx ≠ 0) :
    afterCopy rx = .ok ({ rx with expected := rx.headerLength + payloadLength rx }, []) := by
  have hsmall : ¬ maxPacketSize - rx.headerLength < payloadLength rx := by omega
  simp [afterCopy, hlen, hhead, hsmall, hpayload]

lemma afterCopy_bare (hlen : rx.length = rx.expected)
    (hhead : rx.expected = rx.headerLength) (hpayload : payloadLength rx = 0) :
    afterCopy rx = .ok (deliver rx) := by
  simp [afterCopy, hlen, hhead, hpayload, deliver, resetPacket]

lemma afterCopy_whole (hlen : rx.length = rx.expected)
    (hhead : rx.expected ≠ rx.headerLength) : afterCopy rx = .ok (deliver rx) := by
  simp [afterCopy, hlen, hhead]

lemma feed_payload {payload : Bytes} (htype : rx.haveType = true)
    (hlen : rx.length = rx.headerLength) (hne : payload ≠ [])
    (hexpected : rx.expected = rx.headerLength + payload.length)
    (hmax : rx.expected ≤ maxPacketSize) :
    octetStep.feed rx payload = ⟨resetPacket (rx.copy payload),
      [⟨rx.type, rx.packet.bytes.take rx.headerLength ++ payload⟩], none⟩ := by
  have hpos := length_pos_iff.mpr hne
  have hcopy := feed_copy htype hne (by omega) []
  have hdone : (rx.copy payload).length = (rx.copy payload).expected := by
    simp only [Rx.copy]
    omega
  have hmore : (rx.copy payload).expected ≠ (rx.copy payload).headerLength := by
    simp only [Rx.copy]
    omega
  have hbytes := rx.packet.writeAt_take rx.length payload (by omega)
  rw [append_nil, afterCopy_whole hdone hmore] at hcopy
  rw [hcopy, ← hlen, ← hbytes]
  simp only [Fed.andThen, deliver, Consumer.feed, Fed.after, Rx.copy, hexpected, hlen,
    append_nil]

lemma feed_packet {data : Bytes} (htype : rx.haveType = true)
    (hstart : rx.length = 0) (hhead : rx.expected = rx.headerLength) (hpos : 0 < rx.headerLength)
    (hfield : ∀ packet, declaredLength rx.type (packet.take rx.headerLength) =
      declaredLength rx.type packet)
    (hlength : data.length = rx.headerLength + declaredLength rx.type data)
    (hmax : data.length ≤ maxPacketSize) :
    ∃ rx', rx'.haveType = false ∧ octetStep.feed rx data = ⟨rx', [⟨rx.type, data⟩], none⟩ := by
  have htake : (data.take rx.headerLength).length = rx.headerLength := by
    rw [length_take]
    omega
  have hne : data.take rx.headerLength ≠ [] := by
    rw [ne_eq, ← length_eq_zero_iff]
    omega
  -- the header
  obtain ⟨head, hheadRx⟩ : ∃ head, head = rx.copy (data.take rx.headerLength) := ⟨_, rfl⟩
  have hbytes : head.packet.bytes.take rx.headerLength = data.take rx.headerLength := by
    have hwrite := rx.packet.writeAt_take 0 (data.take rx.headerLength) (by omega)
    rw [htake, Nat.zero_add, take_zero, nil_append] at hwrite
    rw [hheadRx, Rx.copy, hstart]
    exact hwrite
  have hpayload : payloadLength head = declaredLength rx.type data := by
    have htypes : head.type = rx.type := by rw [hheadRx]; rfl
    rw [payloadLength, htypes, ← hfield head.packet.bytes, hbytes, hfield]
  have hlen : head.length = head.expected := by
    rw [hheadRx]
    simp only [Rx.copy, htake]
    omega
  have hbare : head.expected = head.headerLength := by rw [hheadRx]; exact hhead
  have hheader : head.headerLength = rx.headerLength := by rw [hheadRx]; rfl
  have hfirst := feed_copy htype hne (by omega) (data.drop rx.headerLength)
  rw [take_append_drop, ← hheadRx] at hfirst
  by_cases hempty : declaredLength rx.type data = 0
  · -- the packet is its header
    have hall : data.take rx.headerLength = data := take_of_length_le (by omega)
    have hdone : data.drop rx.headerLength = [] := drop_of_length_le (by omega)
    rw [hfirst, afterCopy_bare hlen hbare (hpayload.trans hempty), hdone, deliver, hbare, hheader,
      hbytes, hall]
    exact ⟨resetPacket head, rfl, by rw [hheadRx]; rfl⟩
  · rw [hfirst, afterCopy_header hlen hbare (by omega) (by omega)]
    have hdrop : data.drop rx.headerLength ≠ [] := by
      rw [ne_eq, ← length_eq_zero_iff, length_drop]
      omega
    have hbody := @feed_payload { head with expected := head.headerLength + payloadLength head }
      (data.drop rx.headerLength) (by rw [hheadRx]; exact htype) (hlen.trans hbare) hdrop
      (by simp only [length_drop]; omega) (by dsimp only; omega)
    rw [Fed.andThen, Fed.after_nil, hbody, hheader, hbytes, take_append_drop]
    exact ⟨_, rfl, by rw [hheadRx]; rfl⟩

lemma feed_encode (htype : rx.haveType = false) {p : Packet} (hp : p.WellFormed) :
    ∃ rx', rx'.haveType = false ∧ octetStep.feed rx p.encode = ⟨rx', [p], none⟩ := by
  obtain ⟨headerLength, hheader, hlength, hmax⟩ := hp
  have hbegin : octetStep rx (h4WireType p.type) = .ok ({ rx with
      type := p.type
      headerLength := headerLength
      haveType := true
      length := 0
      expected := headerLength }, []) := by
    simp [octetStep, htype, beginPacket, hheader]
  rw [Packet.encode, Consumer.feed_ok hbegin, Fed.after_nil]
  exact feed_packet rfl rfl rfl (headerOf_bounds hheader).1 (declaredLength_take hheader)
    hlength hmax

lemma feed_encodes (htype : rx.haveType = false) {packets : List Packet}
    (hp : ∀ p ∈ packets, p.WellFormed) :
    ∃ rx', octetStep.feed rx (packets.flatMap Packet.encode) = ⟨rx', packets, none⟩ := by
  induction packets generalizing rx with
  | nil => exact ⟨rx, rfl⟩
  | cons p packets ih =>
    obtain ⟨hfirst, hothers⟩ := forall_mem_cons.mp hp
    obtain ⟨between, hbetween, hfeed⟩ := feed_encode htype hfirst
    obtain ⟨rx', hrest⟩ := ih hbetween hothers
    refine ⟨rx', ?_⟩
    rw [flatMap_cons, Consumer.feed_append (by rw [hfeed]), hfeed, hrest]
    rfl

lemma feedCalls_packets (hs : rx.Sound) (htype : rx.haveType = false)
    {packets : List Packet} (hp : ∀ p ∈ packets, p.WellFormed) {chunks : List Bytes}
    (hstream : chunks.flatten = packets.flatMap Packet.encode) :
    (∀ f ∈ (feedCalls rx chunks).failures, f = none) ∧ (feedCalls rx chunks).output = packets := by
  obtain ⟨rx', hfeed⟩ := feed_encodes htype hp
  rw [← hstream] at hfeed
  have hok := Consumer.calls_failures (by rw [hfeed])
  have hwhole := Consumer.feed_flatten hok
  rw [hfeed] at hwhole
  rw [feedCalls_eq_calls hs]
  exact ⟨hok, (congrArg Fed.output hwhole).symm⟩

/-- However the packets of a stream are cut into calls, each is delivered once and in order; and any
calls without an error do what one call with the whole stream does. -/
theorem feedCalls_cut (earlier : List Bytes) :
    (∀ (packets : List Packet) (chunks : List Bytes),
      (feedCalls rxInit earlier).state.haveType = false → (∀ p ∈ packets, p.WellFormed) →
      chunks.flatten = packets.flatMap Packet.encode →
      (∀ f ∈ (feedCalls (feedCalls rxInit earlier).state chunks).failures, f = none) ∧
        (feedCalls (feedCalls rxInit earlier).state chunks).output = packets) ∧
    ∀ chunks : List Bytes,
      (∀ f ∈ (feedCalls (feedCalls rxInit earlier).state chunks).failures, f = none) →
      rxFeed (feedCalls rxInit earlier).state chunks.flatten =
        ⟨(feedCalls (feedCalls rxInit earlier).state chunks).state,
          (feedCalls (feedCalls rxInit earlier).state chunks).output, none⟩ := by
  have hs := feedCalls_sound rxInit_sound earlier
  generalize (feedCalls rxInit earlier).state = rx at hs
  have hcalls := feedCalls_eq_calls hs
  refine ⟨fun packets chunks htype hp hstream => ?_, fun chunks hok => ?_⟩
  · exact feedCalls_packets hs htype hp hstream
  · rw [hcalls] at hok ⊢
    rw [rxFeed_eq_feed hs]
    exact Consumer.feed_flatten hok

theorem feedCalls_cut_pieces :
    (feedCalls rxInit [[0x04], [0x0e, 0x01], [0xaa, 0x02, 0x01], [0x20, 0x00, 0x00]]).output =
      [⟨.event, [0x0e, 0x01, 0xaa]⟩, ⟨.acl, [0x01, 0x20, 0x00, 0x00]⟩] := by
  have hwell : ∀ p ∈ [(⟨.event, [0x0e, 0x01, 0xaa]⟩ : Packet), ⟨.acl, [0x01, 0x20, 0x00, 0x00]⟩],
      p.WellFormed := by
    simp only [mem_cons, not_mem_nil, or_false, forall_eq_or_imp, forall_eq]
    exact ⟨⟨2, rfl, rfl, by decide⟩, ⟨4, rfl, rfl, by decide⟩⟩
  exact ((feedCalls_cut []).1 _ _ rfl hwell rfl).2

end Bluzing.H4
