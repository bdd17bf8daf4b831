import Bluzing.Lib.Reentrant
import Bluzing.Transport.H4

/-! The UART transport of the AROS port (`ports/aros/transport-uart/uart_transport.c`). -/
namespace Bluzing.Uart
open List H4

abbrev txMax : ℕ := maxPacketSize + 1
abbrev apiVersion : ℕ := 1

/-- `struct bt_aros_uart_transport`; `tx` holds the first `tx_length` octets of the array. -/
structure Transport where
  h4Rx : Rx
  tx : Bytes
  txOffset : ℕ
  opened : Bool
  receiving : Bool

structure World where
  uart : Transport
  /-- The resource is claimed. -/
  held : Bool
  accepted : List Packet
  wire : Bytes
  /-- The reads that the H4 receiver was given since it was last set up, and what it delivered. -/
  fed : List Bytes
  delivered : List Packet

def World.init : World := ⟨⟨rxInit, [], 0, false, false⟩, false, [], [], [], []⟩

def World.pending (w : World) : Bytes := w.uart.tx.drop w.uart.txOffset

/-- What `btuart.resource` answers to `uart_open`. -/
structure Opening where
  resource : Bool
  version : ℕ
  claim : Bool
  configure : Bool
  power : Bool

def uartOpen (w : World) (o : Opening) : World × Status :=
  if w.uart.opened then (w, .invalidArgument)
  else if !o.resource then (w, .io)
  else if o.version ≠ apiVersion then (w, .io)
  else if !o.claim then (w, .noResources)
  -- the claim is released again
  else if !o.configure then ({ w with held := false }, .io)
  else if !o.power then ({ w with held := false }, .io)
  else
    ({ w with
      uart := { w.uart with h4Rx := rxInit, opened := true }
      held := true, accepted := [], wire := [], fed := [], delivered := [] }, .ok)

def uartClose (w : World) : World :=
  if !w.uart.opened then w
  else
    { w with
      uart := { w.uart with receiving := false, opened := false, tx := [], txOffset := 0 }
      held := false }

def queuePacket (w : World) (type : PacketType) (data : Bytes) : World × Status :=
  if !w.uart.opened ∨ data = [] ∨ txMax < data.length + 1 then (w, .invalidArgument)
  else if w.uart.txOffset ≠ w.uart.tx.length then (w, .noResources)
  else
    ({ w with
      uart := { w.uart with tx := h4WireType type :: data, txOffset := 0 }
      accepted := w.accepted ++ [⟨type, data⟩] }, .ok)

def uartSendCommand (w : World) (data : Bytes) : World × Status := queuePacket w .command data

def uartSendAcl (w : World) (data : Bytes) : World × Status := queuePacket w .acl data

def unsupportedSend (w : World) : World × Status := (w, .invalidArgument)

/-- A packet given to one of the send functions. -/
inductive Send where
  | command (data : Bytes)
  | acl (data : Bytes)
  | other

def send (w : World) : Send → World × Status
  | .command data => uartSendCommand w data
  | .acl data => uartSendAcl w data
  | .other => unsupportedSend w

def uartStartReceive (w : World) (receive : Bool) : World × Status :=
  if !w.uart.opened || w.uart.receiving || !receive then (w, .invalidArgument)
  else ({ w with uart := { w.uart with receiving := true } }, .ok)

def uartStopReceive (w : World) : World :=
  { w with uart := { w.uart with receiving := false, h4Rx := rxInit }, fed := [], delivered := [] }

/-- The first part of the poll. -/
def writeTx (w : World) (room : Option ℕ) : Option World :=
  if w.uart.txOffset < w.uart.tx.length then
    room.map fun room =>
      let count := min room (w.uart.tx.length - w.uart.txOffset)
      let txOffset := w.uart.txOffset + count
      { w with
        uart := if txOffset = w.uart.tx.length then { w.uart with tx := [], txOffset := 0 }
          else { w.uart with txOffset }
        wire := w.wire ++ w.pending.take count }
  else some w

/-- What a poll meets: how much the UART takes (`none` if the write fails), what is read, whether
the read after that fails, and what the receive callback sends from inside the poll when it is given
the `n`-th packet since the receiver was set up. -/
structure Answers where
  room : Option ℕ
  chunks : List Bytes
  readFails : Bool
  replies : ℕ → List Send

/-- The receiver is given a chunk, and the receive callback each packet that is complete with it.
What the callback sends does not touch the receiver, so that the packets are noted first. -/
def World.feed (w : World) (replies : ℕ → List Send) (chunk : Bytes) : World :=
  let fed := rxFeed w.uart.h4Rx chunk
  ((range' w.delivered.length fed.output.length).flatMap replies).foldl (fun w s => (send w s).1)
    { w with
      uart := { w.uart with h4Rx := fed.state }
      fed := w.fed ++ [chunk]
      delivered := w.delivered ++ fed.output }

/-- The loop over `BTUARTRead`, which returns these chunks and then nothing or an error. -/
def drain (a : Answers) : World → List Bytes → World × Status
  | w, [] => (w, if a.readFails then .io else .ok)
  | w, chunk :: chunks =>
      if chunk = [] then (w, .ok)
      else if (rxFeed w.uart.h4Rx chunk).failure.isNone then drain a (w.feed a.replies chunk) chunks
      else (w.feed a.replies chunk, .io)

def poll (w : World) (a : Answers) : World × Status :=
  if !w.uart.opened then (w, .invalidArgument)
  else
    match writeTx w a.room with
    | none => (w, .io)
    | some w => if !w.uart.receiving then (w, .ok) else drain a w a.chunks

inductive Input where
  | «open» (o : Opening)
  | close
  | send (s : Send)
  | startReceive (receive : Bool)
  | stopReceive
  | poll (a : Answers)

def apply (w : World) : Input → World
  | .open o => (uartOpen w o).1
  | .close => uartClose w
  | .send s => (send w s).1
  | .startReceive receive => (uartStartReceive w receive).1
  | .stopReceive => uartStopReceive w
  | .poll a => (poll w a).1

def run (inputs : List Input) : World := inputs.foldl apply .init

structure Sound (w : World) : Prop where
  closed : w.uart.opened = false → w.uart.tx = [] ∧ w.uart.receiving = false
  held : w.held = w.uart.opened
  offset : w.uart.txOffset < w.uart.tx.length ∨ w.uart.tx = [] ∧ w.uart.txOffset = 0
  sent : w.wire <+: w.accepted.flatMap Packet.encode
  staged : w.uart.opened = true → w.wire ++ w.pending = w.accepted.flatMap Packet.encode
  state : (feedCalls rxInit w.fed).state = w.uart.h4Rx
  output : (feedCalls rxInit w.fed).output = w.delivered

variable {w w' : World}

lemma sound_init : Sound .init :=
  ⟨fun _ => ⟨rfl, rfl⟩, rfl, .inr ⟨rfl, rfl⟩, prefix_rfl, nofun, rfl, rfl⟩

lemma Sound.pending_eq_nil (h : Sound w) :
    w.pending = [] ↔ w.uart.txOffset = w.uart.tx.length := by
  have hoffset := h.offset
  rw [World.pending, drop_eq_nil_iff]
  constructor
  · intro hle
    rcases hoffset with hlt | ⟨htx, hzero⟩
    · omega
    · rw [htx, hzero]
      rfl
  · intro heq
    omega

lemma Sound.uartOpen (h : Sound w) (o : Opening) : Sound (uartOpen w o).1 := by
  unfold Uart.uartOpen
  split_ifs with hopened
  · exact h
  · exact h
  · exact h
  · exact h
  · exact { h with held := (Bool.eq_false_iff.mpr hopened).symm }
  · exact { h with held := (Bool.eq_false_iff.mpr hopened).symm }
  · obtain ⟨htx, -⟩ := h.closed (Bool.eq_false_iff.mpr hopened)
    exact ⟨by simp, rfl, h.offset, prefix_rfl, fun _ => by simp [World.pending, htx], rfl, rfl⟩

lemma Sound.uartClose (h : Sound w) : Sound (uartClose w) := by
  unfold Uart.uartClose
  split_ifs with hopened
  · exact h
  · exact ⟨fun _ => ⟨rfl, rfl⟩, rfl, .inr ⟨rfl, rfl⟩, h.sent, by simp, h.state, h.output⟩

lemma Sound.queuePacket (h : Sound w) (type : PacketType) (data : Bytes) :
    Sound (queuePacket w type data).1 := by
  unfold Uart.queuePacket
  split_ifs with hbad hbusy
  · exact h
  · exact h
  · have hopened : w.uart.opened = true := by
      by_contra hclosed
      exact hbad (.inl (by simpa using hclosed))
    have hempty : w.wire = w.accepted.flatMap Packet.encode := by
      have hstaged := h.staged hopened
      rwa [h.pending_eq_nil.mpr (not_not.mp hbusy), append_nil] at hstaged
    refine ⟨fun hclosed => absurd (hclosed.symm.trans hopened) (by decide), h.held,
      .inl (Nat.succ_pos _), ?_, fun _ => ?_, h.state, h.output⟩
    · rw [hempty, flatMap_append]
      exact prefix_append _ _
    · simp [World.pending, hempty, Packet.encode]

lemma Sound.send (h : Sound w) (s : Send) : Sound (send w s).1 := by
  cases s with
  | command data | acl data => exact h.queuePacket _ data
  | other => exact h

lemma Sound.uartStartReceive (h : Sound w) (receive : Bool) :
    Sound (uartStartReceive w receive).1 := by
  unfold Uart.uartStartReceive
  split_ifs with hbad
  · exact h
  · refine { h with closed := fun hclosed => absurd ?_ hbad }
    simp [show w.uart.opened = false from hclosed]

lemma Sound.uartStopReceive (h : Sound w) : Sound (uartStopReceive w) :=
  { h with closed := fun hclosed => ⟨(h.closed hclosed).1, rfl⟩, state := rfl, output := rfl }

/-- The octets that the UART takes move from the staged packet to the line. -/
lemma Sound.writeTx {room : Option ℕ} (h : Sound w) (hopened : w.uart.opened = true)
    (hw : writeTx w room = some w') :
    Sound w' ∧ w'.uart.opened = true ∧ w'.pending = w.pending.drop (room.getD 0) ∧
      w'.accepted = w.accepted := by
  unfold Uart.writeTx at hw
  split_ifs at hw with hmore
  · obtain ⟨room, rfl, rfl⟩ := Option.map_eq_some_iff.mp hw
    have hlength : w.pending.length = w.uart.tx.length - w.uart.txOffset := by
      rw [World.pending, length_drop]
    rw [← hlength]
    have hpending (h' : w.uart.txOffset + min room w.pending.length ≠ w.uart.tx.length) :
        w.uart.tx.drop (w.uart.txOffset + min room w.pending.length) = w.pending.drop room := by
      have hroom : min room w.pending.length = room := by omega
      rw [hroom, World.pending, drop_drop]
    have hleft : (w.wire ++ w.pending.take (min room w.pending.length)) ++ w.pending.drop room =
        w.accepted.flatMap Packet.encode := by
      rw [← h.staged hopened, append_assoc]
      congr 1
      rcases Nat.le_total room w.pending.length with hle | hle
      · rw [Nat.min_eq_left hle, take_append_drop]
      · rw [Nat.min_eq_right hle, take_length, drop_of_length_le hle, append_nil]
    have hsent := prefix_append (w.wire ++ w.pending.take (min room w.pending.length))
      (w.pending.drop room)
    rw [hleft] at hsent
    by_cases hdone : w.uart.txOffset + min room w.pending.length = w.uart.tx.length
    · have hnil : w.pending.drop room = [] := by
        rw [drop_eq_nil_iff]
        omega
      rw [hnil, append_nil] at hleft
      simp only [if_pos hdone]
      exact ⟨⟨fun hclosed => absurd (hclosed.symm.trans hopened) (by decide), h.held,
        .inr ⟨rfl, rfl⟩, hsent, fun _ => (append_nil _).trans hleft, h.state, h.output⟩,
        hopened, hnil.symm, trivial⟩
    · simp only [if_neg hdone]
      have hpending := hpending hdone
      refine ⟨⟨h.closed, h.held, .inl ?_, hsent, fun _ => ?_, h.state, h.output⟩, hopened,
        hpending, trivial⟩
      · dsimp only
        omega
      · exact (congrArg (w.wire ++ w.pending.take (min room w.pending.length) ++ ·) hpending).trans
          hleft
  · cases hw
    have hnil : w.pending = [] := by
      rw [World.pending, drop_eq_nil_iff]
      omega
    exact ⟨h, hopened, by rw [hnil, drop_nil], rfl⟩

lemma Sound.feed (h : Sound w) (replies : ℕ → List Send) (chunk : Bytes) :
    Sound (w.feed replies chunk) := by
  have hcalls := calls_concat rxFeed rxInit w.fed chunk
  refine foldl_invariant (fun _ s hw => hw.send s) _
    ⟨h.closed, h.held, h.offset, h.sent, h.staged, ?_, ?_⟩
  · rw [feedCalls, hcalls, ← h.state]
    rfl
  · rw [feedCalls, hcalls, ← h.state, ← h.output]
    rfl

lemma feed_silent {replies : ℕ → List Send} (hsilent : ∀ n, replies n = [])
    (chunk : Bytes) : (w.feed replies chunk).pending = w.pending ∧
      (w.feed replies chunk).accepted = w.accepted := by
  rw [World.feed, flatMap_eq_nil_iff.mpr fun n _ => hsilent n]
  exact ⟨rfl, rfl⟩

lemma Sound.drain (h : Sound w) (a : Answers) (chunks : List Bytes) :
    Sound (drain a w chunks).1 ∧ ((∀ n, a.replies n = []) →
      (drain a w chunks).1.pending = w.pending ∧ (drain a w chunks).1.accepted = w.accepted) := by
  induction chunks generalizing w with
  | nil => exact ⟨h, fun _ => ⟨rfl, rfl⟩⟩
  | cons chunk chunks ih =>
    unfold Uart.drain
    have hnext := h.feed a.replies chunk
    split_ifs
    · exact ⟨h, fun _ => ⟨rfl, rfl⟩⟩
    · refine ⟨(ih hnext).1, fun hsilent => ?_⟩
      obtain ⟨hpending, haccepted⟩ := (ih hnext).2 hsilent
      exact ⟨hpending.trans (feed_silent hsilent chunk).1,
        haccepted.trans (feed_silent hsilent chunk).2⟩
    · exact ⟨hnext, fun hsilent => feed_silent hsilent chunk⟩

lemma Sound.poll (h : Sound w) (a : Answers) :
    Sound (poll w a).1 ∧ ((∀ n, a.replies n = []) →
      (poll w a).1.pending = w.pending.drop (a.room.getD 0) ∧
        (poll w a).1.accepted = w.accepted) := by
  unfold Uart.poll
  split_ifs with hclosed
  · obtain ⟨htx, -⟩ := h.closed (by simpa using hclosed)
    exact ⟨h, fun _ => ⟨by simp [World.pending, htx], rfl⟩⟩
  · cases hw : Uart.writeTx w a.room with
    | none =>
      -- only a write that fails is left
      have hroom : a.room = none := by
        cases hr : a.room with
        | none => rfl
        | some room =>
          rw [Uart.writeTx, hr] at hw
          split_ifs at hw
          cases hw
      exact ⟨h, fun _ => ⟨by rw [hroom]; rfl, rfl⟩⟩
    | some w' =>
      obtain ⟨hsound, -, hpending, haccepted⟩ := h.writeTx (by simpa using hclosed) hw
      dsimp only
      split_ifs
      · exact ⟨hsound, fun _ => ⟨hpending, haccepted⟩⟩
      · obtain ⟨hdrained, hquiet⟩ := hsound.drain a a.chunks
        refine ⟨hdrained, fun hsilent => ?_⟩
        exact ⟨(hquiet hsilent).1.trans hpending, (hquiet hsilent).2.trans haccepted⟩

lemma Sound.apply (h : Sound w) (input : Input) : Sound (apply w input) := by
  cases input with
  | «open» o => exact h.uartOpen o
  | close => exact h.uartClose
  | send s => exact h.send s
  | startReceive receive => exact h.uartStartReceive receive
  | stopReceive => exact h.uartStopReceive
  | poll a => exact (h.poll a).1

variable (inputs : List Input)

lemma run_sound : Sound (run inputs) := by
  induction inputs using reverseRecOn with
  | nil => exact sound_init
  | append_singleton inputs input ih =>
    rw [run, foldl_concat]
    exact ih.apply input

/-- In every run the line carries the accepted packets, in order and each whole but for what is
still staged or was dropped by closing; the resource is held while the transport is open; and a
packet is taken exactly when nothing of the one before is left. -/
theorem run_wire (type : PacketType) (data : Bytes) :
    (run inputs).wire <+: (run inputs).accepted.flatMap Packet.encode ∧
    ((run inputs).uart.opened = true →
      (run inputs).wire ++ (run inputs).pending = (run inputs).accepted.flatMap Packet.encode) ∧
    (run inputs).held = (run inputs).uart.opened ∧
    ((queuePacket (run inputs) type data).2 = .ok ↔ (run inputs).uart.opened = true ∧ data ≠ [] ∧
      data.length ≤ maxPacketSize ∧ (run inputs).pending = []) := by
  have h := run_sound inputs
  refine ⟨h.sent, h.staged, h.held, ?_⟩
  rw [h.pending_eq_nil, queuePacket]
  split_ifs with hbad hbusy
  · refine ⟨by simp, ?_⟩
    rintro ⟨hopened, hdata, hlength, -⟩
    rcases hbad with hclosed | hnil | hlong
    · simp [hopened] at hclosed
    · exact absurd hnil hdata
    · exact absurd hlength (Nat.not_le.mpr (Nat.succ_lt_succ_iff.mp hlong))
  · exact ⟨by simp, fun hall => absurd hall.2.2.2 hbusy⟩
  · simp only [not_or, Bool.not_eq_true', Bool.not_eq_false, not_lt, Nat.add_le_add_iff_right]
      at hbad
    exact ⟨fun _ => ⟨hbad.1, hbad.2.1, hbad.2.2, not_not.mp hbusy⟩, fun _ => rfl⟩

/-- However the UART is polled and whatever it reads, as long as the receive callback sends nothing
from inside the polls, the staged octets leave in order, as many as the UART has room for, and
nothing else is staged. -/
theorem run_polls (answers : List Answers) (hsilent : ∀ a ∈ answers, ∀ n, a.replies n = []) :
    (run (inputs ++ answers.map .poll)).pending =
        (run inputs).pending.drop (answers.map fun a => a.room.getD 0).sum ∧
      (run (inputs ++ answers.map .poll)).accepted = (run inputs).accepted := by
  induction answers using reverseRecOn with
  | nil => simp
  | append_singleton answers a ih =>
    obtain ⟨hpending, haccepted⟩ := ih fun a ha => hsilent a (mem_append_left _ ha)
    obtain ⟨hstep, hsame⟩ := ((run_sound (inputs ++ answers.map .poll)).poll a).2
      (hsilent a (by simp))
    rw [map_append, ← append_assoc, run, foldl_append, ← run]
    refine ⟨?_, hsame.trans haccepted⟩
    rw [map_append, sum_append, ← drop_drop, ← hpending]
    rw [map_singleton, map_singleton, sum_singleton]
    exact hstep

/-- Two polls with room for two octets each, of a Reset command. -/
theorem run_polls_reset :
    (run ([.open ⟨true, 1, true, true, true⟩, .startReceive true,
      .send (.command [0x03, 0x0c, 0x00])] ++
        [⟨some 2, [[0x04]], false, fun _ => []⟩,
          ⟨some 2, [], false, fun _ => []⟩].map .poll)).pending = [] := by
  rw [(run_polls _ [⟨some 2, [[0x04]], false, fun _ => []⟩, ⟨some 2, [], false, fun _ => []⟩]
    (by simp)).1]
  decide +kernel

lemma queuePacket_busy (h : Sound w) (hbusy : w.pending ≠ []) (type : PacketType)
    (data : Bytes) : (queuePacket w type data).1 = w := by
  unfold queuePacket
  split_ifs with _ hidle
  · rfl
  · rfl
  · exact absurd (h.pending_eq_nil.mpr (not_not.mp hidle)) hbusy

lemma sends_busy (h : Sound w) (hbusy : w.pending ≠ []) (sends : List Bytes) :
    (sends.map fun data => Input.send (.acl data)).foldl apply w = w := by
  induction sends with
  | nil => rfl
  | cons data sends ih =>
    rw [map_cons, foldl_cons]
    rw [show apply w (.send (.acl data)) = w from queuePacket_busy h hbusy .acl data]
    exact ih

/-- Until the next poll at most one of several packets is taken. -/
theorem run_sends (sends : List Bytes) :
    (run (inputs ++ sends.map fun data => .send (.acl data))).accepted = (run inputs).accepted ∨
      ∃ data ∈ sends, (run (inputs ++ sends.map fun data => .send (.acl data))).accepted =
        (run inputs).accepted ++ [⟨.acl, data⟩] := by
  have h := run_sound inputs
  rw [run, foldl_append, ← run]
  generalize run inputs = w at h
  induction sends with
  | nil => exact .inl rfl
  | cons data sends ih =>
    rw [map_cons, foldl_cons]
    have hnext := h.queuePacket .acl data
    by_cases hsame : (queuePacket w .acl data).1 = w
    · rw [show apply w (.send (.acl data)) = w from hsame]
      rcases ih with ih | ⟨other, hmem, heq⟩
      · exact .inl ih
      · exact .inr ⟨other, mem_cons_of_mem _ hmem, heq⟩
    · refine .inr ⟨data, mem_cons_self, ?_⟩
      have htaken : (queuePacket w .acl data).1.pending ≠ [] ∧
          (queuePacket w .acl data).1.accepted = w.accepted ++ [⟨.acl, data⟩] := by
        unfold queuePacket at hsame ⊢
        split_ifs at hsame ⊢
        · exact absurd rfl hsame
        · exact absurd rfl hsame
        · exact ⟨cons_ne_nil _ _, rfl⟩
      exact (congrArg World.accepted (sends_busy hnext htaken.1 sends)).trans htaken.2

/-- What the receiver gets does not depend on how the stream is cut into reads and polls, nor on
what is sent meanwhile: as far as the stream of packets has been read, they have been delivered,
once each and in order. -/
theorem run_delivered (packets : List Packet) (rest : Bytes) (hp : ∀ p ∈ packets, p.WellFormed)
    (hstream : (run inputs).fed.flatten ++ rest = packets.flatMap Packet.encode) :
    (run inputs).delivered <+: packets ∧ (rest = [] → (run inputs).delivered = packets) := by
  have h := run_sound inputs
  constructor
  · have hjoined : ((run inputs).fed ++ [rest]).flatten = packets.flatMap Packet.encode := by
      simpa using hstream
    have hall := (feedCalls_packets rxInit_sound rfl hp hjoined).2
    rw [feedCalls, calls_concat] at hall
    rw [← hall, ← h.output]
    exact prefix_append _ _
  · rintro rfl
    rw [append_nil] at hstream
    rw [← h.output]
    exact (feedCalls_packets rxInit_sound rfl hp hstream).2

/-- A Command Complete in two reads, with a command sent between the polls and another one by the
receive callback. -/
def splitEvent : List Input :=
  [.open ⟨true, 1, true, true, true⟩, .startReceive true,
    .poll ⟨none, [[0x04, 0x0e], [0x01]], false, fun _ => []⟩, .send (.command [0x03, 0x0c, 0x00]),
    .poll ⟨some 4, [[0xaa]], false, fun _ => [.command [0x01, 0x10, 0x00]]⟩]

theorem splitEvent_delivered : (∀ p ∈ [(⟨.event, [0x0e, 0x01, 0xaa]⟩ : Packet)], p.WellFormed) ∧
      (run splitEvent).delivered = [⟨.event, [0x0e, 0x01, 0xaa]⟩] ∧
      (run splitEvent).accepted =
        [⟨.command, [0x03, 0x0c, 0x00]⟩, ⟨.command, [0x01, 0x10, 0x00]⟩] := by
  have hwell : ∀ p ∈ [(⟨.event, [0x0e, 0x01, 0xaa]⟩ : Packet)], p.WellFormed := by
    simp only [mem_singleton, forall_eq]
    exact ⟨2, rfl, rfl, by decide⟩
  have hfed : (run splitEvent).fed = [[0x04, 0x0e], [0x01], [0xaa]] := by decide +kernel
  exact ⟨hwell, (run_delivered splitEvent _ [] hwell (by rw [hfed]; rfl)).2 rfl, by decide +kernel⟩

end Bluzing.Uart
