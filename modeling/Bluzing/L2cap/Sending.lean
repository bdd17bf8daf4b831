import Bluzing.L2cap.Fragmentation
import Bluzing.L2cap.ChannelTimers

/-! What `bt_l2cap_channel_manager_send` puts on the wire: one PDU with the data as its payload,
whatever MTU the peer has announced. -/
namespace Bluzing.L2cap
open List

inductive Transmits (send : Send) : World → List Bytes → World → Prop
  | nil (w : World) : Transmits send w [] w
  | cons {w w₁ w₂ : World} {acl : Bytes} {rest : List Bytes}
      (h : send (w.emit (.sent acl)) acl = (w₁, true)) (hrest : Transmits send w₁ rest w₂) :
      Transmits send w (acl :: rest) w₂

def fragmentOf (acl : Bytes) : Option Fragment :=
  (parsePacket acl).map fun p => ⟨p.1.pbFlag, p.2⟩

def wirePayloads (packets : List Bytes) : List Bytes :=
  (receiveAll (packets.filterMap fragmentOf)).taken.filterMap fun pdu =>
    (pduContents pdu).map Prod.snd

lemma feedAll_length (ra : Reassembler) (frags : List Fragment) :
    (feedAll ra frags).2.length = frags.length := by
  induction frags generalizing ra with
  | nil => rfl
  | cons f frags ih => exact congrArg (· + 1) (ih _)

lemma receive_complete {frags : List Fragment} {ra ra' : Reassembler} {n : ℕ}
    (h : feedAll ra frags = (ra', replicate n .more ++ [.complete]))
    (taken : List Bytes) :
    frags.foldl Reception.next ⟨ra, taken⟩ = ⟨.init, taken ++ [ra'.buf]⟩ := by
  induction frags generalizing ra n with
  | nil => cases n <;> cases h
  | cons f frags ih =>
    obtain ⟨hra, hresults⟩ := Prod.mk.inj h
    cases n with
    | zero =>
      obtain ⟨hfirst, hrest⟩ := cons.inj hresults
      obtain rfl : frags = [] := by
        refine eq_nil_of_length_eq_zero ?_
        rw [← feedAll_length (reassemblerFeed ra f.pbFlag f.data).1 frags, hrest]
        rfl
      rw [foldl_cons, Reception.next, hfirst, if_pos rfl, ← hra]
      rfl
    | succ n =>
      obtain ⟨hfirst, hrest⟩ := cons.inj hresults
      rw [foldl_cons, Reception.next, hfirst, if_neg nofun]
      exact ih (Prod.ext hra hrest)

lemma pduContents_pduOctets (cid : UInt16) {payload : Bytes}
    (hlen : payload.length < 2 ^ 16) :
    pduContents (pduOctets cid payload) = some (⟨payload.length.toUInt16, cid⟩, payload) := by
  have hlen : payload.length.toUInt16.toNat = payload.length := Nat.mod_eq_of_lt hlen
  obtain ⟨r₁, h₁, hrest₁⟩ : ∃ r₁, (Reader.init (pduOctets cid payload)).readLe16 =
      .ok (payload.length.toUInt16, r₁) ∧ r₁.rest = writeLe16 cid ++ payload :=
    reads_le16.accepts trivial rfl
  obtain ⟨r₂, h₂, hrest₂⟩ := reads_le16.accepts trivial hrest₁
  have hpeek := Reader.peek_rest (hrest₂.trans (append_nil payload).symm)
  simp only [pduContents, parseHeader, h₁, h₂, bind, Except.bind, pure, Except.pure, hlen, hpeek,
    Option.map_some]

lemma fragments_pduOctets (cid : UInt16) (payload : Bytes) {fragSize : ℕ}
    (hpos : 0 < fragSize) : fragments fragSize (pduOctets cid payload) ≠ [] ∧
      ∀ c ∈ fragments fragSize (pduOctets cid payload), c.2.length ≤ fragSize := by
  obtain ⟨chunk, chunks, hcut, -, hchunk, hchunks⟩ := toChunks_pduOctets cid payload hpos
  rw [fragments_eq_mark, hcut, mark_cons]
  refine ⟨cons_ne_nil _ _, forall_mem_cons.mpr ⟨hchunk.2, ?_⟩⟩
  exact forall_mem_map.mpr fun c hc => (hchunks c hc).2

lemma receive_fragments {handle cid : UInt16} {fragSize : ℕ} {payload : Bytes}
    (hhandle : handle ≤ 0x0FFF) (hpos : 0 < fragSize) (hsize : fragSize ≤ maxAclFragment)
    (hfits : headerLen + payload.length ≤ reassemblyMax) (s : Reception) :
    (((fragments fragSize (pduOctets cid payload)).map fun c => packet handle c.1 c.2).filterMap
      fragmentOf).foldl Reception.next s = ⟨.init, s.taken ++ [pduOctets cid payload]⟩ := by
  obtain ⟨chunk, chunks, hcut, hflat, hchunk, hchunks⟩ := toChunks_pduOctets cid payload hpos
  have hparse (first : Bool) {c : Bytes} (hc : c.length ≤ fragSize) :
      fragmentOf (packet handle first c) = some ⟨if first then 0x00 else 0x01, c⟩ := by
    rw [fragmentOf, parsePacket_packet hhandle first (Nat.le_trans hc hsize), Option.map_some]
  have hfrags : ((mark true (chunk :: chunks)).map fun c => packet handle c.1 c.2).filterMap
      fragmentOf = ⟨0x00, chunk⟩ :: chunks.map (⟨0x01, ·⟩) := by
    rw [mark_cons, map_cons, filterMap_cons_some (hparse true hchunk.2), map_map,
      filterMap_map, ← filterMap_eq_map]
    exact congrArg _ (filterMap_congr fun c hc => hparse false (hchunks c hc).2)
  obtain ⟨ra', hfeed, hbuf⟩ := feedAll_chunks (pduOctets_sound hfits) s.ra hchunk.1
    (fun c hc => (hchunks c hc).1) hflat
  rw [fragments_eq_mark, hcut, hfrags, receive_complete hfeed, hbuf]

lemma pduContents_fitting (cid : UInt16) {payload : Bytes}
    (hfits : headerLen + payload.length ≤ reassemblyMax) :
    (pduContents (pduOctets cid payload)).map Prod.snd = some payload := by
  have hlen : payload.length < 2 ^ 16 := by
    unfold headerLen reassemblyMax at hfits
    omega
  rw [pduContents_pduOctets cid hlen, Option.map_some]

lemma wirePayloads_fragments {handle cid : UInt16} {fragSize : ℕ} {payload : Bytes}
    (hhandle : handle ≤ 0x0FFF) (hpos : 0 < fragSize) (hsize : fragSize ≤ maxAclFragment)
    (hfits : headerLen + payload.length ≤ reassemblyMax) :
    wirePayloads ((fragments fragSize (pduOctets cid payload)).map
      fun c => packet handle c.1 c.2) = [payload] := by
  rw [wirePayloads, receiveAll, receive_fragments hhandle hpos hsize hfits]
  simp [pduContents_fitting cid hfits]

variable {link : Link} {send : Send}

lemma encodeFragment_cases (handle : UInt16) (first : Bool) {chunk : Bytes}
    (hchunk : chunk.length ≤ maxAclFragment) :
    (∃ wr, encodeFragment handle first chunk = .ok wr ∧ wr.data = packet handle first chunk ∧
      handle ≤ 0x0FFF) ∨ encodeFragment handle first chunk = .error .invalidArgument := by
  by_cases hhandle : handle ≤ 0x0FFF
  · obtain ⟨wr, hwr, hdata⟩ := encodeFragment_packet hhandle first hchunk
    exact .inl ⟨wr, hwr, hdata, hhandle⟩
  · have hbad := UInt16.not_le.mp hhandle
    exact .inr (by simp [encodeFragment, encodeAclHeader, hbad, bind, Except.bind])

lemma sendFragments_transmits {frags : List (Bool × Bytes)} {w : World}
    (hfrags : ∀ c ∈ frags, c.2.length ≤ maxAclFragment)
    (hok : (sendFragments link send w frags).2 = .ok) :
    (frags ≠ [] → link.handle ≤ 0x0FFF) ∧
      Transmits send w (frags.map fun c => packet link.handle c.1 c.2)
        (sendFragments link send w frags).1 := by
  induction frags generalizing w with
  | nil => exact ⟨fun h => absurd rfl h, .nil w⟩
  | cons c frags ih =>
    obtain ⟨first, chunk⟩ := c
    obtain ⟨hchunk, hfrags⟩ := forall_mem_cons.mp hfrags
    rcases encodeFragment_cases link.handle first hchunk with ⟨wr, hwr, hdata, hhandle⟩ | herror
    · simp only [sendFragments, hwr] at hok ⊢
      split at hok
      next hsent =>
        rw [if_pos hsent]
        refine ⟨fun _ => hhandle, ?_⟩
        rw [map_cons, ← hdata]
        exact .cons (Prod.ext rfl hsent) (ih hfrags hok).2
      · cases hok
    · rw [sendFragments, herror] at hok
      cases hok

lemma channelManagerSend_transmits {w : World} {localCid : UInt16} {data : Bytes}
    (hpos : 0 < link.aclFragSize) (hsize : link.aclFragSize ≤ maxAclFragment)
    (hok : (channelManagerSend link send w localCid data).2 = .ok) :
    ∃ packets, Transmits send w packets (channelManagerSend link send w localCid data).1 ∧
      wirePayloads packets = [data] := by
  unfold channelManagerSend at hok ⊢
  split at hok
  · cases hok
  next hlen =>
  rw [if_neg hlen]
  split at hok
  · cases hok
  next s _ =>
  split at hok
  · cases hok
  next hstate =>
  have hlen := Nat.le_of_not_lt hlen
  obtain ⟨wr, hwr, hdata⟩ := encodePdu_octets (w.chan s).remoteCid hlen
  rw [if_neg hstate]
  simp only [hwr, hdata, sendFragmented] at hok ⊢
  obtain ⟨hne, hshort⟩ := fragments_pduOctets (w.chan s).remoteCid data hpos
  obtain ⟨hhandle, htransmits⟩ := sendFragments_transmits
    (fun c hc => Nat.le_trans (hshort c hc) hsize) hok
  have hfits : headerLen + data.length ≤ reassemblyMax :=
    Nat.le_trans (Nat.add_le_add_left hlen headerLen) (by decide)
  exact ⟨_, htransmits, wirePayloads_fragments (hhandle hne) hpos hsize hfits⟩

lemma Link.init_aclFragSize (handle signalingCid : UInt16) (aclFragSize : ℕ) :
    0 < (Link.init handle signalingCid aclFragSize).aclFragSize ∧
      (Link.init handle signalingCid aclFragSize).aclFragSize ≤ maxAclFragment := by
  unfold Link.init maxAclFragment
  dsimp only
  split <;> omega

/-- An accepted send puts the data on the wire as one PDU, whatever the transport does meanwhile. -/
theorem send_withinMtu_iff (handle signalingCid : UInt16) (aclFragSize : ℕ) (send : Send)
    (w : World) (localCid : UInt16) (data : Bytes) (s : Slot)
    (_hs : findChannelByLocalCid w localCid = some s)
    (hok : (channelManagerSend (.init handle signalingCid aclFragSize) send w localCid data).2 =
      .ok) :
    ∃ packets, Transmits send w packets
        (channelManagerSend (.init handle signalingCid aclFragSize) send w localCid data).1 ∧
      wirePayloads packets = [data] ∧
      ((∀ payload ∈ wirePayloads packets, payload.length ≤ (w.chan s).remoteMtu.toNat) ↔
        data.length ≤ (w.chan s).remoteMtu.toNat) := by
  obtain ⟨hpos, hsize⟩ := Link.init_aclFragSize handle signalingCid aclFragSize
  obtain ⟨packets, htransmits, hwire⟩ := channelManagerSend_transmits hpos hsize hok
  refine ⟨packets, htransmits, hwire, ?_⟩
  rw [hwire]
  exact forall_mem_singleton

theorem fixedChannel_send_withinMtu :
    let w := run classicLink (fun _ => true) [.openFixed 0x0004 true]
    ∃ packets, Transmits (answerWith fun _ => true) w packets
        (channelManagerSend (.init 1 1 512) (answerWith fun _ => true) w 0x0004 [0x02]).1 ∧
      wirePayloads packets = [[0x02]] ∧
      ((∀ payload ∈ wirePayloads packets, payload.length ≤ (w.chan 0).remoteMtu.toNat) ↔
        [0x02].length ≤ (w.chan 0).remoteMtu.toNat) :=
  send_withinMtu_iff 1 1 512 (answerWith fun _ => true) _ 0x0004 [0x02] 0 (by decide +kernel)
    (by decide +kernel)

/-! A peer that announces an MTU of 48, the least there is. -/

def smallMtuPeer : List Input :=
  [.open 0x0011 0 true 0,
    .onAcl 0x02 [12, 0, 0x01, 0, 0x03, 1, 8, 0, 0x50, 0, 0x40, 0, 0, 0, 0, 0] 1,
    .onAcl 0x02 [12, 0, 0x01, 0, 0x04, 7, 8, 0, 0x40, 0, 0, 0, 0x01, 2, 48, 0] 2,
    .onAcl 0x02 [10, 0, 0x01, 0, 0x05, 2, 6, 0, 0x40, 0, 0, 0, 0, 0] 3]

def sentPackets (history : List Event) : List Bytes :=
  history.reverse.filterMap fun
    | .sent acl => some acl
    | _ => none

/-- The send of 100 octets succeeds, and a PDU with 100 octets goes out. -/
theorem smallMtuPeer_exceeded :
    let w := run classicLink (fun _ => true) smallMtuPeer
    let r := channelManagerSend classicLink (answerWith fun _ => true) w 0x0040
      (replicate 100 0)
    (w.chan 0).state = .opened ∧ (w.chan 0).remoteMtu = 48 ∧
      findChannelByLocalCid w 0x0040 = some 0 ∧ r.2 = .ok ∧
      (wirePayloads ((sentPackets r.1.history).drop (sentPackets w.history).length)).map
        length = [100] := by
  decide +kernel

end Bluzing.L2cap
