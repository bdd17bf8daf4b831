import Bluzing.L2cap.Sending
import Bluzing.Transport.H4

/-! The payloads of L2CAP channels on their way over an H4 line. -/
namespace Bluzing.L2cap
open List H4

/-- Each payload goes to a channel of the peer. -/
def aclPackets (handle : UInt16) (fragSize : ℕ) (sends : List (UInt16 × Bytes)) :
    List Bytes :=
  sends.flatMap fun s =>
    (fragments fragSize (pduOctets s.1 s.2)).map fun c => packet handle c.1 c.2

variable (handle : UInt16) (first : Bool) {chunk : Bytes}

lemma declaredLength_packet (hchunk : chunk.length ≤ maxAclFragment) :
    declaredLength .acl (packet handle first chunk) = chunk.length := by
  have hlen : chunk.length.toUInt16.toNat = chunk.length := by
    rw [Nat.toUInt16_eq, UInt16.toNat_ofNat_of_lt']
    unfold maxAclFragment at hchunk
    show chunk.length < 65536
    omega
  have hread := congrArg UInt16.toNat (readLe16_writeLe16 chunk.length.toUInt16)
  rw [hlen, readLe16, UInt16.toNat_or, UInt16.toNat_shiftLeft] at hread
  rw [← hread]
  simp only [declaredLength, packet, writeLe16, cons_append, nil_append, getD_cons_succ,
    getD_cons_zero, UInt8.toNat_toUInt16]
  rw [show (UInt16.toNat 8 % 16) = 8 from rfl, octet_shiftLeft_mod (by decide)]

lemma packet_wellFormed (hchunk : chunk.length ≤ maxAclFragment) :
    Packet.WellFormed ⟨.acl, packet handle first chunk⟩ := by
  refine ⟨4, rfl, ?_, ?_⟩
  · rw [declaredLength_packet handle first hchunk]
    exact packet_length handle first chunk
  · show (packet handle first chunk).length ≤ maxPacketSize
    rw [packet_length]
    unfold maxAclFragment at hchunk
    unfold aclHeaderLen maxPacketSize
    omega

lemma aclPackets_wellFormed {fragSize : ℕ} (hpos : 0 < fragSize)
    (hsize : fragSize ≤ maxAclFragment) (sends : List (UInt16 × Bytes)) :
    ∀ p ∈ (aclPackets handle fragSize sends).map (Packet.mk .acl), p.WellFormed := by
  simp only [aclPackets, mem_map, mem_flatMap]
  rintro _ ⟨_, ⟨s, -, c, hc, rfl⟩, rfl⟩
  have hshort := (fragments_pduOctets s.1 s.2 hpos).2 c hc
  exact packet_wellFormed handle c.1 (Nat.le_trans hshort hsize)

lemma wirePayloads_aclPackets {handle : UInt16} {fragSize : ℕ} (hhandle : handle ≤ 0x0FFF)
    (hpos : 0 < fragSize) (hsize : fragSize ≤ maxAclFragment) {sends : List (UInt16 × Bytes)}
    (hfits : ∀ s ∈ sends, headerLen + s.2.length ≤ reassemblyMax) :
    wirePayloads (aclPackets handle fragSize sends) = sends.map Prod.snd := by
  have hreceive (s : Reception) :
      (((aclPackets handle fragSize sends).filterMap fragmentOf).foldl Reception.next s).taken =
        s.taken ++ sends.map fun x => pduOctets x.1 x.2 := by
    induction sends generalizing s with
    | nil => simp [aclPackets]
    | cons x sends ih =>
      obtain ⟨hfirst, hothers⟩ := forall_mem_cons.mp hfits
      rw [aclPackets, flatMap_cons, filterMap_append, foldl_append,
        receive_fragments hhandle hpos hsize hfirst, ← aclPackets, ih hothers]
      simp
  rw [wirePayloads, receiveAll, hreceive, nil_append, filterMap_map]
  exact (filterMap_congr fun x hx => pduContents_fitting x.1 (hfits x hx)).trans
    (congrFun filterMap_eq_map _)

/-- Whatever payloads are sent, and however the stream of their packets is cut on its way, the other
side gets exactly these payloads in the same order, and no piece is refused. -/
theorem payloads_over_h4 (fragSize : ℕ) (sends : List (UInt16 × Bytes))
    (chunks : List Bytes) (hhandle : handle ≤ 0x0FFF) (hpos : 0 < fragSize)
    (hsize : fragSize ≤ maxAclFragment)
    (hfits : ∀ s ∈ sends, headerLen + s.2.length ≤ reassemblyMax) (hstream : chunks.flatten =
      ((aclPackets handle fragSize sends).map (Packet.mk .acl)).flatMap Packet.encode) :
    (∀ f ∈ (feedCalls rxInit chunks).failures, f = none) ∧
      wirePayloads ((feedCalls rxInit chunks).output.map Packet.data) = sends.map Prod.snd := by
  obtain ⟨hok, houtput⟩ := feedCalls_packets rxInit_sound rfl
    (aclPackets_wellFormed handle hpos hsize sends) hstream
  refine ⟨hok, ?_⟩
  rw [houtput, map_map]
  exact (congrArg wirePayloads (map_id' _)).trans
    (wirePayloads_aclPackets hhandle hpos hsize hfits)

/-- Two payloads in fragments of three octets, read one octet at a time. -/
theorem payloads_over_h4_octets :
    ((aclPackets 1 3 [(4, [7, 8]), (5, [9])]).map (Packet.mk .acl)).flatMap Packet.encode ≠ [] ∧
    wirePayloads ((feedCalls rxInit ((((aclPackets 1 3 [(4, [7, 8]), (5, [9])]).map
      (Packet.mk .acl)).flatMap Packet.encode).map ([·]))).output.map Packet.data) =
        [[7, 8], [9]] :=
  ⟨by decide, (payloads_over_h4 1 3 [(4, [7, 8]), (5, [9])] _ (by decide) (by decide) (by decide)
    (by decide) (by decide +kernel)).2⟩

end Bluzing.L2cap
