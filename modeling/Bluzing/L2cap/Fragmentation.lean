import Bluzing.Lib.Chunks
import Bluzing.Core.Codec
import Bluzing.L2cap.ReassemblyRuns
import Bluzing.L2cap.ChannelManager

/-! What the fragmenter cuts (`bt_l2cap_fragmenter_next`), the reassembler puts together. -/
namespace Bluzing.L2cap
open List

structure AclHeader where
  handle : UInt16
  pbFlag : UInt8
  bcFlag : UInt8
  dataLen : UInt16
  deriving DecidableEq

def parseAclHeader (r : Reader) : Access (AclHeader × Reader) := do
  let (handleAndFlags, r) ← r.readLe16
  let (dataLen, r) ← r.readLe16
  return (⟨handleAndFlags &&& 0x0FFF, (handleAndFlags >>> 12 &&& 0x03).toUInt8,
    (handleAndFlags >>> 14 &&& 0x03).toUInt8, dataLen⟩, r)

def parsePacket (packet : Bytes) : Option (AclHeader × Bytes) :=
  match parseAclHeader (.init packet) with
  | .error _ => none
  | .ok (hdr, r) => (r.peek hdr.dataLen.toNat).map (hdr, ·)

def handleAndFlags (handle : UInt16) (pbFlag bcFlag : UInt8) : UInt16 :=
  handle ||| (pbFlag.toUInt16 <<< 12) ||| (bcFlag.toUInt16 <<< 14)

section

variable {handle : UInt16} {pbFlag bcFlag : UInt8} (hhandle : handle ≤ 0x0FFF)
  (hpb : pbFlag ≤ 0x03) (hbc : bcFlag ≤ 0x03)

include hhandle hpb hbc

lemma handleAndFlags_toNat : (handleAndFlags handle pbFlag bcFlag).toNat =
    handle.toNat + 2 ^ 12 * pbFlag.toNat + 2 ^ 14 * bcFlag.toNat := by
  have hhandle : handle.toNat ≤ 4095 := hhandle
  have hpb : pbFlag.toNat ≤ 3 := hpb
  have hbc := hbc
  have hpb' : pbFlag.toNat * 2 ^ (12 % 16) % 2 ^ 16 = 2 ^ 12 * pbFlag.toNat := by
    rw [Nat.mul_comm, Nat.mod_eq_of_lt]
    exact Nat.lt_of_le_of_lt (Nat.mul_le_mul_left _ hpb) (by decide)
  have hbc' : bcFlag.toNat * 2 ^ (14 % 16) % 2 ^ 16 = 2 ^ 14 * bcFlag.toNat := by
    rw [Nat.mul_comm, Nat.mod_eq_of_lt]
    exact Nat.lt_of_le_of_lt (Nat.mul_le_mul_left _ hbc) (by decide)
  have hlow := Nat.two_pow_add_eq_or_of_lt (i := 12) (b := handle.toNat) (by omega) pbFlag.toNat
  have hhigh := Nat.two_pow_add_eq_or_of_lt (i := 14)
    (b := 2 ^ 12 * pbFlag.toNat + handle.toNat) (by omega) bcFlag.toNat
  simp only [handleAndFlags, UInt16.toNat_or, UInt16.toNat_shiftLeft, UInt8.toNat_toUInt16,
    Nat.shiftLeft_eq, UInt16.reduceToNat]
  rw [hpb', hbc', Nat.or_comm handle.toNat, ← hlow, Nat.or_comm, ← hhigh]
  omega

lemma handleAndFlags_handle : handleAndFlags handle pbFlag bcFlag &&& 0x0FFF = handle := by
  have hhandle' : handle.toNat ≤ 4095 := hhandle
  apply UInt16.toNat_inj.mp
  rw [UInt16.toNat_and, handleAndFlags_toNat hhandle hpb hbc,
    show (0x0FFF : UInt16).toNat = 2 ^ 12 - 1 from rfl, Nat.and_two_pow_sub_one_eq_mod]
  omega

lemma handleAndFlags_pbFlag :
    (handleAndFlags handle pbFlag bcFlag >>> 12 &&& 0x03).toUInt8 = pbFlag := by
  have hhandle' : handle.toNat ≤ 4095 := hhandle
  have hpb' : pbFlag.toNat ≤ 3 := hpb
  apply UInt8.toNat_inj.mp
  rw [UInt16.toNat_toUInt8, UInt16.toNat_and, UInt16.toNat_shiftRight,
    handleAndFlags_toNat hhandle hpb hbc, show (0x03 : UInt16).toNat = 2 ^ 2 - 1 from rfl,
    Nat.and_two_pow_sub_one_eq_mod, Nat.shiftRight_eq_div_pow,
    show (12 : UInt16).toNat % 16 = 12 from rfl]
  omega

lemma handleAndFlags_bcFlag :
    (handleAndFlags handle pbFlag bcFlag >>> 14 &&& 0x03).toUInt8 = bcFlag := by
  have hhandle' : handle.toNat ≤ 4095 := hhandle
  have hpb' : pbFlag.toNat ≤ 3 := hpb
  have hbc' : bcFlag.toNat ≤ 3 := hbc
  apply UInt8.toNat_inj.mp
  rw [UInt16.toNat_toUInt8, UInt16.toNat_and, UInt16.toNat_shiftRight,
    handleAndFlags_toNat hhandle hpb hbc, show (0x03 : UInt16).toNat = 2 ^ 2 - 1 from rfl,
    Nat.and_two_pow_sub_one_eq_mod, Nat.shiftRight_eq_div_pow,
    show (14 : UInt16).toNat % 16 = 14 from rfl]
  omega

end

structure Fragmenter where
  data : Bytes
  pos : ℕ
  handle : UInt16
  fragSize : ℕ

def Fragmenter.init (handle : UInt16) (fragSize : ℕ) (pdu : Bytes) : Fragmenter :=
  ⟨pdu, 0, handle, fragSize⟩

def fragmenterNext (fr : Fragmenter) (w : Writer) : Except Status (Fragmenter × Writer) :=
  if fr.data.length ≤ fr.pos then .error .bufferUnderflow
  else
    let remaining := fr.data.length - fr.pos
    let chunk := if remaining < fr.fragSize then remaining else fr.fragSize
    let pbFlag : UInt8 := if fr.pos = 0 then 0x00 else 0x01
    do
      let w ← encodeAclHeader w fr.handle pbFlag 0x00 chunk.toUInt16
      let w ← w.writeBytes ((fr.data.drop fr.pos).take chunk)
      return ({ fr with pos := fr.pos + chunk }, w)

def cutAll : ℕ → Fragmenter → Option (List Bytes)
  | 0, _ => none
  | fuel + 1, fr =>
      match fragmenterNext fr (.init (aclHeaderLen + maxAclFragment)) with
      | .error st => if st = .bufferUnderflow then some [] else none
      | .ok (fr, w) => (cutAll fuel fr).map (w.data :: ·)

def packet (handle : UInt16) (first : Bool) (chunk : Bytes) : Bytes :=
  writeLe16 (handleAndFlags handle (if first then 0x00 else 0x01) 0x00) ++
    writeLe16 chunk.length.toUInt16 ++ chunk

def mark (first : Bool) : List Bytes → List (Bool × Bytes)
  | [] => []
  | chunk :: rest => (first, chunk) :: rest.map (false, ·)

lemma mark_cons (first : Bool) (chunk : Bytes) (rest : List Bytes) :
    mark first (chunk :: rest) = (first, chunk) :: rest.map (false, ·) := rfl

lemma mark_false (chunks : List Bytes) : mark false chunks = chunks.map (false, ·) := by
  cases chunks <;> rfl

lemma fragments_eq_mark (fragSize : ℕ) (pdu : Bytes) :
    fragments fragSize pdu = mark true (pdu.toChunks fragSize) := by
  unfold fragments
  cases pdu.toChunks fragSize <;> rfl

lemma packet_length (handle : UInt16) (first : Bool) (chunk : Bytes) :
    (packet handle first chunk).length = aclHeaderLen + chunk.length := by
  simp only [packet, writeLe16, aclHeaderLen, length_append, length_cons,
    length_nil]

section

variable {handle : UInt16} (hhandle : handle ≤ 0x0FFF)

include hhandle

lemma encodeAclHeader_writes {pbFlag bcFlag : UInt8} (hpb : pbFlag ≤ 0x03) (hbc : bcFlag ≤ 0x03)
    (dataLen : UInt16) :
    Writer.Writes (encodeAclHeader · handle pbFlag bcFlag dataLen)
      (writeLe16 (handleAndFlags handle pbFlag bcFlag) ++ writeLe16 dataLen) := by
  have hflags : ¬(handle > 0x0FFF ∨ pbFlag > 0x03 ∨ bcFlag > 0x03) := by
    rintro (h | h | h)
    · exact absurd hhandle (UInt16.not_le.mpr h)
    · exact absurd hpb (UInt8.not_le.mpr h)
    · exact absurd hbc (UInt8.not_le.mpr h)
  simp only [encodeAclHeader, if_neg hflags]
  exact (Writer.writes_bytes _).bind (Writer.writes_bytes _)

variable (first : Bool) {chunk : Bytes}

lemma fragment_writes (hchunk : chunk.length ≤ maxAclFragment) :
    ∃ w, (encodeAclHeader (.init (aclHeaderLen + maxAclFragment)) handle
        (if first then 0x00 else 0x01) 0x00 chunk.length.toUInt16 >>= (·.writeBytes chunk)) =
          .ok w ∧
      w.data = packet handle first chunk := by
  have hpb : (if first then 0x00 else 0x01 : UInt8) ≤ 0x03 := by cases first <;> decide
  have hbc : (0x00 : UInt8) ≤ 0x03 := by decide
  have hroom : (packet handle first chunk).length ≤ aclHeaderLen + maxAclFragment := by
    rw [packet_length]
    omega
  obtain ⟨w, hw, -, hdata⟩ := (encodeAclHeader_writes hhandle hpb hbc _).bind
    (Writer.writes_bytes chunk) (.init (aclHeaderLen + maxAclFragment))
    (by rw [Writer.init, length_nil, Nat.zero_add]; exact hroom)
  exact ⟨w, hw, hdata⟩

lemma encodeFragment_packet (hchunk : chunk.length ≤ maxAclFragment) :
    ∃ w, encodeFragment handle first chunk = .ok w ∧ w.data = packet handle first chunk :=
  fragment_writes hhandle first hchunk

lemma fragmenterNext_packet {pdu : Bytes} {pos fragSize : ℕ} (hpos : pos < pdu.length)
    (hsize : fragSize ≤ maxAclFragment) :
    ∃ w, fragmenterNext ⟨pdu, pos, handle, fragSize⟩ (.init (aclHeaderLen + maxAclFragment)) =
        .ok (⟨pdu, pos + ((pdu.drop pos).take fragSize).length, handle, fragSize⟩, w) ∧
      w.data = packet handle (pos = 0) ((pdu.drop pos).take fragSize) := by
  have hchunk : (if pdu.length - pos < fragSize then pdu.length - pos else fragSize) =
      ((pdu.drop pos).take fragSize).length := by
    rw [length_take, length_drop]
    split <;> omega
  have htake : (pdu.drop pos).take ((pdu.drop pos).take fragSize).length =
      (pdu.drop pos).take fragSize := by
    rw [length_take]
    exact take_eq_take_min.symm
  have hshort : ((pdu.drop pos).take fragSize).length ≤ maxAclFragment :=
    Nat.le_trans (length_take_le ..) hsize
  obtain ⟨w, hw, hdata⟩ := fragment_writes hhandle (pos = 0) hshort
  simp only [decide_eq_true_eq] at hw
  refine ⟨w, ?_, hdata⟩
  simp only [fragmenterNext, if_neg (Nat.not_le.mpr hpos), hchunk, htake]
  rw [← bind_assoc, hw]
  rfl

lemma cutAll_eq {pdu : Bytes} {fragSize : ℕ} (hpos : 0 < fragSize)
    (hsize : fragSize ≤ maxAclFragment) {fuel pos : ℕ} (hfuel : pdu.length - pos < fuel) :
    cutAll fuel ⟨pdu, pos, handle, fragSize⟩ =
      some ((mark (pos = 0) ((pdu.drop pos).toChunks fragSize)).map
        fun c => packet handle c.1 c.2) := by
  induction fuel generalizing pos with
  | zero => exact absurd hfuel (Nat.not_lt_zero _)
  | succ fuel ih =>
    by_cases hend : pdu.length ≤ pos
    · have hnil := drop_eq_nil_of_le hend
      simp [cutAll, fragmenterNext, hend, hnil, toChunks, mark]
    · have hmore := Nat.lt_of_not_le hend
      have hne : pdu.drop pos ≠ [] := by simpa [drop_eq_nil_iff] using hmore
      have hlen : ((pdu.drop pos).take fragSize).length = min fragSize (pdu.length - pos) := by
        rw [length_take, length_drop]
      have hdrop : pdu.drop (pos + ((pdu.drop pos).take fragSize).length) =
          (pdu.drop pos).drop fragSize := by
        rw [drop_drop, hlen]
        rcases Nat.le_total fragSize (pdu.length - pos) with h | h
        · rw [Nat.min_eq_left h]
        · rw [Nat.min_eq_right h, drop_eq_nil_of_le (by omega),
            drop_eq_nil_of_le (by omega)]
      have hlater : pos + ((pdu.drop pos).take fragSize).length ≠ 0 := by omega
      obtain ⟨w, hw, hdata⟩ := fragmenterNext_packet hhandle hmore hsize
      rw [cutAll, hw, Chunks.toChunks_eq_cons hpos hne]
      have hrest := ih (by omega : pdu.length -
        (pos + ((pdu.drop pos).take fragSize).length) < fuel)
      simp only [hrest, hdrop, hdata, hlater, decide_false, mark_false, Option.map_some,
        mark_cons, map_cons]

lemma parsePacket_packet (hchunk : chunk.length ≤ maxAclFragment) :
    parsePacket (packet handle first chunk) =
      some (⟨handle, if first then 0x00 else 0x01, 0x00, chunk.length.toUInt16⟩, chunk) := by
  have hpb : (if first then 0x00 else 0x01 : UInt8) ≤ 0x03 := by cases first <;> decide
  have hbc : (0x00 : UInt8) ≤ 0x03 := by decide
  have hlen : chunk.length.toUInt16.toNat = chunk.length := by
    unfold maxAclFragment at hchunk
    exact Nat.mod_eq_of_lt (by omega)
  obtain ⟨r₁, h₁, hrest₁⟩ : ∃ r₁, (Reader.init (packet handle first chunk)).readLe16 =
      .ok (handleAndFlags handle (if first then 0x00 else 0x01) 0x00, r₁) ∧
      r₁.rest = writeLe16 chunk.length.toUInt16 ++ chunk := reads_le16.accepts trivial rfl
  obtain ⟨r₂, h₂, hrest₂⟩ := reads_le16.accepts trivial hrest₁
  have hpeek := Reader.peek_rest (hrest₂.trans (append_nil chunk).symm)
  simp only [parsePacket, parseAclHeader, h₁, h₂, bind, Except.bind, pure, Except.pure, hlen, hpeek,
    Option.map_some, handleAndFlags_handle hhandle hpb hbc, handleAndFlags_pbFlag hhandle hpb hbc,
    handleAndFlags_bcFlag hhandle hpb hbc]

end

def feedAll (ra : Reassembler) : List Fragment → Reassembler × List ReassemblyResult
  | [] => (ra, [])
  | f :: rest =>
      let r := reassemblerFeed ra f.pbFlag f.data
      let s := feedAll r.1 rest
      (s.1, r.2 :: s.2)

def Sound (pdu : Bytes) : Prop :=
  pdu.length ≤ reassemblyMax ∧ announcedLength pdu = pdu.length

variable {pdu : Bytes}

lemma finalizeHeaderAndCheck_start {left : Bytes} (hpdu : Sound pdu) {ra : Reassembler}
    (hc : ra.Coherent) (hsplit : ra.buf ++ left = pdu) :
    ∃ ra', finalizeHeaderAndCheck ra = (ra', if left = [] then .complete else .more) ∧
      ra'.buf = ra.buf ∧ (left ≠ [] → ra'.Coherent) := by
  obtain ⟨hmax, hann⟩ := hpdu
  have hlen : ra.buf.length + left.length = pdu.length := by rw [← hsplit, length_append]
  have hheader : headerLen ≤ ra.buf.length → announcedLength ra.buf = pdu.length := fun h => by
    rw [← hann, ← hsplit, announcedLength_append h]
  rcases finalizeHeaderAndCheck_cases hc with ⟨-, hh, hbad⟩ | ⟨ra', he, hb, hl⟩ | ⟨ra', he, hb, hp⟩
  · omega
  · have hleft : left = [] := by
      have := hheader (hl ▸ headerLen_le_announcedLength ra.buf)
      exact eq_nil_of_length_eq_zero (by omega)
    exact ⟨ra', by rw [he, if_pos hleft], hb, fun h => absurd hleft h⟩
  · have hleft : left ≠ [] := by
      rintro rfl
      have hh : headerLen ≤ ra.buf.length := by
        have := headerLen_le_announcedLength pdu
        rw [length_nil] at hlen
        omega
      rcases hp with ⟨-, hshort⟩ | ⟨-, hwant, hlt⟩
      · rw [hb] at hshort
        omega
      · rw [hb] at hwant hlt
        rw [length_nil] at hlen
        omega
    exact ⟨ra', by rw [he, if_neg hleft], hb, fun _ => hp.coherent⟩

lemma feedAll_continuations (hpdu : Sound pdu) {chunks : List Bytes}
    (hchunks : ∀ c ∈ chunks, 0 < c.length) {ra : Reassembler} (hc : ra.Coherent)
    (hbuf : 0 < ra.buf.length) (hsplit : ra.buf ++ chunks.flatten = pdu) :
    ∃ ra' results, feedAll (finalizeHeaderAndCheck ra).1 (chunks.map (⟨0x01, ·⟩)) = (ra', results) ∧
      (finalizeHeaderAndCheck ra).2 :: results = replicate chunks.length .more ++ [.complete] ∧
      ra'.buf = pdu := by
  induction chunks generalizing ra with
  | nil =>
    obtain ⟨ra₁, he, hb, -⟩ := finalizeHeaderAndCheck_start hpdu hc hsplit
    rw [flatten_nil, append_nil] at hsplit
    rw [he]
    exact ⟨ra₁, [], rfl, rfl, hb.trans hsplit⟩
  | cons chunk chunks ih =>
    obtain ⟨hchunk, hchunks⟩ := forall_mem_cons.mp hchunks
    obtain ⟨ra₁, he, hb, hc₁⟩ := finalizeHeaderAndCheck_start hpdu hc hsplit
    have hleft : (chunk :: chunks).flatten ≠ [] := by
      exact append_ne_nil_of_left_ne_nil (length_pos_iff.mp hchunk) _
    have hsplit' : ra₁.buf ++ chunk ++ chunks.flatten = pdu := by
      rw [hb, append_assoc, ← flatten_cons, hsplit]
    have hfits : (ra₁.buf ++ chunk).length ≤ reassemblyMax := by
      refine Nat.le_trans ?_ hpdu.1
      rw [← hsplit']
      exact (prefix_append ..).length_le
    have hne : ra₁.buf.length ≠ 0 := by rw [hb]; omega
    have hfeed : reassemblerFeed ra₁ 0x01 chunk =
        finalizeHeaderAndCheck ⟨ra₁.buf ++ chunk, ra₁.want, hfits⟩ := by
      rw [reassemblerFeed, if_neg (by decide), if_neg hne, dif_pos hfits]
    obtain ⟨ra', results, hf, hr, hbuf'⟩ := ih hchunks ((hc₁ hleft).append hfits)
      (by rw [length_append]; omega) hsplit'
    refine ⟨ra', replicate chunks.length .more ++ [.complete], ?_, ?_, hbuf'⟩
    · rw [he, map_cons, feedAll, hfeed, hf, hr]
    · rw [he, if_neg hleft]
      rfl

lemma feedAll_chunks (hpdu : Sound pdu) (ra : Reassembler)
    {chunk : Bytes} {chunks : List Bytes} (hchunk : 0 < chunk.length)
    (hchunks : ∀ c ∈ chunks, 0 < c.length) (hsplit : chunk ++ chunks.flatten = pdu) :
    ∃ ra', feedAll ra (⟨0x00, chunk⟩ :: chunks.map (⟨0x01, ·⟩)) =
        (ra', replicate chunks.length .more ++ [.complete]) ∧ ra'.buf = pdu := by
  have hfits : chunk.length ≤ reassemblyMax := by
    refine Nat.le_trans ?_ hpdu.1
    rw [← hsplit, length_append]
    exact Nat.le_add_right ..
  have hfeed : reassemblerFeed ra 0x00 chunk = finalizeHeaderAndCheck ⟨chunk, 0, hfits⟩ := by
    rw [reassemblerFeed, if_pos (by decide), dif_pos hfits]
  obtain ⟨ra', results, hf, hr, hbuf⟩ := feedAll_continuations hpdu hchunks
    (show Reassembler.Coherent ⟨chunk, 0, hfits⟩ from .inl rfl) hchunk hsplit
  refine ⟨ra', ?_, hbuf⟩
  rw [feedAll, hfeed, hf, ← hr]

def pduOctets (cid : UInt16) (payload : Bytes) : Bytes :=
  writeLe16 payload.length.toUInt16 ++ writeLe16 cid ++ payload

lemma pduOctets_length (cid : UInt16) (payload : Bytes) :
    (pduOctets cid payload).length = headerLen + payload.length := by
  simp only [pduOctets, writeLe16, headerLen, length_append, length_cons,
    length_nil]

lemma encodePdu_octets {cap : ℕ} (cid : UInt16) {payload : Bytes}
    (hcap : payload.length ≤ cap) :
    ∃ w, encodePdu cap cid payload = .ok w ∧ w.data = pduOctets cid payload := by
  have hheader : Writer.Writes (encodeHeader · payload.length.toUInt16 cid)
      (writeLe16 payload.length.toUInt16 ++ writeLe16 cid) :=
    (Writer.writes_bytes _).bind (Writer.writes_bytes _)
  have hroom : (pduOctets cid payload).length ≤ headerLen + cap := by
    rw [pduOctets_length]
    omega
  obtain ⟨w, hw, -, hdata⟩ := hheader.bind (Writer.writes_bytes payload) (.init (headerLen + cap))
    (by rw [Writer.init, length_nil, Nat.zero_add]; exact hroom)
  exact ⟨w, hw, hdata⟩

lemma pduOctets_sound {cid : UInt16} {payload : Bytes}
    (hfits : headerLen + payload.length ≤ reassemblyMax) : Sound (pduOctets cid payload) := by
  refine ⟨by rwa [pduOctets_length], ?_⟩
  have hlen : payload.length.toUInt16.toNat = payload.length := by
    unfold headerLen reassemblyMax at hfits
    exact Nat.mod_eq_of_lt (by omega)
  rw [pduOctets_length, announcedLength]
  exact congrArg (headerLen + ·) ((congrArg UInt16.toNat (readLe16_writeLe16 _)).trans hlen)

lemma toChunks_pduOctets (cid : UInt16) (payload : Bytes) {fragSize : ℕ}
    (hpos : 0 < fragSize) :
    ∃ chunk chunks, (pduOctets cid payload).toChunks fragSize = chunk :: chunks ∧
      chunk ++ chunks.flatten = pduOctets cid payload ∧
      (0 < chunk.length ∧ chunk.length ≤ fragSize) ∧
      ∀ c ∈ chunks, 0 < c.length ∧ c.length ≤ fragSize := by
  have hne : pduOctets cid payload ≠ [] := by
    refine ne_nil_of_length_pos ?_
    rw [pduOctets_length, headerLen]
    omega
  have hcut := Chunks.toChunks_eq_cons hpos hne
  have hflat := Chunks.flatten_toChunks hpos (pduOctets cid payload)
  have hlens := Chunks.length_of_mem_toChunks hpos (pduOctets cid payload)
  rw [hcut] at hflat hlens
  exact ⟨_, _, hcut, hflat, forall_mem_cons.mp hlens⟩

/-- A PDU that is cut into ACL packets is put together again, whatever the reassembler held: it asks
for more until the last packet. -/
theorem fragmenter_reassembler_roundTrip (payload : Bytes) (cid handle : UInt16)
    (fragSize cap : ℕ) (hfits : headerLen + payload.length ≤ reassemblyMax)
    (hcap : payload.length ≤ cap) (hhandle : handle ≤ 0x0FFF) (hpos : 1 ≤ fragSize)
    (hsize : fragSize ≤ maxAclFragment) (ra : Reassembler) :
    ∃ (pdu : Writer) (packets : List Bytes) (first : AclHeader × Bytes)
        (rest : List (AclHeader × Bytes)) (ra' : Reassembler),
      encodePdu cap cid payload = .ok pdu ∧ pdu.data = pduOctets cid payload ∧
      (∀ fuel, pdu.data.length < fuel →
        cutAll fuel (.init handle fragSize pdu.data) = some packets) ∧
      packets.map parsePacket = (first :: rest).map some ∧
      (∀ p ∈ first :: rest, p.1.handle = handle ∧ p.2.length ≤ fragSize) ∧
      first.1.pbFlag = 0x00 ∧ (∀ p ∈ rest, p.1.pbFlag = 0x01) ∧
      feedAll ra ((first :: rest).map fun p => ⟨p.1.pbFlag, p.2⟩) =
        (ra', replicate rest.length .more ++ [.complete]) ∧
      reassemblerTake ra' = (.init, pdu.data) := by
  obtain ⟨pdu, hpdu, hdata⟩ := encodePdu_octets cid hcap
  obtain ⟨chunk, chunks, hcut, hflat, hchunk, hchunks⟩ := toChunks_pduOctets cid payload hpos
  obtain ⟨ra', hfeed, hbuf⟩ := feedAll_chunks (pduOctets_sound hfits) ra hchunk.1
    (fun c hc => (hchunks c hc).1) hflat
  refine ⟨pdu, (mark true (chunk :: chunks)).map fun c => packet handle c.1 c.2,
    (⟨handle, 0x00, 0x00, chunk.length.toUInt16⟩, chunk),
    chunks.map fun c => (⟨handle, 0x01, 0x00, c.length.toUInt16⟩, c), ra', hpdu, hdata,
    fun fuel hfuel => ?_, ?_, ?_, rfl, ?_, ?_, ?_⟩
  · rw [hdata] at hfuel ⊢
    rw [Fragmenter.init, cutAll_eq hhandle hpos hsize (by omega), drop_zero, hcut]
    rfl
  · have hparse (first : Bool) {c : Bytes} (hc : c.length ≤ fragSize) :=
      parsePacket_packet hhandle first (Nat.le_trans hc hsize)
    rw [mark_cons, map_cons, map_cons, hparse true hchunk.2, map_map, map_map,
      map_cons, map_map]
    refine congrArg _ (map_congr_left fun c hc => ?_)
    exact hparse false (hchunks c hc).2
  · refine forall_mem_cons.mpr ⟨⟨rfl, hchunk.2⟩, forall_mem_map.mpr fun c hc => ?_⟩
    exact ⟨rfl, (hchunks c hc).2⟩
  · exact forall_mem_map.mpr fun _ _ => rfl
  · rw [map_cons, map_map, length_map]
    exact hfeed
  · rw [reassemblerTake, hbuf, hdata]

theorem fragmenter_reassembler_roundTrip_oneOctet :
    headerLen + [0x68, 0x69].length ≤ reassemblyMax ∧
    ∃ (pdu : Writer) (packets : List Bytes) (first : AclHeader × Bytes)
        (rest : List (AclHeader × Bytes)) (ra' : Reassembler),
      encodePdu 2 4 [0x68, 0x69] = .ok pdu ∧ pdu.data = pduOctets 4 [0x68, 0x69] ∧
      (∀ fuel, pdu.data.length < fuel →
        cutAll fuel (.init 0x0041 1 pdu.data) = some packets) ∧
      packets.map parsePacket = (first :: rest).map some ∧
      (∀ p ∈ first :: rest, p.1.handle = 0x0041 ∧ p.2.length ≤ 1) ∧
      first.1.pbFlag = 0x00 ∧ (∀ p ∈ rest, p.1.pbFlag = 0x01) ∧
      feedAll ⟨[0x05], 0, by decide⟩ ((first :: rest).map fun p => ⟨p.1.pbFlag, p.2⟩) =
        (ra', replicate rest.length .more ++ [.complete]) ∧
      reassemblerTake ra' = (.init, pdu.data) :=
  ⟨by decide, fragmenter_reassembler_roundTrip [0x68, 0x69] 4 0x0041 1 2 (by decide) (by decide)
    (by decide) (by decide) (by decide) ⟨[0x05], 0, by decide⟩⟩

end Bluzing.L2cap
