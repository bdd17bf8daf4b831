import Bluzing.Sdp.Codec

/-! Trees of Data Elements: what the encoders write is parsed back, level by level, and the iterator
over the elements of a sequence is exhausted just behind the last of them. -/
namespace Bluzing.Sdp

inductive Leaf where
  | uint8 (value : UInt8)
  | uint16 (value : UInt16)
  | uint32 (value : UInt32)
  | uuid16 (uuid : UInt16)
  | uuid128 (uuid : Octets 16)
  deriving DecidableEq

inductive Tree where
  | leaf (leaf : Leaf)
  | sequence (children : List Tree)

namespace Leaf

def encode (w : Writer) : Leaf → Except Status Writer
  | uint8 value => encodeUint w value.toUInt32 1
  | uint16 value => encodeUint w value.toUInt32 2
  | uint32 value => encodeUint w value 4
  | uuid16 uuid => encodeUuid16 w uuid
  | uuid128 uuid => encodeUuid128 w uuid

def size : Leaf → ℕ
  | uint8 _ => 2
  | uint16 _ | uuid16 _ => 3
  | uint32 _ => 5
  | uuid128 _ => 17

def octets : Leaf → Bytes
  | uint8 value => [0x08, value]
  | uint16 value => 0x09 :: writeBe16 value
  | uint32 value => 0x0A :: writeBe32 value
  | uuid16 uuid => 0x19 :: writeBe16 uuid
  | uuid128 uuid => 0x1C :: uuid.bytes

def element : Leaf → Element
  | uint8 value => .uint 1 value.toUInt32
  | uint16 value => .uint 2 value.toUInt32
  | uint32 value => .uint 4 value
  | uuid16 uuid => .uuid16 uuid
  | uuid128 uuid => .uuid128 uuid

end Leaf

def sequenceHeader (nestedLen : ℕ) : Bytes :=
  if nestedLen ≤ 255 then [0x35, UInt8.ofNat nestedLen]
  else 0x36 :: writeBe16 (UInt16.ofNat nestedLen)

inductive SequenceEncoding (nested : Bytes) : Bytes → Prop where
  | short (h : nested.length < 2 ^ 8) :
      SequenceEncoding nested ([0x35] ++ ([UInt8.ofNat nested.length] ++ nested))
  | medium (h : nested.length < 2 ^ 16) :
      SequenceEncoding nested ([0x36] ++ (writeBe16 (UInt16.ofNat nested.length) ++ nested))
  | long (h : nested.length < 2 ^ 32) :
      SequenceEncoding nested ([0x37] ++ (writeBe32 (UInt32.ofNat nested.length) ++ nested))

lemma sequenceHeader_encoding {data : Bytes} (h : data.length ≤ 65535) :
    SequenceEncoding data (sequenceHeader data.length ++ data) := by
  unfold sequenceHeader
  split
  · exact .short (by omega)
  · exact .medium (by omega)

mutual

def Tree.octets : Tree → Bytes
  | .leaf leaf => leaf.octets
  | .sequence children => sequenceHeader (octetsAll children).length ++ octetsAll children

def octetsAll : List Tree → Bytes
  | [] => []
  | t :: ts => t.octets ++ octetsAll ts

end

mutual

def Tree.size : Tree → ℕ
  | .leaf leaf => leaf.size
  | .sequence children => (if sizes children ≤ 255 then 2 else 3) + sizes children

def sizes : List Tree → ℕ
  | [] => 0
  | t :: ts => t.size + sizes ts

end

def Tree.nestedLen : Tree → ℕ
  | .leaf _ => 0
  | .sequence children => sizes children

mutual

def encodeTree (w : Writer) : Tree → Except Status Writer
  | .leaf leaf => leaf.encode w
  | .sequence children => do
      let w ← encodeSequenceHeader w (UInt16.ofNat (sizes children))
      encodeTrees w children

def encodeTrees (w : Writer) : List Tree → Except Status Writer
  | [] => .ok w
  | t :: ts => do
      let w ← encodeTree w t
      encodeTrees w ts

end

section

open Writer (Writes writes_bytes)

lemma Leaf.length_octets (leaf : Leaf) : leaf.octets.length = leaf.size := by
  cases leaf with
  | uuid128 uuid => simp [octets, size]
  | _ => rfl

lemma length_sequenceHeader (n : ℕ) :
    (sequenceHeader n).length = if n ≤ 255 then 2 else 3 := by
  unfold sequenceHeader
  split <;> rfl

mutual

lemma Tree.length_octets : ∀ t : Tree, t.octets.length = t.size
  | .leaf leaf => leaf.length_octets
  | .sequence children => by
      simp [Tree.octets, Tree.size, length_sequenceHeader, length_octetsAll children]

lemma length_octetsAll : ∀ ts : List Tree, (octetsAll ts).length = sizes ts
  | [] => rfl
  | t :: ts => by simp [octetsAll, sizes, t.length_octets, length_octetsAll ts]

end

lemma Tree.nestedLen_lt_size (t : Tree) : t.nestedLen < t.size := by
  cases t with
  | leaf leaf => cases leaf <;> simp [nestedLen, size, Leaf.size]
  | sequence children =>
    simp only [nestedLen, size]
    split <;> omega

lemma Leaf.encode_writes (leaf : Leaf) : Writes (fun w => leaf.encode w) leaf.octets := by
  cases leaf with
  | uint8 value =>
    have hwrites : Writes (fun w => encodeUint w value.toUInt32 1)
        ([0x08] ++ [value.toUInt32.toUInt8]) := (writes_bytes [0x08]).bind (writes_bytes _)
    rwa [UInt8.toUInt8_toUInt32] at hwrites
  | uint16 value =>
    have hwrites : Writes (fun w => encodeUint w value.toUInt32 2)
        ([0x09] ++ writeBe16 value.toUInt32.toUInt16) := (writes_bytes [0x09]).bind (writes_bytes _)
    rwa [UInt16.toUInt16_toUInt32] at hwrites
  | uint32 value => exact (writes_bytes [0x0A]).bind (writes_bytes (writeBe32 value))
  | uuid16 uuid => exact (writes_bytes [0x19]).bind (writes_bytes (writeBe16 uuid))
  | uuid128 uuid => exact (writes_bytes [0x1C]).bind (writes_bytes uuid.bytes)

lemma encodeSequenceHeader_writes {n : ℕ} (h : n ≤ 65535) :
    Writes (fun w => encodeSequenceHeader w (UInt16.ofNat n)) (sequenceHeader n) := by
  have hn := UInt16.toNat_ofNat_of_lt' (show n < 65536 by omega)
  unfold encodeSequenceHeader sequenceHeader
  by_cases hshort : n ≤ 255
  · have hle : UInt16.ofNat n ≤ 0xFF := UInt16.le_iff_toNat_le.mpr (by rw [hn]; exact hshort)
    have hoctet : (UInt16.ofNat n).toUInt8 = UInt8.ofNat n := by simp
    simp only [if_pos hle, if_pos hshort, hoctet]
    exact (writes_bytes [0x35]).bind (writes_bytes [UInt8.ofNat n])
  · have hgt : ¬ UInt16.ofNat n ≤ 0xFF := fun hle =>
      hshort (by simpa [hn] using UInt16.le_iff_toNat_le.mp hle)
    simp only [if_neg hgt, if_neg hshort]
    exact (writes_bytes [0x36]).bind (writes_bytes (writeBe16 (UInt16.ofNat n)))

mutual

lemma encodeTree_writes : ∀ t : Tree, t.nestedLen ≤ 65535 →
    Writes (fun w => encodeTree w t) t.octets
  | .leaf leaf, _ => leaf.encode_writes
  | .sequence children, h => by
      rw [Tree.octets, length_octetsAll]
      exact (encodeSequenceHeader_writes h).bind (encodeTrees_writes children h)

lemma encodeTrees_writes : ∀ ts : List Tree, sizes ts ≤ 65535 →
    Writes (fun w => encodeTrees w ts) (octetsAll ts)
  | [], _ => fun w _ => ⟨w, rfl, rfl, (List.append_nil _).symm⟩
  | t :: ts, h => by
      have hnested := t.nestedLen_lt_size
      rw [sizes] at h
      exact (encodeTree_writes t (by omega)).bind (encodeTrees_writes ts (by omega))

end

end

def Element.tree (walk : Reader → Access (List Tree)) : Element → Access Tree
  | .sequence data => do
      let children ← walk (elementIterInit data)
      return .sequence children
  | .uint width value =>
      match width with
      | 1 => .ok (.leaf (.uint8 value.toUInt8))
      | 2 => .ok (.leaf (.uint16 value.toUInt16))
      | 4 => .ok (.leaf (.uint32 value))
      | _ => .error (.status .invalidArgument)
  | .uuid16 uuid => .ok (.leaf (.uuid16 uuid))
  | .uuid128 uuid => .ok (.leaf (.uuid128 uuid))
  | .nil => .error (.status .invalidArgument)

def walkTrees : ℕ → Reader → Access (List Tree)
  | 0, _ => .error (.status .noResources)
  | fuel + 1, it =>
      match elementIterNext it with
      | .error (.status .bufferUnderflow) => .ok []
      | .error e => .error e
      | .ok (element, it) => do
          let t ← element.tree (walkTrees fuel)
          let ts ← walkTrees fuel it
          return t :: ts

def parseTree (r : Reader) : Access (Tree × Reader) := do
  let (element, r') ← parseElement r
  let t ← element.tree (walkTrees r.remaining)
  return (t, r')

mutual

inductive Recovers : (Reader → Access (Element × Reader)) → Tree → Reader → Reader → Prop
  | leaf {parse : Reader → Access (Element × Reader)} {leaf : Leaf} {r r' : Reader}
      (hparse : parse r = .ok (leaf.element, r')) (hrest : r.rest = leaf.octets ++ r'.rest) :
      Recovers parse (.leaf leaf) r r'
  | sequence {parse : Reader → Access (Element × Reader)} {children : List Tree} {r r' : Reader}
      {data : Bytes} (hparse : parse r = .ok (.sequence data, r'))
      (hrest : r.rest = (Tree.sequence children).octets ++ r'.rest)
      (hchildren : Exhausts children (elementIterInit data)) :
      Recovers parse (.sequence children) r r'

inductive Exhausts : List Tree → Reader → Prop
  | nil {it : Reader} (hend : elementIterNext it = .error (.status .bufferUnderflow)) :
      Exhausts [] it
  | cons {t : Tree} {ts : List Tree} {it it' : Reader} (hnext : Recovers elementIterNext t it it')
      (hrest : Exhausts ts it') : Exhausts (t :: ts) it

end

variable {r it : Reader} {data tail : Bytes}

lemma Leaf.parseElement_eq (leaf : Leaf) (hrest : r.rest = leaf.octets ++ tail) :
    ∃ r', parseElement r = .ok (leaf.element, r') ∧ r'.rest = tail := by
  obtain ⟨header, value, hoctets⟩ : ∃ header value, leaf.octets = header :: value := by
    cases leaf <;> exact ⟨_, _, rfl⟩
  rw [hoctets] at hrest
  obtain ⟨r₁, hheader, hvalue⟩ := reads_u8.accepts trivial hrest
  rw [parseElement, hheader]
  -- the first octet decides which of the parsers comes next
  cases leaf with
  | uint8 =>
    cases hoctets
    obtain ⟨r₂, hread, hend⟩ := reads_u8.accepts trivial hvalue
    refine ⟨r₂, ?_, hend⟩
    show parseUint 0 r₁ = _
    simp [parseUint, hread, element]
  | uint16 =>
    cases hoctets
    obtain ⟨r₂, hread, hend⟩ := reads_be16.accepts trivial hvalue
    refine ⟨r₂, ?_, hend⟩
    show parseUint 1 r₁ = _
    simp [parseUint, hread, element]
  | uint32 =>
    cases hoctets
    obtain ⟨r₂, hread, hend⟩ := reads_be32.accepts trivial hvalue
    refine ⟨r₂, ?_, hend⟩
    show parseUint 2 r₁ = _
    simp [parseUint, hread, element]
  | uuid16 =>
    cases hoctets
    obtain ⟨r₂, hread, hend⟩ := reads_be16.accepts trivial hvalue
    refine ⟨r₂, ?_, hend⟩
    show parseUuid 1 r₁ = _
    simp [parseUuid, hread, element]
  | uuid128 =>
    cases hoctets
    obtain ⟨r₂, hread, hend⟩ := (reads_bytes 16).accepts trivial hvalue
    refine ⟨r₂, ?_, hend⟩
    show parseUuid 4 r₁ = _
    simp [parseUuid, hread, element]

lemma parseSequence_rest {sizeDesc : UInt8} {r₁ : Reader}
    (hlen : parseNestedLen sizeDesc r = .ok (data.length, r₁)) (hrest : r₁.rest = data ++ tail) :
    ∃ r', parseSequence sizeDesc r = .ok (.sequence data, r') ∧ r'.rest = tail := by
  obtain ⟨r', hskip, hend⟩ := Reader.skip_rest hrest
  refine ⟨r', ?_, hend⟩
  simp [parseSequence, hlen, Reader.peek_rest hrest, hskip, bind, Except.bind, pure, Except.pure]

lemma parseElement_sequence {octets : Bytes} (h : SequenceEncoding data octets)
    (hrest : r.rest = octets ++ tail) :
    ∃ r', parseElement r = .ok (.sequence data, r') ∧ r'.rest = tail := by
  cases h with
  | short h =>
    obtain ⟨r₁, hheader, hrest₁⟩ := reads_u8.accepts trivial hrest
    obtain ⟨r₂, hread, hrest₂⟩ := reads_u8.accepts trivial hrest₁
    rw [parseElement, hheader]
    refine @parseSequence_rest _ _ _ 5 _ ?_ hrest₂
    simp [parseNestedLen, hread, UInt8.toNat_ofNat_of_lt' h]
  | medium h =>
    obtain ⟨r₁, hheader, hrest₁⟩ := reads_u8.accepts trivial hrest
    obtain ⟨r₂, hread, hrest₂⟩ := reads_be16.accepts trivial hrest₁
    rw [parseElement, hheader]
    refine @parseSequence_rest _ _ _ 6 _ ?_ hrest₂
    simp [parseNestedLen, hread, UInt16.toNat_ofNat_of_lt' h]
  | long h =>
    obtain ⟨r₁, hheader, hrest₁⟩ := reads_u8.accepts trivial hrest
    obtain ⟨r₂, hread, hrest₂⟩ := reads_be32.accepts trivial hrest₁
    rw [parseElement, hheader]
    refine @parseSequence_rest _ _ _ 7 _ ?_ hrest₂
    simp [parseNestedLen, hread, UInt32.toNat_ofNat_of_lt' h]

def Tree.element : Tree → Element
  | .leaf l => l.element
  | .sequence children => .sequence (octetsAll children)

lemma Tree.parseElement_eq {t : Tree} (hfits : t.nestedLen ≤ 65535)
    (hrest : r.rest = t.octets ++ tail) :
    ∃ r', parseElement r = .ok (t.element, r') ∧ r'.rest = tail := by
  cases t with
  | leaf leaf => exact leaf.parseElement_eq hrest
  | sequence children =>
    rw [nestedLen, ← length_octetsAll] at hfits
    exact parseElement_sequence (sequenceHeader_encoding hfits) hrest

lemma Tree.elementIterNext_eq {t : Tree} (hfits : t.nestedLen ≤ 65535)
    (hrest : it.rest = t.octets ++ tail) :
    ∃ it', elementIterNext it = .ok (t.element, it') ∧ it'.rest = tail := by
  have hsize := t.nestedLen_lt_size
  have hleft : it.remaining ≠ 0 := by
    rw [← it.length_rest, hrest, List.length_append, t.length_octets]
    omega
  rw [elementIterNext, if_neg hleft]
  exact t.parseElement_eq hfits hrest

lemma elementIterNext_end (hrest : it.rest = []) :
    elementIterNext it = .error (.status .bufferUnderflow) := by
  rw [elementIterNext, if_pos (by rw [← it.length_rest, hrest]; rfl)]

mutual

lemma Tree.element_tree : ∀ (t : Tree) (fuel : ℕ), t.nestedLen < fuel → t.nestedLen ≤ 65535 →
    t.element.tree (walkTrees fuel) = .ok t
  | .leaf leaf, _, _, _ => by
      cases leaf <;> simp [Tree.element, Leaf.element, Element.tree]
  | .sequence children, fuel, hfuel, hfits => by
      have hrest : (elementIterInit (octetsAll children)).rest = octetsAll children := rfl
      have hwalk := walkTrees_eq children fuel hfuel hfits hrest
      simp [Tree.element, Element.tree, hwalk]

lemma walkTrees_eq : ∀ (ts : List Tree) (fuel : ℕ), sizes ts < fuel → sizes ts ≤ 65535 →
    ∀ {it : Reader}, it.rest = octetsAll ts → walkTrees fuel it = .ok ts
  | [], fuel + 1, _, _, it, hrest => by
      rw [walkTrees, elementIterNext_end hrest]
  | t :: ts, fuel + 1, hfuel, hfits, it, hrest => by
      rw [sizes] at hfuel hfits
      have hsize := t.nestedLen_lt_size
      obtain ⟨it', hnext, hrest'⟩ := t.elementIterNext_eq (by omega) hrest
      have hfirst := t.element_tree fuel (by omega) (by omega)
      have hothers := walkTrees_eq ts fuel (by omega) (by omega) hrest'
      simp [walkTrees, hnext, hfirst, hothers, bind, Except.bind, pure, Except.pure]

end

mutual

lemma Tree.recovers : ∀ (t : Tree) {parse : Reader → Access (Element × Reader)} {r r' : Reader},
    t.nestedLen ≤ 65535 → parse r = .ok (t.element, r') → r.rest = t.octets ++ r'.rest →
      Recovers parse t r r'
  | .leaf _, _, _, _, _, hparse, hrest => .leaf hparse hrest
  | .sequence children, _, _, _, hfits, hparse, hrest =>
      .sequence hparse hrest (exhausts children hfits rfl)

lemma exhausts : ∀ (ts : List Tree) {it : Reader}, sizes ts ≤ 65535 → it.rest = octetsAll ts →
    Exhausts ts it
  | [], _, _, hrest => .nil (elementIterNext_end hrest)
  | t :: ts, it, hfits, hrest => by
      rw [sizes] at hfits
      have hsize := t.nestedLen_lt_size
      obtain ⟨it', hnext, hrest'⟩ := t.elementIterNext_eq (by omega) hrest
      refine .cons (t.recovers (by omega) hnext ?_) (exhausts ts (by omega) hrest')
      rw [hrest, hrest', octetsAll]

end

/-- Trees survive the wire, whatever stands around them. -/
theorem encodeTree_parseTree (t : Tree) (hfits : t.nestedLen ≤ 65535) (w : Writer)
    (hroom : w.data.length + t.size ≤ w.cap) :
    ∃ w', encodeTree w t = .ok w' ∧ w'.data = w.data ++ t.octets ∧
      ∀ r tail, r.rest = t.octets ++ tail →
        ∃ r', parseTree r = .ok (t, r') ∧ r'.rest = tail ∧ Recovers parseElement t r r' := by
  rw [← t.length_octets] at hroom
  obtain ⟨w', hencode, -, hdata⟩ := encodeTree_writes t hfits w hroom
  refine ⟨w', hencode, hdata, fun r tail hrest => ?_⟩
  obtain ⟨r', hparse, hrest'⟩ := t.parseElement_eq hfits hrest
  have hfuel : t.nestedLen < r.remaining := by
    have hsize := t.nestedLen_lt_size
    rw [← r.length_rest, hrest, List.length_append, t.length_octets]
    omega
  refine ⟨r', ?_, hrest', t.recovers hfits hparse (by rw [hrest, hrest'])⟩
  have htree := t.element_tree r.remaining hfuel hfits
  simp [parseTree, hparse, htree, bind, Except.bind, pure, Except.pure]

def sampleTree : Tree :=
  .sequence [.sequence [.leaf (.uuid16 0x0100), .leaf (.uint16 0x0011)], .sequence [],
    .leaf (.uint8 7)]

theorem sampleTree_parseTree :
    sampleTree.nestedLen ≤ 65535 ∧ sampleTree.size = 14 ∧
      ∃ w', encodeTree (.init 14) sampleTree = .ok w' ∧
        ∃ r', parseTree (.init w'.data) = .ok (sampleTree, r') ∧ r'.rest = [] := by
  have hfits : sampleTree.nestedLen ≤ 65535 := by decide
  obtain ⟨w', hencode, hdata, hparse⟩ :=
    encodeTree_parseTree sampleTree hfits (.init 14) (by decide)
  obtain ⟨r', hresult, hend, -⟩ := hparse (.init w'.data) [] (by rw [hdata]; rfl)
  exact ⟨hfits, rfl, w', hencode, r', hresult, hend⟩

end Bluzing.Sdp

