import Bluzing.L2cap.Reassembly

/-! What a reassembler delivers when it is fed arbitrary fragments. -/
namespace Bluzing.L2cap
open List

structure Fragment where
  pbFlag : UInt8
  data : Bytes
  deriving DecidableEq

def octets (frags : List Fragment) : Bytes := frags.flatMap Fragment.data

structure Reception where
  ra : Reassembler
  taken : List Bytes

def Reception.next (s : Reception) (f : Fragment) : Reception :=
  let r := reassemblerFeed s.ra f.pbFlag f.data
  if r.2 = .complete then
    let t := reassemblerTake r.1
    ⟨t.1, s.taken ++ [t.2]⟩
  else ⟨r.1, s.taken⟩

def receiveAll (frags : List Fragment) : Reception := frags.foldl Reception.next ⟨.init, []⟩

inductive Delivers : List Fragment → List Bytes → Prop
  | nil : Delivers [] []
  | dropped {frags : List Fragment} {pdus : List Bytes} (h : Delivers frags pdus)
      (f : Fragment) : Delivers (frags ++ [f]) pdus
  | pdu {frags : List Fragment} {pdus : List Bytes} (h : Delivers frags pdus)
      {start : Fragment} {rest : List Fragment} (hstart : start.pbFlag ≠ 0x01)
      (hrest : ∀ f ∈ rest, f.pbFlag = 0x01)
      (hlen : (octets (start :: rest)).length = announcedLength (octets (start :: rest))) :
      Delivers (frags ++ start :: rest) (pdus ++ [octets (start :: rest)])

variable {frags : List Fragment}

lemma Delivers.append {pdus : List Bytes} (h : Delivers frags pdus)
    (more : List Fragment) : Delivers (frags ++ more) pdus := by
  induction more using reverseRecOn with
  | nil => rwa [append_nil]
  | append_singleton more f ih =>
    rw [← append_assoc]
    exact ih.dropped f

def Reassembler.Coherent (ra : Reassembler) : Prop :=
  ra.want = 0 ∨ headerLen ≤ ra.buf.length ∧ ra.want = announcedLength ra.buf

def Reassembler.Partial (ra : Reassembler) : Prop :=
  ra.want = 0 ∧ ra.buf.length < headerLen ∨
    headerLen ≤ ra.buf.length ∧ ra.want = announcedLength ra.buf ∧ ra.buf.length < ra.want

variable {ra : Reassembler}

lemma Reassembler.Partial.coherent (h : ra.Partial) : ra.Coherent :=
  h.imp And.left fun h => ⟨h.1, h.2.1⟩

lemma headerLen_le_announcedLength (buf : Bytes) : headerLen ≤ announcedLength buf :=
  Nat.le_add_right ..

lemma announcedLength_append {buf : Bytes} (h : headerLen ≤ buf.length)
    (data : Bytes) : announcedLength (buf ++ data) = announcedLength buf := by
  have h0 : 0 < buf.length := by unfold headerLen at h; omega
  have h1 : 1 < buf.length := by unfold headerLen at h; omega
  simp [announcedLength, getElem?_append_left, h0, h1]

lemma Reassembler.Coherent.append (h : ra.Coherent) {data : Bytes}
    (hfits : (ra.buf ++ data).length ≤ reassemblyMax) :
    Reassembler.Coherent ⟨ra.buf ++ data, ra.want, hfits⟩ := by
  refine h.imp id fun h => ⟨?_, ?_⟩
  · exact Nat.le_trans h.1 (by simp)
  · exact h.2.trans (announcedLength_append h.1 data).symm

lemma finalizeHeaderAndCheck_cases (h : ra.Coherent) :
    (finalizeHeaderAndCheck ra = (.init, .error) ∧ headerLen ≤ ra.buf.length ∧
      (reassemblyMax < announcedLength ra.buf ∨ announcedLength ra.buf < ra.buf.length)) ∨
    (∃ ra', finalizeHeaderAndCheck ra = (ra', .complete) ∧ ra'.buf = ra.buf ∧
      ra.buf.length = announcedLength ra.buf) ∨
    ∃ ra', finalizeHeaderAndCheck ra = (ra', .more) ∧ ra'.buf = ra.buf ∧ ra'.Partial := by
  by_cases hlen : headerLen ≤ ra.buf.length
  · have hann := headerLen_le_announcedLength ra.buf
    have hne : announcedLength ra.buf ≠ 0 := by unfold headerLen at hann; omega
    have hwant : (if ra.want = 0 ∧ headerLen ≤ ra.buf.length then announcedLength ra.buf
        else ra.want) = announcedLength ra.buf := by
      split
      · rfl
      next hn => exact (h.resolve_left fun h0 => hn ⟨h0, hlen⟩).2
    unfold finalizeHeaderAndCheck
    simp only [hwant]
    split
    next hmax => exact .inl ⟨rfl, hlen, .inl hmax.2.2⟩
    split
    next hlong => exact .inl ⟨rfl, hlen, .inr hlong.2⟩
    split
    next heq => exact .inr (.inl ⟨_, rfl, rfl, heq.2⟩)
    next hlt => exact .inr (.inr ⟨_, rfl, rfl, .inr ⟨hlen, rfl, by grind⟩⟩)
  · have hw : ra.want = 0 := h.resolve_right fun h => hlen h.1
    have hcheck : finalizeHeaderAndCheck ra = ({ ra with want := 0 }, .more) := by
      simp [finalizeHeaderAndCheck, hw, hlen]
    exact .inr (.inr ⟨_, hcheck, rfl, .inl ⟨rfl, Nat.lt_of_not_le hlen⟩⟩)

lemma Reassembler.Partial.eq_init (h : ra.Partial) (hbuf : ra.buf.length = 0) : ra = .init := by
  obtain ⟨buf, want, hfits⟩ := ra
  obtain rfl : buf = [] := eq_nil_of_length_eq_zero hbuf
  rcases h with ⟨rfl, -⟩ | ⟨hlen, -⟩
  · rfl
  · exact absurd hlen (show ¬headerLen ≤ 0 by decide)

def Segment (frags : List Fragment) : Prop :=
  ∃ start rest, frags = start :: rest ∧ start.pbFlag ≠ 0x01 ∧ ∀ f ∈ rest, f.pbFlag = 0x01

lemma Segment.snoc (h : Segment frags) {f : Fragment}
    (hf : f.pbFlag = 0x01) : Segment (frags ++ [f]) := by
  obtain ⟨start, rest, rfl, hstart, hrest⟩ := h
  refine ⟨start, rest ++ [f], rfl, hstart, fun g hg => ?_⟩
  rcases mem_append.mp hg with hg | hg
  · exact hrest g hg
  · rwa [mem_singleton.mp hg]

def Holds (ra : Reassembler) (current : List Fragment) : Prop :=
  ra = .init ∨ ra.Partial ∧ ra.buf = octets current ∧ Segment current

def nextSegment (current : List Fragment) (f : Fragment) : List Fragment :=
  if f.pbFlag ≠ 0x01 then [f] else current ++ [f]

lemma reassemblerFeed_cases {current : List Fragment} (h : Holds ra current) (f : Fragment) :
    reassemblerFeed ra f.pbFlag f.data = (.init, .error) ∨
    (∃ ra', reassemblerFeed ra f.pbFlag f.data = (ra', .complete) ∧
      ra'.buf = octets (nextSegment current f) ∧ Segment (nextSegment current f) ∧
      ra'.buf.length = announcedLength ra'.buf) ∨
    ∃ ra', reassemblerFeed ra f.pbFlag f.data = (ra', .more) ∧
      Holds ra' (nextSegment current f) := by
  -- What the check makes of the octets of the next segment.
  have hcheck {ra' : Reassembler} (hc : ra'.Coherent) (hs : Segment (nextSegment current f))
      (hbuf : ra'.buf = octets (nextSegment current f)) :
      finalizeHeaderAndCheck ra' = (.init, .error) ∨
      (∃ ra'', finalizeHeaderAndCheck ra' = (ra'', .complete) ∧
        ra''.buf = octets (nextSegment current f) ∧ Segment (nextSegment current f) ∧
        ra''.buf.length = announcedLength ra''.buf) ∨
      ∃ ra'', finalizeHeaderAndCheck ra' = (ra'', .more) ∧ Holds ra'' (nextSegment current f) := by
    rcases finalizeHeaderAndCheck_cases hc with ⟨he, -⟩ | ⟨ra'', he, hb, hl⟩ | ⟨ra'', he, hb, hp⟩
    · exact .inl he
    · exact .inr (.inl ⟨ra'', he, hb.trans hbuf, hs, by rw [hb, hl]⟩)
    · exact .inr (.inr ⟨ra'', he, .inr ⟨hp, hb.trans hbuf, hs⟩⟩)
  unfold reassemblerFeed
  split
  next hf =>
    have hnext : nextSegment current f = [f] := if_pos hf
    split
    · refine hcheck (.inl rfl) ?_ ?_
      · rw [hnext]
        exact ⟨f, [], rfl, hf, nofun⟩
      · rw [hnext]
        exact (append_nil f.data).symm
    · exact .inl rfl
  next hf =>
    have hf := Decidable.not_not.mp hf
    have hnext : nextSegment current f = current ++ [f] := if_neg (not_not_intro hf)
    split
    next hidle =>
      have hra : ra = .init := h.elim id fun h => h.1.eq_init hidle
      exact .inl (by rw [hra])
    next hsome =>
    obtain ⟨hp, hbuf, hs⟩ := h.resolve_left (by rintro rfl; exact hsome rfl)
    split
    next hfits =>
      refine hcheck (hp.coherent.append hfits) (hnext ▸ hs.snoc hf) ?_
      rw [hnext]
      simp [hbuf, octets]
    · exact .inl rfl

def Received (frags : List Fragment) (s : Reception) : Prop :=
  ∃ done current, frags = done ++ current ∧ Delivers done s.taken ∧ Holds s.ra current

lemma Received.next {s : Reception} (h : Received frags s)
    (f : Fragment) : Received (frags ++ [f]) (s.next f) := by
  obtain ⟨done, current, rfl, hd, hh⟩ := h
  -- A start drops what was held.
  obtain ⟨done', hsplit, hd'⟩ : ∃ done', done ++ current ++ [f] = done' ++ nextSegment current f ∧
      Delivers done' s.taken := by
    unfold nextSegment
    split
    · exact ⟨done ++ current, rfl, hd.append current⟩
    · exact ⟨done, by rw [append_assoc], hd⟩
  rw [hsplit]
  unfold Reception.next
  rcases reassemblerFeed_cases hh f with he | ⟨ra', he, hbuf, hs, hlen⟩ | ⟨ra', he, hh'⟩
  · exact ⟨_, [], (append_nil _).symm, by simpa [he] using hd'.append _, by simp [he, Holds]⟩
  · obtain ⟨start, rest, hs, hstart, hrest⟩ := hs
    rw [hbuf, hs] at hlen
    refine ⟨_, [], (append_nil _).symm, ?_, by simp [he, Holds, reassemblerTake]⟩
    simpa [he, reassemblerTake, hbuf, hs] using hd'.pdu hstart hrest hlen
  · exact ⟨done', _, rfl, by simpa [he] using hd', by simpa [he] using hh'⟩

lemma receiveAll_received (frags : List Fragment) : Received frags (receiveAll frags) := by
  induction frags using reverseRecOn with
  | nil => exact ⟨[], [], rfl, .nil, .inl rfl⟩
  | append_singleton frags f ih =>
    rw [receiveAll, foldl_append]
    exact ih.next f

lemma Delivers.length_announced {pdus : List Bytes}
    (h : Delivers frags pdus) : ∀ pdu ∈ pdus, pdu.length = announcedLength pdu := by
  induction h with
  | nil => exact nofun
  | dropped _ _ ih => exact ih
  | pdu _ _ _ hlen ih =>
    intro pdu hpdu
    rcases mem_append.mp hpdu with hpdu | hpdu
    · exact ih pdu hpdu
    · rwa [mem_singleton.mp hpdu]

/-- Whatever fragments are fed, the reassembler stays within its buffer, the PDUs taken are the
contents of disjoint segments of the input in their order and have the length that their header
declares, and an error leaves the reassembler idle. -/
theorem receiveAll_sound (frags : List Fragment) :
    (receiveAll frags).ra.buf.length ≤ reassemblyMax ∧
    Delivers frags (receiveAll frags).taken ∧
    (∀ pdu ∈ (receiveAll frags).taken, headerLen ≤ pdu.length ∧
      pdu.length = headerLen + (readLe16 (pdu.getD 0 0) (pdu.getD 1 0)).toNat) ∧
    ∀ f : Fragment,
      (reassemblerFeed (receiveAll frags).ra f.pbFlag f.data).2 = .error →
      (reassemblerFeed (receiveAll frags).ra f.pbFlag f.data).1 = .init := by
  obtain ⟨done, current, hsplit, hd, hh⟩ := receiveAll_received frags
  have hd : Delivers frags (receiveAll frags).taken := hsplit ▸ hd.append current
  refine ⟨(receiveAll frags).ra.fits, hd, fun pdu hpdu => ?_, fun f herror => ?_⟩
  · have hlen := hd.length_announced pdu hpdu
    exact ⟨hlen ▸ headerLen_le_announcedLength pdu, hlen⟩
  · rcases reassemblerFeed_cases hh f with he | ⟨ra', he, -⟩ | ⟨ra', he, -⟩
    · rw [he]
    · exact absurd (he ▸ herror) nofun
    · exact absurd (he ▸ herror) nofun

end Bluzing.L2cap
