import Bluzing.Lib.Octets

/-! Status codes and the bounded reader and writer of `core/buffer`. -/
namespace Bluzing
open List

inductive Status where
  | ok
  | invalidArgument
  | bufferOverflow
  | bufferUnderflow
  | noResources
  | io
  deriving DecidableEq, Inhabited

inductive ReadError where
  | status (st : Status)
  | outOfRange
  deriving DecidableEq

abbrev Access := Except ReadError

def octetAt (data : Bytes) (i : ℕ) : Access UInt8 :=
  match data[i]? with
  | some v => .ok v
  | none => .error .outOfRange

def lengthSub (a b : ℕ) : Access ℕ :=
  if b ≤ a then .ok (a - b) else .error .outOfRange

lemma octetAt_ok {data : Bytes} {i : ℕ} (h : i < data.length) :
    octetAt data i = .ok data[i] := by
  simp [octetAt, h]

lemma octetAt_outOfRange {data : Bytes} {i : ℕ} (h : data.length ≤ i) :
    octetAt data i = .error .outOfRange := by
  simp [octetAt, getElem?_eq_none h]

lemma lengthSub_ok {a b : ℕ} (h : b ≤ a) : lengthSub a b = .ok (a - b) := by
  simp [lengthSub, h]

def octetsAt (data : Bytes) (off : ℕ) : (n : ℕ) → Access (Octets n)
  | 0 => .ok ⟨[], rfl⟩
  | n + 1 => do
      let xs ← octetsAt data off n
      let x ← octetAt data (off + n)
      return ⟨xs.bytes ++ [x], by simp⟩

lemma octetsAt_ok {data : Bytes} {off n : ℕ} (h : off + n ≤ data.length) :
    ∃ x, octetsAt data off n = .ok x ∧ x.bytes = (data.drop off).take n := by
  induction n with
  | zero => exact ⟨_, rfl, by simp⟩
  | succ n ih =>
    obtain ⟨x, hx, hbytes⟩ := ih (by omega)
    have hlast : off + n < data.length := by omega
    refine ⟨⟨x.bytes ++ [data[off + n]], by simp⟩, ?_, ?_⟩
    · rw [octetsAt, hx]
      simp [octetAt_ok hlast, bind, Except.bind, pure, Except.pure]
    · simp [hbytes, take_add_one, hlast]

variable {α β : Type}

def InRange (x : Access α) : Prop := x ≠ .error .outOfRange

lemma inRange_ok (a : α) : InRange (.ok a) := nofun

lemma inRange_status (st : Status) : InRange (.error (.status st) : Access α) := nofun

lemma InRange.bind {x : Access α} {f : α → Access β} (hx : InRange x)
    (hf : ∀ a, x = .ok a → InRange (f a)) : InRange (x >>= f) := by
  cases x with
  | error e => exact fun h => hx (congrArg Except.error (Except.error.inj h))
  | ok a => exact hf a rfl

def Returns (x : Access α) : Prop := ∃ a, x = .ok a

lemma returns_ok (a : α) : Returns (.ok a) := ⟨a, rfl⟩

lemma Returns.inRange {x : Access α} (h : Returns x) : InRange x := by
  obtain ⟨a, rfl⟩ := h
  exact inRange_ok a

lemma Returns.bind {x : Access α} {f : α → Access β} (hx : Returns x)
    (hf : ∀ a, x = .ok a → Returns (f a)) : Returns (x >>= f) := by
  obtain ⟨a, rfl⟩ := hx
  exact hf a rfl

lemma octetAt_returns {data : Bytes} {i : ℕ} (h : i < data.length) :
    Returns (octetAt data i) :=
  ⟨_, octetAt_ok h⟩

lemma octetAt_inRange {data : Bytes} {i : ℕ} (h : i < data.length) :
    InRange (octetAt data i) :=
  (octetAt_returns h).inRange

lemma octetsAt_returns {data : Bytes} {off n : ℕ} (h : off + n ≤ data.length) :
    Returns (octetsAt data off n) := by
  obtain ⟨x, hx, -⟩ := octetsAt_ok h
  exact ⟨x, hx⟩

lemma octetsAt_inRange {data : Bytes} {off n : ℕ} (h : off + n ≤ data.length) :
    InRange (octetsAt data off n) :=
  (octetsAt_returns h).inRange

lemma lengthSub_inRange {a b : ℕ} (h : b ≤ a) : InRange (lengthSub a b) := by
  rw [lengthSub_ok h]
  exact inRange_ok _

def Yields (x : Access α) (P : α → Prop) : Prop := ∃ a, x = .ok a ∧ P a

lemma yields_ok {P : α → Prop} {a : α} (h : P a) : Yields (.ok a) P := ⟨a, rfl, h⟩

lemma Returns.yields {x : Access α} (h : Returns x) : Yields x fun _ => True := by
  obtain ⟨a, ha⟩ := h
  exact ⟨a, ha, trivial⟩

lemma Yields.returns {P : α → Prop} {x : Access α} (h : Yields x P) : Returns x := by
  obtain ⟨a, ha, -⟩ := h
  exact ⟨a, ha⟩

lemma Yields.bind {P : α → Prop} {Q : β → Prop} {x : Access α} {f : α → Access β}
    (hx : Yields x P) (hf : ∀ a, P a → Yields (f a) Q) : Yields (x >>= f) Q := by
  obtain ⟨a, rfl, ha⟩ := hx
  exact hf a ha

def readLe16 (b0 b1 : UInt8) : UInt16 := b0.toUInt16 ||| (b1.toUInt16 <<< 8)

def readLe24 (b0 b1 b2 : UInt8) : UInt32 :=
  b0.toUInt32 ||| (b1.toUInt32 <<< 8) ||| (b2.toUInt32 <<< 16)

def readLe32 (b0 b1 b2 b3 : UInt8) : UInt32 :=
  b0.toUInt32 ||| (b1.toUInt32 <<< 8) ||| (b2.toUInt32 <<< 16) ||| (b3.toUInt32 <<< 24)

def writeLe16 (v : UInt16) : Bytes := [v.toUInt8, (v >>> 8).toUInt8]

def writeLe24 (v : UInt32) : Bytes := [v.toUInt8, (v >>> 8).toUInt8, (v >>> 16).toUInt8]

def writeLe32 (v : UInt32) : Bytes :=
  [v.toUInt8, (v >>> 8).toUInt8, (v >>> 16).toUInt8, (v >>> 24).toUInt8]

def readLe64 (b0 b1 b2 b3 b4 b5 b6 b7 : UInt8) : UInt64 :=
  (readLe32 b0 b1 b2 b3).toUInt64 ||| ((readLe32 b4 b5 b6 b7).toUInt64 <<< 32)

def writeLe64 (v : UInt64) : Bytes :=
  writeLe32 (v &&& 0xffffffff).toUInt32 ++ writeLe32 (v >>> 32).toUInt32

def readBe16 (b0 b1 : UInt8) : UInt16 := (b0.toUInt16 <<< 8) ||| b1.toUInt16

def readBe24 (b0 b1 b2 : UInt8) : UInt32 :=
  (b0.toUInt32 <<< 16) ||| (b1.toUInt32 <<< 8) ||| b2.toUInt32

def readBe32 (b0 b1 b2 b3 : UInt8) : UInt32 :=
  (b0.toUInt32 <<< 24) ||| (b1.toUInt32 <<< 16) ||| (b2.toUInt32 <<< 8) ||| b3.toUInt32

def readBe64 (b0 b1 b2 b3 b4 b5 b6 b7 : UInt8) : UInt64 :=
  ((readBe32 b0 b1 b2 b3).toUInt64 <<< 32) ||| (readBe32 b4 b5 b6 b7).toUInt64

def writeBe16 (v : UInt16) : Bytes := [(v >>> 8).toUInt8, v.toUInt8]

def writeBe24 (v : UInt32) : Bytes := [(v >>> 16).toUInt8, (v >>> 8).toUInt8, v.toUInt8]

def writeBe32 (v : UInt32) : Bytes :=
  [(v >>> 24).toUInt8, (v >>> 16).toUInt8, (v >>> 8).toUInt8, v.toUInt8]

def writeBe64 (v : UInt64) : Bytes :=
  writeBe32 (v >>> 32).toUInt32 ++ writeBe32 (v &&& 0xffffffff).toUInt32

structure Reader where
  data : Bytes
  pos : ℕ
  inBounds : pos ≤ data.length

namespace Reader

def init (data : Bytes) : Reader := ⟨data, 0, Nat.zero_le _⟩

def remaining (r : Reader) : ℕ := r.data.length - r.pos

def advance (r : Reader) (n : ℕ) (h : n ≤ r.remaining) : Reader :=
  ⟨r.data, r.pos + n, by
    have hb := r.inBounds
    unfold remaining at h
    omega⟩

@[simp] lemma advance_data (r : Reader) (n : ℕ) (h : n ≤ r.remaining) :
    (r.advance n h).data = r.data := rfl

@[simp] lemma advance_pos (r : Reader) (n : ℕ) (h : n ≤ r.remaining) :
    (r.advance n h).pos = r.pos + n := rfl

def readU8 (r : Reader) : Access (UInt8 × Reader) :=
  if h : 1 ≤ r.remaining then do
    let v ← octetAt r.data r.pos
    return (v, r.advance 1 h)
  else .error (.status .bufferUnderflow)

def readLe16 (r : Reader) : Access (UInt16 × Reader) :=
  if h : 2 ≤ r.remaining then do
    let b0 ← octetAt r.data r.pos
    let b1 ← octetAt r.data (r.pos + 1)
    return (Bluzing.readLe16 b0 b1, r.advance 2 h)
  else .error (.status .bufferUnderflow)

def readLe32 (r : Reader) : Access (UInt32 × Reader) :=
  if h : 4 ≤ r.remaining then do
    let b0 ← octetAt r.data r.pos
    let b1 ← octetAt r.data (r.pos + 1)
    let b2 ← octetAt r.data (r.pos + 2)
    let b3 ← octetAt r.data (r.pos + 3)
    return (Bluzing.readLe32 b0 b1 b2 b3, r.advance 4 h)
  else .error (.status .bufferUnderflow)

def readBe16 (r : Reader) : Access (UInt16 × Reader) :=
  if h : 2 ≤ r.remaining then do
    let b0 ← octetAt r.data r.pos
    let b1 ← octetAt r.data (r.pos + 1)
    return (Bluzing.readBe16 b0 b1, r.advance 2 h)
  else .error (.status .bufferUnderflow)

def readBe32 (r : Reader) : Access (UInt32 × Reader) :=
  if h : 4 ≤ r.remaining then do
    let b0 ← octetAt r.data r.pos
    let b1 ← octetAt r.data (r.pos + 1)
    let b2 ← octetAt r.data (r.pos + 2)
    let b3 ← octetAt r.data (r.pos + 3)
    return (Bluzing.readBe32 b0 b1 b2 b3, r.advance 4 h)
  else .error (.status .bufferUnderflow)

def peek (r : Reader) (n : ℕ) : Option Bytes :=
  if n ≤ r.remaining then some ((r.data.drop r.pos).take n) else none

def skip (r : Reader) (n : ℕ) : Access Reader :=
  if h : n ≤ r.remaining then .ok (r.advance n h) else .error (.status .bufferUnderflow)

def readBytes (r : Reader) (n : ℕ) : Access (Octets n × Reader) :=
  if h : n ≤ r.remaining then do
    let out ← octetsAt r.data r.pos n
    return (out, r.advance n h)
  else .error (.status .bufferUnderflow)

def rest (r : Reader) : Bytes := r.data.drop r.pos

lemma length_rest (r : Reader) : r.rest.length = r.remaining := length_drop

lemma rest_init (data : Bytes) : (init data).rest = data := rfl

lemma rest_advance (r : Reader) (n : ℕ) (h : n ≤ r.remaining) :
    (r.advance n h).rest = r.rest.drop n := by
  rw [rest, advance_data, advance_pos, rest, drop_drop]

def Fetches {α : Type} (read : Reader → Access (α × Reader)) (n : ℕ) (decode : Bytes → α) :
    Prop :=
  ∀ r, read r = if h : n ≤ r.remaining then .ok (decode (r.rest.take n), r.advance n h)
    else .error (.status .bufferUnderflow)

lemma Fetches.inRange {α : Type} {read : Reader → Access (α × Reader)} {n : ℕ}
    {decode : Bytes → α} (h : Fetches read n decode) (r : Reader) : InRange (read r) := by
  rw [h r]
  split
  · exact inRange_ok _
  · exact inRange_status _

lemma octetAt_rest {r : Reader} {n i : ℕ} (h : n ≤ r.remaining) (hi : i < n) :
    octetAt r.data (r.pos + i) = .ok ((r.rest.take n).getD i 0) := by
  have hin : r.pos + i < r.data.length := by
    unfold remaining at h
    omega
  rw [octetAt_ok hin, getD_eq_getElem?_getD, getElem?_take_of_lt hi, rest,
    getElem?_drop, getElem?_eq_getElem hin, Option.getD_some]

lemma octetAt_first {r : Reader} {n : ℕ} (h : n ≤ r.remaining) (hn : 0 < n) :
    octetAt r.data r.pos = .ok ((r.rest.take n).getD 0 0) :=
  octetAt_rest h hn

lemma fetches_u8 : Fetches readU8 1 (·.getD 0 0) := by
  intro r
  unfold readU8
  split
  next h => rw [octetAt_first h (by omega)]; rfl
  · rfl

lemma fetches_le16 :
    Fetches readLe16 2 fun l => Bluzing.readLe16 (l.getD 0 0) (l.getD 1 0) := by
  intro r
  unfold readLe16
  split
  next h => rw [octetAt_first h (by omega), octetAt_rest h (by omega)]; rfl
  · rfl

lemma fetches_be16 :
    Fetches readBe16 2 fun l => Bluzing.readBe16 (l.getD 0 0) (l.getD 1 0) := by
  intro r
  unfold readBe16
  split
  next h => rw [octetAt_first h (by omega), octetAt_rest h (by omega)]; rfl
  · rfl

lemma fetches_le32 : Fetches readLe32 4 fun l =>
    Bluzing.readLe32 (l.getD 0 0) (l.getD 1 0) (l.getD 2 0) (l.getD 3 0) := by
  intro r
  unfold readLe32
  split
  next h =>
    rw [octetAt_first h (by omega), octetAt_rest h (by omega), octetAt_rest h (by omega),
      octetAt_rest h (by omega)]
    rfl
  · rfl

lemma fetches_be32 : Fetches readBe32 4 fun l =>
    Bluzing.readBe32 (l.getD 0 0) (l.getD 1 0) (l.getD 2 0) (l.getD 3 0) := by
  intro r
  unfold readBe32
  split
  next h =>
    rw [octetAt_first h (by omega), octetAt_rest h (by omega), octetAt_rest h (by omega),
      octetAt_rest h (by omega)]
    rfl
  · rfl

lemma fetches_bytes (n : ℕ) : Fetches (readBytes · n) n fun l =>
    if h : l.length = n then ⟨l, h⟩ else default := by
  intro r
  dsimp only [readBytes]
  split
  next h =>
    obtain ⟨x, hx, hbytes⟩ := @octetsAt_ok r.data r.pos n (by
      have hb := r.inBounds
      unfold remaining at h
      omega)
    have hlen : (r.rest.take n).length = n := by
      rw [length_take, r.length_rest]
      omega
    have hval : x = ⟨r.rest.take n, hlen⟩ := Octets.ext hbytes
    rw [hx, dif_pos hlen, hval]
    rfl
  · rfl

lemma readU8_inRange (r : Reader) : InRange r.readU8 := fetches_u8.inRange r

lemma readLe16_inRange (r : Reader) : InRange r.readLe16 := fetches_le16.inRange r

lemma readLe32_inRange (r : Reader) : InRange r.readLe32 := fetches_le32.inRange r

lemma readBytes_inRange (r : Reader) (n : ℕ) : InRange (r.readBytes n) :=
  (fetches_bytes n).inRange r

lemma skip_inRange (r : Reader) (n : ℕ) : InRange (r.skip n) := by
  unfold skip
  split
  · exact inRange_ok _
  · exact inRange_status _

lemma peek_rest {r : Reader} {p tail : Bytes} (h : r.rest = p ++ tail) :
    r.peek p.length = some p := by
  have hlen : p.length ≤ r.remaining := by
    rw [← length_rest, h, length_append]
    exact Nat.le_add_right ..
  rw [peek, if_pos hlen, ← rest, h, take_left]

end Reader

structure Writer where
  cap : ℕ
  data : Bytes
  fits : data.length ≤ cap
  deriving DecidableEq

namespace Writer

def init (cap : ℕ) : Writer := ⟨cap, [], Nat.zero_le _⟩

def remaining (w : Writer) : ℕ := w.cap - w.data.length

def writeBytes (w : Writer) (src : Bytes) : Except Status Writer :=
  if h : src.length ≤ w.remaining then
    .ok ⟨w.cap, w.data ++ src, by
      have hf := w.fits
      unfold remaining at h
      rw [length_append]
      omega⟩
  else .error .bufferOverflow

def writeU8 (w : Writer) (v : UInt8) : Except Status Writer := w.writeBytes [v]

def writeLe16 (w : Writer) (v : UInt16) : Except Status Writer := w.writeBytes (Bluzing.writeLe16 v)

def writeLe32 (w : Writer) (v : UInt32) : Except Status Writer := w.writeBytes (Bluzing.writeLe32 v)

def writeBe16 (w : Writer) (v : UInt16) : Except Status Writer := w.writeBytes (Bluzing.writeBe16 v)

def writeBe32 (w : Writer) (v : UInt32) : Except Status Writer := w.writeBytes (Bluzing.writeBe32 v)

def patch (w : Writer) (k : ℕ) (src : Bytes) : Writer :=
  ⟨w.cap, (Octets.writeAt ⟨w.data, rfl⟩ k src).bytes, by rw [Octets.length_eq]; exact w.fits⟩

lemma patch_data {w : Writer} {k : ℕ} {src : Bytes} (h : k + src.length ≤ w.data.length) :
    (w.patch k src).data = w.data.take k ++ src ++ w.data.drop (k + src.length) :=
  Octets.writeAt_bytes _ k src h

lemma writeBytes_eq (w : Writer) (src : Bytes) (h : w.data.length + src.length ≤ w.cap) :
    w.writeBytes src = .ok ⟨w.cap, w.data ++ src, by simpa using h⟩ := by
  unfold writeBytes
  rw [dif_pos (by unfold remaining; omega)]

def Writes (f : Writer → Except Status Writer) (src : Bytes) : Prop :=
  ∀ w, w.data.length + src.length ≤ w.cap →
    ∃ w', f w = .ok w' ∧ w'.cap = w.cap ∧ w'.data = w.data ++ src

lemma writes_bytes (src : Bytes) : Writes (·.writeBytes src) src :=
  fun w h => ⟨_, w.writeBytes_eq src h, rfl, rfl⟩

lemma Writes.bind {f g : Writer → Except Status Writer} {a b : Bytes} (hf : Writes f a)
    (hg : Writes g b) : Writes (fun w => f w >>= g) (a ++ b) := by
  intro w h
  rw [length_append] at h
  obtain ⟨w₁, h₁, hcap₁, hdata₁⟩ := hf w (by omega)
  obtain ⟨w₂, h₂, hcap₂, hdata₂⟩ := hg w₁ (by rw [hdata₁, hcap₁, length_append]; omega)
  refine ⟨w₂, ?_, hcap₂.trans hcap₁, by rw [hdata₂, hdata₁, append_assoc]⟩
  simp only [h₁]
  exact h₂

structure Appends (f : Writer → Except Status Writer) (src : Bytes) : Prop where
  writes : Writes f src
  room : ∀ {w w'}, f w = .ok w' → w.data.length + src.length ≤ w.cap

lemma Appends.data {f : Writer → Except Status Writer} {src : Bytes} (h : Appends f src)
    {w w' : Writer} (hw : f w = .ok w') : w'.data = w.data ++ src := by
  obtain ⟨w₁, hw₁, -, hdata⟩ := h.writes w (h.room hw)
  obtain rfl := Except.ok.inj (hw.symm.trans hw₁)
  exact hdata

lemma appends_bytes (src : Bytes) : Appends (·.writeBytes src) src where
  writes := writes_bytes src
  room {w w'} h := by
    have hfits := w.fits
    unfold writeBytes at h
    split at h
    next hroom =>
      unfold remaining at hroom
      omega
    · cases h

lemma Appends.bind {f g : Writer → Except Status Writer} {a b : Bytes} (hf : Appends f a)
    (hg : Appends g b) : Appends (fun w => f w >>= g) (a ++ b) where
  writes := hf.writes.bind hg.writes
  room {w w'} h := by
    cases h₁ : f w with
    | error e =>
      simp only [h₁] at h
      cases h
    | ok w₁ =>
      simp only [h₁] at h
      obtain ⟨w₂, h₂, hcap, hdata⟩ := hf.writes w (hf.room h₁)
      obtain rfl := Except.ok.inj (h₁.symm.trans h₂)
      have hroom := hg.room h
      rw [hdata, hcap, length_append] at hroom
      rw [length_append]
      omega

end Writer
end Bluzing
