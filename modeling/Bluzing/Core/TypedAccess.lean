import Bluzing.Core.Codec

/-! The reader and the writer of `core/buffer/buffer.c` as the code has them: a pointer to octets, a
length and a position, and functions that return a status. -/
namespace Bluzing
open List

structure BufReader where
  data : Bytes
  len : ℕ
  pos : ℕ
  deriving DecidableEq

structure BufWriter where
  data : Bytes
  cap : ℕ
  pos : ℕ
  deriving DecidableEq

def copyTo (data : Bytes) (off : ℕ) (src : Bytes) : Access Bytes :=
  if off + src.length ≤ data.length then .ok (Octets.writeAt ⟨data, rfl⟩ off src).bytes
  else .error .outOfRange

namespace BufReader
variable {α : Type}

def init (data : Bytes) : BufReader := ⟨data, data.length, 0⟩

def remaining (r : BufReader) : Access ℕ := lengthSub r.len r.pos

def check (r : BufReader) (n : ℕ) : Access Status := do
  let remaining ← r.remaining
  return if n > remaining then .bufferUnderflow else .ok

def read (r : BufReader) (n : ℕ) (decode : Bytes → α) :
    Access (Except Status α × BufReader) := do
  let st ← r.check n
  if st ≠ .ok then return (.error st, r)
  else
    let octets ← octetsAt r.data r.pos n
    return (.ok (decode octets.bytes), { r with pos := r.pos + n })

def peek (r : BufReader) (n : ℕ) : Access (Option Bytes) := do
  let st ← r.check n
  return if st ≠ .ok then none else some (r.data.drop r.pos)

def skip (r : BufReader) (n : ℕ) : Access (Status × BufReader) := do
  let st ← r.check n
  return if st ≠ .ok then (st, r) else (.ok, { r with pos := r.pos + n })

end BufReader

namespace BufWriter

def init (data : Bytes) : BufWriter := ⟨data, data.length, 0⟩

def remaining (w : BufWriter) : Access ℕ := lengthSub w.cap w.pos

def check (w : BufWriter) (n : ℕ) : Access Status := do
  let remaining ← w.remaining
  return if n > remaining then .bufferOverflow else .ok

def write (w : BufWriter) (src : Bytes) : Access (Status × BufWriter) := do
  let st ← w.check src.length
  if st ≠ .ok then return (st, w)
  else
    let data ← copyTo w.data w.pos src
    return (.ok, { w with data, pos := w.pos + src.length })

end BufWriter

inductive Kind where
  | u8
  | le16
  | le24
  | le32
  | le64
  | be16
  | be24
  | be32
  | be64
  | bytes (n : ℕ)
  deriving DecidableEq

inductive Item where
  | u8 (v : UInt8)
  | le16 (v : UInt16)
  | le24 (v : UInt32)
  | le32 (v : UInt32)
  | le64 (v : UInt64)
  | be16 (v : UInt16)
  | be24 (v : UInt32)
  | be32 (v : UInt32)
  | be64 (v : UInt64)
  | bytes (src : Bytes)
  deriving DecidableEq

def Item.kind : Item → Kind
  | .u8 _ => .u8
  | .le16 _ => .le16
  | .le24 _ => .le24
  | .le32 _ => .le32
  | .le64 _ => .le64
  | .be16 _ => .be16
  | .be24 _ => .be24
  | .be32 _ => .be32
  | .be64 _ => .be64
  | .bytes src => .bytes src.length

def Item.stored : Item → Item
  | .le24 v => .le24 (v % 2 ^ 24)
  | .be24 v => .be24 (v % 2 ^ 24)
  | item => item

def Item.octets : Item → Bytes
  | .u8 v => [v]
  | .le16 v => writeLe16 v
  | .le24 v => writeLe24 v
  | .le32 v => writeLe32 v
  | .le64 v => writeLe64 v
  | .be16 v => writeBe16 v
  | .be24 v => writeBe24 v
  | .be32 v => writeBe32 v
  | .be64 v => writeBe64 v
  | .bytes src => src

def Kind.size : Kind → ℕ
  | .u8 => 1
  | .le16 | .be16 => 2
  | .le24 | .be24 => 3
  | .le32 | .be32 => 4
  | .le64 | .be64 => 8
  | .bytes n => n

def Kind.decode (kind : Kind) (p : Bytes) : Item :=
  let b (i : ℕ) : UInt8 := p.getD i 0
  match kind with
  | .u8 => .u8 (b 0)
  | .le16 => .le16 (readLe16 (b 0) (b 1))
  | .le24 => .le24 (readLe24 (b 0) (b 1) (b 2))
  | .le32 => .le32 (readLe32 (b 0) (b 1) (b 2) (b 3))
  | .le64 => .le64 (readLe64 (b 0) (b 1) (b 2) (b 3) (b 4) (b 5) (b 6) (b 7))
  | .be16 => .be16 (readBe16 (b 0) (b 1))
  | .be24 => .be24 (readBe24 (b 0) (b 1) (b 2))
  | .be32 => .be32 (readBe32 (b 0) (b 1) (b 2) (b 3))
  | .be64 => .be64 (readBe64 (b 0) (b 1) (b 2) (b 3) (b 4) (b 5) (b 6) (b 7))
  | .bytes _ => .bytes p

def BufWriter.put (w : BufWriter) (item : Item) : Access (Status × BufWriter) :=
  w.write item.octets

def BufReader.get (r : BufReader) (kind : Kind) : Access (Except Status Item × BufReader) :=
  r.read kind.size kind.decode

def BufWriter.puts : BufWriter → List Item → Access (List Status × BufWriter)
  | w, [] => .ok ([], w)
  | w, item :: items => do
      let (st, w) ← w.put item
      let (sts, w) ← w.puts items
      return (st :: sts, w)

def BufReader.gets : BufReader → List Kind → Access (List (Except Status Item) × BufReader)
  | r, [] => .ok ([], r)
  | r, kind :: kinds => do
      let (v, r) ← r.get kind
      let (vs, r) ← r.gets kinds
      return (v :: vs, r)

inductive ReadCall where
  | get (kind : Kind)
  | peek (n : ℕ)
  | skip (n : ℕ)

def BufReader.call (r : BufReader) : ReadCall → Access BufReader
  | .get kind => Prod.snd <$> r.get kind
  | .peek n => (fun _ => r) <$> r.peek n
  | .skip n => Prod.snd <$> r.skip n

lemma Item.length_octets (item : Item) : item.octets.length = item.kind.size := by
  cases item <;> rfl

lemma Item.decode_octets (item : Item) : item.kind.decode item.octets = item.stored := by
  cases item with
  | u8 | bytes => rfl
  | le16 v => exact congrArg Item.le16 (readLe16_writeLe16 v)
  | le24 v => exact congrArg Item.le24 (readLe24_writeLe24 v)
  | le32 v => exact congrArg Item.le32 (readLe32_writeLe32 v)
  | le64 v => exact congrArg Item.le64 (readLe64_writeLe64 rfl)
  | be16 v => exact congrArg Item.be16 ((readBe16_eq ..).trans (readLe16_writeLe16 v))
  | be24 v => exact congrArg Item.be24 ((readBe24_eq ..).trans (readLe24_writeLe24 v))
  | be32 v => exact congrArg Item.be32 ((readBe32_eq ..).trans (readLe32_writeLe32 v))
  | be64 v => exact congrArg Item.be64 ((readBe64_eq ..).trans (readLe64_writeLe64 rfl))

structure BufWriter.Valid (w : BufWriter) : Prop where
  pos_le : w.pos ≤ w.cap
  cap_eq : w.cap = w.data.length

structure BufReader.Valid (r : BufReader) : Prop where
  pos_le : r.pos ≤ r.len
  len_eq : r.len = r.data.length

variable {w : BufWriter} {r : BufReader}

lemma BufWriter.write_full (hw : w.Valid) {src : Bytes}
    (hfull : w.cap - w.pos < src.length) : w.write src = .ok (.bufferOverflow, w) := by
  rw [write, check, remaining, lengthSub_ok hw.pos_le]
  simp [bind, Except.bind, pure, Except.pure, hfull]

lemma BufWriter.write_fits (hw : w.Valid) {src : Bytes}
    (hroom : w.pos + src.length ≤ w.cap) :
    w.write src = .ok (.ok, ⟨w.data.take w.pos ++ src ++ w.data.drop (w.pos + src.length), w.cap,
      w.pos + src.length⟩) := by
  have hcopy := hw.cap_eq ▸ hroom
  have hfits : ¬ src.length > w.cap - w.pos := by omega
  rw [write, check, remaining, lengthSub_ok hw.pos_le, copyTo, if_pos hcopy,
    Octets.writeAt_bytes _ _ _ hcopy]
  simp [bind, Except.bind, pure, Except.pure, hfits]

lemma BufReader.check_eq (hr : r.Valid) (n : ℕ) :
    r.check n = .ok (if r.len - r.pos < n then .bufferUnderflow else .ok) := by
  rw [check, remaining, lengthSub_ok hr.pos_le]
  rfl

variable {α : Type}

lemma BufReader.read_short (hr : r.Valid) {n : ℕ} (hshort : r.len - r.pos < n)
    (decode : Bytes → α) : r.read n decode = .ok (.error .bufferUnderflow, r) := by
  rw [read, check_eq hr, if_pos hshort]
  rfl

lemma BufReader.read_fits (hr : r.Valid) {n : ℕ} (hfits : r.pos + n ≤ r.len)
    (decode : Bytes → α) : r.read n decode =
      .ok (.ok (decode ((r.data.drop r.pos).take n)), { r with pos := r.pos + n }) := by
  obtain ⟨x, hx, hbytes⟩ := octetsAt_ok (hr.len_eq ▸ hfits)
  rw [read, check_eq hr, if_neg (by omega), hx, ← hbytes]
  rfl

lemma BufWriter.put_step (hw : w.Valid) (item : Item) :
    ∃ st w', w.put item = .ok (st, w') ∧ w'.Valid ∧ w'.cap = w.cap ∧
      (st = .ok → w'.data.take w'.pos = w.data.take w.pos ++ item.octets) := by
  have hpos := hw.pos_le
  have hcap := hw.cap_eq
  by_cases hroom : w.pos + item.octets.length ≤ w.cap
  · refine ⟨_, _, write_fits hw hroom, ⟨hroom, ?_⟩, rfl, fun _ => ?_⟩
    · simp only [length_append, length_take, length_drop]
      omega
    · apply take_left'
      dsimp only
      rw [length_append, length_take]
      omega
  · exact ⟨_, _, write_full hw (by omega), hw, rfl, nofun⟩

lemma BufReader.call_step (hr : r.Valid) (c : ReadCall) :
    ∃ r', r.call c = .ok r' ∧ r'.Valid ∧ r'.len = r.len := by
  have hpos := hr.pos_le
  have hadvance (n : ℕ) (hfits : r.pos + n ≤ r.len) :
      BufReader.Valid { r with pos := r.pos + n } := ⟨hfits, hr.len_eq⟩
  cases c with
  | get kind =>
    by_cases hfits : r.pos + kind.size ≤ r.len
    · refine ⟨_, ?_, hadvance _ hfits, rfl⟩
      rw [call, get, read_fits hr hfits]
      rfl
    · refine ⟨r, ?_, hr, rfl⟩
      rw [call, get, read_short hr (by omega)]
      rfl
  | peek n =>
    refine ⟨r, ?_, hr, rfl⟩
    rw [call, peek, check_eq hr]
    rfl
  | skip n =>
    by_cases hfits : r.pos + n ≤ r.len
    · refine ⟨_, ?_, hadvance _ hfits, rfl⟩
      rw [call, skip, check_eq hr, if_neg (by omega)]
      rfl
    · refine ⟨r, ?_, hr, rfl⟩
      rw [call, skip, check_eq hr, if_pos (by omega)]
      rfl

structure BufWriter.Holds (b : BufWriter) (w : Writer) : Prop where
  valid : b.Valid
  cap : b.cap = w.cap
  data : b.data.take b.pos = w.data

lemma BufWriter.write_refines {b : BufWriter} {w : Writer} (h : b.Holds w) (src : Bytes) :
    (∀ w', w.writeBytes src = .ok w' → ∃ b', b.write src = .ok (.ok, b') ∧ b'.Holds w') ∧
      ∀ st, w.writeBytes src = .error st → b.write src = .ok (st, b) := by
  have hpos := h.valid.pos_le
  have hlen : w.data.length = b.pos := by
    rw [← h.data, length_take, ← h.valid.cap_eq]
    omega
  unfold Writer.writeBytes
  split
  next hroom =>
    rw [Writer.remaining, hlen, ← h.cap] at hroom
    obtain ⟨st, b', hput, hvalid, -, hdata⟩ := put_step h.valid (.bytes src)
    have hfits := write_fits h.valid (by omega : b.pos + src.length ≤ b.cap)
    obtain ⟨rfl, rfl⟩ := Prod.mk.inj (Except.ok.inj (hput.symm.trans hfits))
    refine ⟨?_, (by simp)⟩
    rintro w' ⟨⟩
    exact ⟨_, hfits, hvalid, h.cap, by rw [hdata rfl, h.data]; rfl⟩
  next hfull =>
    rw [Writer.remaining, hlen, ← h.cap] at hfull
    refine ⟨(by simp), ?_⟩
    rintro st ⟨⟩
    exact write_full h.valid (by omega)

def Reader.toBuf (r : Reader) : BufReader := ⟨r.data, r.data.length, r.pos⟩

lemma BufReader.read_refines {read : Reader → Access (α × Reader)} {n : ℕ}
    {decode : Bytes → α} (h : Reader.Fetches read n decode) (r : Reader) :
    (∀ v r', read r = .ok (v, r') → r.toBuf.read n decode = .ok (.ok v, r'.toBuf)) ∧
      ∀ st, read r = .error (.status st) → r.toBuf.read n decode = .ok (.error st, r.toBuf) := by
  have hvalid : r.toBuf.Valid := ⟨r.inBounds, rfl⟩
  have hb := r.inBounds
  rw [h r]
  unfold Reader.remaining
  split
  next hfits =>
    refine ⟨?_, (by simp)⟩
    rintro v r' ⟨⟩
    exact read_fits hvalid (by rw [Reader.toBuf]; dsimp only; omega) decode
  next hshort =>
    refine ⟨(by simp), ?_⟩
    rintro st ⟨⟩
    exact read_short hvalid (by rw [Reader.toBuf]; dsimp only; omega) decode

lemma BufWriter.puts_run (hw : w.Valid) (items : List Item) :
    ∃ sts w', w.puts items = .ok (sts, w') ∧ w'.Valid ∧ w'.cap = w.cap ∧
      (sts = items.map (fun _ => .ok) →
        w'.data.take w'.pos = w.data.take w.pos ++ items.flatMap Item.octets) := by
  induction items generalizing w with
  | nil => exact ⟨[], w, rfl, hw, rfl, fun _ => by simp⟩
  | cons item items ih =>
    obtain ⟨st, w₁, hput, hw₁, hcap₁, hdata₁⟩ := put_step hw item
    obtain ⟨sts, w₂, hputs, hw₂, hcap₂, hdata₂⟩ := ih hw₁
    refine ⟨st :: sts, w₂, ?_, hw₂, hcap₂.trans hcap₁, fun hok => ?_⟩
    · rw [puts, hput]
      simp [bind, Except.bind, hputs, pure, Except.pure]
    · obtain ⟨hst, hsts⟩ := cons.inj hok
      rw [hdata₂ hsts, hdata₁ hst, flatMap_cons, append_assoc]

lemma BufReader.gets_run (hr : r.Valid) {items : List Item} {tail : Bytes}
    (hrest : r.data.drop r.pos = items.flatMap Item.octets ++ tail) :
    ∃ r', r.gets (items.map Item.kind) = .ok (items.map (fun item => .ok item.stored), r') ∧
      r'.Valid ∧ r'.data.drop r'.pos = tail := by
  induction items generalizing r with
  | nil => exact ⟨r, rfl, hr, hrest⟩
  | cons item items ih =>
    rw [flatMap_cons, append_assoc] at hrest
    have hlen := congrArg length hrest
    rw [length_drop, length_append, item.length_octets, ← hr.len_eq] at hlen
    have hpos := hr.pos_le
    have hfits : r.pos + item.kind.size ≤ r.len := by omega
    have hget := read_fits hr hfits item.kind.decode
    rw [hrest, take_left' item.length_octets, item.decode_octets] at hget
    obtain ⟨r', hgets, hr', hrest'⟩ := @ih { r with pos := r.pos + item.kind.size }
      ⟨hfits, hr.len_eq⟩ (by
        rw [← drop_drop, hrest]
        exact drop_left' item.length_octets)
    refine ⟨r', ?_, hr', hrest'⟩
    rw [map_cons, gets, get, hget]
    simp [bind, Except.bind, hgets, pure, Except.pure]

lemma BufReader.calls_run (hr : r.Valid) (calls : List ReadCall) :
    ∃ r', calls.foldlM BufReader.call r = .ok r' ∧ r'.Valid ∧ r'.len = r.len := by
  induction calls generalizing r with
  | nil => exact ⟨r, rfl, hr, rfl⟩
  | cons c calls ih =>
    obtain ⟨r₁, hcall, hr₁, hlen₁⟩ := call_step hr c
    obtain ⟨r₂, hcalls, hr₂, hlen₂⟩ := ih hr₁
    refine ⟨r₂, ?_, hr₂, hlen₂.trans hlen₁⟩
    rw [foldlM_cons, hcall]
    exact hcalls

/-- Typed writes that all succeed are undone by the same typed reads; no call takes the position
past the end; a write that fits succeeds, and a call that does not fit changes nothing. -/
theorem puts_gets :
    (∀ (buffer : Bytes) (items : List Item) (w : BufWriter),
      (BufWriter.init buffer).puts items = .ok (items.map (fun _ => .ok), w) →
      ∃ r, (BufReader.init (w.data.take w.pos)).gets (items.map Item.kind) =
          .ok (items.map (fun item => .ok item.stored), r) ∧ r.remaining = .ok 0) ∧
    (∀ (buffer : Bytes) (items : List Item), ∃ sts w,
      (BufWriter.init buffer).puts items = .ok (sts, w) ∧ w.pos ≤ w.cap ∧
        w.cap = buffer.length ∧ w.data.length = w.cap ∧
        (∀ item : Item, w.pos + item.octets.length ≤ w.cap → ∃ w', w.put item = .ok (.ok, w')) ∧
        ∀ item : Item, w.cap - w.pos < item.octets.length →
          w.put item = .ok (.bufferOverflow, w)) ∧
    ∀ (data : Bytes) (calls : List ReadCall), ∃ r,
      calls.foldlM BufReader.call (.init data) = .ok r ∧ r.pos ≤ r.len ∧ r.len = data.length ∧
        (∀ kind : Kind, r.len - r.pos < kind.size →
          r.get kind = .ok (.error .bufferUnderflow, r)) ∧
        ∀ n, r.len - r.pos < n →
          r.skip n = .ok (.bufferUnderflow, r) ∧ r.peek n = .ok none := by
  refine ⟨fun buffer items w hputs => ?_, fun buffer items => ?_, fun data calls => ?_⟩
  · obtain ⟨sts, w', hrun, hw, -, hdata⟩ :=
      BufWriter.puts_run (w := .init buffer) ⟨Nat.zero_le _, rfl⟩ items
    obtain ⟨rfl, rfl⟩ := Prod.mk.inj (Except.ok.inj (hrun.symm.trans hputs))
    obtain ⟨r, hgets, hr, hrest⟩ := @BufReader.gets_run (.init (w'.data.take w'.pos))
      ⟨Nat.zero_le _, rfl⟩ items [] (by
        rw [hdata rfl]
        simp [BufReader.init, BufWriter.init])
    refine ⟨r, hgets, ?_⟩
    have hpos := hr.pos_le
    have hlen := congrArg length hrest
    rw [length_drop, ← hr.len_eq, length_nil] at hlen
    rw [BufReader.remaining, lengthSub_ok hpos, hlen]
  · obtain ⟨sts, w, hrun, hw, hcap, -⟩ :=
      BufWriter.puts_run (w := .init buffer) ⟨Nat.zero_le _, rfl⟩ items
    exact ⟨sts, w, hrun, hw.pos_le, hcap, hw.cap_eq.symm,
      fun _ hroom => ⟨_, BufWriter.write_fits hw hroom⟩, fun _ => BufWriter.write_full hw⟩
  · obtain ⟨r, hrun, hr, hlen⟩ :=
      BufReader.calls_run (r := .init data) ⟨Nat.zero_le _, rfl⟩ calls
    refine ⟨r, hrun, hr.pos_le, hlen, fun kind hshort => BufReader.read_short hr hshort _, ?_⟩
    intro n hshort
    rw [BufReader.skip, BufReader.peek, BufReader.check_eq hr, if_pos hshort]
    exact ⟨rfl, rfl⟩

theorem puts_gets_pair : ∃ r, (BufReader.init [1, 0x34, 0x12]).gets [.u8, .le16] =
    .ok ([.ok (.u8 1), .ok (.le16 0x1234)], r) ∧ r.remaining = .ok 0 :=
  puts_gets.1 [0, 0, 0] [.u8 1, .le16 0x1234] ⟨[1, 0x34, 0x12], 3, 3⟩ rfl

end Bluzing
