import Bluzing.Bonds.Codec

/-! A store that is written to `keys.db` is read back as it was, and a database without unknown
records is written back octet for octet. -/
namespace Bluzing.Bonds
open List
open Writer (Appends appends_bytes)

lemma appends_addr (a : BondAddress) : Appends (writeAddr · a) a.encode :=
  (appends_bytes [a.type]).bind (appends_bytes a.addr.bytes)

lemma appends_entry (e : Entry) : Appends (writeEntry · e) e.record.encode := by
  have hbody := (appends_addr e.adapter).bind <| (appends_addr e.peerIdentity).bind <|
    (appends_bytes [e.keyMask]).bind <| (appends_bytes [e.flags]).bind <|
    (appends_bytes e.classicLinkKey.bytes).bind <| (appends_bytes [e.classicLinkKeyType]).bind <|
    (appends_bytes e.ltk.bytes).bind <| (appends_bytes e.ltkRand.bytes).bind <|
    (appends_bytes (writeLe16 e.ltkEdiv)).bind <| (appends_bytes [e.ltkSize]).bind <|
    (appends_bytes e.irk.bytes).bind (appends_bytes e.csrk.bytes)
  have hrecord : e.record.encode = [recordTypeEntry] ++ ([0] ++
      (writeLe16 (UInt16.ofNat entryWireLen) ++ e.encode)) := by
    simp only [Record.encode, Entry.record, e.length_encode]
  rw [hrecord]
  exact (appends_bytes [recordTypeEntry]).bind <| (appends_bytes [0]).bind <|
    (appends_bytes (writeLe16 (UInt16.ofNat entryWireLen))).bind hbody

lemma appends_entries (entries : List Entry) :
    Appends (writeEntries · entries) ((entries.map Entry.record).flatMap Record.encode) := by
  induction entries with
  | nil =>
    exact ⟨fun w _ => ⟨w, rfl, rfl, (append_nil _).symm⟩, fun {w _} _ => w.fits⟩
  | cons e entries ih => exact (appends_entry e).bind ih

lemma appends_header (count : ℕ) :
    Appends (writeHeader · count) (header (UInt16.ofNat count) 0 0) :=
  (appends_bytes dbMagic).bind <| (appends_bytes (writeLe16 dbVersion)).bind <|
  (appends_bytes (writeLe16 (UInt16.ofNat dbHeaderLen))).bind <|
  (appends_bytes (writeLe16 (UInt16.ofNat count))).bind <| (appends_bytes (writeLe16 0)).bind <|
  (appends_bytes (writeLe32 0)).bind (appends_bytes (writeLe32 0))

lemma patch_header {w : Writer} {start payload : Bytes} {count : UInt16}
    (payloadLen checksum : UInt32) (hdata : w.data = start ++ (header count 0 0 ++ payload)) :
    (w.patch (start.length + 12) (writeLe32 payloadLen ++ writeLe32 checksum)).data =
      start ++ (header count payloadLen checksum ++ payload) := by
  obtain ⟨front, hfront⟩ : ∃ front, front = dbMagic ++ (writeLe16 dbVersion ++
    (writeLe16 (UInt16.ofNat dbHeaderLen) ++ (writeLe16 count ++ writeLe16 0))) := ⟨_, rfl⟩
  have hheader (a b : UInt32) : header count a b = front ++ (writeLe32 a ++ writeLe32 b) := by
    simp only [hfront, header, append_assoc]
  have hlen : (start ++ front).length = start.length + 12 := by
    rw [length_append, hfront]
    rfl
  have hfields (a b : UInt32) : (writeLe32 a ++ writeLe32 b).length = 8 := rfl
  have hsplit : w.data = (start ++ front) ++ ((writeLe32 0 ++ writeLe32 0) ++ payload) := by
    rw [hdata, hheader]
    simp only [append_assoc]
  have hroom : start.length + 12 + (writeLe32 payloadLen ++ writeLe32 checksum).length ≤
      w.data.length := by
    rw [hfields, hsplit, length_append, hlen, length_append, hfields]
    omega
  have htake : w.data.take (start.length + 12) = start ++ front := by
    rw [hsplit, take_left' hlen]
  have hdrop : w.data.drop (start.length + 12 + 8) = payload := by
    rw [hsplit, ← drop_drop, drop_left' hlen, drop_left' (hfields 0 0)]
  rw [Writer.patch_data hroom, htake, hfields, hdrop, hheader]
  simp only [append_assoc]

lemma entriesOf_records {entries : List Entry} (h : ∀ e ∈ entries, entryValid e = true) :
    entriesOf (entries.map Entry.record) = entries := by
  induction entries with
  | nil => rfl
  | cons e entries ih =>
    obtain ⟨hfirst, hothers⟩ := forall_mem_cons.mp h
    rw [map_cons, entriesOf_cons, Record.asEntry_ok rfl (readEntry_encode hfirst), ih hothers]
    rfl

lemma records_wellFormed {entries : List Entry} (h : ∀ e ∈ entries, entryValid e = true) :
    ∀ rec ∈ entries.map Entry.record, rec.WellFormed := by
  intro rec hrec
  obtain ⟨e, he, rfl⟩ := mem_map.mp hrec
  refine ⟨?_, fun _ => ⟨e, readEntry_encode (h e he)⟩⟩
  change e.encode.length < 65536
  rw [e.length_encode]
  decide

lemma Entry.length_record (e : Entry) : e.record.encode.length = 96 := by
  have hbody : e.record.body.length = 92 := e.length_encode
  simp only [Record.encode, length_append, length_singleton, length_writeLe16, hbody]

lemma length_records (entries : List Entry) :
    ((entries.map Entry.record).flatMap Record.encode).length = 96 * entries.length := by
  induction entries with
  | nil => rfl
  | cons e entries ih =>
    rw [map_cons, flatMap_cons, length_append, e.length_record, ih,
      length_cons]
    omega

def Store.wireLen (s : Store) : ℕ := dbHeaderLen + 96 * s.entries.length

variable {s : Store}

lemma serialize_eq (hvalid : ∀ e ∈ s.entries, entryValid e = true) {w : Writer}
    (hroom : w.data.length + s.wireLen ≤ w.cap) :
    ∃ w', serialize s w = .ok w' ∧ w'.cap = w.cap ∧
      w'.data = w.data ++ database (s.entries.map Entry.record) := by
  have hfits := s.fits
  obtain ⟨payload, hpayload⟩ :
    ∃ payload, payload = (s.entries.map Entry.record).flatMap Record.encode := ⟨_, rfl⟩
  have hlen : payload.length = 96 * s.entries.length := by rw [hpayload, length_records]
  rw [Store.wireLen] at hroom
  obtain ⟨w₁, h₁, hcap₁, hdata₁⟩ := (appends_header s.entries.length).writes w (by
    rw [length_header]
    omega)
  obtain ⟨w₂, h₂, hcap₂, hdata₂⟩ := (appends_entries s.entries).writes w₁ (by
    rw [hdata₁, hcap₁, length_append, length_header, length_records]
    omega)
  rw [← hpayload] at hdata₂
  have hcount : ¬ maxEntries < s.entries.length := by omega
  have hall : s.entries.any (!entryValid ·) = false := by
    rw [any_eq_false]
    intro e he
    rw [hvalid e he]
    decide
  have hpayloadLen : w₂.data.length - w₁.data.length = payload.length := by
    rw [hdata₂, length_append]
    omega
  have hsmall : (UInt32.ofNat payload.length).toNat = payload.length := by
    rw [UInt32.toNat_ofNat', Nat.mod_eq_of_lt]
    have hmax : maxEntries = 16 := rfl
    omega
  have hbody : (w₂.data.drop w₁.data.length).take payload.length = payload := by
    rw [hdata₂, drop_left, take_length]
  have hsealed : w₂.data = w.data ++ (header (UInt16.ofNat s.entries.length) 0 0 ++ payload) := by
    rw [hdata₂, hdata₁, append_assoc]
  refine ⟨w₂.patch (w.data.length + 12) (writeLe32 (UInt32.ofNat payload.length) ++
    writeLe32 (crc32 payload)), ?_, hcap₂.trans hcap₁, ?_⟩
  · simp only [serialize, if_neg hcount, hall, Bool.false_eq_true, if_false, h₁, h₂, bind,
      Except.bind, pure, Except.pure, hpayloadLen, hsmall, hbody]
  · rw [patch_header _ _ hsealed, database, entriesOf_records hvalid, ← hpayload]
    rfl

lemma serialize_ok {w w' : Writer} (h : serialize s w = .ok w') :
    (∀ e ∈ s.entries, entryValid e = true) ∧
      w'.data = w.data ++ database (s.entries.map Entry.record) := by
  have hserialize := h
  unfold serialize at h
  split at h
  · cases h
  · split at h
    · cases h
    next hany =>
      have hvalid : ∀ e ∈ s.entries, entryValid e = true := by
        intro e he
        by_contra hinvalid
        exact hany (any_eq_true.mpr ⟨e, he, by simpa using hinvalid⟩)
      cases h₁ : writeHeader w s.entries.length with
      | error e =>
        simp only [h₁] at h
        cases h
      | ok w₁ =>
        simp only [h₁, bind, Except.bind] at h
        cases h₂ : writeEntries w₁ s.entries with
        | error e =>
          simp only [h₂] at h
          cases h
        | ok w₂ =>
          obtain ⟨w₃, h₃, hcap, hdata⟩ := (appends_header _).writes w ((appends_header _).room h₁)
          obtain rfl := Except.ok.inj (h₁.symm.trans h₃)
          have hroom := (appends_entries s.entries).room h₂
          rw [hdata, hcap, length_append, length_header, length_records] at hroom
          obtain ⟨w₄, h₄, -, hwritten⟩ := serialize_eq hvalid (w := w) (by
            rw [Store.wireLen]
            omega)
          obtain rfl := Except.ok.inj (hserialize.symm.trans h₄)
          exact ⟨hvalid, hwritten⟩

lemma deserialize_records (hvalid : ∀ e ∈ s.entries, entryValid e = true) :
    deserialize (database (s.entries.map Entry.record)) = .ok s := by
  have hentries := entriesOf_records hvalid
  have hfits : (entriesOf (s.entries.map Entry.record)).length ≤ maxEntries := by
    rw [hentries]
    exact s.fits
  have hlen : ((s.entries.map Entry.record).flatMap Record.encode).length < 2 ^ 32 := by
    have hmax := s.fits
    have hsixteen : maxEntries = 16 := rfl
    rw [length_records]
    omega
  rw [deserialize_database (records_wellFormed hvalid) hfits hlen]
  simp only [hentries]

def recordTypesFrom : ℕ → Reader → Bytes
  | 0, _ => []
  | fuel + 1, r =>
      if r.remaining = 0 then []
      else
        match readRecord r with
        | .error _ => []
        | .ok ((type, _, _), r) => type :: recordTypesFrom fuel r

def recordTypes (data : Bytes) : Bytes :=
  recordTypesFrom data.length (Reader.init (data.drop dbHeaderLen))

lemma recordTypesFrom_encode {fuel : ℕ} {r : Reader} {recs : List Record}
    (hwf : ∀ rec ∈ recs, rec.WellFormed) (hrest : r.rest = recs.flatMap Record.encode)
    (hfuel : r.remaining ≤ fuel) : recordTypesFrom fuel r = recs.map Record.type := by
  induction recs generalizing fuel r with
  | nil =>
    have hdone := remaining_nil hrest
    cases fuel <;> simp [recordTypesFrom, hdone]
  | cons rec recs ih =>
    obtain ⟨hfirst, hothers⟩ := forall_mem_cons.mp hwf
    obtain ⟨r', fuel', rfl, hmore, hread, hrest', hfuel'⟩ :=
      readRecord_cons hfirst.short hrest hfuel
    rw [recordTypesFrom, if_neg hmore, hread, map_cons]
    exact congrArg (rec.type :: ·) (ih hothers hrest' hfuel')

lemma recordTypes_database {recs : List Record} (hwf : ∀ rec ∈ recs, rec.WellFormed) :
    recordTypes (database recs) = recs.map Record.type := by
  rw [recordTypes, database, drop_sealed]
  refine recordTypesFrom_encode hwf (Reader.rest_init _) (Nat.le_trans (remaining_init _) ?_)
  rw [sealed, length_append]
  omega

lemma Record.WellFormed.of_entry {rec : Record} (hwf : rec.WellFormed)
    (htype : rec.type = recordTypeEntry) :
    ∃ e, entryValid e = true ∧ rec = e.record ∧ rec.asEntry = some e := by
  obtain ⟨e, he⟩ := hwf.entry htype
  obtain ⟨hvalid, hbody⟩ := readEntry_exact he
  refine ⟨e, hvalid, ?_, Record.asEntry_ok htype he⟩
  rw [Entry.record, ← hbody, ← htype]

lemma records_of_entries {recs : List Record} (hwf : ∀ rec ∈ recs, rec.WellFormed)
    (hknown : ∀ rec ∈ recs, rec.type = recordTypeEntry) :
    recs = (entriesOf recs).map Entry.record ∧ ∀ e ∈ entriesOf recs, entryValid e = true := by
  induction recs with
  | nil => exact ⟨rfl, nofun⟩
  | cons rec recs ih =>
    obtain ⟨hfirst, hothers⟩ := forall_mem_cons.mp hwf
    obtain ⟨htype, htypes⟩ := forall_mem_cons.mp hknown
    obtain ⟨e, hvalid, hrec, hentry⟩ := hfirst.of_entry htype
    obtain ⟨hrecs, hvalids⟩ := ih hothers htypes
    have hcons : entriesOf (rec :: recs) = e :: entriesOf recs := by
      rw [entriesOf_cons, hentry]
      rfl
    rw [hcons, map_cons, ← hrecs, ← hrec]
    exact ⟨rfl, forall_mem_cons.mpr ⟨hvalid, hvalids⟩⟩

/-- Reading undoes writing, wherever the writer stands; and writing undoes reading, unless the
database has records that the store does not keep. -/
theorem keysDb_roundTrip :
    (∀ (s : Store) (w : Writer), (∀ e ∈ s.entries, entryValid e = true) →
      w.data.length + s.wireLen ≤ w.cap →
      ∃ w', serialize s w = .ok w' ∧ w'.data.take w.data.length = w.data ∧
        deserialize (w'.data.drop w.data.length) = .ok s) ∧
    ∀ (data : Bytes) (s : Store) (w : Writer), deserialize data = .ok s →
      (∀ type ∈ recordTypes data, type = recordTypeEntry) →
      w.data.length + data.length ≤ w.cap →
      ∃ w', serialize s w = .ok w' ∧ w'.data = w.data ++ data := by
  refine ⟨fun s w hvalid hroom => ?_, fun data s w hread hknown hroom => ?_⟩
  · obtain ⟨w', hser, -, hdata⟩ := serialize_eq hvalid hroom
    refine ⟨w', hser, by rw [hdata, take_left], ?_⟩
    rw [hdata, drop_left]
    exact deserialize_records hvalid
  · obtain ⟨recs, hwf, -, rfl, hentries⟩ := deserialize_exact hread
    rw [recordTypes_database hwf] at hknown
    obtain ⟨hrecs, hvalid⟩ := records_of_entries hwf fun rec hrec =>
      hknown rec.type (mem_map_of_mem hrec)
    rw [← hentries] at hrecs hvalid
    have hlen : (database recs).length = s.wireLen := by
      rw [database, sealed, length_append, length_header, hrecs, length_records]
      rfl
    obtain ⟨w', hser, -, hdata⟩ := serialize_eq hvalid (hlen ▸ hroom)
    exact ⟨w', hser, by rw [hdata, ← hrecs]⟩

def zeroBond : Entry :=
  ⟨⟨.zero _, 0⟩, ⟨.zero _, 1⟩, 0, 0, .zero _, 0, .zero _, .zero _, 0, 0, .zero _, .zero _⟩

def emptyDb : Bytes :=
  [0x42, 0x54, 0x4B, 0x44, 1, 0, 20, 0, 0, 0, 0, 0, 0, 0, 0, 0, 0, 0, 0, 0]

theorem keysDb_roundTrip_small :
    (∃ w', serialize ⟨[zeroBond], by decide⟩ (Writer.init 512) = .ok w' ∧
      deserialize w'.data = .ok ⟨[zeroBond], by decide⟩) ∧
    ∃ w', serialize storeInit (Writer.init 20) = .ok w' ∧ w'.data = emptyDb := by
  have hvalid : ∀ e ∈ [zeroBond], entryValid e = true := by decide
  obtain ⟨w', hser, -, hread⟩ :=
    keysDb_roundTrip.1 ⟨[zeroBond], by decide⟩ (Writer.init 512) hvalid (by decide)
  have hempty : deserialize emptyDb = .ok storeInit := by decide +kernel
  have htypes : ∀ type ∈ recordTypes emptyDb, type = recordTypeEntry := by decide +kernel
  exact ⟨⟨w', hser, hread⟩, keysDb_roundTrip.2 emptyDb storeInit (Writer.init 20) hempty htypes
    (by decide)⟩

end Bluzing.Bonds
