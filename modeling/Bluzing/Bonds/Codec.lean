import Bluzing.Bonds.Store

/-! The `keys.db` format as octets. -/
namespace Bluzing.Bonds
open List
open Controller (Address addrLen)

def BondAddress.encode (a : BondAddress) : Bytes := [a.type] ++ a.addr.bytes

def Entry.encode (e : Entry) : Bytes :=
  e.adapter.encode ++ (e.peerIdentity.encode ++ ([e.keyMask] ++ ([e.flags] ++
    (e.classicLinkKey.bytes ++ ([e.classicLinkKeyType] ++ (e.ltk.bytes ++ (e.ltkRand.bytes ++
      (writeLe16 e.ltkEdiv ++ ([e.ltkSize] ++ (e.irk.bytes ++ e.csrk.bytes))))))))))

lemma length_writeLe16 (v : UInt16) : (writeLe16 v).length = 2 := rfl

lemma BondAddress.length_encode (a : BondAddress) : a.encode.length = 7 := by
  simp [encode, addrLen]

lemma Entry.length_encode (e : Entry) : e.encode.length = entryWireLen := by
  simp [encode, BondAddress.length_encode, length_writeLe16]

lemma orInvalid_ok {α : Type} {x : Access α} {a : α} : orInvalid x = .ok a ↔ x = .ok a := by
  cases x with
  | ok v => exact Iff.rfl
  | error e => cases e <;> simp [orInvalid]

lemma Reads.orInvalid {α : Type} {read : Reader → Access (α × Reader)} {dom : α → Prop}
    {encode : α → Bytes} (h : Reads read dom encode) :
    Reads (fun r => Bonds.orInvalid (read r)) dom encode where
  accepts := by
    intro r v tail hv hrest
    obtain ⟨r', hread, hrest'⟩ := h.accepts hv hrest
    exact ⟨r', orInvalid_ok.mpr hread, hrest'⟩
  exact := fun hread => h.exact (orInvalid_ok.mp hread)

lemma reads_addr : Reads readAddr (fun a => addressValid a = true) BondAddress.encode where
  accepts := by
    intro r a tail ha hrest
    obtain ⟨r₁, htype, hrest₁⟩ := (Reads.orInvalid reads_u8).accepts trivial hrest
    obtain ⟨r₂, haddr, hrest₂⟩ := (reads_bytes addrLen).accepts trivial hrest₁
    have hrandom := UInt8.not_lt.mpr (of_decide_eq_true ha)
    refine ⟨r₂, ?_, hrest₂⟩
    simp only [readAddr, htype, bind, Except.bind, if_neg hrandom, haddr, pure, Except.pure]
  exact := by
    intro r r' a h
    obtain ⟨⟨type, r₁⟩, htype, h⟩ := Access.bind_ok h
    dsimp only at h
    split at h
    · cases h
    next hrandom =>
      obtain ⟨⟨addr, r₂⟩, haddr, h⟩ := Access.bind_ok h
      obtain ⟨rfl, rfl⟩ := Prod.mk.inj (Except.ok.inj h)
      refine ⟨decide_eq_true (UInt8.not_lt.mp hrandom), ?_⟩
      rw [((Reads.orInvalid reads_u8).exact htype).2, ((reads_bytes addrLen).exact haddr).2,
        BondAddress.encode, append_assoc]

variable {fuel : ℕ} {r : Reader} {rec : Record} {e : Entry}

lemma entryValid_addresses (h : entryValid e = true) :
    addressValid e.adapter = true ∧ addressValid e.peerIdentity = true := by
  unfold entryValid at h
  split at h
  · cases h
  next hno =>
    simp only [Bool.or_eq_true, not_or, Bool.not_eq_true, Bool.not_eq_false'] at hno
    exact ⟨hno.1.1.1, hno.1.1.2⟩

lemma readEntry_encode (hvalid : entryValid e = true) : readEntry e.encode = .ok e := by
  obtain ⟨hadapter, hpeer⟩ := entryValid_addresses hvalid
  obtain ⟨r₁, h₁, hr⟩ := reads_addr.accepts hadapter (Reader.rest_init e.encode)
  obtain ⟨r₂, h₂, hr⟩ := reads_addr.accepts hpeer hr
  obtain ⟨r₃, h₃, hr⟩ := reads_u8.accepts trivial hr
  obtain ⟨r₄, h₄, hr⟩ := reads_u8.accepts trivial hr
  obtain ⟨r₅, h₅, hr⟩ := (reads_bytes 16).accepts trivial hr
  obtain ⟨r₆, h₆, hr⟩ := reads_u8.accepts trivial hr
  obtain ⟨r₇, h₇, hr⟩ := (reads_bytes 16).accepts trivial hr
  obtain ⟨r₈, h₈, hr⟩ := (reads_bytes 8).accepts trivial hr
  obtain ⟨r₉, h₉, hr⟩ := reads_le16.accepts trivial hr
  obtain ⟨r₁₀, h₁₀, hr⟩ := reads_u8.accepts trivial hr
  obtain ⟨r₁₁, h₁₁, hr⟩ := (reads_bytes 16).accepts trivial hr
  obtain ⟨r₁₂, h₁₂, -⟩ := (reads_bytes 16).accepts trivial (hr.trans (append_nil _).symm)
  simp only [readEntry, e.length_encode, ne_eq, not_true_eq_false, if_false, h₁, h₂, h₃, h₄, h₅,
    h₆, h₇, h₈, h₉, h₁₀, h₁₁, h₁₂, bind, Except.bind, hvalid, if_true]

lemma readEntry_exact {data : Bytes} {e : Entry} (h : readEntry data = .ok e) :
    entryValid e = true ∧ data = e.encode := by
  unfold readEntry at h
  split at h
  · cases h
  next hlen =>
    obtain ⟨⟨adapter, r₁⟩, h₁, h⟩ := Access.bind_ok h
    obtain ⟨⟨peer, r₂⟩, h₂, h⟩ := Access.bind_ok h
    obtain ⟨⟨keyMask, r₃⟩, h₃, h⟩ := Access.bind_ok h
    obtain ⟨⟨flags, r₄⟩, h₄, h⟩ := Access.bind_ok h
    obtain ⟨⟨classic, r₅⟩, h₅, h⟩ := Access.bind_ok h
    obtain ⟨⟨classicType, r₆⟩, h₆, h⟩ := Access.bind_ok h
    obtain ⟨⟨ltk, r₇⟩, h₇, h⟩ := Access.bind_ok h
    obtain ⟨⟨rand, r₈⟩, h₈, h⟩ := Access.bind_ok h
    obtain ⟨⟨ediv, r₉⟩, h₉, h⟩ := Access.bind_ok h
    obtain ⟨⟨size, r₁₀⟩, h₁₀, h⟩ := Access.bind_ok h
    obtain ⟨⟨irk, r₁₁⟩, h₁₁, h⟩ := Access.bind_ok h
    obtain ⟨⟨csrk, r₁₂⟩, h₁₂, h⟩ := Access.bind_ok h
    dsimp only at h
    split at h
    next hvalid =>
      obtain rfl := Except.ok.inj h
      have hdata : data = (Entry.encode ⟨adapter, peer, keyMask, flags, classic, classicType, ltk,
          rand, ediv, size, irk, csrk⟩) ++ r₁₂.rest := by
        have hinit : (Reader.init data).rest = data := rfl
        rw [← hinit, (reads_addr.exact h₁).2, (reads_addr.exact h₂).2, (reads_u8.exact h₃).2,
          (reads_u8.exact h₄).2, ((reads_bytes 16).exact h₅).2, (reads_u8.exact h₆).2,
          ((reads_bytes 16).exact h₇).2, ((reads_bytes 8).exact h₈).2, (reads_le16.exact h₉).2,
          (reads_u8.exact h₁₀).2, ((reads_bytes 16).exact h₁₁).2, ((reads_bytes 16).exact h₁₂).2]
        simp only [Entry.encode, append_assoc]
      -- the length leaves nothing behind the last field
      have hempty : r₁₂.rest = [] := by
        have hsum := congrArg length hdata
        rw [length_append, Entry.length_encode] at hsum
        exact eq_nil_of_length_eq_zero (by omega)
      rw [hempty, append_nil] at hdata
      exact ⟨hvalid, hdata⟩
    · cases h

structure Record where
  type : UInt8
  body : Bytes
  deriving DecidableEq

def Record.encode (rec : Record) : Bytes :=
  [rec.type] ++ ([0] ++ (writeLe16 (UInt16.ofNat rec.body.length) ++ rec.body))

def Entry.record (e : Entry) : Record := ⟨recordTypeEntry, e.encode⟩

def Record.asEntry (rec : Record) : Option Entry :=
  if rec.type = recordTypeEntry then (readEntry rec.body).toOption else none

structure Record.WellFormed (rec : Record) : Prop where
  short : rec.body.length < 65536
  entry : rec.type = recordTypeEntry → ∃ e, readEntry rec.body = .ok e

def entriesOf (recs : List Record) : List Entry := recs.filterMap Record.asEntry

lemma entriesOf_cons (rec : Record) (recs : List Record) :
    entriesOf (rec :: recs) = rec.asEntry.toList ++ entriesOf recs := by
  unfold entriesOf
  cases h : rec.asEntry <;> simp [h]

lemma Record.asEntry_other (h : rec.type ≠ recordTypeEntry) : rec.asEntry = none :=
  if_neg h

lemma Record.asEntry_ok (htype : rec.type = recordTypeEntry)
    (he : readEntry rec.body = .ok e) : rec.asEntry = some e := by
  rw [asEntry, if_pos htype, he]
  rfl

lemma toNat_ofNat_length {l : Bytes} (h : l.length < 65536) :
    (UInt16.ofNat l.length).toNat = l.length := by
  rw [UInt16.toNat_ofNat', Nat.mod_eq_of_lt h]

lemma readRecord_encode {tail : Bytes}
    (hshort : rec.body.length < 65536) (hrest : r.rest = rec.encode ++ tail) :
    ∃ r', readRecord r = .ok ((rec.type, 0, rec.body), r') ∧ r'.rest = tail := by
  simp only [Record.encode, append_assoc] at hrest
  obtain ⟨r₁, h₁, hr⟩ := reads_u8.accepts trivial hrest
  obtain ⟨r₂, h₂, hr⟩ := reads_u8.accepts trivial hr
  obtain ⟨r₃, h₃, hr⟩ := reads_le16.accepts trivial hr
  obtain ⟨r₄, h₄, hrest₄⟩ := Reader.skip_rest hr
  have hpeek := Reader.peek_rest hr
  refine ⟨r₄, ?_, hrest₄⟩
  simp only [readRecord, h₁, h₂, h₃, bind, Except.bind, toNat_ofNat_length hshort, hpeek, h₄, pure,
    Except.pure]

lemma readRecord_exact {r' : Reader} {type : UInt8} {body : Bytes}
    (h : readRecord r = .ok ((type, 0, body), r')) :
    body.length < 65536 ∧ r.rest = (Record.mk type body).encode ++ r'.rest := by
  obtain ⟨⟨type', r₁⟩, h₁, h⟩ := Access.bind_ok h
  obtain ⟨⟨reserved, r₂⟩, h₂, h⟩ := Access.bind_ok h
  obtain ⟨⟨len, r₃⟩, h₃, h⟩ := Access.bind_ok h
  dsimp only at h
  split at h
  · cases h
  next record hpeek =>
    obtain ⟨r₄, hskip, h⟩ := Access.bind_ok h
    cases Except.ok.inj h
    obtain ⟨hlen, hrest⟩ := r₃.peek_skip hpeek hskip
    have hlt := len.toNat_lt
    refine ⟨by omega, ?_⟩
    rw [(reads_u8.exact h₁).2, (reads_u8.exact h₂).2, (reads_le16.exact h₃).2, hrest]
    simp only [Record.encode, hlen, UInt16.ofNat_toNat, append_assoc]

lemma Record.length_encode_pos (rec : Record) : 0 < rec.encode.length := by
  simp [encode]

lemma readRecord_cons {recs : List Record}
    (hshort : rec.body.length < 65536) (hrest : r.rest = (rec :: recs).flatMap Record.encode)
    (hfuel : r.remaining ≤ fuel) :
    ∃ r' fuel', fuel = fuel' + 1 ∧ r.remaining ≠ 0 ∧
      readRecord r = .ok ((rec.type, 0, rec.body), r') ∧
      r'.rest = recs.flatMap Record.encode ∧ r'.remaining ≤ fuel' := by
  have hpos := rec.length_encode_pos
  rw [flatMap_cons] at hrest
  have hlen := congrArg length hrest
  rw [r.length_rest, length_append] at hlen
  obtain ⟨r', hread, hrest'⟩ := readRecord_encode hshort hrest
  have hlen' := r'.length_rest
  rw [hrest'] at hlen'
  exact ⟨r', fuel - 1, by omega, by omega, hread, hrest', by omega⟩

lemma remaining_nil (hrest : r.rest = ([] : List Record).flatMap Record.encode) :
    r.remaining = 0 := by
  rw [← r.length_rest, hrest]
  rfl

lemma validateRecords_encode {known : ℕ} {r : Reader} {recs : List Record}
    (hwf : ∀ rec ∈ recs, rec.WellFormed) (hrest : r.rest = recs.flatMap Record.encode)
    (hfuel : r.remaining ≤ fuel) (hfits : known + (entriesOf recs).length ≤ maxEntries) :
    validateRecords fuel known r = .ok (known + (entriesOf recs).length) := by
  induction recs generalizing fuel known r with
  | nil =>
    have hdone := remaining_nil hrest
    cases fuel <;> simp [validateRecords, hdone, entriesOf]
  | cons rec recs ih =>
    obtain ⟨hfirst, hothers⟩ := forall_mem_cons.mp hwf
    obtain ⟨r', fuel', rfl, hmore, hread, hrest', hfuel'⟩ :=
      readRecord_cons hfirst.short hrest hfuel
    rw [validateRecords, if_neg hmore, orInvalid_ok.mpr hread]
    rw [entriesOf_cons, length_append] at hfits ⊢
    by_cases htype : rec.type = recordTypeEntry
    · obtain ⟨e, he⟩ := hfirst.entry htype
      rw [Record.asEntry_ok htype he] at hfits ⊢
      simp only [Option.toList_some, length_singleton] at hfits ⊢
      have hroom : ¬ maxEntries < known + 1 := by omega
      have hrec := ih hothers hrest' hfuel' (show known + 1 + _ ≤ maxEntries by omega)
      simp only [bind, Except.bind, htype, if_true, orInvalid_ok.mpr he, if_neg hroom, hrec,
        ne_eq, not_true_eq_false, if_false]
      rw [Nat.add_assoc]
    · rw [Record.asEntry_other htype] at hfits ⊢
      simp only [Option.toList_none, length_nil, Nat.zero_add] at hfits ⊢
      simp only [bind, Except.bind, htype, if_false, ne_eq, not_true_eq_false]
      exact ih hothers hrest' hfuel' hfits

lemma loadRecords_encode {s : Store} {r : Reader} {recs : List Record}
    (hwf : ∀ rec ∈ recs, rec.WellFormed) (hrest : r.rest = recs.flatMap Record.encode)
    (hfuel : r.remaining ≤ fuel) (hfits : (s.entries ++ entriesOf recs).length ≤ maxEntries) :
    loadRecords fuel s r = .ok ⟨s.entries ++ entriesOf recs, hfits⟩ := by
  induction recs generalizing fuel s r with
  | nil =>
    have hdone := remaining_nil hrest
    cases fuel <;> simp [loadRecords, hdone, entriesOf]
  | cons rec recs ih =>
    obtain ⟨hfirst, hothers⟩ := forall_mem_cons.mp hwf
    obtain ⟨r', fuel', rfl, hmore, hread, hrest', hfuel'⟩ :=
      readRecord_cons hfirst.short hrest hfuel
    rw [loadRecords, if_neg hmore, hread]
    by_cases htype : rec.type = recordTypeEntry
    · obtain ⟨e, he⟩ := hfirst.entry htype
      have hsplit : s.entries ++ entriesOf (rec :: recs) =
          (s.entries ++ [e]) ++ entriesOf recs := by
        rw [entriesOf_cons, Record.asEntry_ok htype he, append_assoc]
        rfl
      have hroom : s.entries.length < maxEntries := by
        rw [hsplit, length_append, length_append, length_singleton] at hfits
        omega
      simp only [htype, if_true, he, dif_pos hroom]
      rw [ih hothers hrest' hfuel' (by rw [← hsplit]; exact hfits)]
      simp only [hsplit]
    · have hsame : entriesOf (rec :: recs) = entriesOf recs := by
        rw [entriesOf_cons, Record.asEntry_other htype]
        rfl
      simp only [htype, if_false]
      rw [ih hothers hrest' hfuel' (by rw [← hsame]; exact hfits)]
      simp only [hsame]

lemma validateRecords_exact {known n : ℕ} {r : Reader} (hfuel : r.remaining ≤ fuel)
    (h : validateRecords fuel known r = .ok n) :
    ∃ recs, (∀ rec ∈ recs, rec.WellFormed) ∧ r.rest = recs.flatMap Record.encode ∧
      n = known + (entriesOf recs).length := by
  induction fuel generalizing known r with
  | zero =>
    obtain rfl := Except.ok.inj h
    have hempty := eq_nil_of_length_eq_zero (r.length_rest.trans (Nat.le_zero.mp hfuel))
    exact ⟨[], nofun, hempty, rfl⟩
  | succ fuel ih =>
    rw [validateRecords] at h
    split at h
    next hdone =>
      obtain rfl := Except.ok.inj h
      exact ⟨[], nofun, eq_nil_of_length_eq_zero (r.length_rest.trans hdone), rfl⟩
    · obtain ⟨⟨⟨type, reserved, body⟩, r'⟩, hread, h⟩ := Access.bind_ok h
      dsimp only at h
      rw [orInvalid_ok] at hread
      split at h
      · cases h
      next hreserved =>
        obtain rfl := Decidable.not_not.mp hreserved
        obtain ⟨hshort, hrest⟩ := readRecord_exact hread
        have hpos := (Record.mk type body).length_encode_pos
        have hlen := congrArg length hrest
        rw [r.length_rest, length_append, r'.length_rest] at hlen
        have hcons {recs : List Record} (hrest' : r'.rest = recs.flatMap Record.encode) :
            r.rest = (Record.mk type body :: recs).flatMap Record.encode := by
          rw [hrest, hrest', flatMap_cons]
        split at h
        next htype =>
          obtain ⟨e, he, h⟩ := Access.bind_ok h
          rw [orInvalid_ok] at he
          split at h
          · cases h
          · obtain ⟨recs, hwf, hrest', hn⟩ := ih (by omega) h
            refine ⟨⟨type, body⟩ :: recs,
              forall_mem_cons.mpr ⟨⟨hshort, fun _ => ⟨e, he⟩⟩, hwf⟩, hcons hrest', ?_⟩
            rw [entriesOf_cons, Record.asEntry_ok htype he, length_append, hn, Nat.add_assoc]
            rfl
        next htype =>
          obtain ⟨recs, hwf, hrest', hn⟩ := ih (by omega) h
          refine ⟨⟨type, body⟩ :: recs, forall_mem_cons.mpr
            ⟨⟨hshort, fun htype' => absurd htype' htype⟩, hwf⟩, hcons hrest', ?_⟩
          rw [entriesOf_cons, Record.asEntry_other htype, hn]
          rfl

def header (count : UInt16) (payloadLen checksum : UInt32) : Bytes :=
  dbMagic ++ (writeLe16 dbVersion ++ (writeLe16 (UInt16.ofNat dbHeaderLen) ++ (writeLe16 count ++
    (writeLe16 0 ++ (writeLe32 payloadLen ++ writeLe32 checksum)))))

def sealed (count : ℕ) (payload : Bytes) : Bytes :=
  header (UInt16.ofNat count) (UInt32.ofNat payload.length) (crc32 payload) ++ payload

def database (recs : List Record) : Bytes :=
  sealed (entriesOf recs).length (recs.flatMap Record.encode)

lemma length_header (count : UInt16) (payloadLen checksum : UInt32) :
    (header count payloadLen checksum).length = dbHeaderLen := rfl

lemma drop_sealed (count : ℕ) (payload : Bytes) :
    (sealed count payload).drop dbHeaderLen = payload :=
  drop_left' (length_header ..)

lemma validatePayload_ok {payload : Bytes} {count : UInt16} :
    validatePayload payload count = .ok () ↔
      validateRecords payload.length 0 (Reader.init payload) = .ok count.toNat := by
  constructor
  · intro h
    obtain ⟨known, hknown, h⟩ := Access.bind_ok h
    split at h
    next heq => rw [hknown, heq]
    · cases h
  · intro h
    simp only [validatePayload, h, bind, Except.bind, if_true]

lemma remaining_init (payload : Bytes) : (Reader.init payload).remaining ≤ payload.length :=
  Nat.sub_le ..

lemma deserialize_database {recs : List Record} (hwf : ∀ rec ∈ recs, rec.WellFormed)
    (hfits : (entriesOf recs).length ≤ maxEntries)
    (hlen : (recs.flatMap Record.encode).length < 2 ^ 32) :
    deserialize (database recs) = .ok ⟨entriesOf recs, hfits⟩ := by
  obtain ⟨payload, hpayload⟩ : ∃ payload, payload = recs.flatMap Record.encode := ⟨_, rfl⟩
  obtain ⟨count, hcountEq⟩ : ∃ count, count = UInt16.ofNat (entriesOf recs).length := ⟨_, rfl⟩
  have hcount : count.toNat = (entriesOf recs).length := by
    rw [hcountEq, UInt16.toNat_ofNat', Nat.mod_eq_of_lt (Nat.lt_of_le_of_lt hfits (by decide))]
  have hpayloadLen : (UInt32.ofNat payload.length).toNat = payload.length := by
    rw [UInt32.toNat_ofNat', hpayload, Nat.mod_eq_of_lt hlen]
  generalize hdata : database recs = data
  have hbig : ¬ data.length < dbHeaderLen := by
    rw [← hdata, database, sealed, length_append, length_header]
    omega
  have hrest : (Reader.init data).rest = database recs := by rw [Reader.rest_init, hdata]
  simp only [database, sealed, header, append_assoc, ← hpayload, ← hcountEq] at hrest
  -- the fields of the header, in order
  have hmagic : dbMagic.length = 4 := rfl
  obtain ⟨r₁, h₁, hr⟩ :=
    (Reads.orInvalid (reads_bytes 4)).accepts (v := ⟨dbMagic, hmagic⟩) trivial hrest
  obtain ⟨r₂, h₂, hr⟩ := (Reads.orInvalid reads_le16).accepts trivial hr
  obtain ⟨r₃, h₃, hr⟩ := (Reads.orInvalid reads_le16).accepts trivial hr
  obtain ⟨r₄, h₄, hr⟩ := (Reads.orInvalid reads_le16).accepts trivial hr
  obtain ⟨r₅, h₅, hr⟩ := (Reads.orInvalid reads_le16).accepts trivial hr
  obtain ⟨r₆, h₆, hr⟩ := (Reads.orInvalid reads_le32).accepts trivial hr
  obtain ⟨r₇, h₇, hr⟩ := (Reads.orInvalid reads_le32).accepts trivial hr
  have hremaining : r₇.remaining = payload.length := by rw [← r₇.length_rest, hr]
  have hpeek := Reader.peek_rest (hr.trans (append_nil _).symm)
  -- both passes over the payload
  have hinit : (Reader.init payload).rest = recs.flatMap Record.encode := hpayload
  have hvalid : validateRecords payload.length 0 (Reader.init payload) = .ok count.toNat := by
    rw [validateRecords_encode hwf hinit (remaining_init payload) (by omega), hcount, Nat.zero_add]
  have hload : loadRecords payload.length storeInit (Reader.init payload) =
      .ok ⟨entriesOf recs, hfits⟩ :=
    loadRecords_encode (s := storeInit) hwf hinit (remaining_init payload) hfits
  have hmax : ¬ maxEntries < count.toNat := by omega
  simp only [deserialize, checkDatabase, if_neg hbig, h₁, h₂, h₃, h₄, h₅, h₆, h₇, bind,
    Except.bind, hpayloadLen, hremaining, hmax, hpeek,
    orInvalid_ok.mpr (validatePayload_ok.mpr hvalid), ne_eq, pure, Except.pure, not_true_eq_false,
    or_false, if_false, hload]

lemma checkDatabase_exact {data payload : Bytes} (h : checkDatabase data = .ok payload) :
    ∃ recs, (∀ rec ∈ recs, rec.WellFormed) ∧ (recs.flatMap Record.encode).length < 2 ^ 32 ∧
      data = database recs ∧ ∃ s, s.entries = entriesOf recs ∧
        loadRecords payload.length storeInit (Reader.init payload) = .ok s := by
  unfold checkDatabase at h
  split at h
  · cases h
  · obtain ⟨⟨magic, r₁⟩, h₁, h⟩ := Access.bind_ok h
    obtain ⟨⟨version, r₂⟩, h₂, h⟩ := Access.bind_ok h
    obtain ⟨⟨headerLen, r₃⟩, h₃, h⟩ := Access.bind_ok h
    obtain ⟨⟨count, r₄⟩, h₄, h⟩ := Access.bind_ok h
    obtain ⟨⟨reserved, r₅⟩, h₅, h⟩ := Access.bind_ok h
    obtain ⟨⟨payloadLen, r₆⟩, h₆, h⟩ := Access.bind_ok h
    obtain ⟨⟨checksum, r₇⟩, h₇, h⟩ := Access.bind_ok h
    dsimp only at h
    split at h
    · cases h
    next hfields =>
      simp only [not_or, Decidable.not_not] at hfields
      obtain ⟨hmagic, hversion, hheaderLen, hreserved, hpayloadLen, hmax⟩ := hfields
      have hall : r₇.rest.take payloadLen.toNat = r₇.rest :=
        take_of_length_le (by rw [r₇.length_rest]; omega)
      rw [Reader.peek, if_pos (Nat.le_of_eq hpayloadLen), ← Reader.rest, hall] at h
      dsimp only at h
      split at h
      · cases h
      next hcrc =>
        obtain ⟨_, hpass, h⟩ := Access.bind_ok h
        obtain rfl := Except.ok.inj h
        have hvalid := validatePayload_ok.mp (orInvalid_ok.mp hpass)
        obtain ⟨recs, hwf, hinit, hcount⟩ := validateRecords_exact (remaining_init r₇.rest) hvalid
        have hrest : r₇.rest = recs.flatMap Record.encode := hinit
        rw [Nat.zero_add] at hcount
        have hfits : (entriesOf recs).length ≤ maxEntries := by omega
        have hload : loadRecords r₇.rest.length storeInit (Reader.init r₇.rest) =
            .ok ⟨entriesOf recs, hfits⟩ :=
          loadRecords_encode (s := storeInit) hwf hinit (remaining_init r₇.rest) hfits
        have hdata : data = magic.bytes ++ (writeLe16 version ++ (writeLe16 headerLen ++
            (writeLe16 count ++ (writeLe16 reserved ++ (writeLe32 payloadLen ++
              (writeLe32 checksum ++ r₇.rest)))))) := by
          rw [← ((Reads.orInvalid reads_le32).exact h₇).2,
            ← ((Reads.orInvalid reads_le32).exact h₆).2,
            ← ((Reads.orInvalid reads_le16).exact h₅).2,
            ← ((Reads.orInvalid reads_le16).exact h₄).2,
            ← ((Reads.orInvalid reads_le16).exact h₃).2,
            ← ((Reads.orInvalid reads_le16).exact h₂).2,
            ← ((Reads.orInvalid (reads_bytes 4)).exact h₁).2, Reader.rest_init]
        have hlength : payloadLen = UInt32.ofNat r₇.rest.length := by
          rw [r₇.length_rest, ← hpayloadLen, UInt32.ofNat_toNat]
        refine ⟨recs, hwf, ?_, ?_, _, rfl, hload⟩
        · rw [← hrest, r₇.length_rest, ← hpayloadLen]
          exact payloadLen.toNat_lt
        · rw [hdata, hmagic, hversion, hheaderLen, hreserved, hlength, ← Decidable.not_not.mp hcrc,
            database, sealed, header, ← hcount, UInt16.ofNat_toNat, ← hrest]
          simp only [append_assoc]

lemma deserialize_exact {data : Bytes} {s : Store} (h : deserialize data = .ok s) :
    ∃ recs, (∀ rec ∈ recs, rec.WellFormed) ∧ (recs.flatMap Record.encode).length < 2 ^ 32 ∧
      data = database recs ∧ s.entries = entriesOf recs := by
  obtain ⟨payload, hcheck, hload⟩ := Access.bind_ok h
  obtain ⟨recs, hwf, hsize, hdata, s', hentries, hload'⟩ := checkDatabase_exact hcheck
  rw [hload'] at hload
  exact ⟨recs, hwf, hsize, hdata, Except.ok.inj hload ▸ hentries⟩

end Bluzing.Bonds
