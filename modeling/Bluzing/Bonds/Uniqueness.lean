import Bluzing.Bonds.RoundTrip
import Bluzing.Lib.Reentrant

/-! One bond for each pair of an adapter and a peer. -/
namespace Bluzing.Bonds
open List

def Entry.key (e : Entry) : BondAddress × BondAddress := (e.adapter, e.peerIdentity)

def Unique (s : Store) : Prop := (s.entries.map Entry.key).Nodup

def Forgets (s : Store) : Prop :=
  ∀ adapter peer, (remove s adapter peer).1 = true →
    find (remove s adapter peer).2 adapter peer = none

lemma Entry.isFor_iff {e : Entry} {adapter peer : BondAddress} :
    e.isFor adapter peer = true ↔ e.key = (adapter, peer) := by
  simp [isFor, key]

variable {s : Store} {adapter peer : BondAddress}

lemma find_eq_none : find s adapter peer = none ↔ (adapter, peer) ∉ s.entries.map Entry.key := by
  rw [find, findIdx?_eq_none_iff, mem_map]
  constructor
  · rintro hnone ⟨e, he, hkey⟩
    exact Bool.false_ne_true ((hnone e he).symm.trans (Entry.isFor_iff.mpr hkey))
  · intro hnone e he
    exact Bool.eq_false_iff.mpr fun hfor => hnone ⟨e, he, Entry.isFor_iff.mp hfor⟩

lemma find_eq_some {i : ℕ} (h : find s adapter peer = some i) :
    ∃ hi : i < s.entries.length, s.entries[i].key = (adapter, peer) := by
  obtain ⟨hi, hfor, -⟩ := findIdx?_eq_some_iff_getElem.mp h
  exact ⟨hi, Entry.isFor_iff.mp hfor⟩

lemma upsert_unique {s' : Store} {e : Entry} (hs : Unique s) (h : upsert s e = .ok s') :
    Unique s' := by
  unfold upsert at h
  split at h
  · cases h
  · split at h
    next i hfind =>
      obtain rfl := Except.ok.inj h
      -- the replaced entry has the same key
      have hkeys : (s.entries.set i e).map Entry.key = s.entries.map Entry.key := by
        obtain ⟨hi, hkey⟩ := find_eq_some hfind
        have hlen : i < (s.entries.map Entry.key).length := by rwa [length_map]
        have hget : (s.entries.map Entry.key)[i] = e.key := by
          rw [getElem_map, hkey]
          rfl
        rw [map_set, ← hget, set_getElem_self]
      rw [Unique, hkeys]
      exact hs
    next hnone =>
      split at h
      · cases h
      · obtain rfl := Except.ok.inj h
        rw [Unique, map_append, map_singleton, nodup_append]
        refine ⟨hs, nodup_singleton _, ?_⟩
        rintro key hkey _ hnew rfl
        rw [mem_singleton.mp hnew] at hkey
        exact find_eq_none.mp hnone hkey

lemma remove_unique (hs : Unique s) (adapter peer : BondAddress) :
    Unique (remove s adapter peer).2 := by
  unfold remove
  split
  · exact hs
  next i _ => exact hs.sublist ((eraseIdx_sublist s.entries i).map Entry.key)

lemma remove_iff :
    (remove s adapter peer).1 = true ↔ (adapter, peer) ∈ s.entries.map Entry.key := by
  rw [← Decidable.not_not (p := _ ∈ _), ← find_eq_none, remove]
  cases find s adapter peer <;> simp

lemma count_remove (h : (remove s adapter peer).1 = true) :
    ((remove s adapter peer).2.entries.map Entry.key).count (adapter, peer) + 1 =
      (s.entries.map Entry.key).count (adapter, peer) := by
  unfold remove at h ⊢
  cases hfind : find s adapter peer with
  | none => simp [hfind] at h
  | some i =>
    obtain ⟨hi, hkey⟩ := find_eq_some hfind
    have hperm := (getElem_cons_eraseIdx_perm hi).map Entry.key
    rw [map_cons, hkey] at hperm
    rw [← hperm.count_eq, count_cons_self]

lemma unique_iff_forgets (s : Store) : Unique s ↔ Forgets s := by
  rw [Unique, nodup_iff_count_le_one]
  constructor
  · intro hcount adapter peer hremoved
    have hone := hcount (adapter, peer)
    have hless := count_remove hremoved
    rw [find_eq_none, ← count_eq_zero]
    omega
  · rintro hforgets ⟨adapter, peer⟩
    by_cases hmem : (adapter, peer) ∈ s.entries.map Entry.key
    · have hremoved := remove_iff.mpr hmem
      have hless := count_remove hremoved
      have hgone := find_eq_none.mp (hforgets adapter peer hremoved)
      rw [← count_eq_zero] at hgone
      omega
    · rw [count_eq_zero.mpr hmem]
      omega

def Record.keyOctets (rec : Record) : Bytes := rec.body.take 14

def entryRecords (recs : List Record) : List Record :=
  recs.filter fun rec => decide (rec.type = recordTypeEntry)

def Clashing (data : Bytes) : Prop :=
  ∃ recs, (∀ rec ∈ recs, rec.WellFormed) ∧ (entriesOf recs).length ≤ maxEntries ∧
    (recs.flatMap Record.encode).length < 2 ^ 32 ∧ data = database recs ∧
    ¬ ((entryRecords recs).map Record.keyOctets).Nodup

def keyEncode (key : BondAddress × BondAddress) : Bytes := key.1.encode ++ key.2.encode

lemma BondAddress.encode_injective {a b : BondAddress} (h : a.encode = b.encode) : a = b := by
  obtain ⟨htype, haddr⟩ := cons.inj h
  cases a
  obtain rfl := Octets.ext haddr
  obtain rfl := htype
  rfl

lemma keyEncode_injective : Function.Injective keyEncode := by
  rintro ⟨a, b⟩ ⟨c, d⟩ h
  obtain ⟨hfirst, hsecond⟩ := append_inj h (by
    rw [BondAddress.length_encode, BondAddress.length_encode])
  exact Prod.ext (BondAddress.encode_injective hfirst) (BondAddress.encode_injective hsecond)

lemma Entry.keyOctets_record (e : Entry) : e.record.keyOctets = keyEncode e.key := by
  have hlen : (keyEncode e.key).length = 14 := by
    rw [keyEncode, length_append, BondAddress.length_encode, BondAddress.length_encode]
  rw [Record.keyOctets, record, encode, ← append_assoc]
  exact take_left' hlen

lemma keyOctets_entryRecords {recs : List Record} (hwf : ∀ rec ∈ recs, rec.WellFormed) :
    (entryRecords recs).map Record.keyOctets = ((entriesOf recs).map Entry.key).map keyEncode := by
  induction recs with
  | nil => rfl
  | cons rec recs ih =>
    obtain ⟨hfirst, hothers⟩ := forall_mem_cons.mp hwf
    rw [entriesOf_cons]
    by_cases htype : rec.type = recordTypeEntry
    · obtain ⟨e, -, hrec, hentry⟩ := hfirst.of_entry htype
      have hkept : entryRecords (rec :: recs) = rec :: entryRecords recs :=
        filter_cons_of_pos (by simpa using htype)
      rw [hkept, map_cons, ih hothers, hentry, hrec, e.keyOctets_record]
      rfl
    · have hdropped : entryRecords (rec :: recs) = entryRecords recs :=
        filter_cons_of_neg (by simpa using htype)
      rw [hdropped, ih hothers, Record.asEntry_other htype]
      rfl

lemma unique_keys_iff {recs : List Record} (hwf : ∀ rec ∈ recs, rec.WellFormed) :
    ((entriesOf recs).map Entry.key).Nodup ↔ ((entryRecords recs).map Record.keyOctets).Nodup := by
  rw [keyOctets_entryRecords hwf, nodup_map_iff keyEncode_injective]

lemma deserialize_unique {data : Bytes} {s : Store} (h : deserialize data = .ok s)
    (hclash : ¬ Clashing data) : Unique s := by
  obtain ⟨recs, hwf, hlen, rfl, hentries⟩ := deserialize_exact h
  rw [Unique, hentries, unique_keys_iff hwf]
  by_contra hdup
  exact hclash ⟨recs, hwf, hentries ▸ s.fits, hlen, rfl, hdup⟩

lemma deserialize_clashing {data : Bytes} (h : Clashing data) :
    ∃ s, deserialize data = .ok s ∧ ¬ Unique s := by
  obtain ⟨recs, hwf, hfits, hlen, rfl, hdup⟩ := h
  refine ⟨_, deserialize_database hwf hfits hlen, ?_⟩
  rw [Unique, unique_keys_iff hwf]
  exact hdup

inductive Operation where
  | init
  | upsert (e : Entry)
  | remove (adapter peer : BondAddress)
  | deserialize (data : Bytes)

def apply (s : Store) : Operation → Store
  | .init => storeInit
  | .upsert e => (upsert s e).toOption.getD s
  | .remove adapter peer => (remove s adapter peer).2
  | .deserialize data => (deserialize data).toOption.getD s

def run (ops : List Operation) : Store := ops.foldl apply storeInit

def Operation.Clashes : Operation → Prop
  | .deserialize data => Clashing data
  | _ => False

lemma apply_unique {op : Operation} (hs : Unique s) (hop : ¬ op.Clashes) :
    Unique (apply s op) := by
  cases op with
  | init => exact nodup_nil
  | upsert e =>
    rw [apply]
    cases h : upsert s e with
    | error => exact hs
    | ok s' => exact upsert_unique hs h
  | remove adapter peer => exact remove_unique hs adapter peer
  | deserialize data =>
    rw [apply]
    cases h : deserialize data with
    | error => exact hs
    | ok s' => exact deserialize_unique h hop

lemma apply_clashes {op : Operation} (hop : op.Clashes) : ¬ Unique (apply s op) := by
  cases op with
  | deserialize data =>
    obtain ⟨s', h, hdup⟩ := deserialize_clashing hop
    rw [apply, h]
    exact hdup
  | _ => exact hop.elim

/-- In every run: all stores have one bond for each pair, and forget what is removed, exactly when
no database that is read has two bonds for one pair. -/
theorem run_unique_iff (ops : List Operation) :
    (∀ done rest, done ++ rest = ops → Unique (run done) ∧ Forgets (run done)) ↔
      ∀ done op rest, done ++ op :: rest = ops → ¬ op.Clashes := by
  have hboth (s : Store) := and_iff_left_of_imp (unique_iff_forgets s).mp
  simp only [hboth]
  have hinit : Unique storeInit := nodup_nil
  exact foldl_invariant_iff hinit (fun _ _ => apply_unique) (fun _ _ => apply_clashes) ops

/-! Two bonds of one pair with different keys: the second is found once the first is removed. -/

def staleBond : Entry := { zeroBond with keyMask := keyLeLtk, ltkSize := 16 }

def clashingDb : Bytes := database [zeroBond.record, staleBond.record]

theorem clashingDb_remembers :
    let s := run [.deserialize clashingDb]
    (remove s zeroBond.adapter zeroBond.peerIdentity).1 = true ∧
      find (remove s zeroBond.adapter zeroBond.peerIdentity).2 zeroBond.adapter
        zeroBond.peerIdentity = some 0 := by
  have hread : deserialize clashingDb = .ok ⟨[zeroBond, staleBond], by decide⟩ :=
    deserialize_records (s := ⟨[zeroBond, staleBond], by decide⟩) (by decide)
  simp only [run, foldl_cons, foldl_nil, apply, hread, Except.toOption, Option.getD_some]
  decide

end Bluzing.Bonds
