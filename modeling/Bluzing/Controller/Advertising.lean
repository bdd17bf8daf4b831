import Bluzing.Controller.Registry

/-! What advertising data says: the loops of `bt_le_adv_parse` go over the complete structures of
the data, and each of its fields is given by one rule over them. -/
namespace Bluzing.Controller
open List

abbrev AdStructure := UInt8 × Bytes

def AdStructure.octets (f : AdStructure) : Bytes :=
  UInt8.ofNat (f.2.length + 1) :: f.1 :: f.2

def adStructures : Bytes → List (UInt8 × Bytes)
  | len :: type :: rest =>
      if len = 0 ∨ rest.length + 1 < len.toNat then []
      else (type, rest.take (len.toNat - 1)) :: adStructures (rest.drop (len.toNat - 1))
  | _ => []
termination_by data => data.length
decreasing_by simp; omega

def Ends : Bytes → Prop
  | [] => True
  | len :: rest => len = 0 ∨ rest.length < len.toNat

lemma adStructures_of_ends {data : Bytes} (h : Ends data) : adStructures data = [] := by
  match data with
  | [] | [_] => simp [adStructures]
  | len :: type :: rest =>
    rw [adStructures, if_pos]
    simpa [Ends] using h

lemma adStructures_cons {len type : UInt8} {rest : Bytes} (hlen : len ≠ 0)
    (hrest : len.toNat ≤ rest.length + 1) :
    adStructures (len :: type :: rest) =
      (type, rest.take (len.toNat - 1)) :: adStructures (rest.drop (len.toNat - 1)) := by
  rw [adStructures, if_neg]
  rintro (h | h)
  · exact hlen h
  · omega

lemma adStructures_nil : adStructures [] = [] := adStructures_of_ends trivial

variable (data : Bytes)

lemma exists_ends :
    ∃ rest, data = (adStructures data).flatMap AdStructure.octets ++ rest ∧ Ends rest := by
  induction data using adStructures.induct with
  | case1 len type rest h =>
    have hends : Ends (len :: type :: rest) := by simpa [Ends] using h
    exact ⟨_, by rw [adStructures_of_ends hends]; rfl, hends⟩
  | case2 len type rest h ih =>
    obtain ⟨hlen, hrest⟩ := not_or.mp h
    obtain ⟨tail, htail, hends⟩ := ih
    have hpos : len.toNat ≠ 0 := fun h0 => hlen (UInt8.toNat_inj.mp h0)
    have hback : UInt8.ofNat ((rest.take (len.toNat - 1)).length + 1) = len := by
      rw [length_take, Nat.min_eq_left (by omega), Nat.sub_add_cancel (by omega),
        UInt8.ofNat_toNat]
    refine ⟨tail, ?_, hends⟩
    rw [adStructures_cons hlen (by omega), flatMap_cons, AdStructure.octets, hback,
      append_assoc, ← htail, cons_append, cons_append, take_append_drop]
  | case3 data h =>
    have hends : Ends data := by
      match data with
      | [] => trivial
      | [len] =>
        rw [Ends, ← UInt8.toNat_inj]
        exact (Nat.eq_zero_or_pos len.toNat)
      | len :: type :: rest => exact (h len type rest rfl).elim
    exact ⟨data, by rw [adStructures_of_ends hends]; rfl, hends⟩

def uuids16 : Bytes → List UInt16
  | b0 :: b1 :: rest => readLe16 b0 b1 :: uuids16 rest
  | _ => []

def listsHid (f : AdStructure) : Bool :=
  (f.1 = 0x02 ∨ f.1 = 0x03) ∧ 0x1812 ∈ uuids16 f.2

def appearance? (f : AdStructure) : Option UInt16 :=
  if f.1 = 0x19 then
    match f.2 with
    | b0 :: b1 :: _ => some (readLe16 b0 b1)
    | _ => none
  else none

def LeAdvInfo.note (out : LeAdvInfo) (f : AdStructure) : LeAdvInfo :=
  if f.1 = 0x08 ∨ f.1 = 0x09 then
    if out.name = none ∨ (f.1 = 0x09 ∧ out.nameComplete = false) then
      { out with name := some f.2, nameLen := f.2.length, nameComplete := f.1 = 0x09 }
    else out
  else
    { out with
      appearance := (appearance? f).getD out.appearance
      hid := out.hid || listsHid f || (appearance? f).any fun a : UInt16 => a >>> 6 = 15 }

lemma scanServiceUuids_eq (payload : Bytes) {fuel u : ℕ} (hfuel : payload.length ≤ fuel + u)
    (hid : Bool) : scanServiceUuids payload payload.length fuel u hid =
      .ok (hid || decide (0x1812 ∈ uuids16 (payload.drop u))) := by
  induction fuel generalizing u hid with
  | zero =>
    rw [drop_of_length_le (by omega)]
    simp [scanServiceUuids, uuids16]
  | succ fuel ih =>
    unfold scanServiceUuids
    split
    next hu =>
      rw [octetAt_ok (show u < payload.length by omega), octetAt_ok hu]
      have hnext := ih (u := u + 2) (by omega) (hid || readLe16 payload[u] payload[u + 1] = 0x1812)
      rw [drop_eq_getElem_cons (show u < payload.length by omega),
        drop_eq_getElem_cons hu, uuids16]
      refine hnext.trans ?_
      simp only [mem_cons, Bool.or_assoc, Bool.decide_or, eq_comm]
    next hu =>
      have hshort : (payload.drop u).length ≤ 1 := by
        rw [length_drop]
        omega
      match payload.drop u, hshort with
      | [], _ | [_], _ => simp [uuids16]

lemma leAdvField_eq (out : LeAdvInfo) (f : AdStructure) :
    leAdvField out f.1 f.2 f.2.length = .ok (out.note f) := by
  obtain ⟨type, payload⟩ := f
  unfold leAdvField LeAdvInfo.note
  split
  next htype =>
    have hname : ¬ (type = 0x08 ∨ type = 0x09) := by rcases htype with rfl | rfl <;> decide
    have hother : type ≠ 0x19 := by rcases htype with rfl | rfl <;> decide
    have happearance : appearance? (type, payload) = none := if_neg hother
    rw [scanServiceUuids_eq payload (Nat.le_add_right _ _), if_neg hname, happearance]
    simp [listsHid, htype, bind, Except.bind, pure, Except.pure]
  next hservice =>
  split
  · split <;> rfl
  next hname =>
  have hlists : listsHid (type, payload) = false := by simp [listsHid, hservice]
  split
  next htype =>
    match payload with
    | [] | [_] => simp [hlists, appearance?]
    | b0 :: b1 :: rest =>
      subst htype
      simp [hlists, appearance?, octetAt, bind, Except.bind, pure, Except.pure]
  next htype => simp [hlists, appearance?, htype]

lemma leAdvParseFrom_eq {fuel i : ℕ} (hfuel : data.length ≤ fuel + i)
    (out : LeAdvInfo) : leAdvParseFrom data data.length fuel i out =
      .ok ((adStructures (data.drop i)).foldl LeAdvInfo.note out) := by
  induction fuel generalizing i out with
  | zero =>
    rw [drop_of_length_le (by omega), adStructures_nil]
    rfl
  | succ fuel ih =>
    unfold leAdvParseFrom
    split
    swap
    next hi =>
      rw [drop_of_length_le (by omega), adStructures_nil]
      rfl
    next hi =>
    rw [octetAt_ok hi]
    simp only [bind, Except.bind]
    split
    next hzero =>
      rw [adStructures_of_ends]
      · rfl
      · rw [drop_eq_getElem_cons hi]
        exact .inl hzero
    next hzero =>
    split
    next hlong =>
      rw [adStructures_of_ends]
      · rfl
      · rw [drop_eq_getElem_cons hi]
        refine .inr ?_
        rw [length_drop]
        omega
    next hfits =>
    have hpos : 1 ≤ data[i].toNat := by
      rw [Nat.one_le_iff_ne_zero]
      exact fun h0 => hzero (UInt8.toNat_inj.mp h0)
    have htype : i + 1 < data.length := by omega
    have hlen : ((data.drop (i + 2)).take (data[i].toNat - 1)).length = data[i].toNat - 1 := by
      rw [length_take, length_drop]
      omega
    have hfield := leAdvField_eq out (data[i + 1], (data.drop (i + 2)).take (data[i].toNat - 1))
    rw [hlen] at hfield
    rw [octetAt_ok htype]
    simp only [lengthSub_ok hpos, hfield]
    rw [ih (by omega), drop_eq_getElem_cons hi, drop_eq_getElem_cons htype,
      adStructures_cons hzero (by rw [length_drop]; omega), drop_drop, foldl_cons]
    congr 4
    omega

lemma leAdvParse_eq : leAdvParse data data.length =
    .ok ((adStructures data).foldl LeAdvInfo.note .init) :=
  leAdvParseFrom_eq data (Nat.le_refl _) .init

structure Describes (info : LeAdvInfo) (fields : List AdStructure) : Prop where
  hid : info.hid = true ↔
    (∃ f ∈ fields, (f.1 = 0x02 ∨ f.1 = 0x03) ∧ 0x1812 ∈ uuids16 f.2) ∨
      ∃ a ∈ fields.filterMap appearance?, a >>> 6 = 15
  appearance : info.appearance = (fields.filterMap appearance?).getLastD 0
  name : info.name =
    ((fields.find? (·.1 = 0x09)).or (fields.find? (·.1 = 0x08))).map Prod.snd
  nameLen : info.nameLen = (info.name.getD []).length
  nameComplete : info.nameComplete = (fields.find? (·.1 = 0x09)).isSome

variable {info : LeAdvInfo} {fields : List AdStructure} {f : AdStructure}

lemma Describes.note_name (h : Describes info fields) (hname : f.1 = 0x08 ∨ f.1 = 0x09) :
    Describes (info.note f) (fields ++ [f]) := by
  have hlists : ¬ (f.1 = 0x02 ∨ f.1 = 0x03) := by rcases hname with h | h <;> rw [h] <;> decide
  have hother : f.1 ≠ 0x19 := by rcases hname with h | h <;> rw [h] <;> decide
  have happearance : appearance? f = none := if_neg hother
  have hsame : (info.note f).hid = info.hid ∧ (info.note f).appearance = info.appearance := by
    unfold LeAdvInfo.note
    rw [if_pos hname]
    split <;> exact ⟨rfl, rfl⟩
  refine ⟨?_, ?_, ?_, ?_, ?_⟩
  · simp [hsame.1, h.hid, hlists, happearance]
  · simp [hsame.2, h.appearance, happearance]
  -- whether there is a name already, and whether it is a complete one, decides
  all_goals
    have hfound := h.name
    have hcomplete := h.nameComplete
    have hlen := h.nameLen
    simp only [LeAdvInfo.note, if_pos hname, find?_append, find?_singleton]
    generalize fields.find? (·.1 = 0x09) = complete at *
    generalize fields.find? (·.1 = 0x08) = short at *
    cases complete <;> cases short <;> rcases hname with hf | hf <;> simp_all

lemma Describes.note_other (h : Describes info fields) (hname : ¬ (f.1 = 0x08 ∨ f.1 = 0x09)) :
    Describes (info.note f) (fields ++ [f]) := by
  obtain ⟨hshort, hcomplete⟩ := not_or.mp hname
  have hnote : info.note f = { info with
      appearance := (appearance? f).getD info.appearance
      hid := info.hid || listsHid f || (appearance? f).any fun a : UInt16 => a >>> 6 = 15 } :=
    if_neg hname
  have hservice (P : AdStructure → Prop) :
      (∃ g ∈ fields ++ [f], P g) ↔ (∃ g ∈ fields, P g) ∨ P f := by
    simp only [mem_append, mem_singleton, or_and_right, exists_or, exists_eq_left]
  have hcategory : (∃ a ∈ (fields ++ [f]).filterMap appearance?, a >>> 6 = 15) ↔
      (∃ a ∈ fields.filterMap appearance?, a >>> 6 = 15) ∨
        ((appearance? f).any fun a : UInt16 => a >>> 6 = 15) = true := by
    cases ha : appearance? f <;>
      simp [filterMap_append, ha, or_and_right, exists_or]
  refine ⟨?_, ?_, ?_, ?_, ?_⟩
  · rw [hservice, hcategory, hnote]
    simp only [Bool.or_eq_true, h.hid, listsHid, decide_eq_true_eq]
    exact or_assoc.trans or_or_or_comm
  · cases ha : appearance? f <;> simp [hnote, h.appearance, ha]
  · simp [hnote, h.name, hshort, hcomplete]
  · simp [hnote, h.nameLen]
  · simp [hnote, h.nameComplete, hcomplete]

lemma describes_foldl (fields : List AdStructure) :
    Describes (fields.foldl LeAdvInfo.note .init) fields := by
  induction fields using reverseRecOn with
  | nil => exact ⟨by simp [LeAdvInfo.init], rfl, rfl, rfl, rfl⟩
  | append_singleton fields f ih =>
    rw [foldl_append, foldl_cons, foldl_nil]
    by_cases hname : f.1 = 0x08 ∨ f.1 = 0x09
    · exact ih.note_name hname
    · exact ih.note_other hname

/-- Everything that the parser reports comes from the complete structures before the end of the
list. -/
theorem leAdvParse_describes (data : Bytes) :
    ∃ info, leAdvParse data data.length = .ok info ∧ Describes info (adStructures data) ∧
      ∃ rest, data = (adStructures data).flatMap AdStructure.octets ++ rest ∧ Ends rest :=
  ⟨_, leAdvParse_eq data, describes_foldl _, exists_ends data⟩

end Bluzing.Controller
