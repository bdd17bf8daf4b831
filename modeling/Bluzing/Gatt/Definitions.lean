import Bluzing.Gatt.Discovery

/-! The definition of a service among the attributes of a server: its characteristics in the order
of their handles, each with its own descriptors, and what discoveries of its range are expected to
find. -/
namespace Bluzing.Gatt
open List

def uuidInclude : UInt16 := 0x2802

structure CharacteristicDefinition where
  declarationHandle : UInt16
  properties : UInt8
  valueHandle : UInt16
  uuid : Uuid
  descriptors : List (UInt16 × Uuid)

structure ServiceDefinition where
  startHandle : UInt16
  endHandle : UInt16
  uuid : Uuid
  includes : List UInt16
  characteristics : List CharacteristicDefinition

def descriptorAttribute (d : UInt16 × Uuid) : Attribute := ⟨d.1, .other d.2⟩

namespace CharacteristicDefinition
variable (c : CharacteristicDefinition)

def attributes : List Attribute :=
  ⟨c.declarationHandle, .characteristic c.properties c.valueHandle c.uuid⟩ ::
    ⟨c.valueHandle, .other c.uuid⟩ :: c.descriptors.map descriptorAttribute

def found? : Option Characteristic :=
  c.uuid.short?.map fun uuid16 => ⟨c.declarationHandle, c.valueHandle, c.properties, uuid16⟩

def isLong : Bool := c.uuid.short?.isNone

def handlesOf (uuid16 : UInt16) : List UInt16 :=
  c.descriptors.filterMap fun d => if d.2.short? = some uuid16 then some d.1 else none

end CharacteristicDefinition

structure Listing where
  characteristic : CharacteristicDefinition
  followers : List CharacteristicDefinition

def listed : List CharacteristicDefinition → List Listing
  | [] => []
  | c :: rest => if c.isLong then listed rest else ⟨c, rest.takeWhile (·.isLong)⟩ :: listed rest

def Listing.handlesOf (l : Listing) (uuid16 : UInt16) : List UInt16 :=
  l.characteristic.handlesOf uuid16 ++ l.followers.flatMap (·.handlesOf uuid16)

def rangeEnd (endHandle : UInt16) (rest : List CharacteristicDefinition) : UInt16 :=
  match rest.dropWhile (·.isLong) with
  | [] => endHandle
  | next :: _ => next.declarationHandle - 1

def ServiceDefinition.attributes (s : ServiceDefinition) : List Attribute :=
  ⟨s.startHandle, .primaryService s.endHandle s.uuid⟩ ::
    (s.includes.map (fun handle => ⟨handle, .other (.short uuidInclude)⟩) ++
      s.characteristics.flatMap (·.attributes))

def Attribute.descriptor? (a : Attribute) : Option Descriptor :=
  a.type.short?.map fun uuid16 => ⟨a.handle, uuid16⟩

structure Hosts (table : Table) (service : ServiceDefinition) : Prop where
  split : ∃ before after, table.attributes = before ++ (service.attributes ++ after) ∧
    ∀ a ∈ after, service.endHandle < a.handle
  within : ∀ a ∈ service.attributes, a.handle ≤ service.endHandle

variable {table : Table} {service : ServiceDefinition}

def ServiceDefinition.covers (service : ServiceDefinition) (handle : UInt16) : Bool :=
  decide (service.startHandle.toNat ≤ handle.toNat ∧ handle.toNat ≤ service.endHandle.toNat)

lemma Hosts.ascending (h : Hosts table service) :
    service.attributes.Pairwise fun a b => a.handle < b.handle := by
  obtain ⟨before, after, hsplit, -⟩ := h.split
  have hall := table.ascending
  rw [hsplit, pairwise_append] at hall
  exact (pairwise_append.mp hall.2.1).1

lemma Hosts.attributes_covered (h : Hosts table service) :
    table.attributes.filter (fun a => service.covers a.handle) = service.attributes := by
  obtain ⟨before, after, hsplit, hafter⟩ := h.split
  have hall := table.ascending
  rw [hsplit, pairwise_append] at hall
  obtain ⟨-, -, hbefore⟩ := hall
  have hstart := (pairwise_cons.mp h.ascending).1
  have hnone : before.filter (fun a => service.covers a.handle) = [] := by
    refine filter_eq_nil_iff.mpr fun a ha => ?_
    have hlt : a.handle.toNat < service.startHandle.toNat := UInt16.lt_iff_toNat_lt.mp
      (hbefore a ha _ (mem_append_left after mem_cons_self))
    simp only [ServiceDefinition.covers, decide_eq_true_eq]
    omega
  have hbehind : after.filter (fun a => service.covers a.handle) = [] := by
    refine filter_eq_nil_iff.mpr fun a ha => ?_
    have hlt := UInt16.lt_iff_toNat_lt.mp (hafter a ha)
    simp only [ServiceDefinition.covers, decide_eq_true_eq]
    omega
  have hown : service.attributes.filter (fun a => service.covers a.handle) =
      service.attributes := by
    refine filter_eq_self.mpr fun a ha => ?_
    refine decide_eq_true ⟨?_, UInt16.le_iff_toNat_le.mp (h.within a ha)⟩
    rcases mem_cons.mp ha with rfl | hin
    · exact Nat.le_refl _
    · exact Nat.le_of_lt (UInt16.lt_iff_toNat_lt.mp (hstart a hin))
  rw [hsplit, filter_append, filter_append, hnone, hown, hbehind, nil_append,
    append_nil]

lemma Hosts.inRange_filterMap (h : Hosts table service) {f : Attribute → Option Item}
    (hf : ∀ a item, f a = some item → item.handle = a.handle) :
    inRange (table.attributes.filterMap f) service.startHandle service.endHandle =
      service.attributes.filterMap f := by
  rw [← h.attributes_covered, inRange, between, filter_filterMap, filterMap_filter]
  refine filterMap_congr fun a _ => ?_
  cases hitem : f a with
  | none => rw [Option.filter_none, ite_self]
  | some item =>
    rw [Option.filter_some, hf a item hitem]
    rfl

lemma Hosts.expected_characteristics (h : Hosts table service) :
    (Query.characteristics service.startHandle service.endHandle).expected table =
      (service.characteristics.filterMap CharacteristicDefinition.found?).map
        Found.characteristic := by
  have hrange := h.inRange_filterMap (f := Attribute.characteristic?) fun a item ha => by
    unfold Attribute.characteristic? at ha
    split at ha
    · rw [← Option.some.inj ha]; rfl
    · cases ha
    · cases ha
  have hothers (handles : List UInt16) :
      (handles.map fun handle => (⟨handle, .other (.short uuidInclude)⟩ : Attribute)).filterMap
        Attribute.characteristic? = [] := by
    rw [filterMap_map]
    exact filterMap_eq_nil_iff.mpr fun _ _ => rfl
  have hone (c : CharacteristicDefinition) : c.attributes.filterMap Attribute.characteristic? =
      [characteristicItem c.declarationHandle c.properties c.valueHandle c.uuid] := by
    have hdescriptors : (c.descriptors.map descriptorAttribute).filterMap
        Attribute.characteristic? = [] := by
      rw [filterMap_map]
      exact filterMap_eq_nil_iff.mpr fun _ _ => rfl
    rw [CharacteristicDefinition.attributes, filterMap_cons_some (by rfl),
      filterMap_cons_none (by rfl), hdescriptors]
  have hchars (chars : List CharacteristicDefinition) :
      ((chars.flatMap (·.attributes)).filterMap Attribute.characteristic?).filterMap Item.found =
        (chars.filterMap CharacteristicDefinition.found?).map Found.characteristic := by
    induction chars with
    | nil => rfl
    | cons c chars ih =>
      rw [flatMap_cons, filterMap_append, filterMap_append, ih, hone]
      cases huuid : c.uuid with
      | short | long =>
        simp [characteristicItem, CharacteristicDefinition.found?, Uuid.short?, huuid]
  calc
    _ = (service.attributes.filterMap Attribute.characteristic?).filterMap Item.found :=
      congrArg (filterMap Item.found) hrange
    _ = _ := by
      rw [ServiceDefinition.attributes, filterMap_cons_none (by rfl), filterMap_append,
        hothers, nil_append, hchars]

lemma Table.attribute_eq {a b : Attribute} (ha : a ∈ table.attributes)
    (hb : b ∈ table.attributes) (hsame : a.handle = b.handle) : a = b := by
  have hnodup : (table.attributes.map Attribute.handle).Nodup := by
    refine table.ascending.map _ fun a b hlt hsame => ?_
    rw [hsame] at hlt
    exact absurd hlt (UInt16.lt_irrefl _)
  exact inj_on_of_nodup_map hnodup ha hb hsame

lemma Hosts.expected_service (h : Hosts table service) {found : Service}
    (hfound : .service found ∈ Query.services.expected table)
    (hstart : found.startHandle = service.startHandle) : found.endHandle = service.endHandle := by
  obtain ⟨before, after, hsplit, -⟩ := h.split
  have hown : ⟨service.startHandle, .primaryService service.endHandle service.uuid⟩ ∈
      table.attributes := by
    rw [hsplit]
    exact mem_append_right before (mem_append_left after mem_cons_self)
  obtain ⟨item, hitem, hsome⟩ := mem_filterMap.mp hfound
  obtain ⟨a, ha, hservice⟩ := mem_filterMap.mp (mem_between.mp hitem).1
  unfold Attribute.service? at hservice
  split at hservice
  next endGroupHandle uuid hdeclaration =>
    obtain rfl := Option.some.inj hservice
    obtain ⟨uuid16, -, hsame⟩ := Option.map_eq_some_iff.mp hsome
    obtain rfl := Found.service.inj hsame
    have heq := Table.attribute_eq ha hown hstart
    rw [heq] at hdeclaration
    exact (Declaration.primaryService.inj hdeclaration).1.symm
  · cases hservice
  · cases hservice

lemma Hosts.expected_descriptors (h : Hosts table service) :
    (Query.descriptors service.startHandle service.endHandle).expected table =
      (service.attributes.filterMap Attribute.descriptor?).map Found.descriptor := by
  have hrange := h.inRange_filterMap (f := fun a => some a.descriptor) fun a item ha => by
    rw [← Option.some.inj ha]
    rfl
  have hitems : table.items .descriptors =
      table.attributes.filterMap fun a => some a.descriptor :=
    (congrFun filterMap_eq_map' table.attributes).symm
  calc
    _ = (service.attributes.filterMap fun a => some a.descriptor).filterMap Item.found := by
      rw [← hrange, ← hitems]
      rfl
    _ = _ := by
      rw [filterMap_filterMap, map_filterMap]
      simp [Attribute.descriptor, descriptorItem, Attribute.descriptor?, Option.map_map,
        Function.comp_def]

lemma CharacteristicDefinition.found_cases (c : CharacteristicDefinition) :
    (c.uuid.short? = none ∧ c.isLong = true ∧ c.found? = none) ∨
      ∃ uuid16, c.uuid.short? = some uuid16 ∧ c.isLong = false ∧
        c.found? = some ⟨c.declarationHandle, c.valueHandle, c.properties, uuid16⟩ := by
  unfold isLong found?
  cases c.uuid.short? with
  | none => exact .inl ⟨rfl, rfl, rfl⟩
  | some uuid16 => exact .inr ⟨uuid16, rfl, rfl, rfl⟩

lemma mem_listed {chars : List CharacteristicDefinition} {l : Listing} (h : l ∈ listed chars) :
    ∃ before rest, chars = before ++ l.characteristic :: rest ∧
      l.followers = rest.takeWhile (·.isLong) := by
  induction chars with
  | nil => cases h
  | cons c rest ih =>
    have hlater (h : l ∈ listed rest) : ∃ before rest',
        c :: rest = before ++ l.characteristic :: rest' ∧
          l.followers = rest'.takeWhile (·.isLong) := by
      obtain ⟨before, rest', rfl, hfollowers⟩ := ih h
      exact ⟨c :: before, rest', rfl, hfollowers⟩
    unfold listed at h
    split at h
    · exact hlater h
    · rcases mem_cons.mp h with rfl | h
      · exact ⟨[], rest, rfl, rfl⟩
      · exact hlater h

lemma Hosts.characteristics_ascending (h : Hosts table service) :
    service.characteristics.Pairwise fun c c' =>
      ∀ a ∈ c.attributes, ∀ b ∈ c'.attributes, a.handle < b.handle := by
  obtain ⟨-, hrest⟩ := pairwise_cons.mp h.ascending
  exact (pairwise_flatMap.mp (pairwise_append.mp hrest).2.1).2

def Attribute.handleOf (uuid16 : UInt16) (a : Attribute) : Option UInt16 :=
  if a.type.short? = some uuid16 then some a.handle else none

lemma CharacteristicDefinition.attributes_handlesOf {c : CharacteristicDefinition}
    (hlong : c.isLong = true) {uuid16 : UInt16} (hother : uuid16 ≠ uuidCharacteristic) :
    c.attributes.filterMap (Attribute.handleOf uuid16) = c.handlesOf uuid16 := by
  have hdeclaration : Attribute.handleOf uuid16 ⟨c.declarationHandle,
      .characteristic c.properties c.valueHandle c.uuid⟩ = none :=
    if_neg fun h => hother (Option.some.inj h).symm
  have hvalue : Attribute.handleOf uuid16 ⟨c.valueHandle, .other c.uuid⟩ = none := by
    refine if_neg fun h => ?_
    have hnone := Option.isNone_iff_eq_none.mp hlong
    cases hnone.symm.trans h
  rw [attributes, filterMap_cons_none hdeclaration, filterMap_cons_none hvalue,
    filterMap_map]
  rfl

lemma ServiceDefinition.attributes_split {before rest : List CharacteristicDefinition}
    {c : CharacteristicDefinition} (hsplit : service.characteristics = before ++ c :: rest) :
    ∃ head, service.attributes = head ++ ⟨c.valueHandle, .other c.uuid⟩ ::
      ((c.descriptors.map descriptorAttribute ++
        (rest.takeWhile (·.isLong)).flatMap (·.attributes)) ++
        (rest.dropWhile (·.isLong)).flatMap (·.attributes)) := by
  have hc : c.attributes =
      [⟨c.declarationHandle, .characteristic c.properties c.valueHandle c.uuid⟩] ++
        ⟨c.valueHandle, .other c.uuid⟩ :: c.descriptors.map descriptorAttribute := rfl
  have hrest : rest.flatMap (·.attributes) =
      (rest.takeWhile (·.isLong)).flatMap (·.attributes) ++
        (rest.dropWhile (·.isLong)).flatMap (·.attributes) := by
    rw [← flatMap_append, takeWhile_append_dropWhile]
  rw [attributes, hsplit, flatMap_append, flatMap_cons, hrest, hc]
  refine ⟨⟨service.startHandle, .primaryService service.endHandle service.uuid⟩ ::
    (service.includes.map (fun handle => ⟨handle, .other (.short uuidInclude)⟩) ++
      (before.flatMap (·.attributes) ++
        [⟨c.declarationHandle, .characteristic c.properties c.valueHandle c.uuid⟩])), ?_⟩
  simp only [append_assoc, cons_append, nil_append]

lemma rangeEnd_bounds {endHandle valueHandle : UInt16} {rest : List CharacteristicDefinition}
    {own : List Attribute} (hwithin : ∀ a ∈ own, a.handle ≤ endHandle)
    (hvalue : ∀ a ∈ own ++ (rest.dropWhile (·.isLong)).flatMap (·.attributes),
      valueHandle < a.handle)
    (hascending : (own ++ (rest.dropWhile (·.isLong)).flatMap (·.attributes)).Pairwise
      fun a b => a.handle < b.handle) :
    (∀ a ∈ own, a.handle ≤ rangeEnd endHandle rest) ∧
      ∀ a ∈ (rest.dropWhile (·.isLong)).flatMap (·.attributes),
        rangeEnd endHandle rest < a.handle := by
  unfold rangeEnd
  cases hbehind : rest.dropWhile (·.isLong) with
  | nil => exact ⟨hwithin, nofun⟩
  | cons next others =>
    rw [hbehind] at hascending hvalue
    obtain ⟨-, hnext, hbefore⟩ := pairwise_append.mp hascending
    let declaration : Attribute :=
      ⟨next.declarationHandle, .characteristic next.properties next.valueHandle next.uuid⟩
    have hfirst : declaration ∈ (next :: others).flatMap (·.attributes) := mem_cons_self
    have hpositive := UInt16.lt_iff_toNat_lt.mp (hvalue _ (mem_append_right own hfirst))
    have hpred : (next.declarationHandle - 1).toNat = next.declarationHandle.toNat - 1 :=
      UInt16.toNat_sub_of_le _ _ (UInt16.le_iff_toNat_le.mpr (Nat.one_le_of_lt hpositive))
    refine ⟨fun a ha => ?_, fun b hb => ?_⟩
    · have hlt : a.handle.toNat < next.declarationHandle.toNat :=
        UInt16.lt_iff_toNat_lt.mp (hbefore a ha _ hfirst)
      refine UInt16.le_iff_toNat_le.mpr ?_
      dsimp only
      omega
    · have hle : next.declarationHandle.toNat ≤ b.handle.toNat := by
        rcases mem_cons.mp hb with rfl | hlater
        · exact Nat.le_refl _
        · exact Nat.le_of_lt
            (UInt16.lt_iff_toNat_lt.mp ((pairwise_cons.mp hnext).1 b hlater))
      refine UInt16.lt_iff_toNat_lt.mpr ?_
      dsimp only
      have hone : valueHandle.toNat < next.declarationHandle.toNat := hpositive
      omega

lemma Hosts.handles_between (h : Hosts table service)
    {before rest : List CharacteristicDefinition} {c : CharacteristicDefinition}
    (hsplit : service.characteristics = before ++ c :: rest)
    {uuid16 : UInt16} (hother : uuid16 ≠ uuidCharacteristic) :
    ((service.attributes.filterMap Attribute.descriptor?).filter fun d =>
        decide (c.valueHandle < d.handle ∧ d.handle ≤ rangeEnd service.endHandle rest ∧
          d.uuid16 = uuid16)).map Descriptor.handle =
      (Listing.mk c (rest.takeWhile (·.isLong))).handlesOf uuid16 := by
  obtain ⟨head, hattributes⟩ := ServiceDefinition.attributes_split hsplit
  have hascending := h.ascending
  have hwithin := h.within
  rw [hattributes] at hascending hwithin ⊢
  obtain ⟨-, htail, hhead⟩ := pairwise_append.mp hascending
  obtain ⟨hvalue, htail⟩ := pairwise_cons.mp htail
  generalize hown : c.descriptors.map descriptorAttribute ++
    (rest.takeWhile (·.isLong)).flatMap (·.attributes) = own at *
  obtain ⟨hupto, hbehind⟩ := rangeEnd_bounds (fun a ha => hwithin a (mem_append_right _
    (mem_cons_of_mem _ (mem_append_left _ ha)))) hvalue htail
  generalize rangeEnd service.endHandle rest = last at *
  generalize (rest.dropWhile (·.isLong)).flatMap (·.attributes) = behind at *
  -- an attribute is taken if it lies in the range and has the type
  have htaken (a : Attribute) : ((a.descriptor?.filter fun d =>
      decide (c.valueHandle < d.handle ∧ d.handle ≤ last ∧ d.uuid16 = uuid16)).map
        Descriptor.handle) =
      if c.valueHandle < a.handle ∧ a.handle ≤ last then a.handleOf uuid16 else none := by
    unfold Attribute.descriptor? Attribute.handleOf
    cases a.type.short? with
    | none => simp
    | some uuid =>
      by_cases hrange : c.valueHandle < a.handle ∧ a.handle ≤ last
      · by_cases huuid : uuid = uuid16
        · simp [hrange, huuid]
        · simp [hrange, huuid]
      · have hno : ¬ (c.valueHandle < a.handle ∧ a.handle ≤ last ∧ uuid = uuid16) :=
          fun hno => hrange ⟨hno.1, hno.2.1⟩
        rw [if_neg hrange, Option.map_some, Option.filter_some, decide_eq_false hno]
        rfl
  have houtside {attributes : List Attribute}
      (hout : ∀ a ∈ attributes, ¬ (c.valueHandle < a.handle ∧ a.handle ≤ last)) :
      attributes.filterMap (fun a => if c.valueHandle < a.handle ∧ a.handle ≤ last then
        a.handleOf uuid16 else none) = [] :=
    filterMap_eq_nil_iff.mpr fun a ha => if_neg (hout a ha)
  have hbefore : ∀ a ∈ head ++ [⟨c.valueHandle, .other c.uuid⟩],
      ¬ (c.valueHandle < a.handle ∧ a.handle ≤ last) := by
    intro a ha hin
    rcases mem_append.mp ha with ha | ha
    · exact absurd (UInt16.lt_trans hin.1 (hhead a ha _ mem_cons_self)) (UInt16.lt_irrefl _)
    · rw [mem_singleton.mp ha] at hin
      exact absurd hin.1 (UInt16.lt_irrefl _)
  have hafter : ∀ a ∈ behind, ¬ (c.valueHandle < a.handle ∧ a.handle ≤ last) :=
    fun a ha hin => absurd (hbehind a ha) (UInt16.not_lt.mpr hin.2)
  have hinside : own.filterMap (fun a => if c.valueHandle < a.handle ∧ a.handle ≤ last then
      a.handleOf uuid16 else none) = own.filterMap (Attribute.handleOf uuid16) :=
    filterMap_congr fun a ha =>
      if_pos ⟨hvalue a (mem_append_left behind ha), hupto a ha⟩
  have hfollowers : ((rest.takeWhile (·.isLong)).flatMap (·.attributes)).filterMap
      (Attribute.handleOf uuid16) =
        (rest.takeWhile (·.isLong)).flatMap (·.handlesOf uuid16) := by
    rw [filterMap_flatMap]
    refine flatMap_congr fun f hf => ?_
    exact CharacteristicDefinition.attributes_handlesOf (mem_takeWhile_imp hf) hother
  rw [filter_filterMap, map_filterMap]
  simp only [htaken]
  rw [append_cons, filterMap_append, houtside hbefore, nil_append,
    filterMap_append, houtside hafter, append_nil, hinside, ← hown,
    filterMap_append, hfollowers, filterMap_map]
  rfl

end Bluzing.Gatt
