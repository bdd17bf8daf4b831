import Bluzing.Gatt.Iterators
import Bluzing.Gatt.Steps
import Bluzing.Lib.Paging

/-! An honest server: a table of attributes, and the answers that it may give to the requests of a
discovery. -/
namespace Bluzing.Gatt
open List

inductive Uuid where
  | short (uuid16 : UInt16)
  | long (octets : Octets 16)

namespace Uuid

def octets : Uuid → Bytes
  | .short uuid16 => writeLe16 uuid16
  | .long octets => octets.bytes

def short? : Uuid → Option UInt16
  | .short uuid16 => some uuid16
  | .long _ => none

lemma length_octets (uuid : Uuid) : uuid.octets.length = 2 ∨ uuid.octets.length = 16 := by
  cases uuid with
  | short => exact .inl rfl
  | long octets => exact .inr octets.length_eq

end Uuid

inductive Declaration where
  | primaryService (endGroupHandle : UInt16) (uuid : Uuid)
  | characteristic (properties : UInt8) (valueHandle : UInt16) (uuid : Uuid)
  | other (type : Uuid)

structure Attribute where
  handle : UInt16
  declaration : Declaration

def Attribute.type (a : Attribute) : Uuid :=
  match a.declaration with
  | .primaryService _ _ => .short uuidPrimaryService
  | .characteristic _ _ _ => .short uuidCharacteristic
  | .other type => type

structure Item where
  handle : UInt16
  last : UInt16
  octets : Bytes
  found : Option Found

def serviceItem (handle endGroupHandle : UInt16) (uuid : Uuid) : Item where
  handle := handle
  last := endGroupHandle
  octets := (GroupEntry.mk handle endGroupHandle uuid.octets).octets
  found := uuid.short?.map fun uuid16 => .service ⟨handle, endGroupHandle, uuid16⟩

def characteristicItem (handle : UInt16) (properties : UInt8) (valueHandle : UInt16) (uuid : Uuid) :
    Item where
  handle := handle
  last := handle
  octets := (TypeEntry.mk handle (properties :: (writeLe16 valueHandle ++ uuid.octets))).octets
  found := uuid.short?.map fun uuid16 => .characteristic ⟨handle, valueHandle, properties, uuid16⟩

def descriptorItem (handle : UInt16) (type : Uuid) : Item where
  handle := handle
  last := handle
  octets := (TypeEntry.mk handle type.octets).octets
  found := type.short?.map fun uuid16 => .descriptor ⟨handle, uuid16⟩

namespace Attribute

def service? (a : Attribute) : Option Item :=
  match a.declaration with
  | .primaryService endGroupHandle uuid => some (serviceItem a.handle endGroupHandle uuid)
  | .characteristic _ _ _ | .other _ => none

def characteristic? (a : Attribute) : Option Item :=
  match a.declaration with
  | .characteristic properties valueHandle uuid =>
      some (characteristicItem a.handle properties valueHandle uuid)
  | .primaryService _ _ | .other _ => none

def descriptor (a : Attribute) : Item := descriptorItem a.handle a.type

end Attribute

structure Table where
  attributes : List Attribute
  ascending : attributes.Pairwise fun a b => a.handle < b.handle
  groups : Ascending (fun item : Item => item.handle.toNat) (fun item => item.last.toNat)
    (attributes.filterMap Attribute.service?)

inductive Kind where
  | services
  | characteristics
  | descriptors

namespace Kind

def op : Kind → Op
  | .services => .discoverServices
  | .characteristics => .discoverCharacteristics
  | .descriptors => .discoverDescriptors

def discovery : Kind → Discovery
  | .services => servicesDiscovery
  | .characteristics => characteristicsDiscovery
  | .descriptors => descriptorsDiscovery

def limit : Kind → ℕ
  | .services => maxServices
  | .characteristics => maxCharacteristics
  | .descriptors => maxDescriptors

def responseOpcode : Kind → UInt8
  | .services => opcodeReadByGroupTypeResponse
  | .characteristics => opcodeReadByTypeResponse
  | .descriptors => opcodeFindInformationResponse

def lead : Kind → ℕ → UInt8
  | .services, n | .characteristics, n => n.toUInt8
  | .descriptors, n => if n = 4 then 1 else 2

lemma discoveryOf_op (kind : Kind) : discoveryOf kind.op = some kind.discovery := by
  cases kind <;> rfl

lemma discovery_opcode (kind : Kind) : kind.discovery.opcode = kind.responseOpcode := by
  cases kind <;> rfl

end Kind

def Table.items (table : Table) : Kind → List Item
  | .services => table.attributes.filterMap Attribute.service?
  | .characteristics => table.attributes.filterMap Attribute.characteristic?
  | .descriptors => table.attributes.map Attribute.descriptor

def inRange (items : List Item) (startHandle endHandle : UInt16) : List Item :=
  between (fun item => item.handle.toNat) items startHandle.toNat endHandle.toNat

def parseRequest : Bytes → Option (Kind × UInt16 × UInt16)
  | [opcode, s0, s1, e0, e1, u0, u1] =>
      if opcode = opcodeReadByGroupTypeRequest ∧ readLe16 u0 u1 = uuidPrimaryService then
        some (.services, readLe16 s0 s1, readLe16 e0 e1)
      else if opcode = opcodeReadByTypeRequest ∧ readLe16 u0 u1 = uuidCharacteristic then
        some (.characteristics, readLe16 s0 s1, readLe16 e0 e1)
      else none
  | [opcode, s0, s1, e0, e1] =>
      if opcode = opcodeFindInformationRequest then
        some (.descriptors, readLe16 s0 s1, readLe16 e0 e1)
      else none
  | _ => none

def notFoundReply (requestOpcode : UInt8) (handle : UInt16) : Bytes :=
  opcodeErrorResponse :: requestOpcode :: (writeLe16 handle ++ [errorAttributeNotFound])

def responseParams (kind : Kind) (entryLen : ℕ) (page : List Item) : Bytes :=
  kind.lead entryLen :: (page.map Item.octets).flatten

inductive Honest (table : Table) (request : Bytes) : Bytes → Prop
  | notFound {kind : Kind} {startHandle endHandle : UInt16}
      (hrequest : parseRequest request = some (kind, startHandle, endHandle))
      (hnone : inRange (table.items kind) startHandle endHandle = []) (requestOpcode : UInt8)
      (handle : UInt16) : Honest table request (notFoundReply requestOpcode handle)
  | found {kind : Kind} {startHandle endHandle : UInt16} {page rest : List Item} {entryLen : ℕ}
      (hrequest : parseRequest request = some (kind, startHandle, endHandle))
      (hpage : inRange (table.items kind) startHandle endHandle = page ++ rest) (hne : page ≠ [])
      (hlen : ∀ item ∈ page, item.octets.length = entryLen) :
      Honest table request (kind.responseOpcode :: responseParams kind entryLen page)

lemma Table.items_ascending (table : Table) (kind : Kind) :
    Ascending (fun item : Item => item.handle.toNat) (fun item => item.last.toNat)
      (table.items kind) := by
  have hlt {a b : Attribute} (h : a.handle < b.handle) := UInt16.lt_iff_toNat_lt.mp h
  cases kind with
  | services => exact table.groups
  | characteristics =>
    have hitem {a : Attribute} {item : Item} (h : item ∈ a.characteristic?) :
        item.handle = a.handle ∧ item.last = a.handle := by
      unfold Attribute.characteristic? at h
      split at h
      · obtain rfl := Option.some.inj h
        exact ⟨rfl, rfl⟩
      · cases h
      · cases h
    constructor
    · intro item hmem
      obtain ⟨a, -, ha⟩ := mem_filterMap.mp hmem
      obtain ⟨hhandle, hlast⟩ := hitem ha
      exact Nat.le_of_eq (congrArg UInt16.toNat (hhandle.trans hlast.symm))
    · refine table.ascending.filterMap _ fun a b hab x hx y hy => ?_
      rw [(hitem hx).2, (hitem hy).1]
      exact hlt hab
  | descriptors =>
    constructor
    · intro item hmem
      obtain ⟨a, -, rfl⟩ := mem_map.mp hmem
      exact Nat.le_refl _
    · exact table.ascending.map _ fun a b hab => hlt hab

namespace Item

def entry (item : Item) : Entry := ⟨item.last, item.found⟩

def groupEntry (item : Item) : GroupEntry := ⟨item.handle, item.last, item.octets.drop 4⟩

def typeEntry (item : Item) : TypeEntry := ⟨item.handle, item.octets.drop 2⟩

end Item

variable (handle : UInt16)

lemma serviceItem_entry (endGroupHandle : UInt16) (uuid : Uuid) :
    serviceEntry (serviceItem handle endGroupHandle uuid).groupEntry =
      (serviceItem handle endGroupHandle uuid).entry := by
  change serviceEntry ⟨handle, endGroupHandle, uuid.octets⟩ = _
  cases uuid with
  | short uuid16 =>
    change Entry.mk endGroupHandle (some (.service ⟨handle, endGroupHandle,
      readLe16 uuid16.toUInt8 (uuid16 >>> 8).toUInt8⟩)) = _
    rw [readLe16_writeLe16]
    rfl
  | long octets =>
    have hlen := octets.length_eq
    unfold serviceEntry
    dsimp only [Uuid.octets]
    split
    next heq =>
      rw [heq] at hlen
      cases hlen
    · rfl

lemma characteristicItem_entry (properties : UInt8) (valueHandle : UInt16) (uuid : Uuid) :
    characteristicEntry (characteristicItem handle properties valueHandle uuid).typeEntry =
      (characteristicItem handle properties valueHandle uuid).entry := by
  change characteristicEntry ⟨handle, properties :: (writeLe16 valueHandle ++ uuid.octets)⟩ = _
  cases uuid with
  | short uuid16 =>
    change Entry.mk handle (some (.characteristic ⟨handle,
      readLe16 valueHandle.toUInt8 (valueHandle >>> 8).toUInt8, properties,
      readLe16 uuid16.toUInt8 (uuid16 >>> 8).toUInt8⟩)) = _
    rw [readLe16_writeLe16, readLe16_writeLe16]
    rfl
  | long octets =>
    have hlen := octets.length_eq
    unfold characteristicEntry
    dsimp only [Uuid.octets]
    split
    next heq =>
      have htotal := congrArg length heq
      rw [length_cons, length_append, hlen] at htotal
      cases htotal
    · rfl

lemma descriptorItem_entry (type : Uuid) :
    descriptorEntry (descriptorItem handle type).typeEntry =
      (descriptorItem handle type).entry := by
  change descriptorEntry ⟨handle, type.octets⟩ = _
  cases type with
  | short uuid16 =>
    change Entry.mk handle (some (.descriptor ⟨handle,
      readLe16 uuid16.toUInt8 (uuid16 >>> 8).toUInt8⟩)) = _
    rw [readLe16_writeLe16]
    rfl
  | long octets =>
    have hlen := octets.length_eq
    unfold descriptorEntry
    dsimp only [Uuid.octets]
    split
    next heq =>
      rw [heq] at hlen
      cases hlen
    · rfl

variable {table : Table} {item : Item} {page : List Item} {entryLen : ℕ}

lemma services_item (h : item ∈ table.items .services) :
    item.groupEntry.octets = item.octets ∧ serviceEntry item.groupEntry = item.entry ∧
      4 + item.groupEntry.value.length = item.octets.length ∧ item.octets.length < 256 := by
  obtain ⟨a, -, ha⟩ := mem_filterMap.mp h
  unfold Attribute.service? at ha
  split at ha
  next endGroupHandle uuid _ =>
    obtain rfl := Option.some.inj ha
    have hlen : (serviceItem a.handle endGroupHandle uuid).octets.length =
      uuid.octets.length + 4 := rfl
    have hvalue : (serviceItem a.handle endGroupHandle uuid).groupEntry.value = uuid.octets := rfl
    have huuid := uuid.length_octets
    refine ⟨rfl, serviceItem_entry _ _ _, ?_, ?_⟩
    · rw [hlen, hvalue, Nat.add_comm]
    · omega
  · cases ha
  · cases ha

lemma characteristics_item (h : item ∈ table.items .characteristics) :
    item.typeEntry.octets = item.octets ∧ characteristicEntry item.typeEntry = item.entry ∧
      2 + item.typeEntry.value.length = item.octets.length ∧ item.octets.length < 256 := by
  obtain ⟨a, -, ha⟩ := mem_filterMap.mp h
  unfold Attribute.characteristic? at ha
  split at ha
  next properties valueHandle uuid _ =>
    obtain rfl := Option.some.inj ha
    have hlen : (characteristicItem a.handle properties valueHandle uuid).octets.length =
      uuid.octets.length + 5 := rfl
    have hvalue : (characteristicItem a.handle properties valueHandle uuid).typeEntry.value.length =
      uuid.octets.length + 3 := rfl
    have huuid := uuid.length_octets
    refine ⟨rfl, characteristicItem_entry _ _ _ _, ?_, ?_⟩
    · rw [hlen, hvalue, Nat.add_comm]
    · omega
  · cases ha
  · cases ha

lemma descriptors_item (h : item ∈ table.items .descriptors) :
    item.typeEntry.octets = item.octets ∧ descriptorEntry item.typeEntry = item.entry ∧
      2 + item.typeEntry.value.length = item.octets.length ∧
      (item.octets.length = 4 ∨ item.octets.length = 18) := by
  obtain ⟨a, -, rfl⟩ := mem_map.mp h
  have hlen : a.descriptor.octets.length = a.type.octets.length + 2 := rfl
  have hvalue : a.descriptor.typeEntry.value = a.type.octets := rfl
  have htype := a.type.length_octets
  refine ⟨rfl, descriptorItem_entry _ _, ?_, ?_⟩
  · rw [hlen, hvalue, Nat.add_comm]
  · omega

lemma entries_of_raw {ε : Type} {init : Bytes → Access Iter}
    {next : Iter → Access (ε × Iter)} {octets : ε → Bytes} {entry : ε → Entry} {lead : UInt8}
    (raw : Item → ε)
    (h : ∀ item ∈ page, octets (raw item) = item.octets ∧ entry (raw item) = item.entry)
    (hentries : entriesOf init next (lead :: ((page.map raw).map octets).flatten) =
      some (page.map raw)) :
    (entriesOf init next (lead :: (page.map Item.octets).flatten)).map (·.map entry) =
      some (page.map Item.entry) := by
  have hoctets : (page.map raw).map octets = page.map Item.octets := by
    rw [map_map]
    exact map_congr_left fun item hitem => (h item hitem).1
  rw [hoctets] at hentries
  rw [hentries, Option.map_some, map_map]
  exact congrArg some (map_congr_left fun item hitem => (h item hitem).2)

lemma toNat_toUInt8 {n : ℕ} (h : n < 256) : n.toUInt8.toNat = n := by
  rw [Nat.toUInt8_eq, UInt8.toNat_ofNat_of_lt' h]

lemma entryLen_valueLen {overhead : UInt8} {valueLen : Item → ℕ} (hne : page ≠ [])
    (hlen : ∀ item ∈ page, item.octets.length = entryLen)
    (h : ∀ item ∈ page, overhead.toNat + valueLen item = item.octets.length ∧
      item.octets.length < 256) :
    overhead ≤ entryLen.toUInt8 ∧
      ∀ item ∈ page, overhead.toNat + valueLen item = entryLen.toUInt8.toNat := by
  have hvalue (item : Item) (hitem : item ∈ page) :
      overhead.toNat + valueLen item = entryLen.toUInt8.toNat := by
    obtain ⟨htotal, hsmall⟩ := h item hitem
    rw [htotal, ← hlen item hitem, toNat_toUInt8 hsmall]
  obtain ⟨first, hfirst⟩ := exists_mem_of_ne_nil page hne
  refine ⟨UInt8.le_iff_toNat_le.mpr ?_, hvalue⟩
  rw [← hvalue first hfirst]
  exact Nat.le_add_right _ _

lemma services_entries (hpage : ∀ item ∈ page, item ∈ table.items .services) (hne : page ≠ [])
    (hlen : ∀ item ∈ page, item.octets.length = entryLen) :
    servicesDiscovery.entries (responseParams .services entryLen page) =
      some (page.map Item.entry) := by
  obtain ⟨hleast, hvalue⟩ := @entryLen_valueLen page entryLen 4 (·.groupEntry.value.length) hne hlen
    fun item hitem => (services_item (hpage item hitem)).2.2
  refine entries_of_raw Item.groupEntry (fun item hitem => ?_)
    (readByGroupTypeResponse_entries hleast (forall_mem_map.mpr hvalue))
  obtain ⟨hoctets, hentry, -⟩ := services_item (hpage item hitem)
  exact ⟨hoctets, hentry⟩

lemma characteristics_entries (hpage : ∀ item ∈ page, item ∈ table.items .characteristics)
    (hne : page ≠ []) (hlen : ∀ item ∈ page, item.octets.length = entryLen) :
    characteristicsDiscovery.entries (responseParams .characteristics entryLen page) =
      some (page.map Item.entry) := by
  obtain ⟨hleast, hvalue⟩ := @entryLen_valueLen page entryLen 2 (·.typeEntry.value.length) hne hlen
    fun item hitem => (characteristics_item (hpage item hitem)).2.2
  refine entries_of_raw Item.typeEntry (fun item hitem => ?_)
    (readByTypeResponse_entries hleast (forall_mem_map.mpr hvalue))
  obtain ⟨hoctets, hentry, -⟩ := characteristics_item (hpage item hitem)
  exact ⟨hoctets, hentry⟩

lemma descriptors_entries (hpage : ∀ item ∈ page, item ∈ table.items .descriptors)
    (hne : page ≠ []) (hlen : ∀ item ∈ page, item.octets.length = entryLen) :
    descriptorsDiscovery.entries (responseParams .descriptors entryLen page) =
      some (page.map Item.entry) := by
  have hvalue (item : Item) (hitem : item ∈ page) :
      2 + item.typeEntry.value.length = entryLen ∧ (entryLen = 4 ∨ entryLen = 18) := by
    obtain ⟨-, -, hvalue, hsizes⟩ := descriptors_item (hpage item hitem)
    rw [hlen item hitem] at hvalue hsizes
    exact ⟨hvalue, hsizes⟩
  have hformat : (if entryLen = 4 then (1 : UInt8) else 2) = 1 ∧
        (∀ e ∈ page.map Item.typeEntry, e.value.length = 2) ∨
      (if entryLen = 4 then (1 : UInt8) else 2) = 2 ∧
        ∀ e ∈ page.map Item.typeEntry, e.value.length = 16 := by
    by_cases hfour : entryLen = 4
    · refine .inl ⟨if_pos hfour, forall_mem_map.mpr fun item hitem => ?_⟩
      have htotal := (hvalue item hitem).1
      omega
    · refine .inr ⟨if_neg hfour, forall_mem_map.mpr fun item hitem => ?_⟩
      obtain ⟨htotal, hsizes⟩ := hvalue item hitem
      omega
  have hraw : page.map Item.typeEntry ≠ [] := fun hnil => hne (map_eq_nil_iff.mp hnil)
  refine entries_of_raw Item.typeEntry (fun item hitem => ?_)
    (findInformationResponse_entries hraw hformat)
  obtain ⟨hoctets, hentry, -⟩ := descriptors_item (hpage item hitem)
  exact ⟨hoctets, hentry⟩

lemma entries_responseParams {kind : Kind} (hpage : ∀ item ∈ page, item ∈ table.items kind)
    (hne : page ≠ []) (hlen : ∀ item ∈ page, item.octets.length = entryLen) :
    kind.discovery.entries (responseParams kind entryLen page) = some (page.map Item.entry) := by
  cases kind with
  | services => exact services_entries hpage hne hlen
  | characteristics => exact characteristics_entries hpage hne hlen
  | descriptors => exact descriptors_entries hpage hne hlen

end Bluzing.Gatt
