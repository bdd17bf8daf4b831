import Bluzing.Gatt.Definitions
import Bluzing.Hogp.Exactness

/-! To whom the handles belong that a discovery records: a descriptor is taken for one of the last
16-bit characteristic before it. -/
namespace Bluzing.Hogp
open List
open Gatt (Characteristic CharacteristicDefinition Hosts Listing ServiceDefinition listed)

def Belongs (service : ServiceDefinition) (valueHandle uuid16 handle : UInt16) : Prop :=
  ∃ c ∈ service.characteristics, c.valueHandle = valueHandle ∧ handle ∈ c.handlesOf uuid16

structure Owned (service : ServiceDefinition) (r : Recorded) : Prop where
  reports : ∀ report ∈ r.reports,
    (report.2.1 ≠ 0 → Belongs service report.1 uuidCccd report.2.1) ∧
      (report.2.2 ≠ 0 → Belongs service report.1 uuidReportReference report.2.2)
  bootKeyboard : r.bootKeyboardInputCccd ≠ 0 →
    Belongs service r.bootKeyboardInputHandle uuidCccd r.bootKeyboardInputCccd
  bootMouse : r.bootMouseInputCccd ≠ 0 →
    Belongs service r.bootMouseInputHandle uuidCccd r.bootMouseInputCccd

def listedWith (uuid16 : UInt16) (chars : List CharacteristicDefinition) : List Listing :=
  (listed chars).filter fun l => decide (l.characteristic.uuid.short? = some uuid16)

def Alone (l : Listing) (uuid16 : UInt16) : Prop :=
  ∀ f ∈ l.followers, f.handlesOf uuid16 = []

structure Separated (chars : List CharacteristicDefinition) : Prop where
  reports : ∀ l ∈ (listedWith uuidReport chars).take maxReports,
    Alone l uuidCccd ∧ Alone l uuidReportReference
  bootKeyboard : ∀ l, (listedWith uuidBootKeyboardInput chars).getLast? = some l →
    l.characteristic.handlesOf uuidCccd = [] → Alone l uuidCccd
  bootMouse : ∀ l, (listedWith uuidBootMouseInput chars).getLast? = some l →
    l.characteristic.handlesOf uuidCccd = [] → Alone l uuidCccd

variable {α β : Type*}

lemma foldl_ite_getLastD (p : α → Prop) [DecidablePred p] (f : α → β) (xs : List α) (b : β) :
    xs.foldl (fun b x => if p x then f x else b) b =
      ((xs.filter fun x => decide (p x)).map f).getLastD b := by
  induction xs generalizing b with
  | nil => rfl
  | cons x xs ih =>
    rw [foldl_cons, ih]
    by_cases hx : p x
    · rw [if_pos hx, filter_cons_of_pos (by simpa using hx), map_cons, getLastD_cons]
    · rw [if_neg hx, filter_cons_of_neg (by simpa using hx)]

variable {own others : List UInt16}

lemma getLastD_append_iff (hzero : (0 : UInt16) ∉ others) (hdisjoint : ∀ h ∈ own, h ∉ others) :
    ((own ++ others).getLastD 0 ≠ 0 → (own ++ others).getLastD 0 ∈ own) ↔ others = [] := by
  constructor
  · intro h
    by_contra hne
    have hlast : (own ++ others).getLastD 0 = others.getLast hne := by
      rw [getLastD_eq_getLast?, getLast?_append_of_ne_nil _ hne,
        getLast?_eq_some_getLast hne, Option.getD_some]
    rw [hlast] at h
    have hmem := getLast_mem hne
    refine hdisjoint _ (h fun hno => hzero ?_) hmem
    rwa [hno] at hmem
  · rintro rfl hne
    rw [append_nil] at hne ⊢
    cases own with
    | nil => exact absurd rfl hne
    | cons h own =>
      exact getLast_mem _

lemma headD_append_iff (hzero : (0 : UInt16) ∉ others) (hdisjoint : ∀ h ∈ own, h ∉ others) :
    ((own ++ others).headD 0 ≠ 0 → (own ++ others).headD 0 ∈ own) ↔ (own = [] → others = []) := by
  cases own with
  | nil =>
    cases others with
    | nil => simp
    | cons h others =>
      have hne : h ≠ 0 := fun hno => hzero (by rw [hno]; exact mem_cons_self)
      simp [hne]
  | cons h own => simp

variable {table : Gatt.Table} {service : ServiceDefinition} {uuid16 : UInt16}

lemma noteDescriptor_handles (endHandle : UInt16) (r : Report) (d : Gatt.Descriptor) :
    (noteDescriptor endHandle r d).handles = (r.valueHandle,
      if r.valueHandle < d.handle ∧ d.handle ≤ endHandle ∧ d.uuid16 = uuidCccd then d.handle
        else r.cccdHandle,
      if r.valueHandle < d.handle ∧ d.handle ≤ endHandle ∧ d.uuid16 = uuidReportReference then
        d.handle else r.referenceHandle) := by
  unfold noteDescriptor
  by_cases hout : d.handle ≤ r.valueHandle ∨ endHandle < d.handle
  · have hno (P : Prop) : ¬ (r.valueHandle < d.handle ∧ d.handle ≤ endHandle ∧ P) := by
      rintro ⟨hlow, hhigh, -⟩
      rcases hout with hle | hlt
      · exact absurd hlow (UInt16.not_lt.mpr hle)
      · exact absurd hlt (UInt16.not_lt.mpr hhigh)
    rw [if_pos hout, if_neg (hno _), if_neg (hno _)]
    rfl
  · obtain ⟨hlow, hhigh⟩ := not_or.mp hout
    have hin (P : Prop) : (r.valueHandle < d.handle ∧ d.handle ≤ endHandle ∧ P) ↔ P :=
      ⟨fun h => h.2.2, fun h => ⟨UInt16.not_le.mp hlow, UInt16.not_lt.mp hhigh, h⟩⟩
    simp only [if_neg hout, hin]
    by_cases hcccd : d.uuid16 = uuidCccd
    · have hother : ¬ d.uuid16 = uuidReportReference := by rw [hcccd]; decide
      rw [if_pos hcccd, if_pos hcccd, if_neg hother]
      rfl
    · rw [if_neg hcccd, if_neg hcccd]
      split <;> rfl

def handlesIn (descriptors : List Gatt.Descriptor) (valueHandle endHandle uuid16 : UInt16) :
    List UInt16 :=
  (descriptors.filter fun d => decide (valueHandle < d.handle ∧ d.handle ≤ endHandle ∧
    d.uuid16 = uuid16)).map Gatt.Descriptor.handle

lemma reportOf_handles (descriptors : List Gatt.Descriptor) (valueHandle endHandle : UInt16) :
    (reportOf descriptors valueHandle endHandle).handles = (valueHandle,
      (handlesIn descriptors valueHandle endHandle uuidCccd).getLastD 0,
      (handlesIn descriptors valueHandle endHandle uuidReportReference).getLastD 0) := by
  have hloop (r : Report) : (descriptors.foldl (noteDescriptor endHandle) r).handles =
      (r.valueHandle,
        (handlesIn descriptors r.valueHandle endHandle uuidCccd).getLastD r.cccdHandle,
        (handlesIn descriptors r.valueHandle endHandle uuidReportReference).getLastD
          r.referenceHandle) := by
    unfold handlesIn
    rw [← foldl_ite_getLastD, ← foldl_ite_getLastD]
    induction descriptors generalizing r with
    | nil => rfl
    | cons d descriptors ih =>
      obtain ⟨hvalue, hcccd, hreference⟩ : _ ∧ _ ∧ _ := by
        simpa only [Report.handles, Prod.mk.injEq] using noteDescriptor_handles endHandle r d
      rw [foldl_cons, foldl_cons, foldl_cons, ih, hvalue, hcccd, hreference]
  exact hloop _

lemma findDescriptor_eq (descriptors : List Gatt.Descriptor)
    (valueHandle endHandle uuid16 : UInt16) :
    findDescriptor descriptors valueHandle endHandle uuid16 =
      (handlesIn descriptors valueHandle endHandle uuid16).headD 0 := by
  unfold findDescriptor handlesIn
  rw [headD_eq_head?_getD, head?_map, head?_filter]
  split
  next hfind => rw [hfind]; rfl
  next hfind => rw [hfind]; rfl

lemma characteristicEnd_found (endHandle : UInt16) (rest : List CharacteristicDefinition) :
    characteristicEnd endHandle (rest.filterMap CharacteristicDefinition.found?) =
      Gatt.rangeEnd endHandle rest := by
  induction rest with
  | nil => rfl
  | cons c rest ih =>
    obtain ⟨-, hlong, hnone⟩ | ⟨uuid, -, hshort, hfound⟩ := c.found_cases
    · rw [filterMap_cons_none hnone, ih, Gatt.rangeEnd, Gatt.rangeEnd,
        dropWhile_cons_of_pos hlong]
    · rw [filterMap_cons_some hfound, Gatt.rangeEnd,
        dropWhile_cons_of_neg (Bool.eq_false_iff.mp hshort)]
      rfl

lemma listedWith_cons (uuid16 : UInt16) (c : CharacteristicDefinition)
    (rest : List CharacteristicDefinition) :
    (c.found? = none ∧ listedWith uuid16 (c :: rest) = listedWith uuid16 rest) ∨
    ∃ uuid, c.found? = some ⟨c.declarationHandle, c.valueHandle, c.properties, uuid⟩ ∧
      listedWith uuid16 (c :: rest) =
        if uuid = uuid16 then ⟨c, rest.takeWhile (·.isLong)⟩ :: listedWith uuid16 rest
        else listedWith uuid16 rest := by
  obtain ⟨-, hlong, hnone⟩ | ⟨uuid, huuid, hshort, hfound⟩ := c.found_cases
  · refine .inl ⟨hnone, ?_⟩
    rw [listedWith, listed, if_pos hlong]
    rfl
  · refine .inr ⟨uuid, hfound, ?_⟩
    rw [listedWith, listed, if_neg (Bool.eq_false_iff.mp hshort), filter_cons]
    simp only [huuid, Option.some.injEq, decide_eq_true_eq]
    rfl

def reportHandles (l : Listing) : UInt16 × UInt16 × UInt16 :=
  (l.characteristic.valueHandle, (l.handlesOf uuidCccd).getLastD 0,
    (l.handlesOf uuidReportReference).getLastD 0)

def bootHandle (l : Listing) : UInt16 := (l.handlesOf uuidCccd).headD 0

variable {before chars : List CharacteristicDefinition}

lemma handlesIn_eq (h : Hosts table service) {rest : List CharacteristicDefinition}
    {c : CharacteristicDefinition} (hsplit : service.characteristics = before ++ c :: rest)
    (hother : uuid16 ≠ Gatt.uuidCharacteristic) :
    handlesIn (service.attributes.filterMap Gatt.Attribute.descriptor?) c.valueHandle
        (characteristicEnd service.endHandle
          (rest.filterMap CharacteristicDefinition.found?)) uuid16 =
      (Listing.mk c (rest.takeWhile (·.isLong))).handlesOf uuid16 := by
  rw [characteristicEnd_found]
  exact h.handles_between hsplit hother

lemma reportCharacteristics_handles (h : Hosts table service)
    (hsplit : service.characteristics = before ++ chars) :
    (reportCharacteristics service.endHandle
        (service.attributes.filterMap Gatt.Attribute.descriptor?)
        (chars.filterMap CharacteristicDefinition.found?)).map Report.handles =
      (listedWith uuidReport chars).map reportHandles := by
  induction chars generalizing before with
  | nil => rfl
  | cons c rest ih =>
    have ih := ih (hsplit.trans (append_cons ..))
    obtain ⟨hnone, hlist⟩ | ⟨uuid, hfound, hlist⟩ := listedWith_cons uuidReport c rest
    · rw [filterMap_cons_none hnone, hlist, ih]
    · rw [filterMap_cons_some hfound, reportCharacteristics, hlist]
      by_cases hreport : uuid = uuidReport
      · rw [if_pos hreport, if_pos hreport, map_cons, map_cons, ih, reportOf_handles,
          handlesIn_eq h hsplit (by decide), handlesIn_eq h hsplit (by decide)]
        rfl
      · rw [if_neg hreport, if_neg hreport, ih]

lemma bootCccd_eq (h : Hosts table service)
    (hsplit : service.characteristics = before ++ chars) (cccd : UInt16) :
    bootCccd uuid16 service.endHandle (service.attributes.filterMap Gatt.Attribute.descriptor?)
        (chars.filterMap CharacteristicDefinition.found?) cccd =
      ((listedWith uuid16 chars).map bootHandle).getLastD cccd := by
  induction chars generalizing before cccd with
  | nil => rfl
  | cons c rest ih =>
    have ih := ih (hsplit.trans (append_cons ..))
    obtain ⟨hnone, hlist⟩ | ⟨uuid, hfound, hlist⟩ := listedWith_cons uuid16 c rest
    · rw [filterMap_cons_none hnone, hlist, ih]
    · rw [filterMap_cons_some hfound, bootCccd, ih, hlist]
      by_cases hboot : uuid = uuid16
      · rw [if_pos hboot, if_pos hboot, map_cons, getLastD_cons, findDescriptor_eq,
          handlesIn_eq h hsplit (by decide)]
        rfl
      · rw [if_neg hboot, if_neg hboot]

lemma lastValueHandle_eq (chars : List CharacteristicDefinition) :
    lastValueHandle uuid16 (chars.filterMap CharacteristicDefinition.found?) =
      ((listedWith uuid16 chars).map (·.characteristic.valueHandle)).getLastD 0 := by
  have hmap : ((chars.filterMap CharacteristicDefinition.found?).filter fun c =>
      decide (c.uuid16 = uuid16)).map Characteristic.valueHandle =
        (listedWith uuid16 chars).map (·.characteristic.valueHandle) := by
    induction chars with
    | nil => rfl
    | cons c rest ih =>
      obtain ⟨hnone, hlist⟩ | ⟨uuid, hfound, hlist⟩ := listedWith_cons uuid16 c rest
      · rw [filterMap_cons_none hnone, hlist, ih]
      · rw [filterMap_cons_some hfound, hlist]
        by_cases hsame : uuid = uuid16
        · rw [filter_cons_of_pos (by simpa using hsame), map_cons, ih, if_pos hsame,
            map_cons]
        · rw [filter_cons_of_neg (by simpa using hsame), ih, if_neg hsame]
  rw [lastValueHandle, foldl_ite_getLastD, hmap]

variable {l : Listing}

lemma exists_attribute_of_mem_handlesOf {c : CharacteristicDefinition} {handle : UInt16}
    (h : handle ∈ c.handlesOf uuid16) : ∃ a ∈ c.attributes, a.handle = handle := by
  obtain ⟨d, hd, hsome⟩ := mem_filterMap.mp h
  split at hsome
  · refine ⟨Gatt.descriptorAttribute d, ?_, Option.some.inj hsome⟩
    exact mem_cons_of_mem _ (mem_cons_of_mem _ (mem_map_of_mem hd))
  · cases hsome

lemma alone_iff : Alone l uuid16 ↔ l.followers.flatMap (·.handlesOf uuid16) = [] :=
  flatMap_eq_nil_iff.symm

section

variable (h : Hosts table service) (hl : l ∈ listed service.characteristics)
include h hl

lemma followers_behind {a : Gatt.Attribute} (ha : a ∈ l.characteristic.attributes) {handle : UInt16}
    (hhandle : handle ∈ l.followers.flatMap (·.handlesOf uuid16)) : a.handle < handle := by
  obtain ⟨before, rest, hsplit, hfollowers⟩ := Gatt.mem_listed hl
  have hascending := h.characteristics_ascending
  rw [hsplit] at hascending
  obtain ⟨-, htail, -⟩ := pairwise_append.mp hascending
  obtain ⟨f, hf, hmem⟩ := mem_flatMap.mp hhandle
  rw [hfollowers] at hf
  obtain ⟨b, hb, rfl⟩ := exists_attribute_of_mem_handlesOf hmem
  exact (pairwise_cons.mp htail).1 f ((takeWhile_sublist _).subset hf) a ha b hb

lemma handlesOf_disjoint :
    ∀ handle ∈ l.characteristic.handlesOf uuid16,
      handle ∉ l.followers.flatMap (·.handlesOf uuid16) := by
  intro handle hown hother
  obtain ⟨a, ha, rfl⟩ := exists_attribute_of_mem_handlesOf hown
  exact absurd (followers_behind h hl ha hother) (UInt16.lt_irrefl _)

lemma zero_not_mem_followers :
    0 ∉ l.followers.flatMap (·.handlesOf uuid16) := by
  intro hzero
  have hlt := UInt16.lt_iff_toNat_lt.mp (followers_behind h hl mem_cons_self hzero)
  exact absurd hlt (Nat.not_lt_zero _)

lemma belongs_iff {handle : UInt16} : Belongs service l.characteristic.valueHandle uuid16 handle ↔
      handle ∈ l.characteristic.handlesOf uuid16 := by
  obtain ⟨before, rest, hsplit, -⟩ := Gatt.mem_listed hl
  have hmem : l.characteristic ∈ service.characteristics := by
    rw [hsplit]
    exact mem_append_right before mem_cons_self
  have hvalue (c : CharacteristicDefinition) :
      (⟨c.valueHandle, .other c.uuid⟩ : Gatt.Attribute) ∈ c.attributes :=
    mem_cons_of_mem _ mem_cons_self
  have hnodup : (service.characteristics.map CharacteristicDefinition.valueHandle).Nodup := by
    refine h.characteristics_ascending.map _ fun c c' hlt hsame => ?_
    have hless := hlt _ (hvalue c) _ (hvalue c')
    rw [hsame] at hless
    exact absurd hless (UInt16.lt_irrefl _)
  constructor
  · rintro ⟨c, hc, hsame, hhandle⟩
    rwa [← inj_on_of_nodup_map hnodup hc hmem hsame]
  · exact fun hhandle => ⟨l.characteristic, hmem, rfl, hhandle⟩

lemma last_belongs_iff :
    ((l.handlesOf uuid16).getLastD 0 ≠ 0 → Belongs service l.characteristic.valueHandle uuid16
      ((l.handlesOf uuid16).getLastD 0)) ↔ Alone l uuid16 := by
  rw [belongs_iff h hl, alone_iff]
  exact getLastD_append_iff (zero_not_mem_followers h hl) (handlesOf_disjoint h hl)

lemma first_belongs_iff :
    ((l.handlesOf uuid16).headD 0 ≠ 0 → Belongs service l.characteristic.valueHandle uuid16
      ((l.handlesOf uuid16).headD 0)) ↔
        (l.characteristic.handlesOf uuid16 = [] → Alone l uuid16) := by
  rw [belongs_iff h hl, alone_iff]
  exact headD_append_iff (zero_not_mem_followers h hl) (handlesOf_disjoint h hl)

end

lemma boot_belongs_iff (h : Hosts table service) :
    (((listedWith uuid16 service.characteristics).map bootHandle).getLastD 0 ≠ 0 →
      Belongs service
        (((listedWith uuid16 service.characteristics).map
          (·.characteristic.valueHandle)).getLastD 0)
        uuidCccd (((listedWith uuid16 service.characteristics).map bootHandle).getLastD 0)) ↔
      ∀ l, (listedWith uuid16 service.characteristics).getLast? = some l →
        l.characteristic.handlesOf uuidCccd = [] → Alone l uuidCccd := by
  rw [getLastD_eq_getLast?, getLastD_eq_getLast?, getLast?_map, getLast?_map]
  cases hlast : (listedWith uuid16 service.characteristics).getLast? with
  | none => exact ⟨nofun, fun _ hne => absurd rfl hne⟩
  | some l =>
    have hl := mem_of_mem_filter (mem_of_getLast? hlast)
    refine (first_belongs_iff h hl).trans ⟨?_, fun hall => hall l rfl⟩
    rintro hone l' hsame
    rwa [← Option.some.inj hsame]

variable {env : Env} {w : World}

lemma Exact.answer (hexact : Exact table w) {call : Call} {completion : Gatt.Completion}
    (hanswered : Answered (current w.history) call completion) {query : Gatt.Query}
    (hquery : call.query? = some query) : completion.found = query.expected table :=
  hexact.answers call completion query ((takeWhile_sublist _).subset hanswered.1) hanswered.2
    hquery

lemma Exact.recorded (hexact : Exact table w) (h : Hosts table service) {r : Recorded}
    (hdiscovered : Discovered r (current w.history))
    (hstart : r.service.startHandle = service.startHandle) :
    r.service.endHandle = service.endHandle ∧
      r.characteristics = service.characteristics.filterMap CharacteristicDefinition.found? ∧
      r.descriptors = service.attributes.filterMap Gatt.Attribute.descriptor? := by
  have hend : r.service.endHandle = service.endHandle := by
    obtain ⟨completion, hanswered, hfind⟩ := hdiscovered.service
    refine h.expected_service ?_ hstart
    rw [← hexact.answer hanswered rfl]
    obtain ⟨f, hf, hservice⟩ := mem_filterMap.mp (mem_of_find?_eq_some hfind)
    cases f with
    | service s =>
      obtain rfl := Option.some.inj hservice
      exact hf
    | characteristic | descriptor => cases hservice
  refine ⟨hend, ?_, ?_⟩
  · obtain ⟨completion, hanswered, hchars⟩ := hdiscovered.characteristics
    rw [hstart, hend] at hanswered
    rw [← hchars, characteristicsOf, hexact.answer hanswered rfl, h.expected_characteristics,
      filterMap_map]
    exact filterMap_some
  · obtain ⟨completion, hanswered, hdescriptors⟩ := hdiscovered.descriptors
    rw [hstart, hend] at hanswered
    rw [← hdescriptors, descriptorsOf, hexact.answer hanswered rfl, h.expected_descriptors,
      filterMap_map]
    exact filterMap_some

lemma Exact.reports (hexact : Exact table w) (h : Hosts table service) {r : Recorded}
    (hdiscovered : Discovered r (current w.history))
    (hstart : r.service.startHandle = service.startHandle) :
    r.reports =
      ((listedWith uuidReport service.characteristics).take maxReports).map reportHandles := by
  obtain ⟨hend, hchars, hdescriptors⟩ := hexact.recorded h hdiscovered hstart
  rw [hdiscovered.reports, map_take, Recorded.reportCharacteristics, hend, hchars,
    hdescriptors, reportCharacteristics_handles h (nil_append _).symm, map_take]

/-- In every run against a server that answers discoveries from its table, after a discovery has
been reported as a success: the handles that are recorded belong to the characteristics of the
service that they are recorded for just if no 128-bit characteristic behind one of these has a
descriptor that is taken for its own. -/
theorem run_owned_iff (env : Env) (table : Gatt.Table) (service : ServiceDefinition)
    (hhosts : Hosts table service) (inputs : List Input) (hserved : Served table env inputs)
    (hok : .finished .ok ∈ current (run env inputs).history)
    (hservice : (run env inputs).client.service.startHandle = service.startHandle) :
    Owned service (run env inputs).client.recorded ↔ Separated service.characteristics := by
  have hexact := run_exact hserved
  have hdiscovered := ((run_inv env inputs).done hok).toDiscovered
  generalize run env inputs = w at *
  obtain ⟨hend, hchars, hdescriptors⟩ := hexact.recorded hhosts hdiscovered hservice
  have hreports := hexact.reports hhosts hdiscovered hservice
  have hkeyboardHandle := hdiscovered.bootKeyboardHandle
  have hmouseHandle := hdiscovered.bootMouseHandle
  have hkeyboard := hdiscovered.bootKeyboard
  have hmouse := hdiscovered.bootMouse
  rw [hchars, lastValueHandle_eq] at hkeyboardHandle hmouseHandle
  rw [hend, hchars, hdescriptors, bootCccd_eq hhosts (nil_append _).symm] at hkeyboard hmouse
  have hreport (l : Listing)
      (hl : l ∈ (listedWith uuidReport service.characteristics).take maxReports) :=
    mem_of_mem_filter (mem_of_mem_take hl)
  constructor
  · rintro ⟨howned, hownedKeyboard, hownedMouse⟩
    rw [hkeyboard, hkeyboardHandle, boot_belongs_iff hhosts] at hownedKeyboard
    rw [hmouse, hmouseHandle, boot_belongs_iff hhosts] at hownedMouse
    refine ⟨fun l hl => ?_, hownedKeyboard, hownedMouse⟩
    obtain ⟨hcccd, hreference⟩ := howned (reportHandles l)
      (by rw [hreports]; exact mem_map_of_mem hl)
    exact ⟨(last_belongs_iff hhosts (hreport l hl)).mp hcccd,
      (last_belongs_iff hhosts (hreport l hl)).mp hreference⟩
  · rintro ⟨hseparated, hseparatedKeyboard, hseparatedMouse⟩
    rw [← boot_belongs_iff hhosts, ← hkeyboard, ← hkeyboardHandle] at hseparatedKeyboard
    rw [← boot_belongs_iff hhosts, ← hmouse, ← hmouseHandle] at hseparatedMouse
    refine ⟨fun report hreportMem => ?_, hseparatedKeyboard, hseparatedMouse⟩
    rw [hreports] at hreportMem
    obtain ⟨l, hl, rfl⟩ := mem_map.mp hreportMem
    obtain ⟨hcccd, hreference⟩ := hseparated l hl
    exact ⟨(last_belongs_iff hhosts (hreport l hl)).mpr hcccd,
      (last_belongs_iff hhosts (hreport l hl)).mpr hreference⟩

lemma Served.concat {inputs : List Input} (h : Served table env inputs) {input : Input}
    (hinput : input.Answering table (run env inputs)) : Served table env (inputs ++ [input]) := by
  intro done x rest hsplit
  rcases eq_nil_or_concat rest with rfl | ⟨rest, last, rfl⟩
  · obtain ⟨rfl, hx⟩ := append_inj' hsplit rfl
    rwa [singleton_inj.mp hx]
  · rw [concat_eq_append, ← cons_append, ← append_assoc] at hsplit
    exact h done x rest (append_inj' hsplit rfl).1

lemma Served.answers (server : Server) (n : ℕ) {inputs : List Input}
    (h : Served server.table env inputs) :
    Served server.table env (inputs ++ server.answers env n (run env inputs)) := by
  induction n generalizing inputs with
  | zero => rwa [Server.answers, append_nil]
  | succ n ih =>
    have hreply : Gatt.Answering server.table (run env inputs).gatt
        (.data (server.reply (Gatt.lastRequest (run env inputs).gatt.history)) 1) := by
      unfold Gatt.Answering
      split
      next opcode params _ hdata =>
        intro _ hrequest _
        rw [← (Gatt.Input.data.inj hdata).1]
        exact .honest (server.reply_honest hrequest)
      · trivial
    have hrun (x : Input) : run env (inputs ++ [x]) = apply env (run env inputs) x :=
      foldl_append
    have hnext := ih (Served.concat h (show Input.Answering server.table _ (.gatt _) from hreply))
    rw [hrun] at hnext
    rw [Server.answers, append_cons]
    exact hnext

lemma served_discovery (server : Server) (n : ℕ) :
    Served server.table promptEnv (server.discovery n) := by
  have hnil : Served server.table promptEnv [] := fun done x rest hsplit => by simp at hsplit
  have hconnect : Served server.table promptEnv [.gatt (.connect true true 1)] :=
    hnil.concat trivial
  have hexchange : Served server.table promptEnv [.gatt (.connect true true 1),
      .gatt (.data [Gatt.opcodeExchangeMtuResponse, 247, 0] 1)] :=
    hconnect.concat fun hactive => absurd (by decide) hactive.2
  have hopening : Served server.table promptEnv opening := hexchange.concat trivial
  exact hopening.answers server n

instance (l : Listing) (uuid16 : UInt16) : Decidable (Alone l uuid16) :=
  inferInstanceAs (Decidable (∀ f ∈ l.followers, f.handlesOf uuid16 = []))

instance (service : ServiceDefinition) (valueHandle uuid16 handle : UInt16) :
    Decidable (Belongs service valueHandle uuid16 handle) :=
  inferInstanceAs (Decidable (∃ c ∈ service.characteristics, _))

def vendorService (type : UInt16) : ServiceDefinition where
  startHandle := 1
  endHandle := 16
  uuid := .short uuidService
  includes := []
  characteristics :=
    [⟨2, 0x02, 3, .short uuidReportMap, []⟩,
      ⟨4, 0x12, 5, .short uuidReport, [(6, .short uuidCccd), (7, .short uuidReportReference)]⟩,
      ⟨8, 0x12, 9, .long default, [(10, .short type)]⟩,
      ⟨11, 0x12, 12, .short uuidBootKeyboardInput, [(13, .short uuidCccd)]⟩,
      ⟨14, 0x12, 15, .long default, [(16, .short uuidCccd)]⟩]

def vendorServer (type : UInt16) : Server where
  table :=
    ⟨(vendorService type).attributes,
      pairwise_map.mp (show List.Pairwise (· < ·)
        ([1, 2, 3, 4, 5, 6, 7, 8, 9, 10, 11, 12, 13, 14, 15, 16] : List UInt16) by decide),
      ⟨forall_mem_singleton.mpr (show (1 : UInt16).toNat ≤ (16 : UInt16).toNat by decide),
        pairwise_singleton _ _⟩⟩
  value handle := if handle = 3 then bootKeyboardMap else [0, reportTypeInput]

lemma vendorServer_hosts (type : UInt16) :
    Hosts (vendorServer type).table (vendorService type) := by
  refine ⟨⟨[], [], (append_nil _).symm, nofun⟩, ?_⟩
  have hhandles := show ([1, 2, 3, 4, 5, 6, 7, 8, 9, 10, 11, 12, 13, 14, 15, 16] : List UInt16).all
      (decide <| · ≤ 16) = true by decide
  exact fun a ha =>
    of_decide_eq_true (all_eq_true.mp hhandles a.handle (mem_map_of_mem ha))

theorem vendorServer_owned :
    .finished .ok ∈ current (run promptEnv ((vendorServer 0x2901).discovery 15)).history ∧
      Owned (vendorService 0x2901)
        (run promptEnv ((vendorServer 0x2901).discovery 15)).client.recorded := by
  have hok : .finished .ok ∈
      current (run promptEnv ((vendorServer 0x2901).discovery 15)).history := by decide +kernel
  refine ⟨hok, (run_owned_iff promptEnv _ _ (vendorServer_hosts 0x2901) _
    (served_discovery (vendorServer 0x2901) 15) hok (by decide +kernel)).mpr ⟨?_, ?_, ?_⟩⟩
  · decide
  · intro l hl
    obtain rfl := Option.some.inj hl
    exact nofun
  · intro l hl
    cases hl

/-- A CCCD is taken for the report's own. -/
theorem vendorServer_not_owned :
    Hosts (vendorServer uuidCccd).table (vendorService uuidCccd) ∧
      Served (vendorServer uuidCccd).table promptEnv ((vendorServer uuidCccd).discovery 15) ∧
      .finished .ok ∈ current (run promptEnv ((vendorServer uuidCccd).discovery 15)).history ∧
      ¬ Owned (vendorService uuidCccd)
        (run promptEnv ((vendorServer uuidCccd).discovery 15)).client.recorded := by
  refine ⟨vendorServer_hosts uuidCccd, served_discovery (vendorServer uuidCccd) 15,
    by decide +kernel, fun howned => ?_⟩
  have hrecorded : (5, 10, 7) ∈
      (run promptEnv ((vendorServer uuidCccd).discovery 15)).client.recorded.reports := by
    decide +kernel
  exact absurd ((howned.reports _ hrecorded).1 (by decide)) (by decide)

end Bluzing.Hogp
