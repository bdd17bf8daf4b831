import Bluzing.Lib.Trace
import Bluzing.Core.Codec
import Bluzing.Controller.EventBounds

/-! What one sighting of a device does to the registry, and which sightings an event brings. -/
namespace Bluzing.Controller
open List

def nameText (name : Octets deviceNameLen) : Bytes := name.bytes.takeWhile (· ≠ 0)

structure ProperName (name : Octets deviceNameLen) : Prop where
  terminated : 0 ∈ name.bytes
  printable : ∀ c ∈ nameText name, 0x20 ≤ c ∧ c ≤ 0x7E
  trimmed : (nameText name).getLast? ≠ some 0x20

lemma properName_zero : ProperName (.zero _) :=
  ⟨by decide +kernel, by decide +kernel, by decide +kernel⟩

lemma printable_printable (c : UInt8) : 0x20 ≤ printable c ∧ printable c ≤ 0x7E := by
  unfold Controller.printable
  split
  next h => exact h
  · decide

def Printed (buf : Octets deviceNameLen) (k : ℕ) : Prop :=
  ∀ j < k, ∃ c, buf.bytes[j]? = some c ∧ 0x20 ≤ c ∧ c ≤ 0x7E

lemma copyName_printed {name : Bytes} {length fuel i n : ℕ}
    {buf buf' : Octets deviceNameLen} (h : copyName name length fuel i buf = .ok (n, buf'))
    (hi : i < deviceNameLen) (hbuf : Printed buf i) : n < deviceNameLen ∧ Printed buf' n := by
  induction fuel generalizing i buf with
  | zero =>
    cases h
    exact ⟨hi, hbuf⟩
  | succ fuel ih =>
    unfold copyName at h
    split at h
    swap
    · cases h
      exact ⟨hi, hbuf⟩
    next hmore =>
    cases hc : octetAt name i with
    | error e =>
      rw [hc] at h
      cases h
    | ok c =>
      rw [hc] at h
      simp only [bind, Except.bind] at h
      split at h
      · cases h
        exact ⟨hi, hbuf⟩
      · refine ih h hmore.2 fun j hj => ?_
        rcases Nat.lt_succ_iff_lt_or_eq.mp hj with hj | rfl
        · rw [Octets.set, getElem?_set_ne (by omega)]
          exact hbuf j hj
        · refine ⟨printable c, ?_, printable_printable c⟩
          rw [Octets.set, getElem?_set_self (by rw [buf.length_eq]; exact hi)]

lemma trimSpaces_le (buf : Octets deviceNameLen) (n : ℕ) : trimSpaces buf n ≤ n := by
  induction n with
  | zero => exact Nat.le_refl 0
  | succ n ih =>
    unfold trimSpaces
    split
    · exact ih.trans (Nat.le_succ n)
    · exact Nat.le_refl _

lemma trimSpaces_last {buf : Octets deviceNameLen} {n k : ℕ} (h : trimSpaces buf n = k + 1) :
    buf.bytes.getD k 0 ≠ 0x20 := by
  induction n with
  | zero => cases h
  | succ n ih =>
    unfold trimSpaces at h
    split at h
    · exact ih h
    next hne =>
      obtain rfl := Nat.succ.inj h
      exact hne

lemma nameText_set {buf : Octets deviceNameLen} {k : ℕ} (hk : k < deviceNameLen)
    (h : Printed buf k) : nameText (buf.set k 0) = buf.bytes.take k := by
  have hlen : k < buf.bytes.length := by
    rw [buf.length_eq]
    exact hk
  have hsplit : (buf.set k 0).bytes = buf.bytes.take k ++ 0 :: buf.bytes.drop (k + 1) :=
    set_eq_take_append_cons_drop.trans (if_pos hlen)
  have hne : ∀ c ∈ buf.bytes.take k, (decide (c ≠ 0)) = true := by
    intro c hc
    obtain ⟨j, hj, rfl⟩ := mem_iff_getElem.mp hc
    rw [length_take] at hj
    obtain ⟨c, hc, hlow, -⟩ := h j (by omega)
    rw [getElem_take]
    rw [getElem?_eq_getElem (by omega)] at hc
    rw [Option.some.inj hc, decide_eq_true_iff]
    rintro rfl
    exact absurd hlow (by decide)
  rw [nameText, hsplit, takeWhile_append_of_pos hne, takeWhile_cons_of_neg (by decide),
    append_nil]

lemma properName_set {buf : Octets deviceNameLen} {n : ℕ} (hn : n < deviceNameLen)
    (h : Printed buf n) : ProperName (buf.set (trimSpaces buf n) 0) := by
  have hle := trimSpaces_le buf n
  have hlast := @trimSpaces_last buf n
  generalize trimSpaces buf n = k at hle hlast
  have hk := hle.trans_lt hn
  have hlen : k < buf.bytes.length := by
    rw [buf.length_eq]
    exact hk
  have hprinted : Printed buf k := fun j hj => h j (hj.trans_le hle)
  constructor
  · exact mem_set hlen 0
  · intro c hc
    rw [nameText_set hk hprinted] at hc
    obtain ⟨j, hj, rfl⟩ := mem_iff_getElem.mp hc
    rw [length_take] at hj
    obtain ⟨c, hc, hbounds⟩ := hprinted j (by omega)
    rw [getElem?_eq_getElem (by omega)] at hc
    rw [getElem_take, Option.some.inj hc]
    exact hbounds
  · rw [nameText_set hk hprinted]
    cases k with
    | zero => exact nofun
    | succ k =>
      rw [getLast?_take, if_neg (Nat.succ_ne_zero k), Nat.add_sub_cancel]
      intro heq
      rw [getElem?_eq_getElem (by omega), Option.some_or] at heq
      have hne := hlast rfl
      rw [getD_eq_getElem?_getD, getElem?_eq_getElem (by omega), Option.getD_some] at hne
      exact hne (Option.some.inj heq)

lemma deviceSetName_ok {dev dev' : Device} {name : Option Bytes} {length : ℕ}
    {state : UInt8} (h : deviceSetName dev name length state = .ok dev') :
    dev' = dev ∨ dev.nameState < state ∧
      ∃ text, ProperName text ∧ dev' = { dev with name := text, nameState := state } := by
  unfold deviceSetName at h
  split at h
  · exact .inl (Except.ok.inj h).symm
  next name =>
  split at h
  · exact .inl (Except.ok.inj h).symm
  next hstate =>
  cases hcopy : copyName name length deviceNameLen 0 dev.name with
  | error e =>
    rw [hcopy] at h
    cases h
  | ok p =>
    rw [hcopy] at h
    obtain ⟨hn, hprinted⟩ := copyName_printed hcopy (by decide) nofun
    exact .inr ⟨UInt8.not_le.mp fun hle => hstate (.inr hle), _, properName_set hn hprinted,
      (Except.ok.inj h).symm⟩

def HasFlags (bits flags : UInt32) : Prop := bits ||| flags = flags

lemma HasFlags.refl (flags : UInt32) : HasFlags flags flags := UInt32.or_self

lemma HasFlags.trans {a b c : UInt32} (h₁ : HasFlags a b) (h₂ : HasFlags b c) : HasFlags a c := by
  unfold HasFlags at *
  rw [← h₂, ← UInt32.or_assoc, h₁]

lemma hasFlags_or_left (a b : UInt32) : HasFlags a (a ||| b) := by
  rw [HasFlags, ← UInt32.or_assoc, UInt32.or_self]

lemma hasFlags_or_right (a b : UInt32) : HasFlags b (a ||| b) := by
  rw [UInt32.or_comm]
  exact hasFlags_or_left b a

structure Device.Grows (d d' : Device) : Prop where
  addr : d'.addr = d.addr
  flags : HasFlags d.flags d'.flags
  nameState : d.nameState ≤ d'.nameState
  name : 2 ≤ d.nameState → d'.name = d.name
  proper : ProperName d.name → ProperName d'.name

structure Device.Annotates (d d' : Device) : Prop extends d.Grows d' where
  classOfDevice : d'.classOfDevice = d.classOfDevice
  leAddressType : d'.leAddressType = d.leAddressType
  lastRssi : d'.lastRssi = d.lastRssi
  sightings : d'.sightings = d.sightings

variable {d d' d'' : Device} {info : LeAdvInfo}

lemma Device.Grows.refl (d : Device) : d.Grows d :=
  ⟨rfl, .refl _, UInt8.le_refl _, fun _ => rfl, id⟩

lemma Device.Grows.trans (h₁ : d.Grows d') (h₂ : d'.Grows d'') : d.Grows d'' where
  addr := h₂.addr.trans h₁.addr
  flags := h₁.flags.trans h₂.flags
  nameState := UInt8.le_trans h₁.nameState h₂.nameState
  name hs := (h₂.name (UInt8.le_trans hs h₁.nameState)).trans (h₁.name hs)
  proper := h₂.proper ∘ h₁.proper

lemma Device.Annotates.trans (h₁ : d.Annotates d') (h₂ : d'.Annotates d'') : d.Annotates d'' where
  toGrows := h₁.toGrows.trans h₂.toGrows
  classOfDevice := h₂.classOfDevice.trans h₁.classOfDevice
  leAddressType := h₂.leAddressType.trans h₁.leAddressType
  lastRssi := h₂.lastRssi.trans h₁.lastRssi
  sightings := h₂.sightings.trans h₁.sightings

lemma Device.annotates_refl (d : Device) : d.Annotates d := ⟨.refl d, rfl, rfl, rfl, rfl⟩

lemma annotates_flags (d : Device) (flags : UInt32) :
    d.Annotates { d with flags := d.flags ||| flags } :=
  ⟨⟨rfl, hasFlags_or_left .., UInt8.le_refl _, fun _ => rfl, id⟩, rfl, rfl, rfl, rfl⟩

lemma annotates_hid (d : Device) (hid : Bool) :
    d.Annotates (if hid then { d with flags := d.flags ||| deviceFlagHid } else d) := by
  split
  · exact annotates_flags d deviceFlagHid
  · exact d.annotates_refl

lemma annotates_setName {name : Option Bytes} {length : ℕ} {state : UInt8}
    (h : deviceSetName d name length state = .ok d') (hstate : state ≤ 2) : d.Annotates d' := by
  rcases deviceSetName_ok h with rfl | ⟨hlt, text, htext, rfl⟩
  · exact d'.annotates_refl
  · refine ⟨⟨rfl, .refl _, UInt8.le_of_lt hlt, fun hgiven => ?_, fun _ => htext⟩, rfl, rfl, rfl,
      rfl⟩
    exact absurd (UInt8.lt_of_le_of_lt hgiven (UInt8.lt_of_lt_of_le hlt hstate)) (UInt8.lt_irrefl 2)

lemma annotates_appearance {appearance : UInt16} (h : noteAppearance d appearance = .ok d') :
    d.Annotates d' := by
  unfold noteAppearance at h
  split at h
  · have hset : d.Annotates { d with appearance } :=
      ⟨⟨rfl, .refl _, UInt8.le_refl _, fun _ => rfl, id⟩, rfl, rfl, rfl, rfl⟩
    exact hset.trans (annotates_setName h (by decide))
  · obtain rfl := Except.ok.inj h
    exact d.annotates_refl

lemma annotates_advertising (h : noteAdvertising d info = .ok d') : d.Annotates d' := by
  obtain ⟨d₁, happearance, hname⟩ := Access.bind_ok h
  exact ((annotates_hid d info.hid).trans (annotates_appearance happearance)).trans
    (annotates_setName hname (by decide))

structure SilentField (type : UInt8) (payload : Bytes) : Prop where
  name : type ≠ 0x08 ∧ type ≠ 0x09
  service : type = 0x02 ∨ type = 0x03 → 0x1812 ∉ uuids16 payload
  appearance : type = 0x19 → ∀ b0 b1 rest, payload = b0 :: b1 :: rest → readLe16 b0 b1 = 0

def SaysNothing (data : Bytes) : Prop := ∀ f ∈ adStructures data, SilentField f.1 f.2

structure LeAdvInfo.Silent (info : LeAdvInfo) : Prop where
  name : info.name = none
  hid : info.hid = false
  appearance : info.appearance = 0

lemma leAdvParse_silent {data : Bytes} {info : LeAdvInfo}
    (h : leAdvParse data data.length = .ok info) (hsilent : SaysNothing data) : info.Silent := by
  rw [leAdvParse_eq] at h
  obtain rfl := Except.ok.inj h
  have hdescribes := describes_foldl (adStructures data)
  have happearance : ∀ a ∈ (adStructures data).filterMap appearance?, a = 0 := by
    intro a ha
    obtain ⟨f, hf, hfa⟩ := mem_filterMap.mp ha
    unfold appearance? at hfa
    split at hfa
    next htype =>
      split at hfa
      next b0 b1 rest hpayload =>
        rw [← Option.some.inj hfa]
        exact (hsilent f hf).appearance htype b0 b1 rest hpayload
      · cases hfa
    · cases hfa
  refine ⟨?_, ?_, ?_⟩
  · have hnone (type : UInt8) (htype : type = 0x08 ∨ type = 0x09) :
        (adStructures data).find? (·.1 = type) = none := by
      refine find?_eq_none.mpr fun f hf => ?_
      obtain ⟨hshort, hcomplete⟩ := (hsilent f hf).name
      rcases htype with rfl | rfl
      · simpa using hshort
      · simpa using hcomplete
    rw [hdescribes.name, hnone 0x09 (.inr rfl), hnone 0x08 (.inl rfl)]
    rfl
  · refine Bool.eq_false_iff.mpr fun hhid => ?_
    rcases hdescribes.hid.mp hhid with ⟨f, hf, htype, hservice⟩ | ⟨a, ha, hcategory⟩
    · exact (hsilent f hf).service htype hservice
    · rw [happearance a ha] at hcategory
      exact absurd hcategory (by decide)
  · rw [hdescribes.appearance]
    rcases mem_cons.mp getLastD_mem_cons with hzero | hlast
    · exact hzero
    · exact happearance _ hlast

inductive Sighting where
  | inquiry (addr : Address) (classOfDevice : UInt32)
  | extended (addr : Address) (classOfDevice : UInt32) (rssi : Int8)
  | report (r : LeAdvReport)

namespace Sighting

def addr : Sighting → Address
  | .inquiry addr _ => addr
  | .extended addr _ _ => addr
  | .report r => r.address

def Anonymous : Sighting → Prop
  | .report r => leAddrIsStable r.address r.addressType = false ∧ SaysNothing r.data
  | _ => False

def Records : Sighting → Device → Device → Prop
  | .inquiry _ classOfDevice, d, d' =>
      d'.sightings = d.sightings + 1 ∧ HasFlags deviceFlagClassic d'.flags ∧
        d'.classOfDevice = classOfDevice
  | .extended _ classOfDevice rssi, d, d' =>
      d'.sightings = d.sightings + 1 ∧ HasFlags deviceFlagClassic d'.flags ∧
        d'.classOfDevice = classOfDevice ∧ d'.lastRssi = rssi
  | .report r, d, d' =>
      d'.sightings = d.sightings + 1 ∧ HasFlags deviceFlagLe d'.flags ∧
        d'.leAddressType = r.addressType ∧ d'.lastRssi = r.rssi

end Sighting

inductive Noted (s : Sighting) (r : Registry) : Registry → Prop
  | seen {i : ℕ} {d d' : Device} {r' : Registry} (hi : r.devices[i]? = some d)
      (haddr : d.addr = s.addr) (hgrows : d.Grows d') (hrecords : s.Records d d')
      (hset : r'.devices = r.devices.set i d') : Noted s r r'
  | created {d' : Device} {r' : Registry} (hnew : ∀ d ∈ r.devices, d.addr ≠ s.addr)
      (hknown : ¬ s.Anonymous) (hgrows : (Device.init s.addr).Grows d')
      (hrecords : s.Records (.init s.addr) d') (hadd : r'.devices = r.devices ++ [d']) :
      Noted s r r'
  | ignored (hnew : ∀ d ∈ r.devices, d.addr ≠ s.addr) : Noted s r r

variable {reg : Registry} {s : Sighting} {e : DeviceRef}

lemma DeviceRef.set_dev (e : DeviceRef) (d : Device) : (e.set d).dev = d := by
  simp [DeviceRef.dev, DeviceRef.set]

lemma DeviceRef.set_set_reg (e : DeviceRef) (d d' : Device) :
    ((e.set d).set d').reg = (e.set d').reg := by
  simp [DeviceRef.set]

lemma findOrCreate_some {addr : Address} (h : findOrCreate reg addr = some e) :
    (e.reg = reg ∧ e.dev.addr = addr) ∨
      ((∀ d ∈ reg.devices, d.addr ≠ addr) ∧ e.reg.devices = reg.devices ++ [.init addr] ∧
        e.index = reg.devices.length ∧ e.dev = .init addr) := by
  unfold findOrCreate at h
  split at h
  next i hi =>
    obtain rfl := Option.some.inj h
    obtain ⟨hlt, haddr, -⟩ := findIdx?_eq_some_iff_getElem.mp hi
    exact .inl ⟨rfl, by simpa [DeviceRef.dev] using haddr⟩
  next hnone =>
    split at h
    · cases h
    · obtain rfl := Option.some.inj h
      refine .inr ⟨fun d hd => ?_, rfl, rfl, by simp [DeviceRef.dev]⟩
      simpa using findIdx?_eq_none_iff.mp hnone d hd

lemma findOrCreate_none {addr : Address} (h : findOrCreate reg addr = none) :
    ∀ d ∈ reg.devices, d.addr ≠ addr := by
  unfold findOrCreate at h
  split at h
  · cases h
  next hnone =>
    intro d hd
    simpa using findIdx?_eq_none_iff.mp hnone d hd

lemma deviceRegistryFind_eq_none_iff {addr : Address} :
    deviceRegistryFind reg addr = none ↔ ∀ d ∈ reg.devices, d.addr ≠ addr := by
  simp [deviceRegistryFind]

lemma noted_set (h : findOrCreate reg s.addr = some e) (hgrows : e.dev.Grows d')
    (hrecords : s.Records e.dev d')
    (hknown : (∀ d ∈ reg.devices, d.addr ≠ s.addr) → ¬ s.Anonymous) :
    Noted s reg (e.set d').reg := by
  rcases findOrCreate_some h with ⟨hreg, haddr⟩ | ⟨hnew, hdevices, hindex, hdev⟩
  · have hi : reg.devices[e.index]? = some e.dev := by
      rw [← hreg]
      exact getElem?_eq_getElem e.inBounds
    refine .seen hi haddr hgrows hrecords ?_
    rw [← hreg]
    rfl
  · rw [hdev] at hgrows hrecords
    refine .created hnew (hknown hnew) hgrows hrecords ?_
    change e.reg.devices.set e.index d' = _
    rw [hdevices, hindex, set_append_right _ _ (Nat.le_refl _), Nat.sub_self]
    rfl

lemma noteClassic_ok {classOfDevice : UInt32} (h : d.noteClassic classOfDevice = .ok d')
    (addr : Address) : d.Grows d' ∧ (Sighting.inquiry addr classOfDevice).Records d d' := by
  obtain ⟨d₁, hname, h⟩ := Access.bind_ok h
  obtain rfl := Except.ok.inj h
  have hclassic := annotates_flags d deviceFlagClassic
  have hhid := annotates_hid { d with flags := d.flags ||| deviceFlagClassic }
    (codIsHid classOfDevice)
  have hnamed := annotates_setName hname (by decide)
  have hall := (hclassic.trans hhid).trans hnamed
  refine ⟨⟨hall.addr, hall.flags, hall.nameState, hall.name, hall.proper⟩,
    congrArg (· + 1) hall.sightings, ?_, rfl⟩
  exact (hasFlags_or_right d.flags deviceFlagClassic).trans (hhid.trans hnamed).flags

lemma deviceRegistryNoteClassic_ok {addr : Address} {classOfDevice : UInt32}
    {found : Option DeviceRef}
    (h : deviceRegistryNoteClassic reg addr classOfDevice = .ok found) :
    (found = none ∧ ∀ d ∈ reg.devices, d.addr ≠ addr) ∨
      ∃ e d', findOrCreate reg addr = some e ∧ e.dev.noteClassic classOfDevice = .ok d' ∧
        found = some (e.set d') := by
  unfold deviceRegistryNoteClassic at h
  split at h
  next hnone => exact .inl ⟨(Except.ok.inj h).symm, findOrCreate_none hnone⟩
  next e he =>
    obtain ⟨d', hd', h⟩ := Access.bind_ok h
    exact .inr ⟨e, d', he, hd', (Except.ok.inj h).symm⟩

lemma noted_inquiry {addr : Address} {classOfDevice : UInt32} {found : Option DeviceRef}
    (h : deviceRegistryNoteClassic reg addr classOfDevice = .ok found) :
    Noted (.inquiry addr classOfDevice) reg ((found.map (·.reg)).getD reg) := by
  rcases deviceRegistryNoteClassic_ok h with ⟨rfl, hnew⟩ | ⟨e, d', he, hd', rfl⟩
  · exact .ignored hnew
  · obtain ⟨hgrows, hrecords⟩ := noteClassic_ok hd' addr
    exact noted_set he hgrows hrecords fun _ => id

lemma noted_extended {addr : Address} {classOfDevice : UInt32} {rssi : Int8} {info : LeAdvInfo}
    {d₁ d₂ : Device} (he : findOrCreate reg addr = some e)
    (hd₁ : e.dev.noteClassic classOfDevice = .ok d₁)
    (hd₂ : noteExtendedResponse d₁ rssi info = .ok d₂) :
    Noted (.extended addr classOfDevice rssi) reg ((e.set d₁).set d₂).reg := by
  obtain ⟨hgrows, hsightings, hflags, hclass⟩ := noteClassic_ok hd₁ addr
  have hrssi : d₁.Grows { d₁ with lastRssi := rssi } :=
    ⟨rfl, .refl _, UInt8.le_refl _, fun _ => rfl, id⟩
  have hnoted := (annotates_hid { d₁ with lastRssi := rssi } info.hid).trans
    (annotates_setName hd₂ (by decide))
  rw [DeviceRef.set_set_reg]
  refine noted_set he ((hgrows.trans hrssi).trans hnoted.toGrows) ?_ fun _ => id
  exact ⟨hnoted.sightings.trans hsightings, hflags.trans hnoted.flags,
    hnoted.classOfDevice.trans hclass, hnoted.lastRssi⟩

lemma noted_report {report : LeAdvReport} {reg' : Registry}
    (h : noteReport reg report = .ok reg') : Noted (.report report) reg reg' := by
  obtain ⟨info, hinfo, h⟩ := Access.bind_ok h
  split at h
  next hskip =>
    obtain rfl := Except.ok.inj h
    exact .ignored (deviceRegistryFind_eq_none_iff.mp hskip.1)
  next hkeep =>
  split at h
  next hnone =>
    obtain rfl := Except.ok.inj h
    exact .ignored (findOrCreate_none (Option.map_eq_none_iff.mp hnone))
  next e₁ he₁ =>
    obtain ⟨e, he, rfl⟩ := Option.map_eq_some_iff.mp he₁
    obtain ⟨d', hd', h⟩ := Access.bind_ok h
    obtain rfl := Except.ok.inj h
    rw [DeviceRef.set_dev] at hd'
    have hannotates := annotates_advertising hd'
    have hle : e.dev.Grows (e.dev.noteLe report.addressType report.rssi) :=
      ⟨rfl, hasFlags_or_left .., UInt8.le_refl _, fun _ => rfl, id⟩
    rw [DeviceRef.set_set_reg]
    refine noted_set he (hle.trans hannotates.toGrows) ?_ fun hnew hanonymous => hkeep ?_
    · exact ⟨hannotates.sightings, (hasFlags_or_right ..).trans hannotates.flags,
        hannotates.leAddressType, hannotates.lastRssi⟩
    · have hsilent := leAdvParse_silent hinfo hanonymous.2
      exact ⟨deviceRegistryFind_eq_none_iff.mpr hnew, hanonymous.1, hsilent.name, hsilent.hid,
        hsilent.appearance⟩

structure Registry.Sound (r : Registry) : Prop where
  count : r.devices.length ≤ deviceRegistryMax
  distinct : (r.devices.map Device.addr).Nodup
  names : ∀ d ∈ r.devices, ProperName d.name

def Registry.Grows (r r' : Registry) : Prop :=
  ∀ (i : ℕ) (d : Device), r.devices[i]? = some d → ∃ d', r'.devices[i]? = some d' ∧ d.Grows d'

structure NotedWell (s : Sighting) (r r' : Registry) : Prop where
  sound : r'.Sound
  grows : r.Grows r'
  recorded : ∀ (i : ℕ) (d : Device), r.devices[i]? = some d → d.addr = s.addr →
    ∃ d', r'.devices[i]? = some d' ∧ s.Records d d'
  anonymous : s.Anonymous → r'.devices.length = r.devices.length

namespace Registry
variable {r r' r'' : Registry} {s : Sighting}

lemma sound_init : Registry.init.Sound := ⟨Nat.zero_le _, nodup_nil, nofun⟩

lemma Grows.refl (r : Registry) : r.Grows r := fun _ d hi => ⟨d, hi, .refl d⟩

lemma Grows.trans (h₁ : r.Grows r') (h₂ : r'.Grows r'') : r.Grows r'' := by
  intro i d hi
  obtain ⟨d', hi', hd'⟩ := h₁ i d hi
  obtain ⟨d'', hi'', hd''⟩ := h₂ i d' hi'
  exact ⟨d'', hi'', hd'.trans hd''⟩

end Registry

namespace Noted
variable {s : Sighting} {r r' : Registry}

lemma grows (h : Noted s r r') : r.Grows r' := by
  cases h with
  | @seen i d d' r' hi _ hgrows _ hset =>
    intro j e hj
    rw [hset, getElem?_set]
    split
    next hij =>
      subst hij
      obtain rfl := Option.some.inj (hi.symm.trans hj)
      obtain ⟨hlt, -⟩ := List.getElem?_eq_some_iff.mp hi
      exact ⟨d', if_pos hlt, hgrows⟩
    · exact ⟨e, hj, .refl e⟩
  | @created d' r' _ _ _ _ hadd =>
    intro j e hj
    obtain ⟨hlt, -⟩ := List.getElem?_eq_some_iff.mp hj
    rw [hadd, getElem?_append_left hlt]
    exact ⟨e, hj, .refl e⟩
  | ignored => exact .refl r

lemma addrs (h : Noted s r r') :
    r'.devices.map Device.addr = r.devices.map Device.addr ∨
      s.addr ∉ r.devices.map Device.addr ∧
        r'.devices.map Device.addr = r.devices.map Device.addr ++ [s.addr] := by
  cases h with
  | @seen i d d' r' hi _ hgrows _ hset =>
    have hsame : (r.devices.map Device.addr)[i]? = some d'.addr := by
      rw [getElem?_map, hi, hgrows.addr]
      rfl
    obtain ⟨hlt, hsame⟩ := List.getElem?_eq_some_iff.mp hsame
    rw [hset, map_set, ← hsame]
    exact .inl (set_getElem_self hlt)
  | @created d' r' hnew _ hgrows _ hadd =>
    refine .inr ⟨fun hm => ?_, ?_⟩
    · obtain ⟨d, hd, haddr⟩ := mem_map.mp hm
      exact hnew d hd haddr
    · rw [hadd, map_append, map_singleton, hgrows.addr]
      rfl
  | ignored => exact .inl rfl

lemma sound (h : Noted s r r') (hr : r.Sound) : r'.Sound := by
  refine ⟨r'.fits, ?_, ?_⟩
  · rcases h.addrs with hsame | ⟨hnew, hadd⟩
    · rw [hsame]
      exact hr.distinct
    · rw [hadd]
      exact List.Nodup.append hr.distinct (nodup_singleton _)
        (disjoint_singleton.mpr hnew)
  · intro e he
    cases h with
    | @seen i d d' r' hi _ hgrows _ hset =>
      rw [hset] at he
      rcases mem_or_eq_of_mem_set he with he | rfl
      · exact hr.names e he
      · exact hgrows.proper (hr.names d (mem_of_getElem? hi))
    | @created d' r' _ _ hgrows _ hadd =>
      rw [hadd, mem_append, mem_singleton] at he
      rcases he with he | rfl
      · exact hr.names e he
      · exact hgrows.proper properName_zero
    | ignored => exact hr.names e he

lemma recorded (h : Noted s r r') (hr : r.Sound) {i : ℕ} {d : Device}
    (hi : r.devices[i]? = some d) (haddr : d.addr = s.addr) :
    ∃ d', r'.devices[i]? = some d' ∧ s.Records d d' := by
  cases h with
  | @seen j e d' r' hj heq hgrows hrecords hset =>
    have haddrs : (r.devices.map Device.addr)[i]? = (r.devices.map Device.addr)[j]? := by
      rw [getElem?_map, getElem?_map, hi, hj, Option.map_some, Option.map_some, haddr,
        heq]
    obtain ⟨hlt, -⟩ := List.getElem?_eq_some_iff.mp hi
    obtain rfl := (getElem?_inj (by simpa using hlt) hr.distinct).mp haddrs
    obtain rfl := Option.some.inj (hi.symm.trans hj)
    rw [hset, getElem?_set_self hlt]
    exact ⟨d', rfl, hrecords⟩
  | created hnew | ignored hnew => exact absurd haddr (hnew d (mem_of_getElem? hi))

lemma well (h : Noted s r r') (hr : r.Sound) : NotedWell s r r' where
  sound := h.sound hr
  grows := h.grows
  recorded _ _ := h.recorded hr
  anonymous hs := by
    cases h with
    | seen _ _ _ _ hset => rw [hset, length_set]
    | created _ hknown => exact absurd hs hknown
    | ignored => rfl

end Noted

end Bluzing.Controller
