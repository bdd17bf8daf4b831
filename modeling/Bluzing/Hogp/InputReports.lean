import Bluzing.Hogp.Ownership

/-! The subscription to the input reports of a HID service, for the descriptors that the reports
have in the table of the server. -/
namespace Bluzing.Hogp
open List
open Gatt (Hosts Listing ServiceDefinition listed)

variable {table : Gatt.Table} {service : ServiceDefinition} {uuid16 : UInt16} {l : Listing}

lemma handlesOf_ne_zero (h : Hosts table service) (hl : l ∈ listed service.characteristics)
    (hother : uuid16 ≠ Gatt.uuidCharacteristic) {handle : UInt16}
    (hhandle : handle ∈ l.handlesOf uuid16) : handle ≠ 0 := by
  obtain ⟨before, rest, hsplit, hfollowers⟩ := Gatt.mem_listed hl
  have heq := handlesIn_eq h hsplit hother
  rw [← hfollowers] at heq
  rw [← heq] at hhandle
  obtain ⟨d, hd, rfl⟩ := mem_map.mp hhandle
  have hlow := (of_decide_eq_true (mem_filter.mp hd).2).1
  rintro hzero
  rw [hzero] at hlow
  exact absurd (UInt16.lt_iff_toNat_lt.mp hlow) (Nat.not_lt_zero _)

lemma Alone.handlesOf (h : Alone l uuid16) :
    l.handlesOf uuid16 = l.characteristic.handlesOf uuid16 := by
  rw [Listing.handlesOf, alone_iff.mp h, append_nil]

/-- In every run each discovery is reported at most once. After a success has been reported, against
a server that answers discoveries from its table: each of the first eight Report characteristics of
the service that has a Report Reference has had it read, and if it says Input, a write of `0x0001`
to a CCCD of this characteristic has been acknowledged, provided that no 128-bit characteristic
behind one of the eight has a descriptor that is taken for its own. -/
theorem run_reported_subscribed (env : Env) (inputs : List Input) :
    Always ReportedOnce (run env inputs).history ∧
      ∀ table service, Hosts table service → Served table env inputs →
        .finished .ok ∈ current (run env inputs).history →
        (run env inputs).client.service.startHandle = service.startHandle →
        (∀ l ∈ (listedWith uuidReport service.characteristics).take maxReports,
          Alone l uuidCccd ∧ Alone l uuidReportReference) →
        ∀ l ∈ (listedWith uuidReport service.characteristics).take maxReports,
        ∀ reference, (l.characteristic.handlesOf uuidReportReference).getLast? = some reference →
          ∃ reportId reportType,
            ReferenceRead (current (run env inputs).history) reference reportId reportType ∧
            (reportType = reportTypeInput → ∃ cccd ∈ l.characteristic.handlesOf uuidCccd,
              Acknowledged (current (run env inputs).history) cccd) := by
  have hinv := run_inv env inputs
  refine ⟨hinv.once, fun table service hhosts hserved hok hstart halone l hl reference href => ?_⟩
  have hexact := run_exact hserved
  generalize run env inputs = w at *
  have hdone := hinv.done hok
  have hreports := hexact.reports hhosts hdone.toDiscovered hstart
  have hlisted := mem_of_mem_filter (mem_of_mem_take hl)
  obtain ⟨hcccdAlone, hrefAlone⟩ := halone l hl
  -- the report is in the table of the client, with the handles of its listing
  obtain ⟨i, hi⟩ := mem_iff_getElem?.mp hl
  have hhandles : (w.client.reports.items.map Report.handles)[i]? = some (reportHandles l) := by
    rw [show w.client.reports.items.map Report.handles = _ from hreports, getElem?_map, hi]
    rfl
  rw [getElem?_map] at hhandles
  obtain ⟨r, hr, hsame⟩ := Option.map_eq_some_iff.mp hhandles
  rw [reportHandles, hcccdAlone.handlesOf, hrefAlone.handlesOf] at hsame
  obtain ⟨-, hcccd, hreference⟩ : _ ∧ _ ∧ _ := by
    simpa only [Report.handles, Prod.mk.injEq] using hsame
  rw [getLastD_eq_getLast?, href, Option.getD_some] at hreference
  have hne : reference ≠ 0 := by
    have hmem := mem_of_getLast? href
    rw [← hrefAlone.handlesOf] at hmem
    exact handlesOf_ne_zero hhosts hlisted (by decide) hmem
  have hlt := (List.getElem?_eq_some_iff.mp hr).1
  have hread := hdone.read i r hr
  rw [if_pos hlt, ReportRead, if_neg (by rwa [hreference]), hreference] at hread
  refine ⟨r.reportId, r.reportType, hread, fun htype => ⟨r.cccdHandle, ?_, ?_⟩⟩
  · have hwritten := (hdone.subscribed i hlt r hr htype).1
    rw [hcccd] at hwritten ⊢
    cases hown : l.characteristic.handlesOf uuidCccd with
    | nil => rw [hown] at hwritten; exact absurd rfl hwritten
    | cons handle own => exact getLast_mem _
  · exact (hdone.subscribed i hlt r hr htype).2

def ninthService : ServiceDefinition where
  startHandle := 1
  endHandle := 0xFFFF
  uuid := .short uuidService
  includes := []
  characteristics :=
    ⟨2, 0x02, 3, .short uuidReportMap, []⟩ ::
      ([4, 7, 10, 13, 16, 19, 22, 25].map fun handle =>
        ⟨handle, 0x0A, handle + 1, .short uuidReport,
          [(handle + 2, .short uuidReportReference)]⟩) ++
      [⟨28, 0x12, 29, .short uuidReport,
        [(30, .short uuidReportReference), (31, .short uuidCccd)]⟩]

def ninthServer : Server where
  table := ⟨ninthService.attributes, by decide, ⟨by decide, by decide⟩⟩
  value handle :=
    if handle = 3 then bootKeyboardMap
    else if handle = 30 then [9, reportTypeInput]
    else [handle.toUInt8, reportTypeFeature]

lemma not_acknowledged {s : List Event} {cccd : UInt16}
    (h : .issued (.write cccd notifyEnabled) ∉ s) : ¬ Acknowledged s cccd := by
  rintro ⟨completion, params, older, hsuffix, -, hmem⟩
  exact h (hsuffix.subset (mem_cons_of_mem _ (mem_cons_of_mem _ hmem)))

/-- A ninth input report is not subscribed to, and success is reported; the same if a CCCD of a
128-bit characteristic is taken for the one of the report before it. -/
theorem ninthReport_unsubscribed :
    ninthService.characteristics[9]? = some ⟨28, 0x12, 29, .short uuidReport,
        [(30, .short uuidReportReference), (31, .short uuidCccd)]⟩ ∧
      ninthServer.table.attributes = ninthService.attributes ∧
      ninthServer.value 30 = [9, reportTypeInput] ∧
      .finished .ok ∈ current (run promptEnv (ninthServer.discovery 14)).history ∧
      ¬ Acknowledged (current (run promptEnv (ninthServer.discovery 14)).history) 31 ∧
      .finished .ok ∈ current (run promptEnv ((vendorServer uuidCccd).discovery 15)).history ∧
      ¬ Acknowledged (current (run promptEnv ((vendorServer uuidCccd).discovery 15)).history) 6 :=
  ⟨rfl, rfl, by decide, by decide +kernel, not_acknowledged (by decide +kernel),
    by decide +kernel, not_acknowledged (by decide +kernel)⟩

end Bluzing.Hogp
