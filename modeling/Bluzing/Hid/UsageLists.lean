import Bluzing.Hid.Reading

/-! The usages of the elements of a variable Input item. -/
namespace Bluzing.Hid
open List

def usageRange (lo hi : UInt16) : List UInt16 :=
  (range (hi.toNat + 1 - lo.toNat)).map fun k => UInt16.ofNat (lo.toNat + k)

/-- The usages of these local items in order of appearance, the ranges expanded; a minimum or
maximum waits for its counterpart. -/
def listUsages (lo hi : Option UInt16) : List Use → List UInt16
  | [] => []
  | u :: uses =>
      match u.kind, lo, hi with
      | .usage, _, _ => u.value :: listUsages lo hi uses
      | .minimum, _, some hi => usageRange u.value hi ++ listUsages none none uses
      | .minimum, _, none => listUsages (some u.value) none uses
      | .maximum, some lo, _ => usageRange lo u.value ++ listUsages none none uses
      | .maximum, none, _ => listUsages none (some u.value) uses

def listed (uses : List Use) : List UInt16 := listUsages none none uses

def InputItem.fieldCount (i : InputItem) : ℕ :=
  if isVariable i.flags then i.sizes.count % 65536 else 1

variable {data : Bytes} {d : Descriptor} {pre post : List InputItem} {i : InputItem}

variable {uses : List Use} {k : ℕ}

variable {lo hi : Use}

end Bluzing.Hid
