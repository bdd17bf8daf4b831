import Bluzing.Lib.Trace
import Bluzing.Core.Codec
import Bluzing.Hid.ReportParser

/-! A report descriptor as a list of short items, and `bt_hid_report_parse` as a run over it. -/
namespace Bluzing.Hid

structure ShortItem where
  lead : UInt8
  data : Bytes
  deriving DecidableEq

def shortItems : ℕ → Bytes → Option (List ShortItem)
  | 0, _ => some []
  | _ + 1, [] => some []
  | fuel + 1, lead :: rest =>
      if lead = 0xFE then
        match rest with
        | longSize :: _ :: rest =>
            if rest.length < longSize.toNat then none
            else shortItems fuel (rest.drop longSize.toNat)
        | _ => none
      else
        let itemSize := if lead &&& 3 = 3 then 4 else (lead &&& 3).toNat
        if rest.length < itemSize then none
        else (shortItems fuel (rest.drop itemSize)).map (⟨lead, rest.take itemSize⟩ :: ·)

inductive ItemKind where
  | input
  | main
  | reportSize
  | reportCount
  | reportId
  | push
  | pop
  | usage
  | usageMinimum
  | usageMaximum
  | other
  deriving DecidableEq

def ShortItem.kind (item : ShortItem) : ItemKind :=
  let type := (item.lead >>> 2) &&& 3
  let tag := item.lead >>> 4
  if type = 1 then
    match tag with
    | 7 => .reportSize
    | 8 => .reportId
    | 9 => .reportCount
    | 10 => .push
    | 11 => .pop
    | _ => .other
  else if type = 2 then
    match tag with
    | 0 => .usage
    | 1 => .usageMinimum
    | 2 => .usageMaximum
    | _ => .other
  else if type = 0 then if tag = 8 then .input else .main
  else .other

def Parsed (item : ShortItem) (p p' : Parser) : Prop := shortItem p item.lead item.data = .ok p'

variable {p p' : Parser} {data : Bytes} {fuel : ℕ}

lemma parseItems_trace (h : parseItems fuel p data = .ok p') :
    ∃ items, shortItems fuel data = some items ∧ Trace Parsed p items p' := by
  induction fuel generalizing p data with
  | zero =>
    cases h
    exact ⟨[], rfl, .nil _⟩
  | succ fuel ih =>
    cases data with
    | nil =>
      cases h
      exact ⟨[], rfl, .nil _⟩
    | cons lead rest =>
      unfold parseItems at h
      unfold shortItems
      dsimp only at h ⊢
      generalize (if lead &&& 3 = 3 then 4 else (lead &&& 3).toNat) = itemSize at h ⊢
      split at h
      next hlong =>
        rw [if_pos hlong]
        split at h
        next longSize _ rest =>
          split at h
          · cases h
          next hfits =>
            simp only [if_neg hfits]
            exact ih h
        · cases h
      next hshort =>
        rw [if_neg hshort]
        split at h
        · cases h
        next hfits =>
          rw [if_neg hfits]
          obtain ⟨p₁, hitem, h⟩ := bind_eq_ok h
          obtain ⟨items, hitems, htrace⟩ := ih h
          have hparsed : Parsed ⟨lead, rest.take itemSize⟩ p p₁ := hitem
          exact ⟨_ :: items, by rw [hitems]; rfl, .cons hparsed htrace⟩

inductive Effect (item : ShortItem) (p : Parser) : Parser → Prop where
  | input {out : Descriptor} (kind : item.kind = .input)
      (added : addInput p.out p.globals p.locals (readUnsigned item.data).toUInt16 = .ok out) :
      Effect item p { p with locals := .none, out }
  | main (kind : item.kind = .main) : Effect item p { p with locals := .none }
  | reportSize (kind : item.kind = .reportSize) : Effect item p { p with
      globals := { p.globals with reportSize := (readUnsigned item.data).toUInt16 } }
  | reportCount (kind : item.kind = .reportCount) : Effect item p { p with
      globals := { p.globals with reportCount := (readUnsigned item.data).toUInt16 } }
  | reportId (kind : item.kind = .reportId) : Effect item p { p with
      globals := { p.globals with reportId := (readUnsigned item.data).toUInt8 }
      out := { p.out with usesReportIds := true } }
  | push (kind : item.kind = .push) : Effect item p { p with stack := p.globals :: p.stack }
  | pop {g : Globals} {stack : List Globals} (kind : item.kind = .pop)
      (top : p.stack = g :: stack) : Effect item p { p with globals := g, stack }
  | usage (kind : item.kind = .usage) : Effect item p { p with
      locals := { p.locals with
        usages := p.locals.usages ++ [(readUnsigned item.data).toUInt16] } }
  | usageMinimum (kind : item.kind = .usageMinimum) : Effect item p { p with
      locals := { p.locals with usageMin := some (readUnsigned item.data).toUInt16 } }
  | usageMaximum (kind : item.kind = .usageMaximum) : Effect item p { p with
      locals := { p.locals with usageMax := some (readUnsigned item.data).toUInt16 } }
  | other {g : Globals} (kind : item.kind = .other)
      (size : g.reportSize = p.globals.reportSize) (count : g.reportCount = p.globals.reportCount)
      (id : g.reportId = p.globals.reportId) : Effect item p { p with globals := g }

variable {item : ShortItem}

lemma globalItem_effect (htype : (item.lead >>> 2) &&& 3 = 1)
    (h : globalItem p (item.lead >>> 4) item.data = .ok p') : Effect item p p' := by
  unfold globalItem at h
  have hkind : item.kind = _ := if_pos htype
  dsimp only at h
  split at h
  next htag =>
    cases h
    exact .other (by simp [hkind, htag]) rfl rfl rfl
  next htag =>
    cases h
    exact .other (by simp [hkind, htag]) rfl rfl rfl
  next htag =>
    cases h
    exact .other (by simp [hkind, htag]) rfl rfl rfl
  next htag =>
    cases h
    exact .reportSize (by simp [hkind, htag])
  next htag =>
    split at h
    · cases h
    · cases h
      exact .reportId (by simp [hkind, htag])
  next htag =>
    cases h
    exact .reportCount (by simp [hkind, htag])
  next htag =>
    split at h
    · cases h
    · cases h
      exact .push (by simp [hkind, htag])
  next htag =>
    split at h
    · cases h
    next hstack =>
      cases h
      exact .pop (by simp [hkind, htag]) hstack
  · cases h
    refine .other ?_ rfl rfl rfl
    rw [hkind]
    split <;> simp_all

lemma localItem_effect (htype : (item.lead >>> 2) &&& 3 = 2)
    (h : localItem p (item.lead >>> 4) item.data = .ok p') : Effect item p p' := by
  unfold localItem at h
  have hkind : item.kind = _ := (if_neg (by simp [htype])).trans (if_pos htype)
  dsimp only at h
  split at h
  next htag =>
    split at h
    · cases h
    · cases h
      exact .usage (by simp [hkind, htag])
  next htag =>
    cases h
    exact .usageMinimum (by simp [hkind, htag])
  next htag =>
    cases h
    exact .usageMaximum (by simp [hkind, htag])
  · cases h
    refine .other ?_ rfl rfl rfl
    rw [hkind]
    split <;> simp_all

lemma mainItem_effect (htype : (item.lead >>> 2) &&& 3 = 0)
    (h : mainItem p (item.lead >>> 4) item.data = .ok p') : Effect item p p' := by
  have hkind : item.kind = if item.lead >>> 4 = 8 then .input else .main := by
    simp [ShortItem.kind, htype]
  unfold mainItem at h
  split at h
  next htag =>
    obtain ⟨out, hadd, h⟩ := bind_eq_ok h
    cases h
    exact .input (hkind.trans (if_pos htag)) hadd
  next htag =>
    split at h
    · cases h
    · split at h
      · cases h
      · cases h
        exact .main (hkind.trans (if_neg htag))

lemma Parsed.effect (h : Parsed item p p') : Effect item p p' := by
  unfold Parsed shortItem at h
  dsimp only at h
  split at h
  next hglobal => exact globalItem_effect hglobal h
  next hglobal =>
    split at h
    next hlocal => exact localItem_effect hlocal h
    next hlocal =>
      split at h
      next hmain => exact mainItem_effect hmain h
      next hmain =>
        cases h
        exact .other (by simp [ShortItem.kind, hglobal, hlocal, hmain]) rfl rfl rfl

lemma Parsed.out (h : Parsed item p p') :
    (p'.out.fields = p.out.fields ∧ p'.out.reports = p.out.reports) ∨
      ∃ flags, addInput p.out p.globals p.locals flags = .ok p'.out := by
  cases h.effect with
  | input _ added => exact .inr ⟨_, added⟩
  | _ => exact .inl ⟨rfl, rfl⟩

lemma reportParse_trace {d : Descriptor} (h : reportParse data = .ok d) :
    ∃ items p, shortItems data.length data = some items ∧ Trace Parsed .init items p ∧
      p.out = d := by
  obtain ⟨p, hitems, h⟩ := bind_eq_ok h
  obtain ⟨items, hsome, htrace⟩ := parseItems_trace hitems
  split at h
  · cases h
  · cases h
    exact ⟨items, p, hsome, htrace, rfl⟩

lemma reportParse_invariant {I : Descriptor → Prop} (hinit : I ⟨[], [], false⟩)
    (hsame : ∀ {out out' : Descriptor}, out'.fields = out.fields → out'.reports = out.reports →
      I out → I out')
    (hinput : ∀ {out out' : Descriptor} {g l flags}, I out → addInput out g l flags = .ok out' →
      I out')
    {d : Descriptor} (h : reportParse data = .ok d) : I d := by
  obtain ⟨items, p, -, htrace, rfl⟩ := reportParse_trace h
  have hkeeps : ∀ item (p p' : Parser), I p.out → Parsed item p p' → I p'.out ∧ True := by
    intro item p p' hp hitem
    obtain ⟨hfields, hreports⟩ | ⟨flags, hadd⟩ := hitem.out
    · exact ⟨hsame hfields hreports hp, trivial⟩
    · exact ⟨hinput hp hadd, trivial⟩
  exact (htrace.invariant hkeeps hinit).1

end Bluzing.Hid
