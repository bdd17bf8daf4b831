import Bluzing.Lib.History
import Bluzing.Hid.Input

/-! The bridge from HID input events to the input events of AROS
(`ports/aros/input/input_bridge.c`), and what its qualifier says about the modifier keys that are
held. -/
namespace Bluzing.Aros
open Bluzing.Hid (InputEvent)

def ieclassRawkey : UInt8 := 1
def ieclassRawmouse : UInt8 := 2
def iecodeUp : UInt16 := 0x80
def iecodeLbutton : UInt16 := 0x68
def iecodeRbutton : UInt16 := 0x69
def iecodeMbutton : UInt16 := 0x6A
def iecodeNobutton : UInt16 := 0xFF

structure ArosEvent where
  eventClass : UInt8
  code : UInt16
  qualifier : UInt16
  x : Int16
  y : Int16
  deriving DecidableEq

structure Bridge where
  qualifier : UInt16
  emitted : List ArosEvent
  deriving DecidableEq

def bridgeInit : Bridge := ⟨0, []⟩

def keyboardMap : Bytes :=
  [0xFF, 0xFF, 0xFF, 0xFF, 0x20, 0x35, 0x33, 0x22,
    0x12, 0x23, 0x24, 0x25, 0x17, 0x26, 0x27, 0x28,
    0x37, 0x36, 0x18, 0x19, 0x10, 0x13, 0x21, 0x14,
    0x16, 0x34, 0x11, 0x32, 0x15, 0x31, 0x01, 0x02,
    0x03, 0x04, 0x05, 0x06, 0x07, 0x08, 0x09, 0x0A,
    0x44, 0x45, 0x41, 0x42, 0x40, 0x0B, 0x0C, 0x1A,
    0x1B, 0x0D, 0x2B, 0x29, 0x2A, 0x00, 0x38, 0x39,
    0x3A, 0x62, 0x50, 0x51, 0x52, 0x53, 0x54, 0x55,
    0x56, 0x57, 0x58, 0x59, 0xFF, 0x5F, 0xFF, 0xFF,
    0xFF, 0xFF, 0xFF, 0xFF, 0x46, 0xFF, 0xFF, 0x4E,
    0x4F, 0x4D, 0x4C, 0xFF, 0x5C, 0x5D, 0x4A, 0x5E,
    0x43, 0x1D, 0x1E, 0x1F, 0x2D, 0x2E, 0x2F, 0x3D,
    0x3E, 0x3F, 0x0F, 0x3C, 0x30, 0xFF, 0xFF, 0xFF]

def IsModifier (usage : UInt16) : Prop := 0xE0 ≤ usage ∧ usage ≤ 0xE7

instance (usage : UInt16) : Decidable (IsModifier usage) := inferInstanceAs (Decidable (_ ∧ _))

def modifierQualifiers : List UInt16 :=
  [3, 0, 4, 6, 3, 1, 5, 7].map fun bit : UInt16 => (1 : UInt16) <<< bit

def modifierQualifier (usage : UInt16) : UInt16 := modifierQualifiers.getD (usage - 0xE0).toNat 0

def modifierRawkeys : Bytes := [0x63, 0x60, 0x64, 0x66, 0x63, 0x61, 0x65, 0x67]

def modifierRawkey (usage : UInt16) : UInt8 := modifierRawkeys.getD (usage - 0xE0).toNat 0

variable (emitFn : ℕ → Bool)

def emit (b : Bridge) (eventClass : UInt8) (code : UInt16) (x y : Int16) : Bridge × Bool :=
  ({ b with emitted := ⟨eventClass, code, b.qualifier, x, y⟩ :: b.emitted },
    emitFn b.emitted.length)

def emitSwitch (b : Bridge) (eventClass : UInt8) (code : UInt16) (value : Int32) : Bridge × Bool :=
  emit emitFn b eventClass (if value = 0 then code ||| iecodeUp else code) 0 0

def setQualifier (q : UInt16) (usage : UInt16) (value : Int32) : UInt16 :=
  if value ≠ 0 then q ||| modifierQualifier usage else q &&& ~~~modifierQualifier usage

def handleKey (b : Bridge) (e : InputEvent) : Bridge × Bool :=
  if IsModifier e.usage then
    emitSwitch emitFn { b with qualifier := setQualifier b.qualifier e.usage e.value } ieclassRawkey
      (modifierRawkey e.usage).toUInt16 e.value
  else
    match keyboardMap[e.usage.toNat]? with
    | none => (b, true)
    | some rawkey =>
        if rawkey = 0xFF then (b, true)
        else emitSwitch emitFn b ieclassRawkey rawkey.toUInt16 e.value

def buttonCode (usage : UInt16) : Option UInt16 :=
  if usage = 1 then some iecodeLbutton
  else if usage = 2 then some iecodeRbutton
  else if usage = 3 then some iecodeMbutton
  else if usage = 4 then some 0x7E
  else none

def handleButton (b : Bridge) (e : InputEvent) : Bridge × Bool :=
  match buttonCode e.usage with
  | none => (b, true)
  | some code => emitSwitch emitFn b ieclassRawmouse code e.value

def turnWheel (code : UInt16) : ℕ → Bridge → Bridge × Bool
  | 0, b => (b, true)
  | count + 1, b =>
      let pressed := emit emitFn b ieclassRawkey code 0 0
      if !pressed.2 then pressed
      else
        let released := emit emitFn pressed.1 ieclassRawkey (code ||| iecodeUp) 0 0
        if !released.2 then released else turnWheel code count released.1

def handleAxis (b : Bridge) (e : InputEvent) : Bridge × Bool :=
  if e.usage = 0x30 then emit emitFn b ieclassRawmouse iecodeNobutton e.value.toInt16 0
  else if e.usage = 0x31 then emit emitFn b ieclassRawmouse iecodeNobutton 0 e.value.toInt16
  else if e.usage = 0x38 ∧ e.value ≠ 0 then
    turnWheel emitFn (if e.value > 0 then 0x7A else 0x7B) e.value.toInt.natAbs b
  else (b, true)

def consumerCode (usage : UInt16) : Option UInt16 :=
  if usage = 0xB5 then some 0x75
  else if usage = 0xB6 then some 0x74
  else if usage = 0xB7 then some 0x72
  else if usage = 0xCD then some 0x73
  else none

def handleConsumer (b : Bridge) (e : InputEvent) : Bridge × Bool :=
  match consumerCode e.usage with
  | none => (b, true)
  | some code => emitSwitch emitFn b ieclassRawkey code e.value

def handle (b : Bridge) (e : InputEvent) : Bridge × Bool :=
  match e.kind with
  | .key => handleKey emitFn b e
  | .button => handleButton emitFn b e
  | .axis => handleAxis emitFn b e
  | .consumer => handleConsumer emitFn b e
  | .generic => (b, true)

def after : List InputEvent → Bridge
  | [] => bridgeInit
  | e :: older => (handle emitFn (after older) e).1

structure Emits (b b' : Bridge) : Prop where
  qualifier : b'.qualifier = b.qualifier
  emitted : ∃ new, b'.emitted = new ++ b.emitted ∧ ∀ x ∈ new, x.qualifier = b.qualifier

variable (b : Bridge)

lemma Emits.refl : Emits b b := ⟨rfl, [], rfl, by simp⟩

lemma Emits.trans {b b' b'' : Bridge} (h : Emits b b') (h' : Emits b' b'') : Emits b b'' := by
  obtain ⟨new, hnew, hcarried⟩ := h.emitted
  obtain ⟨new', hnew', hcarried'⟩ := h'.emitted
  refine ⟨h'.qualifier.trans h.qualifier, new' ++ new, ?_, fun x hx => ?_⟩
  · rw [hnew', hnew, List.append_assoc]
  · obtain hx | hx := List.mem_append.mp hx
    · exact (hcarried' x hx).trans h.qualifier
    · exact hcarried x hx

lemma emit_emits (eventClass : UInt8) (code : UInt16) (x y : Int16) :
    Emits b (emit emitFn b eventClass code x y).1 :=
  ⟨rfl, [⟨eventClass, code, b.qualifier, x, y⟩], rfl, by simp⟩

lemma turnWheel_emits (code : UInt16) (count : ℕ) (b : Bridge) :
    Emits b (turnWheel emitFn code count b).1 := by
  induction count generalizing b with
  | zero => exact .refl b
  | succ count ih =>
    have hpressed := emit_emits emitFn b ieclassRawkey code 0 0
    have hreleased := hpressed.trans (emit_emits emitFn _ ieclassRawkey (code ||| iecodeUp) 0 0)
    unfold turnWheel
    dsimp only
    split
    · exact hpressed
    · split
      · exact hreleased
      · exact hreleased.trans (ih _)

variable (e : InputEvent)

lemma handleAxis_emits : Emits b (handleAxis emitFn b e).1 := by
  unfold handleAxis
  split
  · exact emit_emits emitFn ..
  · split
    · exact emit_emits emitFn ..
    · split
      · exact turnWheel_emits emitFn ..
      · exact .refl b

lemma handleButton_emits : Emits b (handleButton emitFn b e).1 := by
  unfold handleButton
  split
  · exact .refl b
  · exact emit_emits emitFn ..

lemma handleConsumer_emits : Emits b (handleConsumer emitFn b e).1 := by
  unfold handleConsumer
  split
  · exact .refl b
  · exact emit_emits emitFn ..

def nextQualifier (q : UInt16) (e : InputEvent) : UInt16 :=
  if e.kind = .key ∧ IsModifier e.usage then setQualifier q e.usage e.value else q

lemma handleKey_emits (hkey : e.kind = .key) :
    Emits { b with qualifier := nextQualifier b.qualifier e } (handleKey emitFn b e).1 := by
  unfold handleKey nextQualifier
  by_cases hmod : IsModifier e.usage
  · rw [if_pos hmod, if_pos ⟨hkey, hmod⟩]
    exact emit_emits emitFn ..
  · rw [if_neg hmod, if_neg fun h => hmod h.2]
    split
    · exact .refl b
    · split
      · exact .refl b
      · exact emit_emits emitFn ..

lemma handle_emits :
    Emits { b with qualifier := nextQualifier b.qualifier e } (handle emitFn b e).1 := by
  have hother (hkind : e.kind ≠ .key) :
      { b with qualifier := nextQualifier b.qualifier e } = b := by
    unfold nextQualifier
    rw [if_neg fun h => hkind h.1]
  unfold handle
  split
  next hkind => exact handleKey_emits emitFn b e hkind
  next hkind =>
    rw [hother (by simp [hkind])]
    exact handleButton_emits emitFn b e
  next hkind =>
    rw [hother (by simp [hkind])]
    exact handleAxis_emits emitFn b e
  next hkind =>
    rw [hother (by simp [hkind])]
    exact handleConsumer_emits emitFn b e
  next hkind =>
    rw [hother (by simp [hkind])]
    exact .refl b

def HasBit (q : UInt16) (bit : ℕ) : Prop := q.toBitVec.getLsbD bit = true

instance (q : UInt16) (bit : ℕ) : Decidable (HasBit q bit) := inferInstanceAs (Decidable (_ = _))

def held (usage : UInt16) : List InputEvent → Bool
  | [] => false
  | e :: older => if e.kind = .key ∧ e.usage = usage then e.value ≠ 0 else held usage older

lemma hasBit_or {q m : UInt16} {bit : ℕ} :
    HasBit (q ||| m) bit ↔ HasBit q bit ∨ HasBit m bit := by
  simp [HasBit]

lemma IsModifier.cases {usage : UInt16} (h : IsModifier usage) :
    ∃ i : Fin 8, usage = 0xE0 + UInt16.ofNat i := by
  obtain ⟨hlow, hhigh⟩ := h
  rw [UInt16.le_iff_toNat_le] at hlow hhigh
  simp only [UInt16.reduceToNat] at hlow hhigh
  refine ⟨⟨usage.toNat - 0xE0, by omega⟩, UInt16.toNat_inj.mp ?_⟩
  simp
  omega

lemma hasBit_andNot {q : UInt16} {usage : UInt16} {bit : ℕ} :
    HasBit (q &&& ~~~modifierQualifier usage) bit ↔
      HasBit q bit ∧ ¬ HasBit (modifierQualifier usage) bit := by
  unfold HasBit
  by_cases hbit : bit < 16
  · simp [hbit]
  · have hq : q.toBitVec.getLsbD bit = false := BitVec.getLsbD_of_ge _ _ (Nat.le_of_not_lt hbit)
    simp [hq]

lemma modifiers_share_iff : ∀ i j : Fin 8, i ≠ j →
    (∃ bit : Fin 16, HasBit (modifierQualifier (0xE0 + UInt16.ofNat i)) bit ∧
      HasBit (modifierQualifier (0xE0 + UInt16.ofNat j)) bit) →
    i = 0 ∧ j = 4 ∨ i = 4 ∧ j = 0 := by
  decide +kernel

def HeldBit (bit : ℕ) (past : List InputEvent) : Prop :=
  ∃ usage, IsModifier usage ∧ HasBit (modifierQualifier usage) bit ∧ held usage past = true

structure Reflects (emitFn : ℕ → Bool) (past : List InputEvent) : Prop where
  bits : ∀ bit, HasBit (after emitFn past).qualifier bit ↔ HeldBit bit past
  carried : ∀ e older, past = e :: older → ∃ new,
    (after emitFn past).emitted = new ++ (after emitFn older).emitted ∧
      ∀ x ∈ new, x.qualifier = (after emitFn past).qualifier

def DropsControl (e : InputEvent) (older : List InputEvent) : Prop :=
  e.kind = .key ∧ e.value = 0 ∧
    (e.usage = 0xE0 ∧ held 0xE4 older = true ∨ e.usage = 0xE4 ∧ held 0xE0 older = true)

def Alternates (e : InputEvent) (older : List InputEvent) : Prop :=
  e.kind = .key → IsModifier e.usage → (e.value ≠ 0 ↔ held e.usage older = false)

section

variable {emitFn : ℕ → Bool} {e : InputEvent} {older : List InputEvent}

lemma after_cons_qualifier (emitFn : ℕ → Bool) (e : InputEvent) (older : List InputEvent) :
    (after emitFn (e :: older)).qualifier = nextQualifier (after emitFn older).qualifier e :=
  (handle_emits emitFn (after emitFn older) e).qualifier

lemma held_self (hkey : e.kind = .key) :
    held e.usage (e :: older) = decide (e.value ≠ 0) := if_pos ⟨hkey, rfl⟩

lemma held_other {usage : UInt16} (h : ¬ (e.kind = .key ∧ e.usage = usage)) :
    held usage (e :: older) = held usage older := if_neg h

lemma shared_bit {usage usage' : UInt16} {bit : ℕ} (h : IsModifier usage) (h' : IsModifier usage')
    (hbit : HasBit (modifierQualifier usage) bit) (hbit' : HasBit (modifierQualifier usage') bit)
    (hne : usage ≠ usage') : usage = 0xE0 ∧ usage' = 0xE4 ∨ usage = 0xE4 ∧ usage' = 0xE0 := by
  obtain ⟨i, rfl⟩ := h.cases
  obtain ⟨j, rfl⟩ := h'.cases
  have hlt : bit < 16 := by
    by_contra hge
    have hfalse := BitVec.getLsbD_of_ge (modifierQualifier (0xE0 + UInt16.ofNat i)).toBitVec bit
      (Nat.le_of_not_lt hge)
    cases hfalse.symm.trans hbit
  have hij : i ≠ j := fun hij => hne (by rw [hij])
  obtain ⟨rfl, rfl⟩ | ⟨rfl, rfl⟩ := modifiers_share_iff i j hij ⟨⟨bit, hlt⟩, hbit, hbit'⟩
  · exact .inl ⟨rfl, rfl⟩
  · exact .inr ⟨rfl, rfl⟩

variable {bit : ℕ}

lemma heldBit_press (hkey : e.kind = .key) (hmod : IsModifier e.usage)
    (hpress : e.value ≠ 0) : HeldBit bit (e :: older) ↔
      HeldBit bit older ∨ HasBit (modifierQualifier e.usage) bit := by
  have hself : held e.usage (e :: older) = true := (held_self hkey).trans (decide_eq_true hpress)
  constructor
  · rintro ⟨usage, husage, hbit, hheld⟩
    by_cases hsame : e.usage = usage
    · exact .inr (hsame ▸ hbit)
    · exact .inl ⟨usage, husage, hbit, (held_other fun he => hsame he.2).symm.trans hheld⟩
  · rintro (⟨usage, husage, hbit, hheld⟩ | hbit)
    · by_cases hsame : e.usage = usage
      · exact ⟨usage, husage, hbit, hsame ▸ hself⟩
      · exact ⟨usage, husage, hbit, (held_other fun he => hsame he.2).trans hheld⟩
    · exact ⟨e.usage, hmod, hbit, hself⟩

lemma heldBit_release (hkey : e.kind = .key) (hmod : IsModifier e.usage)
    (hrelease : e.value = 0) (hdrops : ¬ DropsControl e older) : HeldBit bit (e :: older) ↔
      HeldBit bit older ∧ ¬ HasBit (modifierQualifier e.usage) bit := by
  constructor
  · rintro ⟨usage, husage, hbit, hheld⟩
    have hsame : e.usage ≠ usage := by
      rintro rfl
      rw [held_self hkey] at hheld
      exact of_decide_eq_true hheld hrelease
    rw [held_other fun he => hsame he.2] at hheld
    refine ⟨⟨usage, husage, hbit, hheld⟩, fun hbit' => hdrops ⟨hkey, hrelease, ?_⟩⟩
    obtain ⟨he, rfl⟩ | ⟨he, rfl⟩ := shared_bit hmod husage hbit' hbit hsame
    · exact .inl ⟨he, hheld⟩
    · exact .inr ⟨he, hheld⟩
  · rintro ⟨⟨usage, husage, hbit, hheld⟩, hother⟩
    have hsame : e.usage ≠ usage := fun hsame => hother (hsame ▸ hbit)
    exact ⟨usage, husage, hbit, (held_other fun he => hsame he.2).trans hheld⟩

lemma heldBit_other (hmod : ¬ (e.kind = .key ∧ IsModifier e.usage)) :
    HeldBit bit (e :: older) ↔ HeldBit bit older := by
  refine exists_congr fun usage => and_congr_right fun husage => and_congr_right fun _ => ?_
  rw [held_other fun he => hmod ⟨he.1, he.2 ▸ husage⟩]

lemma Reflects.cons (h : Reflects emitFn older) (hdrops : ¬ DropsControl e older) :
    Reflects emitFn (e :: older) := by
  constructor
  · intro bit
    rw [after_cons_qualifier, nextQualifier]
    by_cases hmod : e.kind = .key ∧ IsModifier e.usage
    · rw [if_pos hmod, setQualifier]
      by_cases hpress : e.value ≠ 0
      · rw [if_pos hpress, hasBit_or, h.bits, heldBit_press hmod.1 hmod.2 hpress]
      · rw [if_neg hpress, hasBit_andNot, h.bits,
          heldBit_release hmod.1 hmod.2 (not_not.mp hpress) hdrops]
    · rw [if_neg hmod, h.bits, heldBit_other hmod]
  · rintro e' older' heq
    obtain ⟨rfl, rfl⟩ := List.cons.inj heq
    have hemits := handle_emits emitFn (after emitFn older) e
    obtain ⟨new, hnew, hcarried⟩ := hemits.emitted
    exact ⟨new, hnew, fun x hx => (hcarried x hx).trans hemits.qualifier.symm⟩

lemma not_reflects_of_drops (hdrops : DropsControl e older) : ¬ Reflects emitFn (e :: older) := by
  intro h
  obtain ⟨hkey, hrelease, hcontrol⟩ := hdrops
  have hlost : ¬ HasBit (after emitFn (e :: older)).qualifier 3 := by
    have hmod : IsModifier e.usage := by
      obtain ⟨he, -⟩ | ⟨he, -⟩ := hcontrol <;> rw [he] <;> decide
    rw [after_cons_qualifier, nextQualifier, if_pos ⟨hkey, hmod⟩, setQualifier,
      if_neg (fun hne => hne hrelease), hasBit_andNot]
    rintro ⟨-, hother⟩
    refine hother ?_
    obtain ⟨he, -⟩ | ⟨he, -⟩ := hcontrol <;> rw [he] <;> decide +kernel
  refine hlost ((h.bits 3).mpr ?_)
  obtain ⟨he, hheld⟩ | ⟨he, hheld⟩ := hcontrol
  · refine ⟨0xE4, by decide, by decide +kernel, (held_other fun h => ?_).trans hheld⟩
    exact absurd (he.symm.trans h.2) (by decide)
  · refine ⟨0xE0, by decide, by decide +kernel, (held_other fun h => ?_).trans hheld⟩
    exact absurd (he.symm.trans h.2) (by decide)

end

/-- The qualifier reflects the modifiers after every event of a sequence exactly if no control key
is released while the other one is held. -/
theorem qualifier_reflects_iff (emitFn : ℕ → Bool) (past : List InputEvent) :
    (∀ newer older, past = newer ++ older → Reflects emitFn older) ↔
      Always (fun e older => ¬ DropsControl e older) past := by
  constructor
  · intro h newer e older heq hdrops
    exact not_reflects_of_drops hdrops (h newer (e :: older) heq)
  · intro h newer older heq
    subst heq
    induction older generalizing newer with
    | nil =>
      refine ⟨fun bit => ?_, fun e older heq => nomatch heq⟩
      simp [after, bridgeInit, HasBit, HeldBit, held]
    | cons e older ih =>
      refine Reflects.cons (ih (newer ++ [e]) ?_) (h newer e older rfl)
      rwa [List.append_assoc]

def bothControls : List InputEvent :=
  [⟨.key, 0, 7, 0xE0, 0, false⟩, ⟨.key, 0, 7, 0xE4, 1, false⟩, ⟨.key, 0, 7, 0xE0, 1, false⟩]

/-- The bit of the control keys is lost while the right one is held. -/
theorem bothControls_lost : Always Alternates bothControls ∧ held 0xE4 bothControls = true ∧
    HasBit (modifierQualifier 0xE4) 3 ∧
    (after (fun _ => true) bothControls).qualifier = 0 ∧
    (after (fun _ => true) bothControls).emitted.map ArosEvent.qualifier = [0, 8, 8] := by
  refine ⟨?_, by decide +kernel⟩
  refine .cons ?_ (.cons ?_ (.cons ?_ always_nil)) <;> exact fun _ _ => by decide

end Bluzing.Aros
