import Bluzing.Core.Codec
import Bluzing.L2cap.Signaling

/-! Configure Requests and Responses (`protocols/l2cap/signaling.c`): which parameters the parsers
accept, and that they read what the encoders write. -/
namespace Bluzing.L2cap
open List

structure ConfigOption where
  type : UInt8
  value : Bytes
  fits : value.length < 256

namespace ConfigOption

def octets (o : ConfigOption) : Bytes := o.type :: UInt8.ofNat o.value.length :: o.value

def Acceptable (o : ConfigOption) : Prop := o.type = configOptionMtu → o.value.length = 2

def mtu (o : ConfigOption) : Option UInt16 :=
  if o.type = configOptionMtu then some (readLe16 (o.value.getD 0 0) (o.value.getD 1 0)) else none

end ConfigOption

def announcedMtu (options : List ConfigOption) : Option UInt16 :=
  (options.filterMap ConfigOption.mtu).getLast?

lemma announcedMtu_cons (o : ConfigOption) (options : List ConfigOption) :
    announcedMtu (o :: options) = (announcedMtu options).or o.mtu := by
  unfold announcedMtu
  cases ho : o.mtu with
  | none => simp [ho]
  | some m => rw [filterMap_cons_some ho, getLast?_cons]; cases getLast? _ <;> rfl

variable {fuel : ℕ} {r : Reader} {mtu : Option UInt16}

lemma scanForMtuOption_options {options : List ConfigOption}
    (haccept : ∀ o ∈ options, o.Acceptable) (hrest : r.rest = options.flatMap ConfigOption.octets)
    (hfuel : r.remaining ≤ fuel) :
    scanForMtuOption fuel r mtu = .ok ((announcedMtu options).or mtu) := by
  induction options generalizing fuel r mtu with
  | nil =>
    have hempty : r.remaining = 0 := by
      rw [← r.length_rest, hrest]
      rfl
    cases fuel with
    | zero => rfl
    | succ fuel => rw [scanForMtuOption, if_pos hempty]; rfl
  | cons o options ih =>
    obtain ⟨ho, hothers⟩ := forall_mem_cons.mp haccept
    have hsize := UInt8.toNat_ofNat_of_lt' o.fits
    rw [flatMap_cons, ConfigOption.octets, cons_append, cons_append] at hrest
    have hlen := r.length_rest
    rw [hrest, length_cons, length_cons, length_append] at hlen
    obtain ⟨fuel, rfl⟩ : ∃ n, fuel = n + 1 := ⟨fuel - 1, by omega⟩
    have hmore : ¬ r.remaining = 0 := by omega
    obtain ⟨r₁, h₁, hrest₁⟩ := reads_u8.accepts (v := o.type) trivial hrest
    obtain ⟨r₂, h₂, hrest₂⟩ := reads_u8.accepts (v := UInt8.ofNat o.value.length) trivial hrest₁
    have hnext {r₃ : Reader} (hrest₃ : r₃.rest = options.flatMap ConfigOption.octets) :
        r₃.remaining ≤ fuel := by
      rw [← r₃.length_rest, hrest₃]
      omega
    rw [scanForMtuOption, if_neg hmore, h₁, announcedMtu_cons, Option.or_assoc]
    simp only [bind, Except.bind, h₂]
    by_cases hmtu : o.type = configOptionMtu
    · obtain ⟨b0, b1, hvalue⟩ := length_eq_two.mp (ho hmtu)
      rw [hvalue, ← writeLe16_readLe16] at hrest₂
      obtain ⟨r₃, h₃, hrest₃⟩ := reads_le16.accepts trivial hrest₂
      have htwo : ¬ UInt8.ofNat o.value.length ≠ 2 := by
        rw [ho hmtu]
        decide
      rw [if_pos hmtu, if_neg htwo, h₃]
      dsimp only
      rw [ih hothers hrest₃ (hnext hrest₃), ConfigOption.mtu, if_pos hmtu, hvalue]
      rfl
    · obtain ⟨r₃, h₃, hrest₃⟩ := Reader.skip_rest hrest₂
      rw [if_neg hmtu, hsize, h₃]
      dsimp only
      rw [ih hothers hrest₃ (hnext hrest₃), ConfigOption.mtu, if_neg hmtu, Option.none_or]

lemma scanForMtuOption_ok {m : Option UInt16} (h : scanForMtuOption fuel r mtu = .ok m)
    (hfuel : r.remaining ≤ fuel) :
    ∃ options : List ConfigOption, (∀ o ∈ options, o.Acceptable) ∧
      r.rest = options.flatMap ConfigOption.octets := by
  induction fuel generalizing r mtu with
  | zero =>
    rw [← r.length_rest] at hfuel
    exact ⟨[], nofun, eq_nil_of_length_eq_zero (Nat.le_zero.mp hfuel)⟩
  | succ fuel ih =>
    rw [scanForMtuOption] at h
    split at h
    next hempty =>
      rw [← r.length_rest] at hempty
      exact ⟨[], nofun, eq_nil_of_length_eq_zero hempty⟩
    obtain ⟨⟨type, r₁⟩, h₁, h⟩ := Access.bind_ok h
    obtain ⟨⟨len, r₂⟩, h₂, h⟩ := Access.bind_ok h
    obtain ⟨-, hrest₁⟩ := reads_u8.exact h₁
    obtain ⟨-, hrest₂⟩ := reads_u8.exact h₂
    -- the value of the option, and what follows it
    have hlater {value : Bytes} {r₃ : Reader} {mtu : Option UInt16}
        (hvalue : r₂.rest = value ++ r₃.rest) (hsize : value.length = len.toNat)
        (haccept : type = configOptionMtu → value.length = 2)
        (hscan : scanForMtuOption fuel r₃ mtu = .ok m) :
        ∃ options : List ConfigOption, (∀ o ∈ options, o.Acceptable) ∧
          r.rest = options.flatMap ConfigOption.octets := by
      rw [hrest₂, hvalue] at hrest₁
      have hlen := r.length_rest
      rw [hrest₁, length_append, length_append, length_append, r₃.length_rest,
        length_singleton, length_singleton] at hlen
      obtain ⟨options, hoptions, hrest⟩ := ih hscan (by omega)
      refine ⟨⟨type, value, hsize ▸ len.toNat_lt⟩ :: options,
        forall_mem_cons.mpr ⟨haccept, hoptions⟩, ?_⟩
      rw [hrest₁, hrest]
      simp [ConfigOption.octets, hsize]
    dsimp only at h
    split at h
    next hmtu =>
      split at h
      · cases h
      next htwo =>
        obtain ⟨⟨value, r₃⟩, h₃, h⟩ := Access.bind_ok h
        have hsize : len.toNat = 2 := by
          rw [not_not.mp htwo]
          rfl
        exact hlater (reads_le16.exact h₃).2 hsize.symm (fun _ => rfl) h
    next hmtu =>
      obtain ⟨r₃, h₃, h⟩ := Access.bind_ok h
      obtain ⟨value, hsize, hvalue⟩ := Reader.skip_exact h₃
      exact hlater hvalue hsize (fun htype => absurd htype hmtu) h

lemma scanForMtuOption_ok_iff {m : Option UInt16} :
    scanForMtuOption r.remaining r none = .ok m ↔
      ∃ options : List ConfigOption, (∀ o ∈ options, o.Acceptable) ∧
        r.rest = options.flatMap ConfigOption.octets ∧ m = announcedMtu options := by
  have hscan {options : List ConfigOption} (haccept : ∀ o ∈ options, o.Acceptable)
      (hrest : r.rest = options.flatMap ConfigOption.octets) :
      scanForMtuOption r.remaining r none = .ok (announcedMtu options) := by
    rw [scanForMtuOption_options haccept hrest (Nat.le_refl _), Option.or_none]
  constructor
  · intro h
    obtain ⟨options, haccept, hrest⟩ := scanForMtuOption_ok h (Nat.le_refl _)
    exact ⟨options, haccept, hrest, Except.ok.inj (h.symm.trans (hscan haccept hrest))⟩
  · rintro ⟨options, haccept, hrest, rfl⟩
    exact hscan haccept hrest

lemma sigParseConfigureRequest_ok_iff {data : Bytes} {req : ConfigureRequest} :
    sigParseConfigureRequest data = .ok req ↔
      ∃ options : List ConfigOption, (∀ o ∈ options, o.Acceptable) ∧
        data = writeLe16 req.destinationCid ++ (writeLe16 req.flags ++
          options.flatMap ConfigOption.octets) ∧ req.mtu = announcedMtu options := by
  unfold sigParseConfigureRequest
  constructor
  · intro h
    split at h
    · cases h
    obtain ⟨⟨cid, r₁⟩, h₁, h⟩ := Access.bind_ok h
    obtain ⟨⟨flags, r₂⟩, h₂, h⟩ := Access.bind_ok h
    obtain ⟨mtu, hscan, h⟩ := Access.bind_ok h
    obtain rfl := Except.ok.inj h
    obtain ⟨options, haccept, hrest, rfl⟩ := scanForMtuOption_ok_iff.mp hscan
    have hdata := (reads_le16.exact h₁).2
    rw [(reads_le16.exact h₂).2, hrest] at hdata
    exact ⟨options, haccept, hdata, rfl⟩
  · rintro ⟨options, haccept, hdata, hmtu⟩
    obtain ⟨r₁, h₁, hrest₁⟩ := reads_le16.accepts trivial ((Reader.rest_init data).trans hdata)
    obtain ⟨r₂, h₂, hrest₂⟩ := reads_le16.accepts trivial hrest₁
    have hscan := scanForMtuOption_ok_iff.mpr ⟨options, haccept, hrest₂, rfl⟩
    rw [if_neg (by simp [hdata, writeLe16]), h₁]
    simp only [bind, Except.bind, h₂, hscan, pure, Except.pure, ← hmtu]

lemma sigParseConfigureResponse_ok_iff {data : Bytes} {rsp : ConfigureResponse} :
    sigParseConfigureResponse data = .ok rsp ↔
      ∃ options : List ConfigOption, (∀ o ∈ options, o.Acceptable) ∧
        data = writeLe16 rsp.sourceCid ++ (writeLe16 rsp.flags ++ (writeLe16 rsp.result ++
          options.flatMap ConfigOption.octets)) ∧ rsp.mtu = announcedMtu options := by
  unfold sigParseConfigureResponse
  constructor
  · intro h
    split at h
    · cases h
    obtain ⟨⟨cid, r₁⟩, h₁, h⟩ := Access.bind_ok h
    obtain ⟨⟨flags, r₂⟩, h₂, h⟩ := Access.bind_ok h
    obtain ⟨⟨result, r₃⟩, h₃, h⟩ := Access.bind_ok h
    obtain ⟨mtu, hscan, h⟩ := Access.bind_ok h
    obtain rfl := Except.ok.inj h
    obtain ⟨options, haccept, hrest, rfl⟩ := scanForMtuOption_ok_iff.mp hscan
    have hdata := (reads_le16.exact h₁).2
    rw [(reads_le16.exact h₂).2, (reads_le16.exact h₃).2, hrest] at hdata
    exact ⟨options, haccept, hdata, rfl⟩
  · rintro ⟨options, haccept, hdata, hmtu⟩
    obtain ⟨r₁, h₁, hrest₁⟩ := reads_le16.accepts trivial ((Reader.rest_init data).trans hdata)
    obtain ⟨r₂, h₂, hrest₂⟩ := reads_le16.accepts trivial hrest₁
    obtain ⟨r₃, h₃, hrest₃⟩ := reads_le16.accepts trivial hrest₂
    have hscan := scanForMtuOption_ok_iff.mpr ⟨options, haccept, hrest₃, rfl⟩
    rw [if_neg (by simp [hdata, writeLe16]), h₁]
    simp only [bind, Except.bind, h₂, h₃, hscan, pure, Except.pure, ← hmtu]

def mtuOptions (mtu : UInt16) : List ConfigOption :=
  if mtu = 0 then [] else [⟨configOptionMtu, writeLe16 mtu, by simp [writeLe16]⟩]

lemma mtuOptions_acceptable (mtu : UInt16) : ∀ o ∈ mtuOptions mtu, o.Acceptable := by
  unfold mtuOptions
  split
  · nofun
  · intro o ho
    obtain rfl := mem_singleton.mp ho
    exact fun _ => rfl

lemma announcedMtu_mtuOptions (mtu : UInt16) :
    announcedMtu (mtuOptions mtu) = if mtu = 0 then none else some mtu := by
  unfold mtuOptions
  split
  · rfl
  · exact congrArg some (readLe16_writeLe16 mtu)

lemma appends_mtuOption (mtu : UInt16) :
    Writer.Appends (encodeMtuOption · mtu) ((mtuOptions mtu).flatMap ConfigOption.octets) := by
  unfold encodeMtuOption mtuOptions
  split
  · exact ⟨fun w _ => ⟨w, rfl, rfl, (append_nil _).symm⟩, fun {w _} _ => w.fits⟩
  · exact (Writer.appends_bytes [configOptionMtu]).bind
      ((Writer.appends_bytes [2]).bind (Writer.appends_bytes (writeLe16 mtu)))

lemma appends_header (code identifier : UInt8) (length : UInt16) :
    Writer.Appends (sigEncodeHeader · code identifier length)
      ([code] ++ ([identifier] ++ writeLe16 length)) :=
  (Writer.appends_bytes [code]).bind
    ((Writer.appends_bytes [identifier]).bind (Writer.appends_bytes (writeLe16 length)))

lemma length_mtuOptions (mtu : UInt16) :
    ((mtuOptions mtu).flatMap ConfigOption.octets).length = if mtu ≠ 0 then 4 else 0 := by
  unfold mtuOptions
  by_cases hmtu : mtu = 0
  · simp [hmtu]
  · simp [hmtu, ConfigOption.octets, writeLe16]

/-- The parsers accept exactly the parameters whose options are whole and whose MTU options have two
octets, and take the MTU from the last of these; and they read what the encoders write, with a
length that is the number of octets after the header. -/
theorem configure_options :
    (∀ (data : Bytes) (req : ConfigureRequest), sigParseConfigureRequest data = .ok req ↔
      ∃ options : List ConfigOption, (∀ o ∈ options, o.Acceptable) ∧
        data = writeLe16 req.destinationCid ++ (writeLe16 req.flags ++
          options.flatMap ConfigOption.octets) ∧ req.mtu = announcedMtu options) ∧
    (∀ (data : Bytes) (rsp : ConfigureResponse), sigParseConfigureResponse data = .ok rsp ↔
      ∃ options : List ConfigOption, (∀ o ∈ options, o.Acceptable) ∧
        data = writeLe16 rsp.sourceCid ++ (writeLe16 rsp.flags ++ (writeLe16 rsp.result ++
          options.flatMap ConfigOption.octets)) ∧ rsp.mtu = announcedMtu options) ∧
    (∀ (w w' : Writer) (identifier : UInt8) (destinationCid flags mtu : UInt16),
      sigEncodeConfigureRequest w identifier destinationCid flags mtu = .ok w' →
      ∃ (length : UInt16) (params : Bytes),
        w'.data = w.data ++ (sigConfigureRequest :: identifier :: (writeLe16 length ++ params)) ∧
        length.toNat = params.length ∧ sigParseConfigureRequest params =
          .ok ⟨destinationCid, flags, if mtu = 0 then none else some mtu⟩) ∧
    ∀ (w w' : Writer) (identifier : UInt8) (sourceCid flags result mtu : UInt16),
      sigEncodeConfigureResponse w identifier sourceCid flags result mtu = .ok w' →
      ∃ (length : UInt16) (params : Bytes),
        w'.data = w.data ++ (sigConfigureResponse :: identifier :: (writeLe16 length ++ params)) ∧
        length.toNat = params.length ∧ sigParseConfigureResponse params =
          .ok ⟨sourceCid, flags, result, if mtu = 0 then none else some mtu⟩ := by
  refine ⟨fun _ _ => sigParseConfigureRequest_ok_iff, fun _ _ => sigParseConfigureResponse_ok_iff,
    fun w w' identifier destinationCid flags mtu h => ?_,
    fun w w' identifier sourceCid flags result mtu h => ?_⟩
  · have hdata := ((appends_header ..).bind ((Writer.appends_bytes (writeLe16 destinationCid)).bind
      ((Writer.appends_bytes (writeLe16 flags)).bind (appends_mtuOption mtu)))).data h
    refine ⟨_, _, by simpa using hdata, ?_, ?_⟩
    · rw [length_append, length_append, length_mtuOptions]
      by_cases hmtu : mtu = 0 <;> simp [hmtu, writeLe16]
    · exact sigParseConfigureRequest_ok_iff.mpr ⟨mtuOptions mtu, mtuOptions_acceptable mtu, rfl,
        (announcedMtu_mtuOptions mtu).symm⟩
  · have hdata := ((appends_header ..).bind ((Writer.appends_bytes (writeLe16 sourceCid)).bind
      ((Writer.appends_bytes (writeLe16 flags)).bind ((Writer.appends_bytes (writeLe16 result)).bind
        (appends_mtuOption mtu))))).data h
    refine ⟨_, _, by simpa using hdata, ?_, ?_⟩
    · rw [length_append, length_append, length_append, length_mtuOptions]
      by_cases hmtu : mtu = 0 <;> simp [hmtu, writeLe16]
    · exact sigParseConfigureResponse_ok_iff.mpr ⟨mtuOptions mtu, mtuOptions_acceptable mtu, rfl,
        (announcedMtu_mtuOptions mtu).symm⟩

end Bluzing.L2cap
