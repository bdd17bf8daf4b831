import Bluzing.Core.Codec
import Bluzing.Controller.Hci

/-! The iterator over an Inquiry Result event (`protocols/hci/hci.c`) returns the responses that the
event was laid out from, column by column. -/
namespace Bluzing.Controller
open List
variable {α : Type} {f : α → Bytes} {k i j : ℕ} {l : List α} {a : α}

lemma length_column (hf : ∀ a, (f a).length = k) (l : List α) :
    (l.flatMap f).length = l.length * k := by
  induction l with
  | nil => simp
  | cons a l ih => rw [flatMap_cons, length_append, hf, ih, length_cons,
      Nat.succ_mul, Nat.add_comm]

lemma drop_column (hf : ∀ a, (f a).length = k) (hi : l[i]? = some a) (post : Bytes) :
    ∃ later, (l.flatMap f ++ post).drop (i * k) = f a ++ later := by
  induction l generalizing i with
  | nil => cases hi
  | cons b l ih =>
    rw [flatMap_cons, append_assoc]
    cases i with
    | zero =>
      obtain rfl := Option.some.inj hi
      exact ⟨l.flatMap f ++ post, by rw [Nat.zero_mul, drop_zero]⟩
    | succ i =>
      rw [Nat.succ_mul, Nat.add_comm, ← drop_drop, drop_left' (hf b)]
      exact ih hi

lemma octetAt_column (hf : ∀ a, (f a).length = k) (hi : l[i]? = some a) {v : UInt8}
    (hj : (f a)[j]? = some v) {pre post : Bytes} {off : ℕ} (hoff : off = pre.length) :
    octetAt (pre ++ (l.flatMap f ++ post)) (off + (i * k + j)) = .ok v := by
  obtain ⟨later, hlater⟩ := drop_column hf hi post
  have hlt := (List.getElem?_eq_some_iff.mp hj).1
  rw [octetAt, hoff, getElem?_append_right (Nat.le_add_right ..), Nat.add_sub_cancel_left,
    ← getElem?_drop, hlater, getElem?_append_left hlt, hj]

lemma octetsAt_column {f : α → Octets k} (hi : l[i]? = some a) (post : Bytes) :
    octetsAt (l.flatMap (fun a => (f a).bytes) ++ post) (i * k) k = .ok (f a) := by
  have hlt : i < l.length := (List.getElem?_eq_some_iff.mp hi).1
  obtain ⟨later, hlater⟩ := drop_column (fun a => (f a).length_eq) hi post
  have hend : i * k + k ≤ l.length * k := by
    rw [← Nat.succ_mul]
    exact Nat.mul_le_mul_right k hlt
  obtain ⟨x, hx, hbytes⟩ := @octetsAt_ok (l.flatMap (fun a => (f a).bytes) ++ post) (i * k) k (by
    rw [length_append, length_column fun a => (f a).length_eq]
    omega)
  rw [hlater, take_left' (f a).length_eq] at hbytes
  rw [hx, Octets.ext hbytes]

def inquiryResultParams (entries : List InquiryResultEntry) (reserved trailing : Bytes) :
    Bytes :=
  UInt8.ofNat entries.length :: (entries.flatMap (fun e => e.bdAddr.bytes) ++
    (entries.flatMap (fun e => [e.pageScanRepetitionMode]) ++ (reserved ++
      (entries.flatMap (fun e => writeLe24 e.classOfDevice) ++
        (entries.flatMap (fun e => writeLe16 e.clockOffset) ++ trailing)))))

def inquiryResultIterTake : ℕ → InquiryResultIter →
    Access (List InquiryResultEntry × InquiryResultIter)
  | 0, it => .ok ([], it)
  | n + 1, it => do
      let (entry, it) ← inquiryResultIterNext it
      let (entries, it) ← inquiryResultIterTake n it
      return (entry :: entries, it)

variable {entries : List InquiryResultEntry} {reserved trailing : Bytes}
  {e : InquiryResultEntry}

lemma length_bdAddr (e : InquiryResultEntry) : e.bdAddr.bytes.length = addrLen :=
  e.bdAddr.length_eq

lemma length_mode (e : InquiryResultEntry) : [e.pageScanRepetitionMode].length = 1 := rfl

lemma length_class (e : InquiryResultEntry) : (writeLe24 e.classOfDevice).length = 3 := rfl

lemma length_clock (e : InquiryResultEntry) : (writeLe16 e.clockOffset).length = 2 := rfl

lemma length_inquiryResultParams (hreserved : reserved.length = 2 * entries.length) :
    (inquiryResultParams entries reserved trailing).length =
      14 * entries.length + trailing.length + 1 := by
  rw [inquiryResultParams, length_cons, length_append, length_append,
    length_append, length_append, length_append, length_column length_bdAddr,
    length_column length_mode, length_column length_class, length_column length_clock, hreserved,
    addrLen]
  omega

structure Columns (base : Bytes) (n i : ℕ) (e : InquiryResultEntry) : Prop where
  bdAddr : octetsAt base (i * addrLen) addrLen = .ok e.bdAddr
  mode : octetAt base (n * addrLen + i) = .ok e.pageScanRepetitionMode
  classOfDevice (j : ℕ) {v : UInt8} (hj : (writeLe24 e.classOfDevice)[j]? = some v) :
    octetAt base (n * addrLen + n * 1 + n * 2 + (i * 3 + j)) = .ok v
  clockOffset (j : ℕ) {v : UInt8} (hj : (writeLe16 e.clockOffset)[j]? = some v) :
    octetAt base (n * addrLen + n * 1 + n * 2 + n * 3 + (i * 2 + j)) = .ok v

lemma inquiryResultParams_columns (hreserved : reserved.length = 2 * entries.length)
    (hi : entries[i]? = some e) :
    Columns (inquiryResultParams entries reserved trailing).tail entries.length i e := by
  unfold inquiryResultParams
  constructor
  · exact octetsAt_column hi _
  · rw [← Nat.mul_one i]
    exact octetAt_column (j := 0) length_mode hi rfl (length_column length_bdAddr entries).symm
  · intro j v hj
    rw [← append_assoc, ← append_assoc]
    apply octetAt_column length_class hi hj
    rw [length_append, length_append, length_column length_bdAddr,
      length_column length_mode, hreserved, Nat.mul_comm 2]
  · intro j v hj
    rw [← append_assoc, ← append_assoc, ← append_assoc]
    apply octetAt_column length_clock hi hj
    rw [length_append, length_append, length_append, length_column length_bdAddr,
      length_column length_mode, length_column length_class, hreserved, Nat.mul_comm 2]

lemma inquiryResultIterNext_response {base : Bytes} {n : ℕ} (hcount : n ≤ 255) (hi : i < n)
    (hcolumns : Columns base n i e) (hclass : e.classOfDevice.toNat < 2 ^ 24) (available : ℕ) :
    inquiryResultIterNext ⟨base, available, UInt8.ofNat n, UInt8.ofNat i⟩ =
      .ok (e, ⟨base, available, UInt8.ofNat n, UInt8.ofNat (i + 1)⟩) := by
  have hn : (UInt8.ofNat n).toNat = n := by
    rw [UInt8.toNat_ofNat']
    omega
  have hindex : (UInt8.ofNat i).toNat = i := by
    rw [UInt8.toNat_ofNat']
    omega
  have hgo : ¬ UInt8.ofNat i ≥ UInt8.ofNat n := by
    rw [ge_iff_le, UInt8.not_le, UInt8.lt_iff_toNat_lt, hn, hindex]
    exact hi
  have hcod : e.classOfDevice % 2 ^ 24 = e.classOfDevice := by
    apply UInt32.toNat_inj.mp
    exact Nat.mod_eq_of_lt hclass
  have hclass₀ := hcolumns.classOfDevice 0 rfl
  have hclock₀ := hcolumns.clockOffset 0 rfl
  rw [Nat.add_zero] at hclass₀ hclock₀
  unfold inquiryResultIterNext
  dsimp only
  rw [if_neg hgo, hn, hindex, hcolumns.bdAddr, hcolumns.mode, hclass₀,
    hcolumns.classOfDevice 1 rfl, hcolumns.classOfDevice 2 rfl, hclock₀, hcolumns.clockOffset 1 rfl]
  simp only [bind, Except.bind, pure, Except.pure, readLe24_writeLe24, hcod, readLe16_writeLe16]
  simp

lemma inquiryResultIterTake_responses {entries rest : List InquiryResultEntry}
    {reserved trailing : Bytes} (hcount : entries.length ≤ 255)
    (hclass : ∀ e ∈ entries, e.classOfDevice.toNat < 2 ^ 24)
    (hreserved : reserved.length = 2 * entries.length) (available : ℕ) {i : ℕ}
    (hrest : entries.drop i = rest) :
    inquiryResultIterTake rest.length ⟨(inquiryResultParams entries reserved trailing).tail,
        available, UInt8.ofNat entries.length, UInt8.ofNat i⟩ =
      .ok (rest, ⟨(inquiryResultParams entries reserved trailing).tail, available,
        UInt8.ofNat entries.length, UInt8.ofNat (i + rest.length)⟩) := by
  induction rest generalizing i with
  | nil => rfl
  | cons e rest ih =>
    have hi : entries[i]? = some e := by
      rw [← head?_drop, hrest]
      rfl
    have hlt := (List.getElem?_eq_some_iff.mp hi).1
    have hnext : entries.drop (i + 1) = rest := by
      rw [← drop_drop, hrest]
      rfl
    rw [length_cons, inquiryResultIterTake, inquiryResultIterNext_response hcount hlt
      (inquiryResultParams_columns hreserved hi) (hclass e (mem_of_getElem? hi))]
    simp only [bind, Except.bind, ih hnext, pure, Except.pure]
    rw [Nat.add_right_comm, Nat.add_assoc]

lemma inquiryResultIterTake_inRange {it : InquiryResultIter} (h : it.Fits) (n : ℕ) :
    InRange (inquiryResultIterTake n it) := by
  induction n generalizing it with
  | zero => exact inRange_ok _
  | succ n ih =>
    refine (inquiryResultIterNext_inRange h).bind fun ⟨entry, it'⟩ hnext => ?_
    exact (ih (inquiryResultIterNext_fits hnext h)).bind fun _ _ => inRange_ok _

/-- The iterator returns the responses of an event in order, and then the end; and it refuses an
event that is too short for its number of responses. -/
theorem inquiryResult_responses :
    (∀ (entries : List InquiryResultEntry) (reserved trailing : Bytes),
      entries.length ≤ 255 → (∀ e ∈ entries, e.classOfDevice.toNat < 2 ^ 24) →
      reserved.length = 2 * entries.length →
      ∃ it it', inquiryResultIterInit (inquiryResultParams entries reserved trailing) = .ok it ∧
        inquiryResultIterTake entries.length it = .ok (entries, it') ∧
        inquiryResultIterNext it' = .error (.status .bufferUnderflow)) ∧
    (∀ (count : UInt8) (columns : Bytes), columns.length < 14 * count.toNat →
      inquiryResultIterInit (count :: columns) = .error (.status .bufferUnderflow)) ∧
    ∀ (params : Bytes) (it : InquiryResultIter), inquiryResultIterInit params = .ok it →
      ∀ n, InRange (inquiryResultIterTake n it) := by
  refine ⟨fun entries reserved trailing hcount hclass hreserved => ?_,
    fun count columns hshort => ?_, fun params it hinit n => ?_⟩
  · have hn : (UInt8.ofNat entries.length).toNat = entries.length := by
      rw [UInt8.toNat_ofNat']
      omega
    have htake := @inquiryResultIterTake_responses entries entries reserved trailing hcount hclass
      hreserved (inquiryResultParams entries reserved trailing).tail.length 0 rfl
    refine ⟨_, _, ?_, htake, ?_⟩
    · rw [inquiryResultIterInit_eq (Nat.le_add_left 1 _), if_neg]
      · rfl
      · rw [length_inquiryResultParams hreserved]
        simp only [inquiryResultParams, getElem_cons_zero, hn]
        omega
    · simp [inquiryResultIterNext]
  · rw [inquiryResultIterInit_eq (Nat.le_add_left 1 _), if_pos]
    simpa [Nat.mul_comm] using hshort
  · exact inquiryResultIterTake_inRange (inquiryResultIterInit_fits hinit) n

end Bluzing.Controller
