import Bluzing.Smp.Reactions

/-! The peer of the manager: a responder written from the pairing procedures of the Security Manager
specification (Core Vol 3 Part H), not from this code base. -/
namespace Bluzing.Smp

structure Toolbox where
  e : Octets 16 → Octets 16 → Octets 16
  cmac : Octets 16 → Bytes → Octets 16

structure Link where
  initiatorType : UInt8
  responderType : UInt8
  initiator : Octets 6
  responder : Octets 6

namespace Toolbox
variable (t : Toolbox)

def c1 (k r : Octets 16) (preq pres : Octets 7) (link : Link) : Octets 16 :=
  let p1 : Octets 16 :=
    ⟨pres.bytes ++ preq.bytes ++ [link.responderType] ++ [link.initiatorType], by simp⟩
  let p2 : Octets 16 := Octets.padded 4 link.initiator link.responder
  t.e k ((t.e k (r.xor p1)).xor p2)

lemma length_halves (r1 r2 : Octets 16) :
    (r1.bytes.drop 8 ++ r2.bytes.drop 8).length = 16 := by simp

def s1 (k r1 r2 : Octets 16) : Octets 16 :=
  t.e k ⟨r1.bytes.drop 8 ++ r2.bytes.drop 8, length_halves r1 r2⟩

def f4 (u v : Octets 32) (x : Octets 16) (z : UInt8) : Octets 16 :=
  t.cmac x (u.bytes ++ v.bytes ++ [z])

def f5Key (w : Octets 32) : Octets 16 := t.cmac f5Salt w.bytes

def f5 (w : Octets 32) (n1 n2 : Octets 16) (a1 a2 : Octets 7) : Octets 16 × Octets 16 :=
  let message (counter : UInt8) : Bytes :=
    [counter] ++ [0x62, 0x74, 0x6C, 0x65] ++ n1.bytes ++ n2.bytes ++ a1.bytes ++ a2.bytes ++
      [0x01, 0x00]
  (t.cmac (t.f5Key w) (message 0), t.cmac (t.f5Key w) (message 1))

def f6 (w n1 n2 r : Octets 16) (ioCap : Octets 3) (a1 a2 : Octets 7) : Octets 16 :=
  t.cmac w (n1.bytes ++ n2.bytes ++ r.bytes ++ ioCap.bytes ++ a1.bytes ++ a2.bytes)

def aes : Aes128 := fun k block => .ok (t.e k block)

def mac : AesCmac := fun k message => .ok (t.cmac k message)

/-! The toolbox of the code computes the functions of the specification. -/

lemma c1_eq (k r : Octets 16) (preq pres : Octets 7) (link : Link)
    (hi : link.initiatorType ≤ 1) (hr : link.responderType ≤ 1) :
    Smp.c1 (some t.aes) k r preq pres link.initiatorType link.responderType link.initiator
      link.responder = .ok (t.c1 k r preq pres link) := by
  have hblock : c1FirstBlock preq pres link.initiatorType link.responderType =
      ⟨pres.bytes ++ preq.bytes ++ [link.responderType] ++ [link.initiatorType], by simp⟩ := by
    simp [c1FirstBlock]
  have hp2 (x : Octets 16) := Octets.xorAt_xorAt (k := 4) x link.initiator link.responder
  rw [Smp.c1]
  rw [if_neg (by rw [not_or]; exact ⟨UInt8.not_lt.mpr hi, UInt8.not_lt.mpr hr⟩)]
  simp only [aes, bind, Except.bind]
  rw [hp2, hblock, Octets.xor_comm _ r]
  rfl

lemma s1_eq (k r1 r2 : Octets 16) : Smp.s1 (some t.aes) k r1 r2 = .ok (t.s1 k r1 r2) := rfl

lemma f4_eq (u v : Octets 32) (x : Octets 16) (z : UInt8) :
    Smp.f4 (some t.mac) u v x z = .ok (t.f4 u v x z) := rfl

lemma f5_eq (w : Octets 32) (n1 n2 : Octets 16) (a1 a2 : Octets 7) :
    Smp.f5 (some t.mac) w n1 n2 a1 a2 = .ok (t.f5 w n1 n2 a1 a2) := rfl

lemma f6_eq (w n1 n2 r : Octets 16) (ioCap : Octets 3) (a1 a2 : Octets 7) :
    Smp.f6 (some t.mac) w n1 n2 r ioCap a1 a2 = .ok (t.f6 w n1 n2 r ioCap a1 a2) := rfl

lemma g2_ok (u v : Octets 32) (x y : Octets 16) :
    ∃ value, Smp.g2 (some t.mac) u v x y = .ok value := ⟨_, rfl⟩

end Toolbox

structure Responder where
  box : Toolbox
  link : Link
  features : PairingFeatures
  tk : Octets 16
  random : Octets 16
  publicX : Octets 32
  publicY : Octets 32
  dhkey : Octets 32

inductive Stage where
  | idle
  | responded (preq : Bytes)
  | confirmed (preq : Bytes) (initiatorConfirm : Octets 16)
  | exchanged (preq : Bytes) (initiatorX : Octets 32)
  | opened (preq : Bytes) (initiatorX : Octets 32) (initiatorRandom : Octets 16)
  | paired (key : Octets 16)
  | aborted
  deriving DecidableEq

def wireValue (code : Code) : Bytes → Option (Octets 16)
  | [] => none
  | o :: data => if h : o = code.octet ∧ data.length = 16 then
      some (Octets.rev ⟨data, h.2⟩) else none

def wirePublicX : Bytes → Option (Octets 32)
  | [] => none
  | o :: data => if h : o = Code.pairingPublicKey.octet ∧ data.length = 64 then
      some (Octets.rev ⟨data.take 32, by simp [h.2]⟩) else none

lemma wireValue_rev (code : Code) (v : Octets 16) :
    wireValue code (code.octet :: v.rev.bytes) = some v := by
  have hv := v.rev_rev
  rw [wireValue, dif_pos ⟨rfl, v.rev.length_eq⟩, hv]

lemma wirePublicX_rev (x y : Octets 32) :
    wirePublicX (Code.pairingPublicKey.octet :: (x.rev.bytes ++ y.rev.bytes)) = some x := by
  have hlen : (x.rev.bytes ++ y.rev.bytes).length = 64 := by simp
  rw [wirePublicX, dif_pos ⟨rfl, hlen⟩, Option.some.injEq]
  ext1
  simp

namespace Responder
variable (r : Responder)

def secure (preq : Bytes) : Bool := (preq.getD 3 0 &&& r.features.authReq &&& authReqSc) != 0

def confirm (preq : Bytes) (random : Octets 16) : Octets 16 :=
  r.box.c1 r.tk random (reversedPdu preq) (reversedPdu (responsePdu r.features)) r.link

def addressA : Octets 7 := typedAddress r.link.initiatorType r.link.initiator

def addressB : Octets 7 := typedAddress r.link.responderType r.link.responder

def ioCapA (preq : Bytes) : Octets 3 := ⟨[preq.getD 3 0, preq.getD 2 0, preq.getD 1 0], rfl⟩

def ioCapB : Octets 3 :=
  ⟨[r.features.authReq, r.features.oobDataFlag, r.features.ioCapability], rfl⟩

def abort (reason : UInt8) : Stage × List Bytes :=
  (.aborted, [[Code.pairingFailed.octet, reason]])

def receive (stage : Stage) (pdu : Bytes) : Stage × List Bytes :=
  match stage with
  | .idle =>
      if pdu.head? = some Code.pairingRequest.octet ∧ pdu.length = 7 then
        (.responded pdu, [responsePdu r.features])
      else abort 0x0A
  | .responded preq =>
      if r.secure preq then
        -- the responder's key, and its commitment `Cb = f4(PKbx, PKax, Nb, 0)`
        match wirePublicX pdu with
        | none => abort 0x0A
        | some x =>
            (.exchanged preq x,
              [Code.pairingPublicKey.octet :: (r.publicX.rev.bytes ++ r.publicY.rev.bytes),
                Code.pairingConfirm.octet :: (r.box.f4 r.publicX x r.random 0).rev.bytes])
      else
        match wireValue .pairingConfirm pdu with
        | none => abort 0x0A
        | some m =>
            (.confirmed preq m,
              [Code.pairingConfirm.octet :: (r.confirm preq r.random).rev.bytes])
  | .confirmed preq initiatorConfirm =>
      match wireValue .pairingRandom pdu with
      | none => abort 0x0A
      | some m =>
          if r.confirm preq m = initiatorConfirm then
            (.paired (r.box.s1 r.tk r.random m),
              [Code.pairingRandom.octet :: r.random.rev.bytes])
          else abort 0x04
  | .exchanged preq x =>
      match wireValue .pairingRandom pdu with
      | none => abort 0x0A
      | some n => (.opened preq x n, [Code.pairingRandom.octet :: r.random.rev.bytes])
  | .opened preq _ n =>
      match wireValue .pairingDhkeyCheck pdu with
      | none => abort 0x0A
      | some check =>
          -- `MacKey || LTK = f5(DHKey, Na, Nb, A, B)`, `Ea = f6(MacKey, Na, Nb, 0, IOcapA, A, B)`
          let keys := r.box.f5 r.dhkey n r.random r.addressA r.addressB
          if r.box.f6 keys.1 n r.random (.zero 16) (ioCapA preq) r.addressA r.addressB = check then
            (.paired keys.2, [Code.pairingDhkeyCheck.octet ::
              (r.box.f6 keys.1 r.random n (.zero 16) r.ioCapB r.addressB r.addressA).rev.bytes])
          else abort 0x0B
  | .paired key => (.paired key, [])
  | .aborted => (.aborted, [])

def receiveAll (stage : Stage) (pdus : List Bytes) : Stage × List Bytes :=
  pdus.foldl (fun s pdu =>
    let next := r.receive s.1 pdu
    (next.1, s.2 ++ next.2)) (stage, [])

lemma receiveAll_concat (stage : Stage) (pdus : List Bytes) (pdu : Bytes) :
    r.receiveAll stage (pdus ++ [pdu]) =
      ((r.receive (r.receiveAll stage pdus).1 pdu).1,
        (r.receiveAll stage pdus).2 ++ (r.receive (r.receiveAll stage pdus).1 pdu).2) := by
  simp only [receiveAll, List.foldl_append, List.foldl_cons, List.foldl_nil]

variable {preq : Bytes}

lemma receive_confirm (hsec : r.secure preq = false) (m : Octets 16) :
    r.receive (.responded preq) (Code.pairingConfirm.octet :: m.rev.bytes) =
      (.confirmed preq m, [Code.pairingConfirm.octet :: (r.confirm preq r.random).rev.bytes]) := by
  simp only [receive, hsec, Bool.false_eq_true, ↓reduceIte, wireValue_rev]

lemma receive_random (v : Octets 16) :
    r.receive (.confirmed preq (r.confirm preq v)) (Code.pairingRandom.octet :: v.rev.bytes) =
      (.paired (r.box.s1 r.tk r.random v), [Code.pairingRandom.octet :: r.random.rev.bytes]) := by
  simp only [receive, wireValue_rev, ↓reduceIte]

lemma receive_publicKey (hsec : r.secure preq = true) (x y : Octets 32) :
    r.receive (.responded preq)
        (Code.pairingPublicKey.octet :: (x.rev.bytes ++ y.rev.bytes)) =
      (.exchanged preq x,
        [Code.pairingPublicKey.octet :: (r.publicX.rev.bytes ++ r.publicY.rev.bytes),
          Code.pairingConfirm.octet :: (r.box.f4 r.publicX x r.random 0).rev.bytes]) := by
  simp only [receive, hsec, ↓reduceIte, wirePublicX_rev]

lemma receive_nonce (x : Octets 32) (v : Octets 16) :
    r.receive (.exchanged preq x) (Code.pairingRandom.octet :: v.rev.bytes) =
      (.opened preq x v, [Code.pairingRandom.octet :: r.random.rev.bytes]) := by
  simp only [receive, wireValue_rev]

def checkA (preq : Bytes) (v : Octets 16) : Octets 16 :=
  r.box.f6 (r.box.f5 r.dhkey v r.random r.addressA r.addressB).1 v r.random (.zero 16)
    (ioCapA preq) r.addressA r.addressB

def checkB (v : Octets 16) : Octets 16 :=
  r.box.f6 (r.box.f5 r.dhkey v r.random r.addressA r.addressB).1 r.random v (.zero 16)
    r.ioCapB r.addressB r.addressA

lemma receive_check (x : Octets 32) (v : Octets 16) :
    r.receive (.opened preq x v)
        (Code.pairingDhkeyCheck.octet :: (r.checkA preq v).rev.bytes) =
      (.paired (r.box.f5 r.dhkey v r.random r.addressA r.addressB).2,
        [Code.pairingDhkeyCheck.octet :: (r.checkB v).rev.bytes]) := by
  simp only [receive, wireValue_rev, checkA, checkB, ↓reduceIte]

end Responder

end Bluzing.Smp
