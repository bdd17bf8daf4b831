import Bluzing.Lib.Octets
import Bluzing.Core.Buffer

/-! The pairing toolbox (`core/security/smp_crypto.c`). -/
namespace Bluzing.Smp

abbrev Aes128 := Octets 16 → Octets 16 → Except Status (Octets 16)

abbrev AesCmac := Octets 16 → Bytes → Except Status (Octets 16)

def c1FirstBlock (preq pres : Octets 7) (iat rat : UInt8) : Octets 16 :=
  ⟨pres.bytes ++ preq.bytes ++ [rat, iat], by simp⟩

def c1 (aes : Option Aes128) (key random : Octets 16) (preq pres : Octets 7) (iat rat : UInt8)
    (ia ra : Octets 6) : Except Status (Octets 16) :=
  match aes with
  | none => .error .invalidArgument
  | some encrypt =>
      if iat > 1 ∨ rat > 1 then .error .invalidArgument
      else do
        let encrypted ← encrypt key ((c1FirstBlock preq pres iat rat).xor random)
        encrypt key ((encrypted.xorAt 4 ia (by decide)).xorAt 10 ra (by decide))

def s1Block (r1 r2 : Octets 16) : Octets 16 :=
  ⟨r1.bytes.drop 8 ++ r2.bytes.drop 8, by simp⟩

def s1 (aes : Option Aes128) (key r1 r2 : Octets 16) : Except Status (Octets 16) :=
  match aes with
  | none => .error .invalidArgument
  | some encrypt => encrypt key (s1Block r1 r2)

def f4 (cmac : Option AesCmac) (u v : Octets 32) (x : Octets 16) (z : UInt8) :
    Except Status (Octets 16) :=
  match cmac with
  | none => .error .invalidArgument
  | some calculate => calculate x (u.bytes ++ v.bytes ++ [z])

def f5Salt : Octets 16 :=
  ⟨[0x6C, 0x88, 0x83, 0x91, 0xAA, 0xF5, 0xA5, 0x38, 0x60, 0x37, 0x0B, 0xDB, 0x5A, 0x60, 0x83, 0xBE],
    rfl⟩

def f5Message (counter : UInt8) (n1 n2 : Octets 16) (a1 a2 : Octets 7) : Bytes :=
  [counter, 0x62, 0x74, 0x6C, 0x65] ++ n1.bytes ++ n2.bytes ++ a1.bytes ++ a2.bytes ++ [0x01, 0x00]

def f5 (cmac : Option AesCmac) (w : Octets 32) (n1 n2 : Octets 16) (a1 a2 : Octets 7) :
    Except Status (Octets 16 × Octets 16) :=
  match cmac with
  | none => .error .invalidArgument
  | some calculate => do
      let t ← calculate f5Salt w.bytes
      let macKey ← calculate t (f5Message 0 n1 n2 a1 a2)
      let ltk ← calculate t (f5Message 1 n1 n2 a1 a2)
      return (macKey, ltk)

def f6 (cmac : Option AesCmac) (w n1 n2 r : Octets 16) (ioCap : Octets 3) (a1 a2 : Octets 7) :
    Except Status (Octets 16) :=
  match cmac with
  | none => .error .invalidArgument
  | some calculate =>
      calculate w (n1.bytes ++ n2.bytes ++ r.bytes ++ ioCap.bytes ++ a1.bytes ++ a2.bytes)

def g2 (cmac : Option AesCmac) (u v : Octets 32) (x y : Octets 16) : Except Status UInt32 :=
  match cmac with
  | none => .error .invalidArgument
  | some calculate => do
      let mac ← calculate x (u.bytes ++ v.bytes ++ y.bytes)
      return (mac.bytes.getD 12 0).toUInt32 <<< 24 ||| (mac.bytes.getD 13 0).toUInt32 <<< 16 |||
        (mac.bytes.getD 14 0).toUInt32 <<< 8 ||| (mac.bytes.getD 15 0).toUInt32

end Bluzing.Smp
