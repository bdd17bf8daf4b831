import Bluzing.Core.Buffer

/-! L2CAP PDUs over ACL fragments (`protocols/l2cap/l2cap.c`): the basic header, the reassembler of
one connection handle and the fragmenter. -/
namespace Bluzing.L2cap

def headerLen : ℕ := 4
def reassemblyMax : ℕ := 1024
def aclHeaderLen : ℕ := 4
def maxAclFragment : ℕ := 512

structure Header where
  length : UInt16
  cid : UInt16
  deriving DecidableEq

def encodeHeader (w : Writer) (length cid : UInt16) : Except Status Writer := do
  let w ← w.writeLe16 length
  w.writeLe16 cid

def parseHeader (r : Reader) : Access (Header × Reader) := do
  let (length, r) ← r.readLe16
  let (cid, r) ← r.readLe16
  return (⟨length, cid⟩, r)

structure Reassembler where
  buf : Bytes
  want : ℕ
  fits : buf.length ≤ reassemblyMax
  deriving DecidableEq

def Reassembler.init : Reassembler := ⟨[], 0, Nat.zero_le _⟩

inductive ReassemblyResult where
  | more
  | complete
  | error
  deriving DecidableEq

def announcedLength (buf : Bytes) : ℕ :=
  headerLen + (readLe16 (buf.getD 0 0) (buf.getD 1 0)).toNat

def finalizeHeaderAndCheck (ra : Reassembler) : Reassembler × ReassemblyResult :=
  let want := if ra.want = 0 ∧ headerLen ≤ ra.buf.length then announcedLength ra.buf else ra.want
  if ra.want = 0 ∧ headerLen ≤ ra.buf.length ∧ want > reassemblyMax then (.init, .error)
  else if want ≠ 0 ∧ ra.buf.length > want then (.init, .error)
  else if want ≠ 0 ∧ ra.buf.length = want then ({ ra with want }, .complete)
  else ({ ra with want }, .more)

def reassemblerFeed (ra : Reassembler) (pbFlag : UInt8) (data : Bytes) :
    Reassembler × ReassemblyResult :=
  if pbFlag ≠ 0x01 then
    if h : data.length ≤ reassemblyMax then finalizeHeaderAndCheck ⟨data, 0, h⟩
    else (.init, .error)
  else if ra.buf.length = 0 then (ra, .error)
  else if h : (ra.buf ++ data).length ≤ reassemblyMax then
    finalizeHeaderAndCheck ⟨ra.buf ++ data, ra.want, h⟩
  else (.init, .error)

def reassemblerTake (ra : Reassembler) : Reassembler × Bytes := (.init, ra.buf)

def encodeAclHeader (w : Writer) (handle : UInt16) (pbFlag bcFlag : UInt8) (dataLen : UInt16) :
    Except Status Writer :=
  if handle > 0x0FFF ∨ pbFlag > 0x03 ∨ bcFlag > 0x03 then .error .invalidArgument
  else do
    let w ← w.writeLe16
      (handle ||| (pbFlag.toUInt16 <<< 12) ||| (bcFlag.toUInt16 <<< 14))
    w.writeLe16 dataLen

def encodeFragment (handle : UInt16) (first : Bool) (chunk : Bytes) :
    Except Status Writer := do
  let w ← encodeAclHeader (.init (aclHeaderLen + maxAclFragment)) handle
    (if first then 0x00 else 0x01) 0x00 chunk.length.toUInt16
  w.writeBytes chunk

def fragments (fragSize : ℕ) (pdu : Bytes) : List (Bool × Bytes) :=
  match pdu.toChunks fragSize with
  | [] => []
  | chunk :: rest => (true, chunk) :: rest.map (false, ·)

end Bluzing.L2cap
