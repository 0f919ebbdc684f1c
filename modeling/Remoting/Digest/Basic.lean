import Remoting.Bytes

/-!
# Remoting.Digest.Basic

A digest of 128 bits, which names a type or an operation.
-/

namespace Remoting

/-- 128 bits in two halves. -/
structure Digest where
  hi : UInt64
  lo : UInt64
  deriving DecidableEq, Repr, Inhabited

namespace Digest

/-- The digest of all zero bits. -/
def zero : Digest := ⟨0, 0⟩

/-- The sixteen bytes of a digest, the high half first. -/
def toBytes (d : Digest) : Bytes := bigEndian 8 d.hi.toNat ++ bigEndian 8 d.lo.toNat

/-- The digest in the first sixteen bytes. -/
def ofBytes (bs : Bytes) : Digest :=
  ⟨UInt64.ofNat (ofBigEndian (bs.take 8)), UInt64.ofNat (ofBigEndian ((bs.drop 8).take 8))⟩

@[simp] theorem length_toBytes (d : Digest) : d.toBytes.length = 16 := by simp [toBytes]

/-- Thirty-two hexadecimal digits. -/
def render (d : Digest) : String := hexText d.toBytes

/-- The digest that thirty-two hexadecimal digits denote. -/
def ofText? (s : String) : Option Digest :=
  match ofHexText? s with
  | some bs => if bs.length = 16 then some (ofBytes bs) else none
  | none => none

end Digest

end Remoting
