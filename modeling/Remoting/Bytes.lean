/-!
# Remoting.Bytes

Byte strings as `List UInt8`: big-endian words of a fixed width, and UTF-8 text.

A word of `width` bytes is written by `bigEndian` and read by `ofBigEndian`.
-/

namespace Remoting

/-- A byte string. -/
abbrev Bytes := List UInt8

/-! ## Big-endian words -/

/-- The lowest `width` bytes of `n`, most significant first. -/
def bigEndian : (width : Nat) → (n : Nat) → Bytes
  | 0, _ => []
  | width + 1, n => UInt8.ofNat (n >>> (8 * width)) :: bigEndian width n

/-- The number that a byte string denotes, most significant byte first. -/
def ofBigEndian : Bytes → Nat
  | [] => 0
  | b :: bs => b.toNat <<< (8 * bs.length) + ofBigEndian bs

@[simp] theorem length_bigEndian (width n : Nat) : (bigEndian width n).length = width := by
  induction width with
  | zero => rfl
  | succ width ih => simp [bigEndian, ih]

/-! ## UTF-8 text -/

/-- The UTF-8 encoding of a text. -/
def utf8 (s : String) : Bytes := s.toByteArray.data.toList

/-- The text that a byte string encodes, if it is valid UTF-8. -/
def ofUtf8? (bs : Bytes) : Option String := String.fromUTF8? ⟨bs.toArray⟩

theorem ofUtf8?_eq_some_iff {bs : Bytes} {s : String} : ofUtf8? bs = some s ↔ bs = utf8 s := by
  unfold ofUtf8? utf8 String.fromUTF8?
  constructor
  · intro h
    split at h
    · injection h with h
      subst h
      rfl
    · simp at h
  · intro h
    subst h
    have hv : (ByteArray.mk s.toByteArray.data.toList.toArray).IsValidUTF8 := by
      rw [Array.toArray_toList]; exact s.isValidUTF8
    rw [dif_pos hv]
    congr 1

/-! ## Hexadecimal text -/

/-- The hexadecimal digit of a number below sixteen, in lower case. -/
def hexDigit (n : Nat) : Char := Nat.digitChar n

/-- Two hexadecimal digits for every byte, in lower case. -/
def hexText (bs : Bytes) : String :=
  String.ofList (bs.flatMap fun b => [hexDigit (b.toNat / 16), hexDigit (b.toNat % 16)])

/-- The value of a hexadecimal digit of either case. -/
def hexValue? (c : Char) : Option Nat :=
  if '0' ≤ c ∧ c ≤ '9' then some (c.toNat - '0'.toNat)
  else if 'a' ≤ c ∧ c ≤ 'f' then some (c.toNat - 'a'.toNat + 10)
  else if 'A' ≤ c ∧ c ≤ 'F' then some (c.toNat - 'A'.toNat + 10)
  else none

/-- The bytes that a text of hexadecimal digit pairs denotes. -/
def ofHexText? (s : String) : Option Bytes := go s.toList
where
  /-- Read the digits two by two. -/
  go : List Char → Option Bytes
    | [] => some []
    | [_] => none
    | a :: b :: cs =>
      match hexValue? a, hexValue? b, go cs with
      | some x, some y, some bs => some (UInt8.ofNat (16 * x + y) :: bs)
      | _, _, _ => none

end Remoting
