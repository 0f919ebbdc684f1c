import Remoting.Decimal.Reading
import Remoting.Decimal.Shortest

/-!
# Remoting.JsonText.Numeral

Numerals of JSON texts, and the numbers they denote.

A numeral without point and exponent is a whole number as long as it fits; `-0` is none. Read as a
floating-point number, a numeral counts by its leading digits, as many as fit into 64 bits, and is
scaled by a power of ten, each step rounded to the nearest binary number. A numeral beyond the
largest finite number denotes nothing.
-/

namespace Remoting.JsonText

/-- A numeral: sign, digits, digits after the point, and an exponent with its sign. -/
structure Numeral where
  negative : Bool
  whole : List Nat
  fraction : Option (List Nat) := none
  exponent : Option (Bool × List Nat) := none
  deriving DecidableEq, Repr

namespace Numeral

/-- The number that digits denote. -/
def value (digits : List Nat) : Nat := digits.foldl (fun n d => 10 * n + d) 0

/-- The whole number that a numeral denotes. -/
def toInt? (n : Numeral) : Option Int :=
  match n.fraction, n.exponent with
  | none, none =>
    let v := value n.whole
    if n.negative then if v = 0 then none else some (-(v : Int)) else some v
  | _, _ => none

/-- The whole number that a numeral denotes, if it is below `bound`. -/
def toNatBelow? (n : Numeral) (bound : Nat) : Option Nat :=
  match n.toInt? with
  | some (.ofNat v) => if v < bound then some v else none
  | _ => none

/-- The whole number that a numeral denotes, if it fits into 64 bits with a sign. -/
def toInt64? (n : Numeral) : Option Int64 :=
  match n.toInt? with
  | some v =>
    if -0x8000000000000000 ≤ v ∧ v < 0x8000000000000000 then some (Int64.ofInt v) else none
  | none => none

/-- Take digits into a significand as long as it stays below `2 ^ 64`; the digits that are left. -/
def takeDigits (significand : Nat) : List Nat → Nat × List Nat
  | [] => (significand, [])
  | d :: ds =>
    if 10 * significand + d < Nat.pow 2 64 then takeDigits (10 * significand + d) ds
    else (significand, d :: ds)

/-- The binary number nearest to a power of ten. -/
def powerOfTen (e : Nat) : UInt64 := Decimal.nearest false 1 1 e

/-- A positive finite number as a ratio. -/
def ratio (bits : UInt64) : Nat × Nat :=
  match Binary64.ofBits bits with
  | .finite _ mantissa exponent =>
    if 0 ≤ exponent then (mantissa * Nat.pow 2 exponent.toNat, 1)
    else (mantissa, Nat.pow 2 (-exponent).toNat)
  | _ => (0, 1)

/-- The product of two positive finite numbers, rounded. -/
def product (a b : UInt64) : UInt64 :=
  let (an, ad) := ratio a
  let (bn, bd) := ratio b
  Binary64.ofRatio false (an * bn) (ad * bd)

/-- The quotient of two positive finite numbers, rounded. -/
def quotient (a b : UInt64) : UInt64 :=
  let (an, ad) := ratio a
  let (bn, bd) := ratio b
  Binary64.ofRatio false (an * bd) (ad * bn)

/-- The largest exponent of ten that a finite number reaches. -/
def maxPower : Nat := 308

/-- A number times a power of ten. Powers below the smallest are reached in steps; after three of
them every significand has vanished. -/
def scale (steps : Nat) (number : UInt64) (exponent : Int) : Option UInt64 :=
  if exponent.natAbs ≤ maxPower then
    if 0 ≤ exponent then
      let scaled := product number (powerOfTen exponent.natAbs)
      if scaled = Binary64.infinityBits false then none else some scaled
    else some (quotient number (powerOfTen exponent.natAbs))
  else if number = 0 then some 0
  else if 0 ≤ exponent then none
  else
    match steps with
    | 0 => some 0
    | steps + 1 => scale steps (quotient number (powerOfTen maxPower)) (exponent + maxPower)

/-- A pattern with the given sign. -/
def signed (negative : Bool) (bits : UInt64) : UInt64 :=
  if negative then bits ||| 0x8000000000000000 else bits

/-- The floating-point number that a numeral denotes. -/
def toFloat? (n : Numeral) : Option UInt64 :=
  let (significand, dropped) := takeDigits 0 n.whole
  let (significand, rest) := takeDigits significand (n.fraction.getD [])
  let places : Int := ((n.fraction.getD []).length : Int) - (rest.length : Int)
  let start : Int := (dropped.length : Int) - places
  let number := Binary64.ofRatio false significand 1
  match n.exponent with
  | none => (scale 3 number start).map (signed n.negative)
  | some (below, digits) =>
    let e := value digits
    if e < Nat.pow 2 31 then
      (scale 3 number (if below then start - e else start + e)).map (signed n.negative)
    else if significand ≠ 0 ∧ !below then none
    else some (signed n.negative 0)

end Numeral

/-! ## Writing floating-point numbers -/

/-- A decimal in the notation of JSON texts: positional, with at least one place after the point,
from `1e-5` up to below `1e16`, and with an exponent elsewhere. -/
def decimalText (d : Decimal.Digits) : String :=
  if -5 < d.point ∧ d.point ≤ 16 then
    let text := Decimal.positional d
    if (d.digits.length : Int) ≤ d.point then text ++ ".0" else text
  else
    let exponent := d.point - 1
    let sign := if 0 ≤ exponent then "e+" else "e-"
    let fraction := d.digits.drop 1
    Decimal.digitText (d.digits.take 1) ++
      (if fraction.isEmpty then "" else "." ++ Decimal.digitText fraction) ++
      sign ++ toString exponent.natAbs

/-- A floating-point number in a JSON text: the shortest decimal that reads back, and `null` for
what is not finite. -/
def floatText (bits : UInt64) : String :=
  match Binary64.ofBits bits with
  | .finite negative mantissa exponent =>
    (if negative then "-" else "") ++
      if mantissa = 0 then "0.0" else decimalText (Decimal.shortest .even mantissa exponent)
  | _ => "null"

end Remoting.JsonText
