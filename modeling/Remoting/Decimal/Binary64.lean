/-!
# Remoting.Decimal.Binary64

Binary floating-point numbers of 64 bits as their bit patterns: one sign bit, eleven exponent bits,
fifty-two fraction bits. A finite number is a sign and a magnitude `mantissa * 2 ^ exponent`.

`Binary64.ofRatio` rounds an exact ratio to the nearest number, a half to the even neighbour.
-/

namespace Remoting

/-- What a bit pattern of 64 bits denotes. -/
inductive Binary64 where
  /-- Not a number. -/
  | nan
  /-- An infinity, negative or not. -/
  | infinite (negative : Bool)
  /-- A sign and the magnitude `mantissa * 2 ^ exponent`. -/
  | finite (negative : Bool) (mantissa : Nat) (exponent : Int)
  deriving DecidableEq, Repr

namespace Binary64

/-- The exponent of the numbers closest to zero. -/
def minExponent : Int := -1074

/-- The number that a bit pattern denotes. -/
def ofBits (bits : UInt64) : Binary64 :=
  let n := bits.toNat
  let negative := decide (Nat.pow 2 63 ≤ n)
  let scale : Nat := n / Nat.pow 2 52 % Nat.pow 2 11
  let fraction : Nat := n % Nat.pow 2 52
  if scale = 2047 then
    if fraction = 0 then .infinite negative else .nan
  else if scale = 0 then .finite negative fraction minExponent
  else .finite negative (Nat.pow 2 52 + fraction) ((scale : Int) - 1075)

/-- The bit pattern of a sign, an exponent field and a fraction field. -/
def assemble (negative : Bool) (scale fraction : Nat) : UInt64 :=
  UInt64.ofNat ((if negative then Nat.pow 2 63 else 0) + scale * Nat.pow 2 52 + fraction)

/-- The pattern of an infinity. -/
def infinityBits (negative : Bool) : UInt64 := assemble negative 2047 0

/-- The pattern of the number that stands for no number. -/
def nanBits (negative : Bool) : UInt64 := assemble negative 2047 (Nat.pow 2 51)

/-- The quotient of two numbers rounded to the nearest whole, a half to the even one. -/
def roundDiv (num den : Nat) : Nat :=
  let q := num / den
  let twice := 2 * (num % den)
  if den < twice ∨ (twice = den ∧ q % 2 = 1) then q + 1 else q

/-- A ratio divided by a power of two, as a ratio again. -/
def scaleDown (num den : Nat) (e : Int) : Nat × Nat :=
  if 0 ≤ e then (num, den * Nat.pow 2 e.toNat) else (num * Nat.pow 2 (-e).toNat, den)

/-- The bit pattern nearest to `num / den`, where `den` is positive. A ratio beyond the largest
finite number becomes infinite. -/
def ofRatio (negative : Bool) (num den : Nat) : UInt64 :=
  if num = 0 then assemble negative 0 0
  else
    -- With this exponent the quotient has fifty-three or fifty-four bits.
    let guess : Int := (Nat.log2 num : Int) - (Nat.log2 den : Int) - 53
    let (gn, gd) := scaleDown num den guess
    let exponent := max minExponent (if Nat.pow 2 53 ≤ gn / gd then guess + 1 else guess)
    let (n, d) := scaleDown num den exponent
    let mantissa := roundDiv n d
    -- Rounding up may carry into the next binade, which the sum of the fields gives by itself.
    if mantissa < Nat.pow 2 52 then assemble negative 0 mantissa
    else
      let scale := (exponent + 1075).toNat + mantissa / Nat.pow 2 53
      if 2047 ≤ scale then infinityBits negative
      else assemble negative scale (if mantissa = Nat.pow 2 53 then 0 else mantissa - Nat.pow 2 52)

/-- Equality of floating-point numbers: nothing equals a pattern that is not a number, and the two
zeros are equal. -/
def same (a b : UInt64) : Bool :=
  match ofBits a, ofBits b with
  | .nan, _ => false
  | _, .nan => false
  | .finite _ 0 _, .finite _ 0 _ => true
  | _, _ => a == b

end Binary64

end Remoting
