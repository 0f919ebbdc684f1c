import Remoting.Decimal.Binary64

/-!
# Remoting.Decimal.Shortest

The shortest decimal that reads back as a given binary number.

A magnitude `m * 2 ^ q` owns the interval of reals that round to it; the ends belong to it exactly
when `m` is even. For one digit, two digits, and so on, the two neighbours of the value on the grid
of that many digits are tried, and the first grid with a neighbour in the interval wins. Of two
neighbours the nearer one is taken; what happens on an exact tie is the caller's decision.
-/

namespace Remoting.Decimal

/-- A decimal `0.d₁d₂… * 10 ^ point`; the first digit is not zero. -/
structure Digits where
  /-- The digits, the most significant first. -/
  digits : List Nat
  /-- Where the decimal point stands, counted from before the first digit. -/
  point : Int
  deriving DecidableEq, Repr

/-- What happens when the two neighbours on a grid are equally near. -/
inductive Tie where
  /-- The larger neighbour is taken. -/
  | up
  /-- The neighbour whose last digit is even is taken. -/
  | even
  deriving DecidableEq, Repr

/-- An exact ratio times a power of ten, as a ratio again. -/
def scaleTen (num den : Nat) (e : Int) : Nat × Nat :=
  if 0 ≤ e then (num * Nat.pow 10 e.toNat, den) else (num, den * Nat.pow 10 (-e).toNat)

/-- The interval of a magnitude in quarters of its last binary place: low end, value, high end. -/
def quarters (mantissa : Nat) (exponent : Int) : Nat × Nat × Nat :=
  let narrow := mantissa = Nat.pow 2 52 ∧ Binary64.minExponent < exponent
  (4 * mantissa - (if narrow then 1 else 2), 4 * mantissa, 4 * mantissa + 2)

/-- The unit of a magnitude's quarters as a ratio. -/
def quarterUnit (exponent : Int) : Nat × Nat :=
  if 2 ≤ exponent then (Nat.pow 2 (exponent - 2).toNat, 1) else (1, Nat.pow 2 (2 - exponent).toNat)

/-- The least power of ten above a ratio, found among those that binary numbers reach. -/
def pointOf (num den : Nat) : Int :=
  let start : Int := -330
  match (List.range 650).find? fun (k : Nat) =>
      let (n, d) := scaleTen num den (-(start + (k : Int)))
      n < d with
  | some k => start + (k : Int)
  | none => start

/-- The digits of a whole number, the most significant first. -/
def wholeDigits (n : Nat) : List Nat := (Nat.toDigits 10 n).map fun c => c.toNat - '0'.toNat

/-- Drop the zeros at the end. -/
def dropZeros (ds : List Nat) : List Nat := (ds.reverse.dropWhile (· == 0)).reverse

/-- The decimal on the grid `10 ^ unit` with `count` units. -/
def ofGrid (count : Nat) (unit : Int) : Digits :=
  let ds := wholeDigits count
  ⟨dropZeros ds, unit + (ds.length : Int)⟩

/-- The neighbour of a magnitude on the grid with `places` digits that reads back, if there is one. -/
def onGrid (tie : Tie) (mantissa : Nat) (exponent : Int) (point : Int) (places : Nat) :
    Option Digits :=
  let unit : Int := point - (places : Int)
  let (lo, value, hi) := quarters mantissa exponent
  let (un, ud) := quarterUnit exponent
  -- Everything below counts in grid units over the common denominator `den`.
  let (scale, den) := scaleTen un ud (-unit)
  let low := lo * scale
  let mid := value * scale
  let high := hi * scale
  let inside (n : Nat) : Bool :=
    if mantissa % 2 = 0 then low ≤ n * den && n * den ≤ high else low < n * den && n * den < high
  let down := mid / den
  let rest := mid % den
  if rest = 0 then some (ofGrid down unit)
  else
    match inside down && 0 < down, inside (down + 1) with
    | true, true =>
      let upward := den < 2 * rest ∨ (2 * rest = den ∧ (tie = .up ∨ down % 2 = 1))
      some (ofGrid (if upward then down + 1 else down) unit)
    | true, false => some (ofGrid down unit)
    | false, true => some (ofGrid (down + 1) unit)
    | false, false => none

/-- The shortest decimal that reads back as the positive magnitude `mantissa * 2 ^ exponent`.
Seventeen digits always suffice. -/
def shortest (tie : Tie) (mantissa : Nat) (exponent : Int) : Digits :=
  let (_, value, _) := quarters mantissa exponent
  let (un, ud) := quarterUnit exponent
  let point := pointOf (value * un) ud
  match (List.range 17).findSome? fun n => onGrid tie mantissa exponent point (n + 1) with
  | some ds => ds
  | none => ⟨[0], point⟩

/-! ## Positional notation -/

/-- The characters of a digit list. -/
def digitText (ds : List Nat) : String := String.ofList (ds.map Nat.digitChar)

/-- A row of zeros. -/
def zeros (n : Nat) : String := String.ofList (List.replicate n '0')

/-- A decimal written out with all its places and no exponent; a whole number has no point. -/
def positional (d : Digits) : String :=
  let len := d.digits.length
  if d.point ≤ 0 then "0." ++ zeros (-d.point).toNat ++ digitText d.digits
  else
    let whole := d.point.toNat
    if len ≤ whole then digitText d.digits ++ zeros (whole - len)
    else digitText (d.digits.take whole) ++ "." ++ digitText (d.digits.drop whole)

/-- A binary number as text: the shortest decimal that reads back, written out in full. -/
def plainText (bits : UInt64) : String :=
  match Binary64.ofBits bits with
  | .nan => "NaN"
  | .infinite negative => if negative then "-inf" else "inf"
  | .finite negative mantissa exponent =>
    let sign := if negative then "-" else ""
    if mantissa = 0 then sign ++ "0" else sign ++ positional (shortest .up mantissa exponent)

end Remoting.Decimal
