import Remoting.Decimal.Binary64

/-!
# Remoting.Decimal.Reading

Reading a decimal numeral as a binary number: an optional sign, then digits with at most one point
and at least one digit, then an optional exponent; or the words for the infinities and for the
pattern that is not a number, in any case. The result is the nearest binary number.
-/

namespace Remoting.Decimal

/-- The number that a list of decimal digits denotes. -/
def numeral (cs : List Char) : Nat :=
  cs.foldl (fun n c => 10 * n + (c.toNat - '0'.toNat)) 0

/-- The digits at the front of a text, and what follows them. -/
def spanDigits (cs : List Char) : List Char × List Char :=
  (cs.takeWhile Char.isDigit, cs.dropWhile Char.isDigit)

/-- The whole exponent at the front of a text: an optional sign and at least one digit. -/
def exponent? (cs : List Char) : Option (Int × List Char) :=
  let (negative, cs) := match cs with
    | '-' :: rest => (true, rest)
    | '+' :: rest => (false, rest)
    | _ => (false, cs)
  let (ds, rest) := spanDigits cs
  if ds.isEmpty then none
  else some (if negative then -(numeral ds : Int) else (numeral ds : Int), rest)

/-- The binary number nearest to `mantissa * 10 ^ exponent`, where the mantissa has at most `places`
digits. Exponents so large or so small that the places cannot make up for them are cut short. -/
def nearest (negative : Bool) (mantissa places : Nat) (exponent : Int) : UInt64 :=
  if mantissa = 0 then Binary64.assemble negative 0 0
  else if 400 < exponent then Binary64.infinityBits negative
  else if exponent < -(400 + (places : Int)) then Binary64.assemble negative 0 0
  else if 0 ≤ exponent then Binary64.ofRatio negative (mantissa * Nat.pow 10 exponent.toNat) 1
  else Binary64.ofRatio negative mantissa (Nat.pow 10 (-exponent).toNat)

/-- Read digits with a point and an exponent, using up the whole text. -/
def digits? (negative : Bool) (cs : List Char) : Option UInt64 :=
  let (whole, rest) := spanDigits cs
  let (fraction, rest) := match rest with
    | '.' :: rest => spanDigits rest
    | _ => ([], rest)
  if whole.isEmpty && fraction.isEmpty then none
  else
    let ds := whole ++ fraction
    let finish (e : Int) := nearest negative (numeral ds) ds.length (e - (fraction.length : Int))
    match rest with
    | [] => some (finish 0)
    | c :: rest =>
      if c = 'e' ∨ c = 'E' then
        match exponent? rest with
        | some (e, []) => some (finish e)
        | _ => none
      else none

/-- Read a special number by its word. -/
def word? (negative : Bool) (cs : List Char) : Option UInt64 :=
  let w := String.ofList (cs.map Char.toLower)
  if w = "nan" then some (Binary64.nanBits negative)
  else if w = "inf" ∨ w = "infinity" then some (Binary64.infinityBits negative)
  else none

/-- Read a numeral. -/
def read? (cs : List Char) : Option UInt64 :=
  let (negative, body) := match cs with
    | '-' :: rest => (true, rest)
    | '+' :: rest => (false, rest)
    | _ => (false, cs)
  (digits? negative body).orElse fun _ => word? negative body

end Remoting.Decimal
