import Remoting.Text.Printable

/-!
# Remoting.Text.Quoted

A text between double quotes, with the characters that could mislead a reader escaped.
-/

namespace Remoting.Text

/-- The digits of a number in base sixteen, in lower case and without leading zeros. -/
def hexNumeral (n : Nat) : String := String.ofList (Nat.toDigits 16 n)

/-- How one character stands inside a quoted text. -/
def escape (c : Char) : String :=
  if c = Char.ofNat 0 then "\\0"
  else if c = '\t' then "\\t"
  else if c = '\r' then "\\r"
  else if c = '\n' then "\\n"
  else if c = '"' then "\\\""
  else if c = '\\' then "\\\\"
  else if isHidden c then "\\u\x7b" ++ hexNumeral c.toNat ++ "\x7d"
  else c.toString

/-- A text between double quotes, each character escaped where it has to be. -/
def quoted (s : String) : String :=
  "\"" ++ String.join (s.toList.map escape) ++ "\""

end Remoting.Text
