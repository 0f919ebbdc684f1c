import Remoting.Bytes
import Remoting.JsonText.Numeral

/-!
# Remoting.JsonText.Tree

JSON texts as trees. A tree keeps everything that a text says: numerals with all their digits, and
the members of objects in order, repeated or not. A string whose escapes pair up to no text is
kept as no text, so that it does harm only where its text is needed.
-/

namespace Remoting.JsonText

/-- What a JSON text says. -/
inductive Tree where
  | null
  | bool (value : Bool)
  | number (numeral : Numeral)
  | string (text : Option String)
  | array (elements : List Tree)
  | object (members : List (Option String × Tree))
  deriving Repr

/-! ## Strings -/

/-- A character of a string, or a code unit that was given by its number. -/
inductive StringPart where
  | char (c : Char)
  | unit (n : Nat)
  deriving DecidableEq, Repr

/-- The number that four hexadecimal digits denote. -/
def hexUnit? (a b c d : Char) : Option Nat :=
  match hexValue? a, hexValue? b, hexValue? c, hexValue? d with
  | some a, some b, some c, some d => some (((a * 16 + b) * 16 + c) * 16 + d)
  | _, _, _, _ => none

/-- The character that a letter after a backslash stands for. -/
def escaped? : Char → Option Char
  | '"' => some '"'
  | '\\' => some '\\'
  | '/' => some '/'
  | 'b' => some '\x08'
  | 'f' => some '\x0c'
  | 'n' => some '\n'
  | 'r' => some '\r'
  | 't' => some '\t'
  | _ => none

/-- The parts of a string up to its closing quote, and what follows. -/
def stringParts : List Char → Option (List StringPart × List Char)
  | [] => none
  | '"' :: cs => some ([], cs)
  | '\\' :: 'u' :: a :: b :: c :: d :: cs =>
    match hexUnit? a b c d, stringParts cs with
    | some n, some (parts, rest) => some (.unit n :: parts, rest)
    | _, _ => none
  | '\\' :: c :: cs =>
    match escaped? c, stringParts cs with
    | some c, some (parts, rest) => some (.char c :: parts, rest)
    | _, _ => none
  | c :: cs =>
    if c.toNat < 0x20 ∨ c = '\\' then none
    else
      match stringParts cs with
      | some (parts, rest) => some (.char c :: parts, rest)
      | none => none

/-- The text that parts make up; code units beyond the first plane come in pairs. -/
def joinParts : List StringPart → Option (List Char)
  | [] => some []
  | .char c :: parts => (joinParts parts).map (c :: ·)
  | .unit high :: .unit low :: parts =>
    if 0xd800 ≤ high ∧ high < 0xdc00 then
      if 0xdc00 ≤ low ∧ low < 0xe000 then
        (joinParts parts).map
          (Char.ofNat (0x10000 + (high - 0xd800) * 0x400 + (low - 0xdc00)) :: ·)
      else none
    else if 0xdc00 ≤ high ∧ high < 0xe000 then none
    else (joinParts (.unit low :: parts)).map (Char.ofNat high :: ·)
  | .unit n :: parts =>
    if 0xd800 ≤ n ∧ n < 0xe000 then none else (joinParts parts).map (Char.ofNat n :: ·)

/-- A string after its opening quote. -/
def string? (cs : List Char) : Option (Option String × List Char) :=
  (stringParts cs).map fun (parts, rest) => ((joinParts parts).map String.ofList, rest)

/-! ## Numerals -/

/-- The digits at the front of a text. -/
def digits (cs : List Char) : List Nat × List Char :=
  let (ds, rest) := Decimal.spanDigits cs
  (ds.map fun c => c.toNat - '0'.toNat, rest)

/-- At least one digit at the front of a text. -/
def someDigits? (cs : List Char) : Option (List Nat × List Char) :=
  match digits cs with
  | ([], _) => none
  | found => some found

/-- A point and the digits after it, if there is a point. -/
def fraction? : List Char → Option (Option (List Nat) × List Char)
  | '.' :: cs => (someDigits? cs).map fun (ds, rest) => (some ds, rest)
  | cs => some (none, cs)

/-- An exponent, if there is one. -/
def exponent? (cs : List Char) : Option (Option (Bool × List Nat) × List Char) :=
  match cs with
  | c :: rest =>
    if c = 'e' ∨ c = 'E' then
      let (below, rest) := match rest with
        | '-' :: rest => (true, rest)
        | '+' :: rest => (false, rest)
        | _ => (false, rest)
      (someDigits? rest).map fun (ds, rest) => (some (below, ds), rest)
    else some (none, cs)
  | [] => some (none, cs)

/-- A numeral without its sign. A zero is not followed by a digit. -/
def unsigned? (negative : Bool) (cs : List Char) : Option (Numeral × List Char) := do
  let (whole, cs) ← someDigits? cs
  if whole.head? = some 0 ∧ whole.length ≠ 1 then none
  let (fraction, cs) ← fraction? cs
  let (exponent, cs) ← exponent? cs
  return (⟨negative, whole, fraction, exponent⟩, cs)

/-- A numeral. -/
def numeral? : List Char → Option (Numeral × List Char)
  | '-' :: cs => unsigned? true cs
  | cs => unsigned? false cs

/-! ## Values -/

/-- Drop the blanks at the front of a text. -/
def skipBlanks (cs : List Char) : List Char :=
  cs.dropWhile fun c => c = ' ' ∨ c = '\n' ∨ c = '\t' ∨ c = '\r'

mutual

/-- A value at the front of a text. The first argument bounds the depth of the search; twice the
length of the text is always enough. -/
def value? (fuel : Nat) (cs : List Char) : Option (Tree × List Char) :=
  match fuel with
  | 0 => none
  | fuel + 1 =>
    match skipBlanks cs with
    | 'n' :: 'u' :: 'l' :: 'l' :: cs => some (.null, cs)
    | 't' :: 'r' :: 'u' :: 'e' :: cs => some (.bool true, cs)
    | 'f' :: 'a' :: 'l' :: 's' :: 'e' :: cs => some (.bool false, cs)
    | '"' :: cs => (string? cs).map fun (s, rest) => (.string s, rest)
    | '[' :: cs =>
      match skipBlanks cs with
      | ']' :: cs => some (.array [], cs)
      | cs => (elements? fuel cs).map fun (ts, rest) => (.array ts, rest)
    | '\x7b' :: cs =>
      match skipBlanks cs with
      | '\x7d' :: cs => some (.object [], cs)
      | cs => (members? fuel cs).map fun (ms, rest) => (.object ms, rest)
    | cs => (numeral? cs).map fun (n, rest) => (.number n, rest)
termination_by structural fuel

/-- The elements of an array, up to its closing bracket. -/
def elements? (fuel : Nat) (cs : List Char) : Option (List Tree × List Char) :=
  match fuel with
  | 0 => none
  | fuel + 1 =>
    match value? fuel cs with
    | none => none
    | some (t, cs) =>
      match skipBlanks cs with
      | ']' :: cs => some ([t], cs)
      | ',' :: cs => (elements? fuel cs).map fun (ts, rest) => (t :: ts, rest)
      | _ => none
termination_by structural fuel

/-- The members of an object, up to its closing bracket. -/
def members? (fuel : Nat) (cs : List Char) :
    Option (List (Option String × Tree) × List Char) :=
  match fuel with
  | 0 => none
  | fuel + 1 =>
    match skipBlanks cs with
    | '"' :: cs =>
      match string? cs with
      | none => none
      | some (key, cs) =>
        match skipBlanks cs with
        | ':' :: cs =>
          match value? fuel cs with
          | none => none
          | some (t, cs) =>
            match skipBlanks cs with
            | '\x7d' :: cs => some ([(key, t)], cs)
            | ',' :: cs => (members? fuel cs).map fun (ms, rest) => ((key, t) :: ms, rest)
            | _ => none
        | _ => none
    | _ => none
termination_by structural fuel

end

/-- The tree of a text that is one value, with blanks around it. -/
def parse? (s : String) : Option Tree :=
  let cs := s.toList
  match value? (2 * cs.length + 2) cs with
  | some (t, rest) => if (skipBlanks rest).isEmpty then some t else none
  | none => none

/-! ## Trees as records and names -/

namespace Tree

/-- The text of a string. -/
def text? : Tree → Option String
  | .string text => text
  | _ => none

/-- The values of a record with the given keys, in order. A record is an object with each of the
keys at most once, whatever other keys it has, or an array with the values in order, from which
the last ones may be missing only if `short` says so. -/
def record? (keys : List String) (short : Bool) : Tree → Option (List (Option Tree))
  | .object members =>
    if members.all (·.1.isSome) then
      keys.mapM fun key =>
        match members.filter (·.1 == some key) with
        | [] => some none
        | [member] => some (some member.2)
        | _ => none
    else none
  | .array elements =>
    if elements.length ≤ keys.length ∧ (short ∨ elements.length = keys.length) then
      some (elements.map some ++ List.replicate (keys.length - elements.length) none)
    else none
  | _ => none

/-- The only member of an object. -/
def only? : Tree → Option (String × Tree)
  | .object [(some key, t)] => some (key, t)
  | _ => none

/-- One of several names, as a string or as the key of a null member. -/
def name? : Tree → Option String
  | .string text => text
  | t =>
    match t.only? with
    | some (name, .null) => some name
    | _ => none

end Tree

/-! ## Writing -/

/-- A character inside a written string. -/
def quoteChar (c : Char) : String :=
  if c = '"' then "\\\"" else if c = '\\' then "\\\\"
  else if c = '\x08' then "\\b" else if c = '\x0c' then "\\f"
  else if c = '\n' then "\\n" else if c = '\r' then "\\r" else if c = '\t' then "\\t"
  else if c.toNat < 0x20 then "\\u00" ++ hexText [UInt8.ofNat c.toNat]
  else String.singleton c

/-- A written string. -/
def quote (s : String) : String := "\"" ++ String.join (s.toList.map quoteChar) ++ "\""

/-- A written object. -/
def writeRecord (members : List (String × String)) : String :=
  "\x7b" ++ ",".intercalate (members.map fun m => quote m.1 ++ ":" ++ m.2) ++ "\x7d"

end Remoting.JsonText
