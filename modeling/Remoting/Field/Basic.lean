import Remoting.Bytes
import Remoting.Ident
import Remoting.Decimal.Shortest
import Remoting.Text.Quoted

/-!
# Remoting.Field.Basic

Fields, the units of a message: a truth value, a whole number, an enumeration ordinal, a floating
point number, a text, a record or a sequence of fields, a reference to an object, or opaque bytes.
A floating-point field holds its bit pattern, so that every pattern survives.
-/

namespace Remoting

/-- The kind of a field. -/
inductive FieldKind where
  | bool | int | enum | float | string | record | sequence | object | any
  deriving DecidableEq, Repr, Inhabited

namespace FieldKind

/-- Every kind, in the order of the tags. -/
def all : List FieldKind :=
  [.bool, .int, .enum, .float, .string, .record, .sequence, .object, .any]

/-- The byte that announces a field of this kind. -/
def tag : FieldKind → UInt8
  | .bool => 1
  | .int => 2
  | .enum => 3
  | .float => 4
  | .string => 5
  | .record => 6
  | .sequence => 7
  | .object => 8
  | .any => 9

/-- The kind that a byte announces. -/
def ofTag? (b : UInt8) : Option FieldKind := all.find? (·.tag == b)

/-- The name of a kind in messages. -/
def name : FieldKind → String
  | .bool => "bool"
  | .int => "int64"
  | .enum => "enum"
  | .float => "float64"
  | .string => "string"
  | .record => "record"
  | .sequence => "sequence"
  | .object => "object"
  | .any => "any"

@[simp] theorem ofTag?_tag (k : FieldKind) : ofTag? k.tag = some k := by cases k <;> rfl

/-- A byte announces at most one kind. -/
theorem ofTag?_eq_some_iff {b : UInt8} {k : FieldKind} : ofTag? b = some k ↔ k.tag = b := by
  constructor
  · intro h
    have := List.find?_some h
    simpa using this
  · rintro rfl
    exact ofTag?_tag k

end FieldKind

/-- One field of a message. -/
inductive Field where
  | bool (b : Bool)
  | int (i : Int64)
  | enum (ordinal : Int64)
  | float (bits : UInt64)
  | string (s : String)
  | record (fields : List Field)
  | sequence (elements : List Field)
  | object (id : ObjectId)
  | any (bytes : Bytes)
  deriving Repr, Inhabited

namespace Field

/-- The kind of a field. -/
def kind : Field → FieldKind
  | .bool _ => .bool
  | .int _ => .int
  | .enum _ => .enum
  | .float _ => .float
  | .string _ => .string
  | .record _ => .record
  | .sequence _ => .sequence
  | .object _ => .object
  | .any _ => .any

/-! ## Equality -/

mutual
/-- Two fields are equal when they are of one kind and hold the same. -/
def decEq : (a b : Field) → Decidable (a = b)
  | .bool a, .bool b => decidable_of_iff (a = b) (by simp)
  | .int a, .int b => decidable_of_iff (a = b) (by simp)
  | .enum a, .enum b => decidable_of_iff (a = b) (by simp)
  | .float a, .float b => decidable_of_iff (a = b) (by simp)
  | .string a, .string b => decidable_of_iff (a = b) (by simp)
  | .object a, .object b => decidable_of_iff (a = b) (by simp)
  | .any a, .any b => decidable_of_iff (a = b) (by simp)
  | .record a, .record b =>
    match decEqList a b with
    | isTrue h => isTrue (by rw [h])
    | isFalse h => isFalse (by simpa using h)
  | .sequence a, .sequence b =>
    match decEqList a b with
    | isTrue h => isTrue (by rw [h])
    | isFalse h => isFalse (by simpa using h)
  | .bool _, .int _ | .bool _, .enum _ | .bool _, .float _ | .bool _, .string _
  | .bool _, .record _ | .bool _, .sequence _ | .bool _, .object _ | .bool _, .any _
  | .int _, .bool _ | .int _, .enum _ | .int _, .float _ | .int _, .string _
  | .int _, .record _ | .int _, .sequence _ | .int _, .object _ | .int _, .any _
  | .enum _, .bool _ | .enum _, .int _ | .enum _, .float _ | .enum _, .string _
  | .enum _, .record _ | .enum _, .sequence _ | .enum _, .object _ | .enum _, .any _
  | .float _, .bool _ | .float _, .int _ | .float _, .enum _ | .float _, .string _
  | .float _, .record _ | .float _, .sequence _ | .float _, .object _ | .float _, .any _
  | .string _, .bool _ | .string _, .int _ | .string _, .enum _ | .string _, .float _
  | .string _, .record _ | .string _, .sequence _ | .string _, .object _ | .string _, .any _
  | .record _, .bool _ | .record _, .int _ | .record _, .enum _ | .record _, .float _
  | .record _, .string _ | .record _, .sequence _ | .record _, .object _ | .record _, .any _
  | .sequence _, .bool _ | .sequence _, .int _ | .sequence _, .enum _ | .sequence _, .float _
  | .sequence _, .string _ | .sequence _, .record _ | .sequence _, .object _ | .sequence _, .any _
  | .object _, .bool _ | .object _, .int _ | .object _, .enum _ | .object _, .float _
  | .object _, .string _ | .object _, .record _ | .object _, .sequence _ | .object _, .any _
  | .any _, .bool _ | .any _, .int _ | .any _, .enum _ | .any _, .float _
  | .any _, .string _ | .any _, .record _ | .any _, .sequence _ | .any _, .object _ =>
    isFalse (by simp)

/-- Two field lists are equal when they hold equal fields in one order. -/
def decEqList : (as bs : List Field) → Decidable (as = bs)
  | [], [] => isTrue rfl
  | [], _ :: _ => isFalse (by simp)
  | _ :: _, [] => isFalse (by simp)
  | a :: as, b :: bs =>
    match decEq a b, decEqList as bs with
    | isTrue h, isTrue hs => isTrue (by rw [h, hs])
    | isFalse h, _ => isFalse (by simp [h])
    | _, isFalse h => isFalse (by simp [h])
end

instance : DecidableEq Field := decEq

mutual
/-- Equality with floating-point numbers compared as numbers: a pattern that is not a number
differs from itself, and the two zeros are the same. -/
def same : Field → Field → Bool
  | .float a, .float b => Binary64.same a b
  | .record as, .record bs => sameList as bs
  | .sequence as, .sequence bs => sameList as bs
  | .bool a, .bool b => a == b
  | .int a, .int b => a == b
  | .enum a, .enum b => a == b
  | .string a, .string b => a == b
  | .object a, .object b => a == b
  | .any a, .any b => a == b
  | _, _ => false
termination_by structural a => a

/-- Field lists of one length whose fields are the same one by one. -/
def sameList : List Field → List Field → Bool
  | [], [] => true
  | a :: as, b :: bs => same a b && sameList as bs
  | _, _ => false
termination_by structural as => as
end

/-! ## Text -/

mutual
/-- A field as text: its kind and what it holds. -/
def render : Field → String
  | .bool b => "bool " ++ (if b then "true" else "false")
  | .int i => "int64 " ++ toString i.toInt
  | .enum i => "enum " ++ toString i.toInt
  | .float bits => "float64 " ++ Decimal.plainText bits
  | .string s => "string " ++ Text.quoted s
  | .record fs => "record [" ++ renderItems fs ++ "]"
  | .sequence fs => "sequence [" ++ renderItems fs ++ "]"
  | .object id => "object " ++ toString id.val.toNat
  | .any bs => "any (" ++ toString bs.length ++ " bytes)"
termination_by structural f => f

/-- Fields as text, with a comma between one and the next. -/
def renderItems : List Field → String
  | [] => ""
  | f :: fs => render f ++ renderTail fs
termination_by structural fs => fs

/-- Fields as text, each after a comma. -/
def renderTail : List Field → String
  | [] => ""
  | f :: fs => ", " ++ render f ++ renderTail fs
termination_by structural fs => fs
end

/-- A field list as text. -/
def renderList (fs : List Field) : String := "[" ++ renderItems fs ++ "]"

end Field

end Remoting
