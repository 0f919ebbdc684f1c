import Remoting.Framing
import Remoting.Digest.Basic

/-!
# Remoting.Field.Reader

Reading a field list in order, each field against the kind that is expected. A reading that fails
keeps the place it had reached.
-/

namespace Remoting

/-- A place in a field list. -/
structure Reader where
  fields : List Field
  /-- How many fields have been read. -/
  position : Nat := 0
  deriving Repr, Inhabited

/-- A computation that reads fields and may fail; the place reached so far survives a failure. -/
abbrev Reading := ExceptT FramingError (StateM Reader)

namespace Reader

/-- A reader of the fields from the given place on; it counts from zero again. -/
def startingAt (fields : List Field) (start : Nat) : Reader := ⟨fields.drop start, 0⟩

/-- How many fields are still to be read. -/
def remaining (r : Reader) : Nat := r.fields.length - r.position

/-- The kind of the next field. -/
def peek? (r : Reader) : Option FieldKind := r.fields[r.position]?.map Field.kind

end Reader

namespace Reading

/-- Perform a reading. -/
def perform (x : Reading α) (r : Reader) : Except FramingError α × Reader := x.run.run r

/-- Perform a reading on a field list of its own, whose place is then forgotten. -/
def inside (fields : List Field) (x : Reading α) : Reading α := fun r =>
  ((x.perform ⟨fields, 0⟩).1, r)

/-- What a reading makes of a field list. -/
def ofFields (fields : List Field) (x : Reading α) : Except FramingError α :=
  (x.perform ⟨fields, 0⟩).1

/-- The next field, if it is of the expected kind; `pick` takes out what it holds. -/
def next (expected : FieldKind) (pick : Field → Option α) : Reading α := fun r =>
  match r.fields[r.position]? with
  | none => (.error (.missingField expected r.position r.fields.length), r)
  | some f =>
    match pick f with
    | some a => (.ok a, { r with position := r.position + 1 })
    | none => (.error (.wrongKind expected r.position f.kind), r)

/-- The next field, a truth value. -/
def bool : Reading Bool := next .bool fun | .bool b => some b | _ => none

/-- The next field, a whole number. -/
def int : Reading Int64 := next .int fun | .int i => some i | _ => none

/-- The next field, an ordinal. -/
def enum : Reading Int64 := next .enum fun | .enum i => some i | _ => none

/-- The next field, a floating-point pattern. -/
def float : Reading UInt64 := next .float fun | .float b => some b | _ => none

/-- The next field, a text. -/
def string : Reading String := next .string fun | .string s => some s | _ => none

/-- The next field, a record. -/
def record : Reading (List Field) := next .record fun | .record fs => some fs | _ => none

/-- The next field, a sequence. -/
def sequence : Reading (List Field) := next .sequence fun | .sequence fs => some fs | _ => none

/-- The next field, an object reference. -/
def object : Reading ObjectId := next .object fun | .object id => some id | _ => none

/-- The next field, opaque bytes. -/
def any : Reading Bytes := next .any fun | .any bs => some bs | _ => none

/-- Succeeds when every field was read. -/
def finish : Reading Unit := fun r =>
  if r.position < r.fields.length then (.error (.unread r.remaining r.position), r) else (.ok (), r)

/-- The next field, a whole number taken as a word. -/
def word : Reading UInt64 := do return (← int).toUInt64


end Reading

end Remoting
