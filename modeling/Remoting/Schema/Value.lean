import Remoting.Field.Reader
import Remoting.Schema.Model

/-!
# Remoting.Schema.Value

Values against their declared types. A value is written as one field, if it fits its type, and
read back from one field.
-/

namespace Remoting

/-- A value. Floating-point values are kept as their pattern. -/
inductive Value where
  | bool (value : Bool)
  | int (value : Int64)
  | float (bits : UInt64)
  | string (value : String)
  | enum (ordinal : Int64)
  | record (values : List Value)
  | sequence (values : List Value)
  | object (id : ObjectId)
  | any (bytes : Bytes)
  deriving Repr, Inhabited

/-- The name of a value's kind in messages. -/
def Value.kindName : Value → String
  | .bool _ => "bool"
  | .int _ => "int"
  | .float _ => "float"
  | .string _ => "string"
  | .enum _ => "enum"
  | .record _ => "record"
  | .sequence _ => "sequence"
  | .object _ => "object"
  | .any _ => "any"

mutual

/-- The value that a field holds, whatever its type. -/
def Value.ofField (field : Field) : Value :=
  match field with
  | .bool b => .bool b
  | .int i => .int i
  | .enum i => .enum i
  | .float bits => .float bits
  | .string s => .string s
  | .record fields => .record (Value.ofFields fields)
  | .sequence fields => .sequence (Value.ofFields fields)
  | .object id => .object id
  | .any bytes => .any bytes
termination_by structural field

/-- The values that fields hold, whatever their types. -/
def Value.ofFields (fields : List Field) : List Value :=
  match fields with
  | [] => []
  | field :: fields => Value.ofField field :: Value.ofFields fields
termination_by structural fields

end

mutual

/-- The field that holds a value, whatever its type. -/
def Value.toField (value : Value) : Field :=
  match value with
  | .bool b => .bool b
  | .int i => .int i
  | .enum i => .enum i
  | .float bits => .float bits
  | .string s => .string s
  | .record values => .record (Value.toFields values)
  | .sequence values => .sequence (Value.toFields values)
  | .object id => .object id
  | .any bytes => .any bytes
termination_by structural value

/-- The fields that hold values, whatever their types. -/
def Value.toFields (values : List Value) : List Field :=
  match values with
  | [] => []
  | value :: values => Value.toField value :: Value.toFields values
termination_by structural values

end

/-- Why a value does not fit a type, or fields hold no value of it. -/
inductive ValueError where
  /-- A value is of another kind than its type. -/
  | mismatch (kindName type : String)
  /-- An enumeration has no such ordinal. -/
  | noOrdinal (type : String) (ordinal : Int64)
  /-- A record has another number of slots. -/
  | wrongLength (type : String) (slots values : Nat)
  /-- Values of the type cannot be written at all. -/
  | unwritable (type : String)
  /-- The fields are not as expected. -/
  | framing (error : FramingError)
  /-- A type number outside the model was asked for. -/
  | absent (id : TypeId)
  deriving DecidableEq, Repr

namespace ValueError

/-- The wording of a cause. -/
def message : ValueError → String
  | .mismatch kindName type => kindName ++ " value does not fit type " ++ type
  | .noOrdinal type ordinal =>
    type ++ " has no value with ordinal " ++ toString ordinal.toInt
  | .wrongLength type slots values =>
    type ++ " has " ++ toString slots ++ " fields, value has " ++ toString values
  | .unwritable type => "type " ++ type ++ " has no wire representation"
  | .framing error => error.message
  | .absent id => (SchemaError.absent id).message

/-- A cause as a fault of the framing class. -/
def toFault (e : ValueError) : Fault := ⟨.framing, e.message, none⟩

end ValueError

/-- The kind of field that a value of a kind of type takes, if it can be written. -/
def TypeKind.fieldKind? : TypeKind → Option FieldKind
  | .bool => some .bool
  | .int => some .int
  | .float => some .float
  | .string => some .string
  | .enum _ => some .enum
  | .record _ => some .record
  | .sequence _ => some .sequence
  | .interface _ => some .object
  | .any => some .any
  | .void | .function _ => none

namespace Model

/-- The kind of field that a value of a type takes, if it can be written. -/
def fieldKind (m : Model) (id : TypeId) : Except SchemaError (Option FieldKind) := do
  return (← m.type id).kind.fieldKind?

/-! ## Writing -/

mutual

/-- The field that a value of a type is written as. -/
def writeValue (m : Model) (id : TypeId) (value : Value) : Except ValueError Field :=
  match m.type? id with
  | none => .error (.absent id)
  | some info =>
    match info.kind, value with
    | .bool, .bool b => .ok (.bool b)
    | .int, .int i => .ok (.int i)
    | .float, .float bits => .ok (.float bits)
    | .string, .string s => .ok (.string s)
    | .enum values, .enum ordinal =>
      if values.any (·.ordinal == ordinal) then .ok (.enum ordinal)
      else .error (.noOrdinal info.qualifiedName ordinal)
    | .record slots, .record values =>
      if slots.length = values.length then
        (m.writeEach (slots.map (·.type)) values).map .record
      else .error (.wrongLength info.qualifiedName slots.length values.length)
    | .sequence element, .sequence values => (m.writeAll element.type values).map .sequence
    | .interface _, .object id => .ok (.object id)
    | .any, .any bytes => .ok (.any bytes)
    | _, _ => .error (.mismatch value.kindName info.qualifiedName)
termination_by structural value

/-- The fields that values are written as, each of its own type. -/
def writeEach (m : Model) (ids : List TypeId) (values : List Value) :
    Except ValueError (List Field) :=
  match values with
  | [] => .ok []
  | value :: values =>
    match ids with
    | [] => .ok []
    | id :: ids =>
      match m.writeValue id value with
      | .error e => .error e
      | .ok field => (m.writeEach ids values).map (field :: ·)
termination_by structural values

/-- The fields that values of one type are written as. -/
def writeAll (m : Model) (id : TypeId) (values : List Value) : Except ValueError (List Field) :=
  match values with
  | [] => .ok []
  | value :: values =>
    match m.writeValue id value with
    | .error e => .error e
    | .ok field => (m.writeAll id values).map (field :: ·)
termination_by structural values

end

/-- Write a value of a type after the fields that are there. -/
def write (m : Model) (fields : List Field) (id : TypeId) (value : Value) :
    Except ValueError (List Field) :=
  (m.writeValue id value).map (fields ++ [·])

end Model

/-! ## Reading -/

namespace Model

/-- Why no value of a type can be read where the fields have ended, after `position` of them. -/
def readNothing (m : Model) (id : TypeId) (position : Nat) : ValueError :=
  match m.type? id with
  | none => .absent id
  | some info =>
    match info.kind.fieldKind? with
    | none => .unwritable info.qualifiedName
    | some expected => .framing (.missingField expected position position)

mutual

/-- The value of a type that a field holds. `position` is the place of the field in its list,
which messages give. -/
def readField (m : Model) (id : TypeId) (position : Nat) (field : Field) :
    Except ValueError Value :=
  match m.type? id with
  | none => .error (.absent id)
  | some info =>
    match info.kind.fieldKind? with
    | none => .error (.unwritable info.qualifiedName)
    | some expected =>
      match info.kind, field with
      | .bool, .bool b => .ok (.bool b)
      | .int, .int i => .ok (.int i)
      | .float, .float bits => .ok (.float bits)
      | .string, .string s => .ok (.string s)
      | .enum values, .enum ordinal =>
        if values.any (·.ordinal == ordinal) then .ok (.enum ordinal)
        else .error (.noOrdinal info.qualifiedName ordinal)
      | .record slots, .record fields =>
        (m.readEach (slots.map (·.type)) 0 fields).map .record
      | .sequence element, .sequence fields => (m.readAll element.type 0 fields).map .sequence
      | .interface _, .object id => .ok (.object id)
      | .any, .any bytes => .ok (.any bytes)
      | _, _ => .error (.framing (.wrongKind expected position field.kind))
termination_by structural field

/-- The values that a list of fields holds, each of its own type, with no field left over. -/
def readEach (m : Model) (ids : List TypeId) (position : Nat) (fields : List Field) :
    Except ValueError (List Value) :=
  match fields with
  | [] =>
    match ids with
    | [] => .ok []
    | id :: _ => .error (m.readNothing id position)
  | field :: fields =>
    match ids with
    | [] => .error (.framing (.unread (fields.length + 1) position))
    | id :: ids =>
      match m.readField id position field with
      | .error e => .error e
      | .ok value => (m.readEach ids (position + 1) fields).map (value :: ·)
termination_by structural fields

/-- The values of one type that a list of fields holds. -/
def readAll (m : Model) (id : TypeId) (position : Nat) (fields : List Field) :
    Except ValueError (List Value) :=
  match fields with
  | [] => .ok []
  | field :: fields =>
    match m.readField id position field with
    | .error e => .error e
    | .ok value => (m.readAll id (position + 1) fields).map (value :: ·)
termination_by structural fields

end

/-- Whether a field is of the kind that values of a type take. -/
def accepts (m : Model) (id : TypeId) (field : Field) : Bool :=
  ((m.type? id).bind (·.kind.fieldKind?)) == some field.kind

/-- Read a value of a type from the next field. The reader moves past a field of the right kind,
even if it holds no value of the type, and stays at any other. -/
def read (m : Model) (id : TypeId) (r : Reader) : Except ValueError Value × Reader :=
  match r.fields[r.position]? with
  | none => (.error (m.readNothing id r.fields.length), r)
  | some field =>
    (m.readField id r.position field,
      if m.accepts id field then { r with position := r.position + 1 } else r)

end Model

end Remoting
