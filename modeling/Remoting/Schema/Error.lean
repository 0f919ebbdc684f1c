import Remoting.Ident
import Remoting.Schema.Operation
import Remoting.Schema.Storage

/-!
# Remoting.Schema.Error

Why declarations make no model, and why a question to a model has no answer: one cause per rule,
and its wording.
-/

namespace Remoting

/-- Why declarations make no model, or why a question to a model has no answer. -/
inductive SchemaError where
  /-- A name is taken in its namespace. -/
  | duplicate (scope name : String)
  /-- A name refers to nothing. -/
  | unresolved (name : String)
  /-- A type number refers to nothing. -/
  | unknownType (id : TypeId)
  /-- A type refers to a type number that is not declared. -/
  | danglingReference (id : TypeId) (owner : String)
  /-- An interface has no such member. -/
  | unknownMember (owner member : String)
  /-- A type was declared and never defined. -/
  | undefined (name : String)
  /-- A type has another storage class than the one expected. -/
  | wrongKind (name : String) (expected : Storage)
  /-- The elements of a sequence are void. -/
  | voidElement (name : String)
  /-- Interfaces need each other; the first one stands at the end again. -/
  | cycle (names : List String)
  /-- Two values of an enumeration have one ordinal. -/
  | duplicateOrdinal (owner ident : String) (ordinal : Int64)
  /-- Two members of a type have one name. -/
  | duplicateMember (owner member : String)
  /-- A key does not annotate slots of the storage class. -/
  | invalidKey (key : String) (storage : Storage)
  /-- Slots of the storage class take no annotations. -/
  | noAnnotations (storage : Storage)
  /-- More annotations are given by position than there are keys. -/
  | tooManyArguments (storage : Storage) (given max : Nat)
  /-- Two operations have one digest. -/
  | digestCollision (first second : Operation)
  /-- A type number outside the model was asked for. -/
  | absent (id : TypeId)
  deriving DecidableEq, Repr

/-- The wording of a cause. -/
def SchemaError.message : SchemaError → String
  | .duplicate scope name =>
    "duplicate definition of '" ++ name ++ "' in namespace '" ++ scope ++ "'"
  | .unresolved name => "unresolved reference: '" ++ name ++ "'"
  | .unknownType id => "unresolved reference: '" ++ id.render ++ "'"
  | .danglingReference id owner =>
    "unresolved reference: '" ++ id.render ++ " referenced from " ++ owner ++ "'"
  | .unknownMember owner member => "unresolved reference: '" ++ owner ++ "::" ++ member ++ "'"
  | .undefined name => "type '" ++ name ++ "' was declared but never defined"
  | .wrongKind name expected => "type '" ++ name ++ "' is not a " ++ expected.name
  | .voidElement name => "type '" ++ name ++ "' is not a sequence with a non-void element"
  | .cycle names => "cyclic interface prerequisites: " ++ " -> ".intercalate names
  | .duplicateOrdinal owner ident ordinal =>
    "duplicate ordinal " ++ toString ordinal.toInt ++ " in enum '" ++ owner ++ "' (value '" ++
      ident ++ "')"
  | .duplicateMember owner member => "duplicate member '" ++ member ++ "' in '" ++ owner ++ "'"
  | .invalidKey key storage => "invalid auxiliary key '" ++ key ++ "' for " ++ storage.name
  | .noAnnotations storage =>
    "invalid type definition: " ++ storage.name ++ " takes no auxiliary data"
  | .tooManyArguments storage given max =>
    "too many auxiliary arguments for " ++ storage.name ++ ": " ++ toString given ++ " given, " ++
      toString max ++ " allowed"
  | .digestCollision first second =>
    "digest collision between '" ++ first.render ++ "' and '" ++ second.render ++ "' (" ++
      second.digest.render ++ ")"
  | .absent id => "no type " ++ id.render ++ " in the model"

end Remoting
