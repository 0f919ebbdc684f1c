import Remoting.Schema.Type

/-!
# Remoting.Schema.Namespace

A namespace holds types and constants under names of which each is used once, in the order in
which they came. `Schema.resolveIn` looks a name up from a scope outwards.
-/

namespace Remoting

/-- What a name in a namespace stands for. -/
inductive Binding where
  | type (id : TypeId)
  | constant (value : Constant)
  deriving DecidableEq, Repr, Inhabited

/-- The type that a binding stands for. -/
def Binding.type? : Binding → Option TypeId
  | .type id => some id
  | .constant _ => none

/-- The constant that a binding stands for. -/
def Binding.constant? : Binding → Option Constant
  | .type _ => none
  | .constant value => some value

/-- The names of one scope. -/
structure Namespace where
  path : List String
  bindings : List (String × Binding) := []
  deriving DecidableEq, Repr, Inhabited

namespace Namespace

/-- The path, written. It is empty for the outermost namespace. -/
def name (ns : Namespace) : String := Schema.joinPath ns.path

/-- What a name stands for. -/
def find? (ns : Namespace) (name : String) : Option Binding :=
  (ns.bindings.find? (·.1 == name)).map (·.2)

/-- Whether a name is free. -/
def isUnknown (ns : Namespace) (name : String) : Bool := (ns.find? name).isNone

/-- Bind a name that is free. -/
def bind (ns : Namespace) (name : String) (binding : Binding) : Except SchemaError Namespace :=
  if ns.isUnknown name then .ok { ns with bindings := ns.bindings ++ [(name, binding)] }
  else .error (.duplicate ns.name name)

/-- A name with the path of the namespace in front of it. -/
def qualify (ns : Namespace) (name : String) : String :=
  if ns.path.isEmpty then name else ns.name ++ "::" ++ name

/-- The type that a name stands for. -/
def type? (ns : Namespace) (name : String) : Option TypeId := (ns.find? name).bind Binding.type?

/-- The constant that a name stands for. -/
def constant? (ns : Namespace) (name : String) : Option Constant :=
  (ns.find? name).bind Binding.constant?

/-- The type that a name stands for, or the name that does not resolve. -/
def findType (ns : Namespace) (name : String) : Except SchemaError TypeId :=
  match ns.type? name with
  | some id => .ok id
  | none => .error (.unresolved (ns.qualify name))

/-- The constant that a name stands for, or the name that does not resolve. -/
def findConstant (ns : Namespace) (name : String) : Except SchemaError Constant :=
  match ns.constant? name with
  | some value => .ok value
  | none => .error (.unresolved (ns.qualify name))

/-- The types, in order. -/
def types (ns : Namespace) : List (String × TypeId) :=
  ns.bindings.filterMap fun b => b.2.type?.map (b.1, ·)

/-- The constants, in order. -/
def constants (ns : Namespace) : List (String × Constant) :=
  ns.bindings.filterMap fun b => b.2.constant?.map (b.1, ·)

end Namespace

namespace Schema

/-- The namespace of the written path. -/
def namespace? (spaces : List Namespace) (name : String) : Option Namespace :=
  spaces.find? (·.name == name)

/-- The namespaces in which a name may be meant from a scope, innermost first, each with the last
segment of the name. A name without segments is meant nowhere. -/
def candidates (scope name : String) : List (String × String) :=
  let scope := splitPath scope
  let segments := splitPath name
  match segments.getLast? with
  | none => []
  | some leaf =>
    (List.range (scope.length + 1)).reverse.map fun depth =>
      (joinPath (scope.take depth ++ segments.dropLast), leaf)

/-- The first answer to a name, from a scope outwards. -/
def resolveIn (spaces : List Namespace) (ask : Namespace → String → Option α)
    (scope name : String) : Except SchemaError α :=
  match (candidates scope name).findSome? fun c =>
      (namespace? spaces c.1).bind fun ns => ask ns c.2 with
  | some a => .ok a
  | none => .error (.unresolved name)

end Schema

end Remoting
