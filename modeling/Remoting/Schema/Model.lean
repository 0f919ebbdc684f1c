import Remoting.Schema.Namespace

/-!
# Remoting.Schema.Model

A model is a closed set of types with the namespaces that name them. Models are made by
`Builder.finish`, which checks them.
-/

namespace Remoting

/-- Types by number, and the namespaces that name them. -/
structure Model where
  types : List TypeInfo
  namespaces : List Namespace
  deriving DecidableEq, Repr, Inhabited

namespace Model

/-- The type with the given number. -/
def type? (m : Model) (id : TypeId) : Option TypeInfo := m.types[id.index]?

/-- The type with the given number, which the model is expected to have. -/
def type (m : Model) (id : TypeId) : Except SchemaError TypeInfo :=
  match m.type? id with
  | some info => .ok info
  | none => .error (.absent id)

/-- The members of the interface with the given number. -/
def interface (m : Model) (id : TypeId) : Except SchemaError Interface :=
  match m.type? id with
  | none => .error (.unknownType id)
  | some info =>
    match info.interface? with
    | some members => .ok members
    | none => .error (.wrongKind info.qualifiedName .interface)

/-- Every type number of the model. -/
def ids (m : Model) : List TypeId := (List.range m.types.length).map TypeId.mk

/-- The numbers of the interfaces. -/
def interfaces (m : Model) : List TypeId :=
  m.ids.filter fun id => (m.type? id).any (·.isInterface)

/-- The namespace of a path, in any spelling. -/
def namespace? (m : Model) (path : String) : Option Namespace :=
  Schema.namespace? m.namespaces (Schema.joinPath (Schema.splitPath path))

/-- The type that a name stands for, from a scope outwards. -/
def resolve (m : Model) (scope name : String) : Except SchemaError TypeId :=
  Schema.resolveIn m.namespaces Namespace.type? scope name

/-- The constant that a name stands for, from a scope outwards. -/
def resolveConstant (m : Model) (scope name : String) : Except SchemaError Constant :=
  Schema.resolveIn m.namespaces Namespace.constant? scope name

end Model

end Remoting
