import Remoting.Schema.Check
import Remoting.Schema.Model

/-!
# Remoting.Schema.Builder

A model in the making. A type is declared under a name and gets its number; it may be defined
later, once, with parts of the storage class it was declared with. `finish` checks everything and
gives the model.
-/

namespace Remoting

/-- A declared type. Until it is defined, its kind is a placeholder. -/
structure Declaration where
  info : TypeInfo
  defined : Bool
  deriving DecidableEq, Repr, Inhabited

/-- A model in the making. -/
structure Builder where
  declarations : List Declaration
  namespaces : List Namespace
  deriving DecidableEq, Repr, Inhabited

namespace Schema

/-- Open a namespace: it stands at the end if it was not there. -/
def openAt (path : List String) : List Namespace → List Namespace
  | [] => [⟨path, []⟩]
  | ns :: rest => if ns.name = joinPath path then ns :: rest else ns :: openAt path rest

/-- Bind a name in the namespace of a path, which is opened if it was not there. -/
def bindAt (path : List String) (name : String) (binding : Binding) :
    List Namespace → Except SchemaError (List Namespace)
  | [] => do return [← (Namespace.mk path []).bind name binding]
  | ns :: rest =>
    if ns.name = joinPath path then do return (← ns.bind name binding) :: rest
    else do return ns :: (← bindAt path name binding rest)

end Schema

namespace Builder

/-- A defined type of the given name. -/
def builtin (name : String) (path : List String) (kind : TypeKind) : Declaration :=
  ⟨⟨name, path, kind⟩, true⟩

/-- The types that every model has. -/
def initial : Builder where
  declarations :=
    [builtin "void" [] .void, builtin "bool" [] .bool, builtin "int" [] .int,
     builtin "float" [] .float, builtin "string" [] .string, builtin "any" [] .any,
     builtin "ImplicitBase" ["Aida"] (.interface {})]
  namespaces :=
    [⟨[], [("void", .type .void), ("bool", .type .bool), ("int", .type .int),
       ("float", .type .float), ("string", .type .string), ("any", .type .any)]⟩,
     ⟨["Aida"], [("ImplicitBase", .type .implicitBase)]⟩]

/-- The types declared so far. -/
def types (b : Builder) : List TypeInfo := b.declarations.map (·.info)

/-- The type with the given number. -/
def type? (b : Builder) (id : TypeId) : Option TypeInfo := b.types[id.index]?

/-- Open a namespace. -/
def openNamespace (b : Builder) (path : String) : Builder :=
  { b with namespaces := Schema.openAt (Schema.splitPath path) b.namespaces }

/-- The namespace of a path, in any spelling. -/
def namespace? (b : Builder) (path : String) : Option Namespace :=
  Schema.namespace? b.namespaces (Schema.joinPath (Schema.splitPath path))

/-- Bind a name in a namespace, which is opened if needed. -/
def bind (b : Builder) (path name : String) (binding : Binding) : Except SchemaError Builder := do
  let namespaces ← Schema.bindAt (Schema.splitPath path) name binding b.namespaces
  return { b with namespaces }

/-- Declare a type. -/
def declare (b : Builder) (path name : String) (storage : Storage) :
    Except SchemaError (TypeId × Builder) := do
  let id : TypeId := ⟨b.declarations.length⟩
  let b ← b.bind path name (.type id)
  let info : TypeInfo := ⟨name, Schema.splitPath path, .placeholder storage⟩
  return (id, { b with declarations := b.declarations ++ [⟨info, false⟩] })

/-- Define a declared type. -/
def define (b : Builder) (id : TypeId) (kind : TypeKind) : Except SchemaError Builder :=
  match b.declarations[id.index]? with
  | none => .error (.unknownType id)
  | some d =>
    if d.defined then .error (.duplicate (Schema.joinPath d.info.path) d.info.name)
    else if d.info.storage = kind.storage then
      .ok { b with declarations := b.declarations.set id.index ⟨{ d.info with kind }, true⟩ }
    else .error (.wrongKind d.info.qualifiedName d.info.storage)

/-- Declare and define a type. -/
def add (b : Builder) (path name : String) (kind : TypeKind) :
    Except SchemaError (TypeId × Builder) := do
  let (id, b) ← b.declare path name kind.storage
  return (id, ← b.define id kind)

/-- Bind a constant. -/
def addConstant (b : Builder) (path name : String) (value : Constant) :
    Except SchemaError Builder :=
  b.bind path name (.constant value)

/-- The type that a name stands for, from a scope outwards. -/
def resolve (b : Builder) (scope name : String) : Except SchemaError TypeId :=
  Schema.resolveIn b.namespaces Namespace.type? scope name

/-- The constant that a name stands for, from a scope outwards. -/
def resolveConstant (b : Builder) (scope name : String) : Except SchemaError Constant :=
  Schema.resolveIn b.namespaces Namespace.constant? scope name

/-- Every declared type must be defined. -/
def checkDefined (b : Builder) : Except SchemaError Unit :=
  match b.declarations.find? (!·.defined) with
  | some d => .error (.undefined d.info.qualifiedName)
  | none => .ok ()

/-- Check everything, and give the model. -/
def finish (b : Builder) : Except SchemaError Model := do
  b.checkDefined
  b.types.forM (Schema.checkShape b.types)
  Schema.checkAcyclic b.types
  return ⟨b.types, b.namespaces⟩

end Builder

/-- The model without declarations of its own. -/
def Model.initial : Model := ⟨Builder.initial.types, Builder.initial.namespaces⟩

end Remoting
