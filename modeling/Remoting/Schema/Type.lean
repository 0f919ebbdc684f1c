import Remoting.Schema.Annotation
import Remoting.Schema.Path

/-!
# Remoting.Schema.Type

Types: their names, their storage class and the parts they are made of. Parts refer to types by
number, so that types may refer to each other.
-/

namespace Remoting

/-! ## The numbers of the types that every model has -/

namespace TypeId

def void : TypeId := ⟨0⟩

def bool : TypeId := ⟨1⟩

def int : TypeId := ⟨2⟩

def float : TypeId := ⟨3⟩

def string : TypeId := ⟨4⟩

def any : TypeId := ⟨5⟩

/-- The interface that every object has. -/
def implicitBase : TypeId := ⟨6⟩

/-- The types that every model has, in order. -/
def builtins : List TypeId := [void, bool, int, float, string, any, implicitBase]

end TypeId

/-! ## Parts of types -/

/-- A constant. Floating-point constants are kept as their pattern. -/
inductive Constant where
  | int (value : Int64)
  | float (bits : UInt64)
  | text (value : String)
  deriving DecidableEq, Repr, Inhabited

/-- A value of an enumeration. -/
structure EnumValue where
  ident : String
  label : String
  blurb : String
  ordinal : Int64
  deriving DecidableEq, Repr, Inhabited

/-- A named place for a value: of a record, of a sequence's elements, or a property. -/
structure Slot where
  ident : String
  type : TypeId
  annotations : Annotations := {}
  deriving DecidableEq, Repr, Inhabited

/-- A named argument. -/
structure Parameter where
  ident : String
  type : TypeId
  default : Option Constant := none
  deriving DecidableEq, Repr, Inhabited

/-- What is passed to a function and what it returns. -/
structure Signature where
  parameters : List Parameter
  result : TypeId
  deriving DecidableEq, Repr, Inhabited

/-- A method or a signal. -/
structure Method where
  name : String
  signature : Signature
  deriving DecidableEq, Repr, Inhabited

/-- The members of an interface, and the interfaces that it needs. -/
structure Interface where
  prerequisites : List TypeId := []
  properties : List Slot := []
  methods : List Method := []
  signals : List Method := []
  deriving DecidableEq, Repr, Inhabited

namespace Interface

/-- The first method with the given name. -/
def method? (i : Interface) (name : String) : Option Method := i.methods.find? (·.name == name)

/-- The first signal with the given name. -/
def signal? (i : Interface) (name : String) : Option Method := i.signals.find? (·.name == name)

/-- The first property with the given name. -/
def property? (i : Interface) (name : String) : Option Slot := i.properties.find? (·.ident == name)

/-- The names of all members: properties, methods, signals. -/
def memberNames (i : Interface) : List String :=
  i.properties.map (·.ident) ++ i.methods.map (·.name) ++ i.signals.map (·.name)

end Interface

/-! ## Types -/

/-- A storage class with the parts that types of it have. -/
inductive TypeKind where
  | void
  | bool
  | int
  | float
  | string
  | any
  | enum (values : List EnumValue)
  | record (slots : List Slot)
  | sequence (element : Slot)
  | function (signature : Signature)
  | interface (members : Interface)
  deriving DecidableEq, Repr, Inhabited

namespace TypeKind

/-- The storage class alone. -/
def storage : TypeKind → Storage
  | .void => .void
  | .bool => .bool
  | .int => .int
  | .float => .float
  | .string => .string
  | .any => .any
  | .enum _ => .enum
  | .record _ => .record
  | .sequence _ => .sequence
  | .function _ => .function
  | .interface _ => .interface

/-- What stands for a type between its declaration and its definition. -/
def placeholder : Storage → TypeKind
  | .void => .void
  | .bool => .bool
  | .int => .int
  | .float => .float
  | .string => .string
  | .any => .any
  | .enum => .enum []
  | .record => .record []
  | .sequence => .sequence ⟨"", .void, {}⟩
  | .function => .function ⟨[], .void⟩
  | .interface => .interface {}

@[simp] theorem storage_placeholder (s : Storage) : (placeholder s).storage = s := by
  cases s <;> rfl

end TypeKind

/-- A type: its name, the path of the namespace it stands in, and what it is. -/
structure TypeInfo where
  name : String
  path : List String
  kind : TypeKind
  deriving DecidableEq, Repr, Inhabited

namespace TypeInfo

/-- The name with the path in front of it. -/
def qualifiedName (t : TypeInfo) : String :=
  if t.path.isEmpty then t.name else Schema.joinPath t.path ++ "::" ++ t.name

/-- The storage class. -/
def storage (t : TypeInfo) : Storage := t.kind.storage

/-- The members, for an interface. -/
def interface? (t : TypeInfo) : Option Interface :=
  match t.kind with
  | .interface members => some members
  | _ => none

/-- Whether the type is an interface. -/
def isInterface (t : TypeInfo) : Bool := t.interface?.isSome

/-- The slots of a record or the properties of an interface. -/
def slots (t : TypeInfo) : List Slot :=
  match t.kind with
  | .record slots => slots
  | .interface members => members.properties
  | _ => []

/-- The element of a sequence. -/
def element? (t : TypeInfo) : Option Slot :=
  match t.kind with
  | .sequence element => some element
  | _ => none

/-- The values of an enumeration. -/
def enumValues (t : TypeInfo) : List EnumValue :=
  match t.kind with
  | .enum values => values
  | _ => []

/-- The interfaces that an interface needs. -/
def prerequisites (t : TypeInfo) : List TypeId :=
  match t.kind with
  | .interface members => members.prerequisites
  | _ => []

/-- A copy under another name. -/
def rename (t : TypeInfo) (name : String) : TypeInfo := { t with name }

end TypeInfo

/-! ## Comparison

Types are compared with floating-point constants by value: a constant that is not a number differs
from itself, and the two zeros are equal. -/

/-- Whether two lists have equally many entries, equal one by one. -/
def sameEach (same : α → α → Bool) : List α → List α → Bool
  | [], [] => true
  | a :: as, b :: bs => same a b && sameEach same as bs
  | _, _ => false

/-- Whether two constants are equal by value. -/
def Constant.same : Constant → Constant → Bool
  | .int a, .int b => a == b
  | .float a, .float b => Binary64.same a b
  | .text a, .text b => a == b
  | _, _ => false

/-- Whether two arguments are equal by value. -/
def Parameter.same (a b : Parameter) : Bool :=
  a.ident == b.ident && a.type == b.type &&
    match a.default, b.default with
    | none, none => true
    | some x, some y => x.same y
    | _, _ => false

/-- Whether two signatures are equal by value. -/
def Signature.same (a b : Signature) : Bool :=
  sameEach Parameter.same a.parameters b.parameters && a.result == b.result

/-- Whether two methods are equal by value. -/
def Method.same (a b : Method) : Bool := a.name == b.name && a.signature.same b.signature

/-- Whether two interfaces are equal by value. -/
def Interface.same (a b : Interface) : Bool :=
  a.prerequisites == b.prerequisites && a.properties == b.properties &&
    sameEach Method.same a.methods b.methods && sameEach Method.same a.signals b.signals

/-- Whether two kinds are equal by value. -/
def TypeKind.same : TypeKind → TypeKind → Bool
  | .function a, .function b => a.same b
  | .interface a, .interface b => a.same b
  | a, b => a == b

/-- Whether two types are equal by value. -/
def TypeInfo.same (a b : TypeInfo) : Bool :=
  a.name == b.name && a.path == b.path && a.kind.same b.kind

end Remoting
