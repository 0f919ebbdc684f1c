/-!
# Remoting.Schema.Storage

The storage class of a type: what values of it are, without the parts it is made of.
-/

namespace Remoting

/-- What values of a type are. -/
inductive Storage where
  /-- No value. -/
  | void
  | bool
  | int
  | float
  | string
  /-- One of several named ordinals. -/
  | enum
  /-- Named slots in order. -/
  | record
  /-- Any number of values of one type. -/
  | sequence
  /-- A signature. -/
  | function
  /-- References to objects. -/
  | interface
  /-- Opaque bytes. -/
  | any
  deriving DecidableEq, Repr, Inhabited

namespace Storage

/-- Every storage class. -/
def all : List Storage :=
  [.void, .bool, .int, .float, .string, .enum, .record, .sequence, .function, .interface, .any]

/-- The name of a class. -/
def name : Storage → String
  | .void => "void"
  | .bool => "bool"
  | .int => "int"
  | .float => "float"
  | .string => "string"
  | .enum => "enum"
  | .record => "record"
  | .sequence => "sequence"
  | .function => "function"
  | .interface => "interface"
  | .any => "any"

/-- The byte that stands for a class in the identity of a type. -/
def tag : Storage → UInt8
  | .void => 0x76
  | .bool => 0x62
  | .int => 0x69
  | .float => 0x66
  | .string => 0x73
  | .enum => 0x65
  | .record => 0x72
  | .sequence => 0x71
  | .function => 0x46
  | .interface => 0x63
  | .any => 0x59

/-- The class with the given name. -/
def ofName? (s : String) : Option Storage := all.find? (·.name == s)

/-- Different classes have different bytes. -/
theorem tag_inj {s t : Storage} (h : s.tag = t.tag) : s = t := by
  revert h; cases s <;> cases t <;> decide

end Storage

end Remoting
