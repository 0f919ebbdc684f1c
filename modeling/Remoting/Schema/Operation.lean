import Remoting.Digest.Basic

/-!
# Remoting.Schema.Operation

What can be asked of an object: an operation has a role, the interface and the member it belongs
to, and the digest that names it in messages.
-/

namespace Remoting

/-- What an operation does with the member it belongs to. -/
inductive Role where
  /-- Call a method. -/
  | call
  /-- Read a property. -/
  | get
  /-- Write a property. -/
  | set
  /-- Subscribe to a signal. -/
  | connect
  /-- Ask an object for the types it has. -/
  | typeList
  deriving DecidableEq, Repr, Inhabited

namespace Role

/-- Every role. -/
def all : List Role := [.call, .get, .set, .connect, .typeList]

/-- The name of a role, as it enters digests and texts. -/
def name : Role → String
  | .call => "call"
  | .get => "get"
  | .set => "set"
  | .connect => "connect"
  | .typeList => "typelist"

/-- The name of a role in data. -/
def key : Role → String
  | .typeList => "type_list"
  | role => role.name

/-- The role with the given name in data. -/
def ofKey? (s : String) : Option Role := all.find? (·.key == s)

end Role

/-- An operation of an interface. -/
structure Operation where
  role : Role
  /-- The qualified name of the declaring interface. -/
  interface : String
  member : String
  digest : Digest
  deriving DecidableEq, Repr, Inhabited

/-- An operation as text. -/
def Operation.render (op : Operation) : String :=
  op.interface ++ "." ++ op.member ++ " (" ++ op.role.name ++ ")"

end Remoting
