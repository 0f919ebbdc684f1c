/-!
# Remoting.Ident

Identifiers: objects, calls, connections and types, and the source that hands out fresh words.
-/

namespace Remoting

/-- A reference to an object of the other side. Zero refers to none. -/
structure ObjectId where
  val : UInt64
  deriving DecidableEq, Repr, Inhabited

/-- The number that ties a response to its request. Zero stands in messages that tie to nothing. -/
structure CallId where
  val : UInt64
  deriving DecidableEq, Repr, Inhabited

/-- The number of a connection at the side that owns it. -/
structure ConnectionId where
  val : UInt16
  deriving DecidableEq, Repr, Inhabited

/-- The place of a type in its model. -/
structure TypeId where
  index : Nat
  deriving DecidableEq, Repr, Inhabited

namespace ObjectId

/-- The reference to no object. -/
def null : ObjectId := ⟨0⟩

/-- Whether the reference is to no object. -/
def isNull (id : ObjectId) : Bool := id.val == 0

/-- The reference as text. -/
def render (id : ObjectId) : String := "ObjectId(" ++ toString id.val.toNat ++ ")"

end ObjectId

namespace CallId

/-- The number of a message that ties to nothing. -/
def none : CallId := ⟨0⟩

/-- The number as text. -/
def render (id : CallId) : String := "CallId(" ++ toString id.val.toNat ++ ")"

end CallId

/-- The connection number as text. -/
def ConnectionId.render (id : ConnectionId) : String :=
  "Connection(" ++ toString id.val.toNat ++ ")"

/-- The type number as text. -/
def TypeId.render (id : TypeId) : String := "TypeId(" ++ toString id.index ++ ")"

/-- Hands out one word after another, starting with one. -/
structure IdSource where
  /-- The word handed out next. -/
  next : UInt64 := 1
  deriving DecidableEq, Repr, Inhabited

/-- The next word, and the source after it. -/
def IdSource.take (s : IdSource) : UInt64 × IdSource := (s.next, ⟨s.next + 1⟩)

/-- The source after `n` words were handed out. -/
def IdSource.skip (s : IdSource) : Nat → IdSource
  | 0 => s
  | n + 1 => (s.take.2).skip n

end Remoting
