import Remoting.Schema.Fingerprint

/-!
# Remoting.Schema.Lineage

What interfaces inherit. Interfaces are compared by number, so an interface that is reached on
several ways counts once.

`Model.closure` lists an interface with everything it needs; `Model.reduce` drops from a list of
interfaces what the others bring along; `Model.typeList` is what an object answers when it is
asked for its types.
-/

namespace Remoting.Model

/-- The types met from `pending` along prerequisites, depth first, each where it is met first.
Types in `seen` are passed by. -/
def walk (m : Model) (seen : List TypeId) (pending : List TypeId) :
    Except SchemaError (List TypeId) :=
  match pending with
  | [] => .ok []
  | id :: rest =>
    if _ : id ∈ seen then m.walk seen rest
    else
      match _ : m.type? id with
      | none => .error (.absent id)
      | some info => do return id :: (← m.walk (id :: seen) (info.prerequisites ++ rest))
termination_by (Schema.unseen m.types.length seen, pending.length)
decreasing_by
  · exact Prod.Lex.right _ (by simp)
  · exact Prod.Lex.left _ _
      (Schema.unseen_cons_lt (List.getElem?_eq_some_iff.1 ‹_›).1 ‹_›)

/-- A type followed by everything it needs, depth first. -/
def closure (m : Model) (id : TypeId) : Except SchemaError (List TypeId) := m.walk [] [id]

/-- Whether `child` needs `parent`, directly or through others. -/
def hasAncestor (m : Model) (child parent : TypeId) : Except SchemaError Bool := do
  let info ← m.type child
  let ancestors ← m.walk [] info.prerequisites
  return parent ∈ ancestors

/-- Whether a candidate is one of the given types or needed by one of them. -/
def isSubsumed (m : Model) (candidate : TypeId) : List TypeId → Except SchemaError Bool
  | [] => .ok false
  | other :: others => do
    if other = candidate then return true
    if ← m.hasAncestor other candidate then return true
    m.isSubsumed candidate others

/-- Keep what is not brought along by the rest: the candidates come in reverse, and each is held
against those still to come and those kept. -/
def reduceFrom (m : Model) (kept : List TypeId) : List TypeId → Except SchemaError (List TypeId)
  | [] => .ok kept
  | candidate :: pending => do
    if ← m.isSubsumed candidate (pending.reverse ++ kept) then m.reduceFrom kept pending
    else m.reduceFrom (candidate :: kept) pending

/-- The types of a list that no other of the list brings along, each once. -/
def reduce (m : Model) (ids : List TypeId) : Except SchemaError (List TypeId) :=
  m.reduceFrom [] ids.reverse

/-- The interfaces that an interface derives from directly, in a class hierarchy. -/
def classBases (m : Model) (id : TypeId) : Except SchemaError (List TypeId) := do
  let members ← m.interface id
  if members.prerequisites.isEmpty then
    return if id = .implicitBase then [] else [.implicitBase]
  m.reduce members.prerequisites

/-- The types that an object of an interface has: its closure, and what every object has. -/
def objectTypes (m : Model) (id : TypeId) : Except SchemaError (List TypeId) := do
  let _ ← m.interface id
  let closure ← m.closure id
  return if .implicitBase ∈ closure then closure else closure ++ [.implicitBase]

/-- The digests of the types that an object of an interface has. -/
def typeList (m : Model) (id : TypeId) : Except SchemaError (List Digest) := do
  (← m.objectTypes id).mapM m.typeDigest

end Remoting.Model

namespace Remoting

/-- Whether an object that has the given types can be taken for one of the target type. -/
def canNarrow (typeList : List Digest) (target : Digest) : Bool := target ∈ typeList

end Remoting
