import Remoting.Field.Basic

/-!
# Remoting.Host.Objects

The objects that a side offers to the other. An object is exported under the next number, which is
never given again; one of the numbers may be that of the root object.
-/

namespace Remoting

/-- An object: its interface, and the fields it keeps, if it keeps any. -/
structure Servant where
  interface : TypeId
  state : Option (List Field) := none
  deriving DecidableEq, Repr, Inhabited

/-- Exported objects by number. -/
structure ObjectTable where
  ids : IdSource := {}
  objects : List (ObjectId × Servant) := []
  root : Option ObjectId := none
  deriving DecidableEq, Repr, Inhabited

namespace ObjectTable

/-- The object of a number. -/
def lookup (t : ObjectTable) (id : ObjectId) : Option Servant :=
  (t.objects.find? (·.1 == id)).map (·.2)

/-- The object that a reference leads to; the null reference leads to none. -/
def resolve (t : ObjectTable) (id : ObjectId) : Option Servant :=
  if id.isNull then none else t.lookup id

/-- Export an object under the next number. -/
def exportObject (t : ObjectTable) (servant : Servant) : ObjectId × ObjectTable :=
  let (n, ids) := t.ids.take
  let id : ObjectId := ⟨n⟩
  (id, { t with ids, objects := t.objects.filter (·.1 != id) ++ [(id, servant)] })

/-- Make a number that of the root object. -/
def setRoot (t : ObjectTable) (id : ObjectId) : ObjectTable := { t with root := some id }

/-- Export an object and make it the root. -/
def exportRoot (t : ObjectTable) (servant : Servant) : ObjectId × ObjectTable :=
  let (id, t) := t.exportObject servant
  (id, t.setRoot id)

/-- Take an object out of the table. -/
def remove (t : ObjectTable) (id : ObjectId) : Option Servant × ObjectTable :=
  (t.lookup id, { t with objects := t.objects.filter (·.1 != id) })

/-- Take every object out of the table. The root keeps its number. -/
def clear (t : ObjectTable) : ObjectTable := { t with objects := [] }

/-- The number of objects. -/
def size (t : ObjectTable) : Nat := t.objects.length

/-- Put fields into an object that keeps some. -/
def store (t : ObjectTable) (id : ObjectId) (fields : List Field) : ObjectTable :=
  { t with
    objects := t.objects.map fun o =>
      if o.1 = id ∧ o.2.state.isSome then (o.1, { o.2 with state := some fields }) else o }

/-- The table as text. -/
def render (t : ObjectTable) : String :=
  "ObjectTable \x7b objects: " ++ toString t.size ++ ", root: " ++
    (match t.root with
      | some id => "Some(" ++ id.render ++ ")"
      | none => "None") ++ " \x7d"

end ObjectTable

end Remoting
