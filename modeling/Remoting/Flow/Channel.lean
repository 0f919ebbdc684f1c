import Remoting.Flow.Gate

/-!
# Remoting.Flow.Channel

A queue of bounded length between tasks. Who wants to put something in passes the gate first; who
takes something out frees a place.
-/

namespace Remoting

/-- A queue behind a gate. -/
structure Channel (α : Type) where
  items : List α := []
  gate : Gate
  /-- Whether nothing will be put in any more. -/
  ended : Bool := false
  deriving Repr, Inhabited

namespace Channel

/-- An empty queue for so many items, at least one. -/
def ofCapacity (capacity : Nat) : Channel α := { gate := { free := max capacity 1 } }

/-- Put an item in. -/
def push (c : Channel α) (item : α) : Channel α := { c with items := c.items ++ [item] }

/-- Take the first item out. -/
def pop? (c : Channel α) : Option (α × Channel α) :=
  match c.items with
  | [] => none
  | item :: items => some (item, { c with items, gate := c.gate.release })

/-- Keep a free place for a task. -/
def keepPlace (c : Channel α) (task : Nat) : Channel α := { c with gate := c.gate.keepPlace task }

/-- Nobody takes anything out any more. -/
def abandon (c : Channel α) : Channel α := { c with items := [], gate := c.gate.close }

/-- Nobody puts anything in any more. -/
def finish (c : Channel α) : Channel α := { c with ended := true }

/-- Whether somebody may still take something out. -/
def hasReceiver (c : Channel α) : Bool := !c.gate.closed

end Channel

end Remoting
