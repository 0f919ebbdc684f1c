/-!
# Remoting.Flow.Gate

A gate lets a bounded number of tasks in at a time. Tasks that find it full wait, and a place that
becomes free is given to the one that has waited longest. A closed gate lets nobody in.
-/

namespace Remoting

/-- A gate for tasks, which are known by number. -/
structure Gate where
  /-- How many places are free. -/
  free : Nat
  /-- Who waits, in the order of arrival. -/
  waiting : List Nat := []
  /-- Who has been given a place and has not come in yet. -/
  granted : List Nat := []
  closed : Bool := false
  deriving DecidableEq, Repr, Inhabited

/-- What comes of trying a gate. -/
inductive Entry where
  | entered
  /-- The task has to wait. -/
  | queued
  /-- The gate is closed. -/
  | refused
  deriving DecidableEq, Repr

namespace Gate

/-- The most places that a gate can have. -/
def maxPlaces : Nat := Nat.pow 2 61 - 1

/-- Try to get in. A task that waits already, and has no place yet, gets no answer. -/
def enter (g : Gate) (task : Nat) : Option (Entry × Gate) :=
  if g.closed then some (.refused, g)
  else if task ∈ g.granted then some (.entered, { g with granted := g.granted.erase task })
  else if task ∈ g.waiting then none
  else
    match g.free with
    | free + 1 => some (.entered, { g with free })
    | 0 => some (.queued, { g with waiting := g.waiting ++ [task] })

/-- Keep a free place, if there is one, for a task that will come in later. -/
def keepPlace (g : Gate) (task : Nat) : Gate :=
  match g.closed, g.free with
  | false, free + 1 => { g with free, granted := g.granted ++ [task] }
  | _, _ => g

/-- Give a place back. -/
def release (g : Gate) : Gate :=
  match g.waiting with
  | task :: waiting => { g with waiting, granted := g.granted ++ [task] }
  | [] => { g with free := g.free + 1 }

/-- Close the gate. -/
def close (g : Gate) : Gate := { g with waiting := [], granted := [], closed := true }

end Gate

end Remoting
