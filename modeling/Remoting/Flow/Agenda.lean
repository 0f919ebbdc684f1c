/-!
# Remoting.Flow.Agenda

Whose turn it is. The tasks that can go on stand in line, and the first one has its turn. It goes on
as far as it can, but in one turn it may do a bounded number of operations only; a task that would
do more steps aside.

Turns are counted in rounds. At the end of a round, or as soon as nobody stands in line, those who
stepped aside line up again, and the last one to do so comes first.
-/

namespace Remoting

/-- How many operations a task may do in a turn. -/
def Agenda.turnLength : Nat := 128

/-- How many turns there are in a round. -/
def Agenda.roundLength : Nat := 61

/-- Tasks, which are known by number, and their turns. -/
structure Agenda where
  /-- Who stands in line. The first task has its turn. -/
  line : List Nat := []
  /-- Who stepped aside, the last one first. -/
  aside : List Nat := []
  /-- How many operations the first task has left. -/
  operations : Nat := Agenda.turnLength
  /-- How many turns the round has left. -/
  turns : Nat := Agenda.roundLength
  deriving DecidableEq, Repr, Inhabited

namespace Agenda

/-- Whose turn it is, unless the round is over. -/
def current? (a : Agenda) : Option Nat := if a.turns = 0 then none else a.line.head?

/-- Whether nobody waits for a turn. -/
def isDone (a : Agenda) : Bool := a.line.isEmpty && a.aside.isEmpty

/-- Whether a task waits for a turn, or has it. -/
def holds (a : Agenda) (task : Nat) : Bool := a.line.contains task || a.aside.contains task

/-- Let tasks line up. -/
def lineUp (a : Agenda) (tasks : List Nat) : Agenda := { a with line := a.line ++ tasks }

/-- An operation was done. -/
def spend (a : Agenda) : Agenda := { a with operations := a.operations - 1 }

/-- The turn of the first task is over. -/
def endTurn (a : Agenda) : Agenda :=
  { a with line := a.line.tail, operations := turnLength, turns := a.turns - 1 }

/-- The first task steps aside. -/
def stepAside (a : Agenda) : Agenda :=
  { a.endTurn with aside := a.line.head?.toList ++ a.aside }

/-- A new round begins. -/
def newRound (a : Agenda) : Agenda :=
  { line := a.line ++ a.aside, operations := turnLength, turns := roundLength }

end Agenda

end Remoting
