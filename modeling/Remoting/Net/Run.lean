import Remoting.Net.Step

/-!
# Remoting.Net.Run

Running a network. Tasks go on in the order in which they became able to, each as far as it can or
as its turn lasts. A network is settled when no task can go on; then only time, or something done
from outside, makes a difference.
-/

namespace Remoting.Net

/-- The tasks that can go on and wait for no turn yet. -/
def awake (net : Net) : List Task :=
  net.tasks.filter fun t => !net.agenda.holds t.id && (net.step t).isSome

/-- Line up the tasks that can go on and wait for no turn yet. Those that read from a link come
first: of an endpoint that is given up, the other side notices first that nothing comes any more,
and then that nothing can go out. -/
def wake (net : Net) : Net :=
  let (readers, others) := net.awake.partition (·.job.reads)
  { net with agenda := net.agenda.lineUp ((readers ++ others).map (·.id)) }

/-- Change whose turn it is. -/
def changeAgenda (net : Net) (change : Agenda → Agenda) : Net :=
  { net with agenda := change net.agenda }

/-- Let the task whose turn it is do one step, or let its turn be over. -/
def stepTurn (net : Net) (task : Task) : Net :=
  let counts := net.isOperation task
  if counts && net.agenda.operations == 0 then (net.keepPlace task).changeAgenda (·.stepAside)
  else
    match net.step task with
    | none => net.changeAgenda (·.endTurn)
    | some (net, .job job) =>
      ((net.setJob task job).changeAgenda fun a => if counts then a.spend else a).wake
    | some (net, .waiting) => (net.setJob task task.job).changeAgenda (·.endTurn)
    | some (net, .ended report) => ((net.endTask task report).changeAgenda (·.endTurn)).wake

/-- Go on in the order of the agenda, unless nobody can go on. -/
def advanceFirst (net : Net) : Option Net :=
  match net.agenda.current? with
  | none => if net.agenda.isDone then none else some (net.changeAgenda (·.newRound))
  | some id =>
    match net.task? id with
    | none => some (net.changeAgenda (·.endTurn))
    | some task => some (net.stepTurn task)

/-- Let tasks go on, for so many steps at most. -/
def run : (steps : Nat) → Net → Net
  | 0, net => net
  | steps + 1, net =>
    match net.advanceFirst with
    | some net => run steps net
    | none => net

/-- How many steps a network may take to settle. -/
def settleSteps : Nat := 1000000

/-- Let tasks go on until none can, from the beginning of a round. -/
def settle (net : Net) : Net := (net.wake.changeAgenda (·.newRound)).run settleSteps

/-- Let so many milliseconds pass, one after the other. -/
def advance (net : Net) : (milliseconds : Nat) → Net
  | 0 => net
  | n + 1 => advance { net with now := net.now + 1 }.settle n

end Remoting.Net
