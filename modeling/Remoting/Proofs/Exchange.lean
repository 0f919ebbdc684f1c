import Remoting.Net.Control
import Remoting.Proofs.Transit

/-!
# Remoting.Proofs.Exchange

A caller and a server at the two ends of one link (`Net.facing`), and everything that can happen
there. An `Action` is something that the caller does, the end of the connection, a step of any task,
the passing of time, or a change of whose turn it is; the actions of a list are done one after the
other (`Net.follow`). So lists of actions cover every order in which tasks can go on, and in
particular the one that the scheduler picks (`Net.passes_settle`, `Net.passes_advance`).

Beside the network goes a history of the calls, which nothing in the network depends on: the calls
that were asked for, the numbers that they got, and the responses that the host made. How everything
that was asked for has ended is in the reports of the network itself.
-/

namespace Remoting

variable {net net' : Net}

/-- What a host answers to a request that came on a connection. -/
def Host.answer (host : Host) (request : Frame) : Option Frame :=
  match host.judge request.header with
  | .answered response => response
  | .invoke handler target =>
    conclude request.header (handler ⟨request.header, request.payload, target, true⟩).outcome

/-- The history of the calls of a network. Calls are known by the tickets of their reports. -/
structure History where
  /-- The calls that were asked for, with what is to be sent. -/
  calls : List (Nat × Frame) := []
  /-- The numbers that calls got. -/
  numbers : List (Nat × CallId) := []
  /-- Requests that were answered, with the responses that the host made. -/
  answers : List (Frame × Frame) := []
  deriving DecidableEq, Repr

/-- Something that can happen. -/
inductive Action where
  /-- The caller asks for a call. -/
  | call (frame : Frame) (deadline : Nat)
  /-- The caller asks for a message to be sent that expects no response. -/
  | send (frame : Frame)
  /-- The caller asks for the connection to be closed. -/
  | close
  /-- The caller lets go of the connection. -/
  | letGo
  /-- The server closes the connection. -/
  | hangUp
  /-- The caller takes a message that is no response. -/
  | take
  /-- The caller wants no more messages that are no responses. -/
  | ignore
  /-- A millisecond passes. -/
  | tick
  /-- A task goes on. -/
  | go (task : Nat)
  /-- A place is kept for a task. -/
  | hold (task : Nat)
  /-- It is somebody else's turn. -/
  | order (agenda : Agenda)
  deriving Repr

namespace Net

/-- A caller at the left end of a link and a server at the right end. -/
def facing (host : Host) (link : Link) (settings : PeerSettings) (maxInFlight : Nat) :
    Except SetupError Net := do
  let (ends, net) := ({ host } : Net).join link
  let (_, net) ← net.addPeer ends.1 settings
  let net ← net.addServer maxInFlight
  let (_, net) ← net.serve ends.2
  return net

theorem eq_of_addServer {net net' : Net} {maxInFlight : Nat}
    (h : net.addServer maxInFlight = .ok net') :
    net' = { net with servers := net.servers ++ [.ofLimit maxInFlight] } := by
  obtain ⟨-, -, h⟩ := bind_eq_ok_iff.mp h
  split at h
  · contradiction
  · exact (Except.ok.inj h).symm

/-- Let a task stand where a step has led it. -/
def place (net : Net) (t : Task) : Next → Net
  | .job job => net.setJob t job
  | .waiting => net.setJob t t.job
  | .ended report => net.endTask t report

/-- The history after a step of a task. -/
def note (net : Net) (t : Task) (next : Next) (h : History) : History :=
  match t.job, next, t.ticket with
  | .call _ _ _, .job (.send _ (.await id _ _)), some ticket =>
    { h with numbers := h.numbers ++ [(ticket, id)] }
  | .work _ request, _, _ =>
    { h with answers := h.answers ++ (net.host.answer request).toList.map (request, ·) }
  | _, _, _ => h

/-- Let something happen, if it can. -/
def act (net : Net) (h : History) : Action → Option (History × Net)
  | .call frame deadline => do
    let (ticket, net) ← net.callPeer 0 frame deadline
    return ({ h with calls := h.calls ++ [(ticket, frame)] }, net)
  | .send frame =>
    if frame.header.kind.expectsResponse then none
    else (net.sendPeer 0 frame).map fun (_, net) => (h, net)
  | .close => (net.closePeer 0).map fun (_, net) => (h, net)
  | .letGo => (net.dropPeer 0).map fun net => (h, net)
  | .hangUp => some (h, net.spawn 1 (.push .close .shutDown) none)
  | .take => (net.takeInbound 0).map fun (_, net) => (h, net)
  | .ignore => (net.dropInbound 0).map fun net => (h, net)
  | .tick => some (h, { net with now := net.now + 1 })
  | .go task => do
    let t ← net.task? task
    let (net', next) ← net.step t
    return (net.note t next h, net'.place t next)
  | .hold task => (net.task? task).map fun t => (h, net.keepPlace t)
  | .order agenda => some (h, { net with agenda })

/-- Let one thing happen after the other. -/
def follow (net : Net) (h : History) : List Action → Option (History × Net)
  | [] => some (h, net)
  | action :: actions => do
    let (h, net) ← net.act h action
    net.follow h actions

/-! ## The order of the scheduler -/

theorem follow_append {h h' : History} {actions : List Action}
    (hrun : net.follow h actions = some (h', net')) (more : List Action) :
    net.follow h (actions ++ more) = net'.follow h' more := by
  induction actions generalizing net h with
  | nil =>
    cases hrun
    rfl
  | cons action actions ih =>
    obtain ⟨⟨h₁, net₁⟩, hact, hrest⟩ := Option.bind_eq_some_iff.mp hrun
    rw [List.cons_append, follow, hact]
    exact ih hrest

/-- A network that can come out of another one by some list of actions. -/
def Follows (net net' : Net) : Prop :=
  ∀ h, ∃ actions h', net.follow h actions = some (h', net')

end Net

namespace Action

/-- Nothing is done from outside. -/
def isInternal : Action → Bool
  | .tick | .go _ | .hold _ | .order _ => true
  | _ => false

/-- How many milliseconds pass. -/
def ticks : List Action → Nat
  | [] => 0
  | .tick :: actions => ticks actions + 1
  | _ :: actions => ticks actions

theorem ticks_append (actions more : List Action) :
    ticks (actions ++ more) = ticks actions + ticks more := by
  induction actions with
  | nil => simp [ticks]
  | cons action actions ih => cases action <;> simp [ticks, ih, Nat.add_right_comm]

end Action

namespace Net

/-- A network comes out of another one by itself. -/
def Runs (net : Net) (actions : List Action) (net' : Net) : Prop :=
  (∀ action ∈ actions, action.isInternal = true) ∧
    ∀ h, ∃ h', net.follow h actions = some (h', net')

/-- A network comes out of another one by itself while so many milliseconds pass. -/
def Passes (net : Net) (milliseconds : Nat) (net' : Net) : Prop :=
  ∃ actions, net.Runs actions net' ∧ Action.ticks actions = milliseconds

theorem Runs.nil (net : Net) : net.Runs [] net := ⟨by simp, fun h => ⟨h, rfl⟩⟩

/-- Runs follow one another. -/
theorem Runs.append {net'' : Net} {actions more : List Action} (hrun : net.Runs actions net')
    (hmore : net'.Runs more net'') :
    net.Runs (actions ++ more) net'' := by
  refine ⟨fun action haction => ?_, fun h => ?_⟩
  · rcases List.mem_append.mp haction with hfirst | hlater
    · exact hrun.1 action hfirst
    · exact hmore.1 action hlater
  · obtain ⟨h', hfollow⟩ := hrun.2 h
    obtain ⟨h'', hfollow'⟩ := hmore.2 h'
    exact ⟨h'', by rw [follow_append hfollow, hfollow']⟩

theorem runs_act {action : Action} (hinternal : action.isInternal = true)
    (h : ∀ h, ∃ h', net.act h action = some (h', net')) : net.Runs [action] net' := by
  refine ⟨by simpa using hinternal, fun h₀ => ?_⟩
  obtain ⟨h', hact⟩ := h h₀
  exact ⟨h', by rw [follow, hact]; rfl⟩

/-- A step is a run. -/
theorem runs_go {id : Nat} {t : Task} {next : Next} (htask : net.task? id = some t)
    (hstep : net.step t = some (net', next)) :
    net.Runs [.go id] (net'.place t next) :=
  runs_act rfl fun h => ⟨net.note t next h, by simp [act, htask, hstep]⟩

theorem Passes.refl (net : Net) : net.Passes 0 net := ⟨[], .nil net, rfl⟩

/-- Times that pass add up. -/
theorem Passes.trans {net'' : Net} {n n' : Nat} (hfirst : net.Passes n net')
    (hsecond : net'.Passes n' net'') : net.Passes (n + n') net'' := by
  obtain ⟨actions, hrun, rfl⟩ := hfirst
  obtain ⟨more, hmore, rfl⟩ := hsecond
  exact ⟨actions ++ more, hrun.append hmore, Action.ticks_append actions more⟩

theorem passes_order (net : Net) (agenda : Agenda) : net.Passes 0 { net with agenda } :=
  ⟨[.order agenda], runs_act rfl fun h => ⟨h, rfl⟩, rfl⟩

theorem passes_go {id : Nat} {t : Task} {next : Next} (htask : net.task? id = some t)
    (hstep : net.step t = some (net', next)) :
    net.Passes 0 (net'.place t next) :=
  ⟨[.go id], runs_go htask hstep, rfl⟩

/-- What the scheduler does in a turn of a task is a run. -/
theorem passes_stepTurn {id : Nat} {t : Task} (htask : net.task? id = some t) :
    net.Passes 0 (net.stepTurn t) := by
  unfold stepTurn
  simp only
  split
  · have hhold : net.Passes 0 (net.keepPlace t) :=
      ⟨[.hold id], runs_act rfl fun h => ⟨h, by simp [act, htask]⟩, rfl⟩
    exact hhold.trans (passes_order _ _)
  · split
    · exact passes_order _ _
    · next net' job hstep =>
      exact ((passes_go htask hstep).trans (passes_order _ _)).trans (passes_order _ _)
    · next net' hstep => exact (passes_go htask hstep).trans (passes_order _ _)
    · next net' report hstep =>
      exact ((passes_go htask hstep).trans (passes_order _ _)).trans (passes_order _ _)

theorem passes_advanceFirst (h : net.advanceFirst = some net') :
    net.Passes 0 net' := by
  unfold advanceFirst at h
  split at h
  · split at h
    · contradiction
    · cases h
      exact passes_order _ _
  · split at h
    · cases h
      exact passes_order _ _
    · next t htask =>
      cases h
      exact passes_stepTurn htask

/-- Running takes no time. -/
theorem passes_run (steps : Nat) (net : Net) : net.Passes 0 (net.run steps) := by
  induction steps generalizing net with
  | zero => exact .refl net
  | succ steps ih =>
    rw [run]
    split
    · next net' hadvance => exact (passes_advanceFirst hadvance).trans (ih net')
    · exact .refl net

/-- The scheduler lets tasks go on in one of the orders in which they can. -/
theorem passes_settle (net : Net) : net.Passes 0 net.settle :=
  ((passes_order net _).trans (passes_order _ _)).trans (passes_run _ _)

/-- So it does while time passes. -/
theorem passes_advance (milliseconds : Nat) (net : Net) :
    net.Passes milliseconds (net.advance milliseconds) := by
  induction milliseconds generalizing net with
  | zero => exact .refl net
  | succ n ih =>
    have htick : net.Passes 1 { net with now := net.now + 1 } :=
      ⟨[.tick], runs_act rfl fun h => ⟨h, rfl⟩, rfl⟩
    have hall : net.Passes (1 + 0 + n) (net.advance (n + 1)) :=
      (htick.trans (passes_settle _)).trans (ih _)
    rwa [Nat.add_zero, Nat.add_comm 1 n] at hall

theorem Passes.follows {n : Nat} (h : net.Passes n net') : net.Follows net' := by
  obtain ⟨actions, ⟨-, hfollow⟩, -⟩ := h
  exact fun h => ⟨actions, hfollow h⟩

/-- Whatever the scheduler makes of a network while time passes, some list of actions does too. -/
theorem follows_advance (milliseconds : Nat) (net : Net) :
    net.Follows (net.advance milliseconds) :=
  (passes_advance milliseconds net).follows

end Net

end Remoting
