import Remoting.Call.Connection
import Remoting.Flow.Agenda
import Remoting.Flow.Channel
import Remoting.Host.Dispatch
import Remoting.Host.Server
import Remoting.Link.Basic
import Remoting.Net.Job
import Remoting.Settings

/-!
# Remoting.Net.State

A network in one place: links, peers at their endpoints, servers and clients that use the peers,
one host behind the servers, and the tasks that do all the work.

Two endpoints belong to each link; endpoint `2 n` is the left one of link `n`, endpoint `2 n + 1`
the right one.
-/

namespace Remoting

/-- One side of a connection at work: what is to go out, and what has come in. -/
structure Peer where
  connection : Connection
  endpoint : Nat
  outbound : Channel Outgoing
  inbound : Channel Frame
  /-- Whether somebody other than the tasks holds the peer. -/
  held : Bool
  deriving Inhabited

/-- How a peer is set up. -/
structure PeerSettings where
  connection : ConnectionId := ⟨0⟩
  inboundCapacity : Nat := 256
  outboundCapacity : Nat := 256
  deriving DecidableEq, Repr, Inhabited

/-- A client: its settings, its peer and its subscriptions. -/
structure Client where
  settings : ClientSettings
  peer : Nat
  board : Switchboard := {}

/-- An event that was taken out of its inbox. -/
structure HeldEvent where
  client : Nat
  event : SignalEvent
  deriving DecidableEq, Repr, Inhabited

/-- A network. -/
structure Net where
  /-- The time in milliseconds. -/
  now : Nat := 0
  links : List Link := []
  peers : List Peer := []
  /-- The peers that were started by themselves. -/
  ownPeers : List Nat := []
  host : Host := {}
  servers : List Server := []
  /-- The tasks that serve connections. -/
  serving : List Nat := []
  clients : List Client := []
  /-- The tasks that have not ended, in the order in which they came to stand where they do. -/
  tasks : List Task := []
  nextTask : Nat := 0
  agenda : Agenda := {}
  nextTicket : Nat := 0
  /-- What has ended and has not been asked for. -/
  reports : List (Nat × Report) := []
  handles : List (String × RemoteHandle) := []
  subscriptions : List (String × Subscription) := []
  /-- Events by number, unless they are used up. -/
  events : List (Option HeldEvent) := []

namespace Net

/-! ## Endpoints -/

/-- The link of an endpoint. -/
def linkOf (endpoint : Nat) : Nat := endpoint / 2

/-- The side of an endpoint. -/
def sideOf (endpoint : Nat) : Side := if endpoint % 2 = 0 then .left else .right

/-- Use the link of an endpoint. -/
def onLink (net : Net) (endpoint : Nat) (use : Link → Side → α × Link) : Option (α × Net) := do
  let link ← net.links[linkOf endpoint]?
  let (a, link) := use link (sideOf endpoint)
  return (a, { net with links := net.links.set (linkOf endpoint) link })

/-- Change the link of an endpoint. -/
def changeLink (net : Net) (endpoint : Nat) (change : Link → Side → Link) : Net :=
  { net with links := net.links.modify (linkOf endpoint) (change · (sideOf endpoint)) }

/-! ## Peers, servers, clients -/

/-- Change a peer. -/
def changePeer (net : Net) (peer : Nat) (change : Peer → Peer) : Net :=
  { net with peers := net.peers.modify peer change }

/-- Change what a peer keeps about its connection. -/
def changeConnection (net : Net) (peer : Nat) (change : Connection → Connection) : Net :=
  net.changePeer peer fun p => { p with connection := change p.connection }

/-- Shut the connection of a peer down. -/
def shutDown (net : Net) (peer : Nat) (reason : String) : Net :=
  net.changeConnection peer (·.shutDown reason)

/-- Whether anybody can still send through a peer. -/
def hasSender (net : Net) (peer : Nat) : Bool :=
  (match net.peers[peer]? with
    | some p => p.held
    | none => false) ||
    net.tasks.any fun t => t.peer == peer && t.job.holdsPeer

/-- Change the subscriptions of a client. -/
def changeBoard (net : Net) (client : Nat) (change : Switchboard → Switchboard) : Net :=
  { net with clients := net.clients.modify client fun c => { c with board := change c.board } }

/-- Give a place for requests back to a server. -/
def release (net : Net) (server : Nat) : Net :=
  { net with servers := net.servers.modify server fun s => { s with gate := s.gate.release } }

/-! ## Tasks -/

/-- Start a task. -/
def spawn (net : Net) (peer : Nat) (job : Job) (ticket : Option Nat) : Net :=
  { net with
    tasks := net.tasks ++ [⟨net.nextTask, peer, job, ticket⟩]
    nextTask := net.nextTask + 1
    agenda := net.agenda.lineUp [net.nextTask] }

/-- Start a task whose end is reported. -/
def start (net : Net) (peer : Nat) (job : Job) : Nat × Net :=
  (net.nextTicket,
    { net.spawn peer job (some net.nextTicket) with nextTicket := net.nextTicket + 1 })

/-- Report at once. -/
def startEnded (net : Net) (report : Report) : Nat × Net :=
  (net.nextTicket,
    { net with
      nextTicket := net.nextTicket + 1
      reports := net.reports ++ [(net.nextTicket, report)] })

/-- The task of a number, if it has not ended. -/
def task? (net : Net) (id : Nat) : Option Task := net.tasks.find? (·.id == id)

/-- Let a task stand somewhere else. -/
def setJob (net : Net) (task : Task) (job : Job) : Net :=
  { net with tasks := net.tasks.filter (·.id != task.id) ++ [{ task with job }] }

/-- End a task. -/
def endTask (net : Net) (task : Task) (report : Report) : Net :=
  { net with
    tasks := net.tasks.filter (·.id != task.id)
    reports := match task.ticket with
      | some ticket => net.reports ++ [(ticket, report)]
      | none => net.reports }

/-! ## Names -/

/-- The handle of a name. -/
def handle? (net : Net) (name : String) : Option RemoteHandle := net.handles.lookup name

/-- Give a handle a name. -/
def putHandle (net : Net) (name : String) (handle : RemoteHandle) : Net :=
  { net with handles := (name, handle) :: net.handles.filter (·.1 != name) }

/-- The subscription of a name. -/
def subscription? (net : Net) (name : String) : Option Subscription :=
  net.subscriptions.lookup name

/-- Give up a subscription. -/
def discard (net : Net) (s : Subscription) : Net := net.changeBoard s.client (·.discard s.handler)

/-- Take the name from a subscription. -/
def forget (net : Net) (name : String) : Net :=
  { net with subscriptions := net.subscriptions.filter (·.1 != name) }

/-- Give a subscription a name. One that had the name is given up. -/
def putSubscription (net : Net) (name : String) (s : Subscription) : Net :=
  let net := match net.subscription? name with
    | some old => net.discard old
    | none => net
  { net.forget name with subscriptions := (name, s) :: (net.forget name).subscriptions }

end Net

end Remoting
