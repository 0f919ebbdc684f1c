import Remoting.Net.Run

/-!
# Remoting.Net.Control

What can be done with a network from outside. What takes a while is left to a task; its ticket
names the report that tells how it ended. Nothing goes on before the network is settled again.

Where a function gives no answer, there is nothing of the number or the name that it was asked for.
-/

namespace Remoting

/-- Why something cannot be set up. -/
inductive SetupError where
  /-- The endpoint is not there, has been given up or belongs to a peer. -/
  | noEndpoint
  /-- There is no server. -/
  | noServer
  /-- The registry of the host is not ready. -/
  | registry (error : RegistryError)
  /-- More places are asked for than a gate can have. -/
  | tooManyPlaces
  deriving Repr

/-- What taking the next incoming message of a peer gives. -/
inductive Taken where
  | frame (frame : Frame)
  /-- None has arrived yet. -/
  | empty
  /-- None will arrive any more. -/
  | ended
  /-- Incoming messages are not kept any more. -/
  | dropped
  deriving DecidableEq, Repr

namespace Net

/-! ## Links -/

/-- Add a link. The answer is its two endpoints. -/
def join (net : Net) (link : Link) : (Nat × Nat) × Net :=
  let n := 2 * net.links.length
  ((n, n + 1), { net with links := net.links ++ [link] })

/-- Whether an endpoint can be used: it is there, has not been given up and belongs to no peer. -/
def isFree (net : Net) (endpoint : Nat) : Bool :=
  (match net.links[linkOf endpoint]? with
    | some link =>
      let e := link.endpoint (sideOf endpoint)
      e.sending || e.receiving
    | none => false) &&
    !net.peers.any (·.endpoint == endpoint)

/-- Use an endpoint by itself. -/
def useEndpoint (net : Net) (endpoint : Nat) (use : Link → Side → α × Link) : Option (α × Net) :=
  if net.isFree endpoint then net.onLink endpoint use else none

/-! ## Peers -/

/-- Start a peer at an endpoint: a task that writes and one that reads. -/
def startPeer (net : Net) (endpoint : Nat) (settings : PeerSettings) (held : Bool) : Nat × Net :=
  let peer := net.peers.length
  let p : Peer := {
    connection := { id := settings.connection }
    endpoint
    outbound := .ofCapacity settings.outboundCapacity
    inbound := .ofCapacity settings.inboundCapacity
    held }
  let net := { net.changeLink endpoint Link.split with peers := net.peers ++ [p] }
  (peer, (net.spawn peer .write none).spawn peer .read none)

/-- Start a peer by itself. The answer is its number among those. -/
def addPeer (net : Net) (endpoint : Nat) (settings : PeerSettings) :
    Except SetupError (Nat × Net) :=
  if !net.isFree endpoint then .error .noEndpoint
  else if Gate.maxPlaces < max settings.outboundCapacity settings.inboundCapacity then
    .error .tooManyPlaces
  else
    let (peer, net) := net.startPeer endpoint settings true
    .ok (net.ownPeers.length, { net with ownPeers := net.ownPeers ++ [peer] })

/-- A peer that was started by itself and is still held. -/
def ownPeer? (net : Net) (n : Nat) : Option Nat := do
  let peer ← net.ownPeers[n]?
  let p ← net.peers[peer]?
  if p.held then return peer else none

/-- Call through a peer. -/
def callPeer (net : Net) (n : Nat) (frame : Frame) (deadline : Nat) : Option (Nat × Net) := do
  let peer ← net.ownPeer? n
  return net.start peer (.call frame deadline .frame)

/-- Send through a peer. -/
def sendPeer (net : Net) (n : Nat) (frame : Frame) : Option (Nat × Net) := do
  let peer ← net.ownPeer? n
  return net.start peer (.send frame .report)

/-- Close the connection of a peer. -/
def closePeer (net : Net) (n : Nat) : Option (Nat × Net) := do
  let peer ← net.ownPeer? n
  return net.start peer (.push .close .shutDown)

/-- Let go of a peer; tasks that use it keep it. -/
def dropPeer (net : Net) (n : Nat) : Option Net := do
  let peer ← net.ownPeer? n
  return net.changePeer peer fun p => { p with held := false }

/-- Take the next incoming message of a peer. -/
def takeInbound (net : Net) (n : Nat) : Option (Taken × Net) := do
  let peer ← net.ownPeers[n]?
  let p ← net.peers[peer]?
  if p.inbound.hasReceiver then
    match p.inbound.pop? with
    | some (frame, inbound) =>
      return (.frame frame, net.changePeer peer fun p => { p with inbound })
    | none => return (if p.inbound.ended then .ended else .empty, net)
  else return (.dropped, net)

/-- Keep no incoming messages of a peer any more. -/
def dropInbound (net : Net) (n : Nat) : Option Net := do
  let peer ← net.ownPeers[n]?
  return net.changePeer peer fun p => { p with inbound := p.inbound.abandon }

/-! ## Servers -/

/-- Add a server that works on so many requests at a time. -/
def addServer (net : Net) (maxInFlight : Nat) : Except SetupError Net := do
  net.host.checkServing.mapError .registry
  if Gate.maxPlaces < maxInFlight then throw .tooManyPlaces
  return { net with servers := net.servers ++ [.ofLimit maxInFlight] }

/-- Let the newest server serve the connection at an endpoint. -/
def serve (net : Net) (endpoint : Nat) : Except SetupError (ConnectionId × Net) :=
  let server := net.servers.length - 1
  match net.servers[server]? with
  | none => .error .noServer
  | some s =>
    if net.isFree endpoint then
      let (connection, s) := s.connect
      let net := { net with servers := net.servers.set server s }
      let (peer, net) := net.startPeer endpoint { connection } false
      let net := { net with serving := net.serving ++ [net.nextTask] }
      .ok (connection, net.spawn peer (.serve server) none)
    else .error .noEndpoint

/-- Let the host work on a request that came on no connection, for as long as that takes. -/
def awaitHost (net : Net) (frame : Frame) : Net :=
  net.settle.advance (net.host.delayOf frame)

/-! ## Clients -/

/-- Add a client at an endpoint. -/
def addClient (net : Net) (endpoint : Nat) (settings : ClientSettings) :
    Except SetupError (Nat × Net) :=
  if net.isFree endpoint then
    let client := net.clients.length
    let (peer, net) := net.startPeer endpoint {} true
    let c : Client := { settings, peer }
    .ok (client, { net with clients := net.clients ++ [c] }.spawn peer (.route client) none)
  else .error .noEndpoint

/-- Let a client send a request. -/
def call (net : Net) (client : Nat) (frame : Frame) (purpose : Purpose) : Option (Nat × Net) := do
  let c ← net.clients[client]?
  return net.start c.peer (.call frame c.settings.timeout.toNat purpose)

/-- Let a client ask for the root object, which becomes a handle with a name. -/
def hello (net : Net) (client : Nat) (name : String) : Option (Nat × Net) :=
  net.call client .hello (.hello client name)

/-- Let a client send a request of any kind. -/
def request (net : Net) (client : Nat) (kind : MessageKind) (target : ObjectId) (digest : Digest)
    (args : List Field) : Option (Nat × Net) :=
  net.call client (Request.frame kind target digest args) .fields

/-- Let a client send a message of any kind that gets no response. -/
def post (net : Net) (client : Nat) (kind : MessageKind) (target : ObjectId) (digest : Digest)
    (args : List Field) : Option (Nat × Net) := do
  let c ← net.clients[client]?
  match Request.oneWay kind target digest args with
  | .ok frame => return net.start c.peer (.send frame .report)
  | .error fault => return net.startEnded (.fault fault)

/-- Close the connection of a client. -/
def closeClient (net : Net) (client : Nat) : Option (Nat × Net) := do
  let c ← net.clients[client]?
  return (net.changeBoard client (·.unrouteAll)).start c.peer (.push .close .shutDown)

/-! ## Handles -/

/-- Let a client ask for the types of an object. -/
def askTypes (net : Net) (h : RemoteHandle) (purpose : Purpose) : Option (Nat × Net) :=
  match typeListQuery with
  | .ok digest => net.call h.client (Request.frame .typeListQuery h.id digest []) purpose
  | .error fault => some (net.startEnded (.fault fault))

/-- Ask for the types of an object. -/
def typeList (net : Net) (h : RemoteHandle) : Option (Nat × Net) := net.askTypes h .types

/-- Narrow a handle; the narrowed one gets a name. -/
def narrow (net : Net) (h : RemoteHandle) (target : Digest) (name : String) : Option (Nat × Net) :=
  net.askTypes h (.narrow h target name)

/-- Subscribe to a signal of an object; the subscription gets a name. -/
def subscribe (net : Net) (h : RemoteHandle) (connector : Digest) (args : List Field)
    (name : String) : Option (Nat × Net) := do
  let c ← net.clients[h.client]?
  let (handler, board) := c.board.subscribe
  let net := net.changeBoard h.client fun _ => board
  net.call h.client (Request.connect h.id connector handler args)
    (.subscribe ⟨h.client, handler, h.id, connector⟩ name)

/-! ## Subscriptions -/

/-- Let a client end a subscription. -/
def unsubscribe (net : Net) (client : Nat) (name : String) : Option (Nat × Net) := do
  let s ← net.subscription? name
  let c ← net.clients[client]?
  let net := (net.forget name).changeBoard client (·.unroute s.handler)
  return net.start c.peer
    (.send (Request.disconnect s.target s.connector s.handler) (.discard s))

/-- Give up a subscription without telling the other side. -/
def dropSubscription (net : Net) (name : String) : Option Net := do
  let s ← net.subscription? name
  return (net.forget name).discard s

/-- The next event of a subscription. An event that is taken gets the next number. -/
def nextEvent (net : Net) (name : String) : Option (NextEvent × Net) := do
  let s ← net.subscription? name
  let c ← net.clients[s.client]?
  let (next, board) := c.board.next s.handler
  let net := net.changeBoard s.client fun _ => board
  match next with
  | .event event => return (next, { net with events := net.events ++ [some ⟨s.client, event⟩] })
  | _ => return (next, net)

/-- Take an event that is not used up. -/
def takeEvent (net : Net) (n : Nat) : Option (HeldEvent × Net) := do
  let held ← net.events[n]?.join
  return (held, { net with events := net.events.set n none })

/-- Answer an event. -/
def reply (net : Net) (n : Nat) (reply : Reply) : Option Net := do
  let (held, net) ← net.takeEvent n
  return net.changeBoard held.client (·.answer held.event reply)

/-- Give up an event for its arguments. -/
def takeArgs (net : Net) (n : Nat) : Option (List Field × Net) := do
  let (held, net) ← net.takeEvent n
  return (held.event.args, net.changeBoard held.client (·.dismiss held.event))

/-! ## Views -/

/-- The peers that were started by themselves: whether each is closed, and how many calls wait. -/
def peerStates (net : Net) : List (Option (Bool × Nat)) :=
  net.ownPeers.map fun peer =>
    match net.peers[peer]? with
    | some p => if p.held then some (p.connection.closed, p.connection.pending.size) else none
    | none => none

/-- Whether the connection of a client is closed. -/
def clientClosed (net : Net) (c : Client) : Bool :=
  match net.peers[c.peer]? with
  | some p => p.connection.closed
  | none => true

/-- Whether the service of each connection has ended. -/
def servedStates (net : Net) : List Bool := net.serving.map fun id => (net.task? id).isNone

/-! ## Reports -/

/-- Give what was reported its name. -/
def record (net : Net) : Report → Net
  | .root handle name | .narrowed handle name => net.putHandle name handle
  | .subscribed s name => net.putSubscription name s
  | _ => net

/-- The reports since the last time, by ticket. What they name can be used from now on. -/
def takeReports (net : Net) : List (Nat × Report) × Net :=
  let reports := net.reports.mergeSort fun a b => a.1 ≤ b.1
  (reports, (reports.foldl (fun (net : Net) r => net.record r.2) { net with reports := [] }).wake)

end Net

end Remoting
