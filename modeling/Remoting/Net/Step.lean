import Remoting.Net.State

/-!
# Remoting.Net.Step

One step of a task. `Net.step` says how a network changes when a task goes on from where it
stands, and where the task stands then. A task that cannot go on has no step; it changes nothing
until something else has changed.
-/

namespace Remoting

/-- Where a task stands after a step. -/
inductive Next where
  | job (job : Job)
  /-- It stays where it stood and waits. -/
  | waiting
  /-- It has ended. -/
  | ended (report : Report)
  deriving Repr, Inhabited

/-- A network after a step of a task, and where the task stands. -/
abbrev Stepped := Net × Next

namespace Net

/-- The task goes on. -/
def goOn (net : Net) (job : Job) : Stepped := (net, .job job)

/-- The task waits. -/
def wait (net : Net) : Stepped := (net, .waiting)

/-- The task ends. -/
def stop (net : Net) (report : Report) : Stepped := (net, .ended report)

/-! ## Writing -/

/-- What the writer does after an attempt to send. -/
def afterSending (net : Net) (peer : Nat) (next : Job) : Sent → Stepped
  | .done => net.goOn next
  | .blocked => net.goOn .flush
  | .failed _ => (net.shutDown peer "send failed").goOn .stopWriting

/-- Take the next message to go out. Without anybody who could send, the link is closed. -/
def stepWrite (net : Net) (peer : Nat) (p : Peer) : Option Stepped :=
  match p.outbound.pop? with
  | some (message, outbound) =>
    let net := net.changePeer peer fun p => { p with outbound }
    match message with
    | .frame frame => some (net.goOn (.transmit frame))
    | .close => some (net.goOn .close)
  | none => if net.hasSender peer then none else some (net.goOn .close)

/-- Put a message among what goes out. -/
def stepTransmit (net : Net) (peer : Nat) (p : Peer) (frame : Frame) : Option Stepped := do
  let (sent, net) ← net.onLink p.endpoint fun link side => link.feed side frame
  return net.afterSending peer .flush sent

/-- Let what is to go out do so, as far as there is room. -/
def stepFlush (net : Net) (peer : Nat) (p : Peer) : Option Stepped := do
  let link ← net.links[linkOf p.endpoint]?
  if link.canWrite (sideOf p.endpoint) then
    let (sent, net) ← net.onLink p.endpoint Link.flush
    return net.afterSending peer .write sent
  else none

/-- Close the link for writing. -/
def stepClose (net : Net) (p : Peer) : Option Stepped := do
  let (_, net) ← net.onLink p.endpoint Link.close
  return net.goOn .stopWriting

/-- Let nothing more go out. -/
def stepStopWriting (net : Net) (peer : Nat) : Stepped :=
  (net.changePeer peer fun p => { p with outbound := p.outbound.abandon }).goOn .leaveWriting

/-! ## Reading -/

/-- The reader of a peer ends: the connection is shut down. -/
def stopReader (net : Net) (peer : Nat) (reason : String) : Stepped :=
  (net.shutDown peer reason).goOn .stopReading

/-- Wait for a message. -/
def stepRead (net : Net) (peer : Nat) (p : Peer) : Option Stepped := do
  let (arrival, net) ← net.onLink p.endpoint Link.attempt
  match arrival with
  | none => return net.goOn .read
  | some .nothing => none
  | some (.frame frame) => return net.goOn (.accept (.ok frame))
  | some (.failed (.malformed frame)) => return net.goOn (.accept (.error frame))
  | some .ended => return net.stopReader peer "connection closed by peer"
  | some (.failed _) => return net.stopReader peer "receive failed"

/-- Sort a message that has come in. -/
def stepAccept (net : Net) (peer : Nat) (p : Peer) (message : Except MalformedFrame Frame) :
    Stepped :=
  let (intake, connection) := p.connection.accept message
  let net := net.changePeer peer fun p => { p with connection }
  match intake with
  | .done => net.goOn .read
  | .deliver frame => net.goOn (.deliver frame)
  | .reply frame => net.goOn (if net.hasSender peer then .push (.frame frame) .read else .read)

/-- Wait for room for a message that has come in. Without a receiver it is lost. -/
def stepDeliver (net : Net) (task peer : Nat) (p : Peer) (frame : Frame) : Option Stepped := do
  let (entry, gate) ← p.inbound.gate.enter task
  let inbound := { p.inbound with gate }
  match entry with
  | .refused => return net.goOn .read
  | .entered =>
    return (net.changePeer peer fun p => { p with inbound := inbound.push frame }).goOn .read
  | .queued => return (net.changePeer peer fun p => { p with inbound }).wait

/-- Hand nothing more on. -/
def stepStopReading (net : Net) (peer : Nat) : Stepped :=
  (net.changePeer peer fun p => { p with inbound := p.inbound.finish }).goOn .leaveReading

/-! ## Calls -/

/-- The end of a call. -/
def conclude (net : Net) (response : Response) : Purpose → Stepped
  | .frame =>
    net.stop (match response with
      | .ok frame => .frame frame
      | .error fault => .fault fault)
  | .hello client name =>
    match Request.root response with
    | .ok root => net.stop (.root { client, id := root } name)
    | .error fault => net.stop (.fault fault)
  | .fields =>
    net.stop (match Request.fields response with
      | .ok fields => .fields fields
      | .error fault => .fault fault)
  | .types =>
    net.stop (match Request.types response with
      | .ok types => .types types
      | .error fault => .fault fault)
  | .narrow handle target name =>
    match Request.types response with
    | .error fault => net.stop (.fault fault)
    | .ok types =>
      match handle.narrow types target with
      | some narrowed => net.stop (.narrowed narrowed name)
      | none => net.stop .refused
  | .subscribe s name =>
    match Request.fields response with
    | .ok _ => net.stop (.subscribed s name)
    | .error fault =>
      ((net.changeBoard s.client (·.unroute s.handler)).discard s).stop (.fault fault)
  | .keep object =>
    let fields := match Request.fields response with
      | .ok fields => fields
      | .error fault => [.string fault.wireDomain, .string fault.message]
    { net with
      host := { net.host with objects := net.host.objects.store object fields } }.stop .done

/-- Start a call. -/
def stepCall (net : Net) (peer : Nat) (p : Peer) (frame : Frame) (deadline : Nat)
    (purpose : Purpose) : Stepped :=
  match p.connection.enroll frame with
  | .error fault => net.conclude (.error fault) purpose
  | .ok (call, frame, connection) =>
    (net.changePeer peer fun p => { p with connection }).goOn
      (.send frame (.await call deadline purpose))

/-- Wait for the response to a call. A response that is there counts, even if the time is over. -/
def stepAwait (net : Net) (peer : Nat) (p : Peer) (call : CallId) (limit deadline : Nat)
    (purpose : Purpose) : Option Stepped :=
  let (received, pending) := p.connection.pending.receive call
  let net' := net.changeConnection peer fun c => { c with pending }
  match received with
  | .response response => some (net'.conclude response purpose)
  | .closed | .noReceiver => some (net.conclude (.error Connection.closedFault) purpose)
  | .empty =>
    if limit ≤ net.now then
      some ((net.changeConnection peer (·.cancel call)).conclude
        (.error (Connection.timeoutFault deadline)) purpose)
    else none

/-! ## Sending -/

/-- What a task does after something was sent, or could not be. -/
def resume (net : Net) (peer : Nat) (result : Except Fault Unit) : After → Stepped
  | .report => net.stop (.ofResult result)
  | .post frames =>
    match result, frames with
    | .ok _, frame :: frames => net.goOn (.send frame (.post frames))
    | _, _ => net.stop (.ofResult result)
  | .await call deadline purpose =>
    match result with
    | .ok _ => net.goOn (.await call (net.now + deadline) deadline purpose)
    | .error fault =>
      (net.changeConnection peer (·.cancel call)).conclude (.error fault) purpose
  | .release server => net.goOn (.release server)
  | .route client => net.goOn (.route client)
  | .read => net.goOn .read
  | .shutDown => (net.shutDown peer "closed locally").stop .done
  | .discard s => (net.discard s).stop (.ofResult result)

/-- Send a message, unless the connection is closed. -/
def stepSend (net : Net) (peer : Nat) (p : Peer) (frame : Frame) (after : After) : Stepped :=
  if p.connection.closed then net.resume peer (.error Connection.closedFault) after
  else net.goOn (.push (.frame (p.connection.stamp frame)) after)

/-- Wait for room for a message to go out. -/
def stepPush (net : Net) (task peer : Nat) (p : Peer) (message : Outgoing) (after : After) :
    Option Stepped := do
  let (entry, gate) ← p.outbound.gate.enter task
  let outbound := { p.outbound with gate }
  match entry with
  | .refused => return net.resume peer (.error Connection.closedFault) after
  | .entered =>
    return (net.changePeer peer fun p => { p with outbound := outbound.push message }).resume
      peer (.ok ()) after
  | .queued => return (net.changePeer peer fun p => { p with outbound }).wait

/-! ## Serving -/

/-- Wait for a request. -/
def stepServe (net : Net) (peer : Nat) (p : Peer) (server : Nat) : Option Stepped :=
  match p.inbound.pop? with
  | some (frame, inbound) =>
    some ((net.changePeer peer fun p => { p with inbound }).goOn (.enter server frame))
  | none => if p.inbound.ended then some (net.stop .done) else none

/-- Wait until a request may be worked on, and let another task do that. -/
def stepEnter (net : Net) (task peer server : Nat) (frame : Frame) : Option Stepped := do
  let s ← net.servers[server]?
  let (entry, gate) ← s.gate.enter task
  let net := { net with servers := net.servers.set server { s with gate } }
  match entry with
  | .refused => return net.stop .done
  | .entered => return (net.spawn peer (.work server frame) none).goOn (.serve server)
  | .queued => return net.wait

/-- Send the response to a request, if there is one. -/
def respond (net : Net) (server : Nat) : Option Frame → Stepped
  | some frame => net.goOn (.send frame (.release server))
  | none => net.goOn (.release server)

/-- The task that does what a handler wants done on the connection of its request. -/
def followUpJob (object : ObjectId) : FollowUp → Job
  | .post [] => .leave
  | .post (frame :: frames) => .send frame (.post frames)
  | .ask frame deadline => .call frame deadline (.keep object)

/-- Start what a handler wants done on the connection of its request. -/
def followUp (net : Net) (peer : Nat) (object : ObjectId) (f : FollowUp) : Net :=
  net.spawn peer (followUpJob object f) none

/-- Work on a request. -/
def stepWork (net : Net) (peer server : Nat) (frame : Frame) : Stepped :=
  let request := frame.header
  match net.host.judge request with
  | .answered response => net.respond server response
  | .invoke handler target =>
    let reaction := handler ⟨request, frame.payload, target, true⟩
    let response := Remoting.conclude request reaction.outcome
    let net := { net with host := net.host.apply request.target reaction }
    let net := reaction.followUps.foldl (fun net f => net.followUp peer request.target f) net
    match reaction.delay with
    | some delay => net.goOn (.sleep server (net.now + delay) response)
    | none => net.respond server response

/-! ## Routing -/

/-- Wait for a message to a client. At the end no signals come any more. -/
def stepRoute (net : Net) (peer : Nat) (p : Peer) (client : Nat) : Option Stepped :=
  match p.inbound.pop? with
  | some (frame, inbound) =>
    some ((net.changePeer peer fun p => { p with inbound }).goOn (.dispatch client frame))
  | none =>
    if p.inbound.ended then some ((net.changeBoard client (·.unrouteAll)).stop .done) else none

/-- Route a message to a client. -/
def stepDispatch (net : Net) (peer client : Nat) (frame : Frame) : Option Stepped := do
  let c ← net.clients[client]?
  let (delivery, board) := c.board.route frame
  let net := net.changeBoard client fun _ => board
  match delivery with
  | .done => return net.goOn (.route client)
  | .refused response => return net.goOn (.send response (.route client))
  | .awaiting slot =>
    return (net.spawn peer (.answer client slot frame.header) none).goOn (.route client)

/-- Wait for the answer to a signal. -/
def stepAnswer (net : Net) (client slot : Nat) (request : Header) : Option Stepped := do
  let c ← net.clients[client]?
  let reply ← c.board.reply? slot
  return net.goOn (.send (Switchboard.responseFor request reply) .report)

/-! ## Tasks -/

/-- Whether the next step of a task is one of the operations that a turn has a bounded number of.
Those are the steps that may have to wait for something, even if it is there already. -/
def isOperation (net : Net) (t : Task) : Bool :=
  let ask (question : Link → Side → Bool) : Bool :=
    match net.peers[t.peer]? with
    | none => false
    | some p =>
      match net.links[linkOf p.endpoint]? with
      | some link => question link (sideOf p.endpoint)
      | none => false
  match t.job with
  | .write | .deliver _ | .push _ _ | .await _ _ _ _ | .serve _ | .enter _ _ | .sleep _ _ _
  | .route _ | .answer _ _ _ => true
  | .flush => ask Link.writesPipe
  | .read => ask Link.fetches
  | _ => false

/-- Keep a place for a task that is about to pass a gate and has to step aside. -/
def keepPlace (net : Net) (t : Task) : Net :=
  match t.job with
  | .push _ _ =>
    net.changePeer t.peer fun p => { p with outbound := p.outbound.keepPlace t.id }
  | .deliver _ => net.changePeer t.peer fun p => { p with inbound := p.inbound.keepPlace t.id }
  | .enter server _ =>
    { net with servers := net.servers.modify server fun s =>
        { s with gate := s.gate.keepPlace t.id } }
  | _ => net

/-- One step of a task, if it can go on. -/
def step (net : Net) (t : Task) : Option Stepped := do
  let p ← net.peers[t.peer]?
  match t.job with
  | .write => net.stepWrite t.peer p
  | .transmit frame => net.stepTransmit t.peer p frame
  | .flush => net.stepFlush t.peer p
  | .close => net.stepClose p
  | .stopWriting => some (net.stepStopWriting t.peer)
  | .leaveWriting => some ((net.changeLink p.endpoint Link.dropSending).stop .done)
  | .read => net.stepRead t.peer p
  | .accept message => some (net.stepAccept t.peer p message)
  | .deliver frame => net.stepDeliver t.id t.peer p frame
  | .stopReading => some (net.stepStopReading t.peer)
  | .leaveReading => some ((net.changeLink p.endpoint Link.dropReceiving).stop .done)
  | .call frame deadline purpose => some (net.stepCall t.peer p frame deadline purpose)
  | .send frame after => some (net.stepSend t.peer p frame after)
  | .push message after => net.stepPush t.id t.peer p message after
  | .await call limit deadline purpose => net.stepAwait t.peer p call limit deadline purpose
  | .serve server => net.stepServe t.peer p server
  | .enter server frame => net.stepEnter t.id t.peer server frame
  | .work server frame => some (net.stepWork t.peer server frame)
  | .sleep server limit response =>
    if limit ≤ net.now then some (net.respond server response) else none
  | .release server => some ((net.release server).goOn .leave)
  | .route client => net.stepRoute t.peer p client
  | .dispatch client frame => net.stepDispatch t.peer client frame
  | .answer client slot request => net.stepAnswer client slot request
  | .leave => some (net.stop .done)

end Net

end Remoting
