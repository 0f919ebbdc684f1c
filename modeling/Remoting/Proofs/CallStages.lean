import Remoting.Proofs.Answering
import Remoting.Proofs.Attached

/-!
# Remoting.Proofs.CallStages

A call from a client to a server on a connection that carries nothing else, stage by stage: the task
that calls, the way out, the server, the task that works on the request, the way back.

An `Exchange` holds what a call is about and what it meets. `Underway` says what every part of the
picture looks like at a stage of the call; it is the invariant of everything that can happen while
the call lasts. `callLoad` measures how much is left to do.
-/

namespace Remoting

/-! ## Handlers -/

/-- A handler that does not use the connection of its request: it sends nothing there, and what it
does is the same without a connection. -/
def Detached (handler : Handler) : Prop :=
  ∀ i, (handler i).followUps = [] ∧ handler i = handler { i with connected := false }

/-- A request that leads to no handler, or to one that does not use the connection. -/
def Host.Detaches (host : Host) (request : Frame) : Prop :=
  ∀ handler target, host.judge request.header = .invoke handler target → Detached handler

/-- Scripts other than those that send something back are such handlers. -/
theorem Script.detached_run {s : Script} (hemit : ∀ count, s ≠ .emit count)
    (hask : s ≠ .emitTwoWay) : Detached s.run := by
  intro i
  cases s with
  | emit count => exact absurd rfl (hemit count)
  | emitTwoWay => exact absurd rfl hask
  | echo | describe | header | interface | fail | crash | delay => exact ⟨rfl, rfl⟩
  | get | set =>
    refine ⟨?_, rfl⟩
    simp only [run]
    split <;> rfl
  | double | one =>
    refine ⟨?_, rfl⟩
    simp only [run, Reaction.reading]
    split <;> rfl
  | typeList model =>
    refine ⟨?_, rfl⟩
    simp only [run]
    split <;> rfl

theorem Host.lookup_of_judge {host : Host} {request : Header} {handler : Handler} {target : Servant}
    (h : host.judge request = .invoke handler target) :
    host.registry.lookup request.digest = .ok (some handler) := by
  unfold judge at h
  split at h
  · contradiction
  · split at h
    · contradiction
    · split at h
      · contradiction
      · contradiction
      · next handler' hlookup =>
        split at h
        · contradiction
        · obtain ⟨rfl, -⟩ := Verdict.invoke.inj h
          exact hlookup

/-- With handlers that do not use connections, every request is such. -/
theorem Host.detaches_of_entries {host : Host}
    (h : ∀ e ∈ host.registry.entries, Detached e.handler) (request : Frame) :
    host.Detaches request := by
  intro handler target hjudge
  have hlookup := lookup_of_judge hjudge
  unfold Registry.lookup at hlookup
  split at hlookup
  · obtain ⟨e, he, rfl⟩ := Option.map_eq_some_iff.mp (Except.ok.inj hlookup)
    exact h e (List.mem_of_find?_eq_some he)
  · contradiction

/-- Work on a request does what dispatching it does, and the response is sent after as long as the
handler takes. -/
theorem Net.stepWork_of_detaches {net : Net} {request reply : Frame}
    (hdetaches : net.host.Detaches request)
    (hreply : (net.host.dispatch request).1 = some reply) (peer server : Nat) :
    ∃ job, net.stepWork peer server request =
        ({ net with host := (net.host.dispatch request).2 }, .job job) ∧
      (job = .send reply (.release server) ∨
        ∃ limit, job = .sleep server limit (some reply) ∧
          limit ≤ net.now + net.host.delayOf request) := by
  unfold Host.dispatch Host.dispatchWith at hreply ⊢
  unfold stepWork Host.delayOf
  cases hjudge : net.host.judge request.header with
  | answered response =>
    simp only [hjudge] at hreply ⊢
    obtain rfl : response = some reply := hreply
    exact ⟨_, rfl, .inl rfl⟩
  | invoke handler target =>
    obtain ⟨hnone, -⟩ :=
      hdetaches _ _ hjudge ⟨request.header, request.payload, target, true⟩
    obtain ⟨-, hsame⟩ :=
      hdetaches _ _ hjudge ⟨request.header, request.payload, target, true⟩
    simp only [hjudge] at hreply ⊢
    have hconclude : Remoting.conclude request.header
        (handler ⟨request.header, request.payload, target, false⟩).outcome = some reply := hreply
    simp only [hnone, List.foldl_nil]
    simp only [hsame, hconclude]
    cases (handler ⟨request.header, request.payload, target, false⟩).delay with
    | none => exact ⟨_, rfl, .inl rfl⟩
    | some delay => exact ⟨_, rfl, .inr ⟨_, rfl, le_refl _⟩⟩

/-! ## Calls -/

/-- A call of a client, and what it meets: the connection at both ends, and the host behind the
server with its reply. -/
structure Exchange where
  client : Client
  frame : Frame
  deadline : Nat
  purpose : Purpose
  /-- The connection at the client, before the call. -/
  calls : Connection
  /-- The connection at the server. -/
  service : Connection
  /-- How long a frame to the server can be. -/
  outLimit : Nat
  /-- How long a frame to the client can be. -/
  backLimit : Nat
  /-- The host, before the call. -/
  host : Host
  reply : Frame
  /-- When the call begins. -/
  started : Nat
  /-- The number under which its end is reported. -/
  ticket : Nat
  /-- What has been reported before. -/
  reports : List (Nat × Report)
  /-- What is reported of a response. -/
  judge : Response → Report

namespace Exchange

variable (x : Exchange)

/-- The number of the call. -/
def id : CallId := x.calls.pending.register.1

/-- The request as it goes out. -/
def request : Frame := (x.frame.numbered x.id).sentOn x.calls.id

/-- The response as it goes out. -/
def response : Frame := x.reply.sentOn x.service.id

/-- What is assumed about a call: a response is expected and only reported, the handlers leave the
connection alone, the request fits the format, both frames are short enough for the link, and the
number of the call is a new one. -/
structure Sound : Prop where
  peer : x.client.peer = 0
  expects : x.frame.header.kind.expectsResponse = true
  concludes : ∀ (net : Net) (r : Response), net.conclude r x.purpose = net.stop (x.judge r)
  fails : ∀ fault, x.judge (.error fault) = .fault fault
  detaches : x.host.Detaches x.request
  replies : (x.host.dispatch x.request).1 = some x.reply
  header : x.reply.header = x.request.header.respond .callResult ∨
    x.reply.header = x.request.header.respond .error
  fits : Field.Fits x.request.toFields
  outSmall : x.request.encodedLength ≤ x.outLimit
  backSmall : x.response.encodedLength ≤ x.backLimit
  fresh : x.calls.pending.find? x.id = none
  isOpen : x.calls.closed = false
  serves : x.service.closed = false

/-- The host after the call. -/
def hostAfter : Host := (x.host.dispatch x.request).2

/-- What the response comes to for the client: the response itself if it fits the format, and the
fault of a damaged frame if it does not. -/
inductive Yields : Response → Prop where
  | whole (h : Field.Fits x.response.toFields) : Yields (.ok x.response)
  | damaged (h : ¬ Field.Fits x.response.toFields) (error : FramingError) :
      Yields (.error error.toFault)

/-- The calls so far, of which this may be the last, have the numbers that calls get. -/
structure Counts (x : Exchange) (pending : PendingCalls) : Prop where
  numbered : pending.Numbered
  length : pending.calls.length ≤ x.calls.pending.calls.length + 1

variable {x}

theorem Counts.of_continues {pending pending' : PendingCalls} (h : x.Counts pending)
    (hc : pending.Continues (fun _ _ => True) pending') : x.Counts pending' := by
  refine ⟨hc.numbered h.numbered, ?_⟩
  have hlength : pending'.calls.length = pending.calls.length := by
    simpa using congrArg List.length hc.calls
  rw [hlength]
  exact h.length

/-- The response comes in as a response to the call. -/
theorem Sound.accept (hx : x.Sound) {message : Except MalformedFrame Frame}
    (hcomes : x.response.ComesAs message) (c : Connection) :
    ∃ r, c.accept message = (.done, c.complete x.id r) ∧ x.Yields r := by
  have hkind : x.response.header.kind.isResponse = true := by
    show x.reply.header.kind.isResponse = true
    rcases hx.header with h | h <;> rw [h] <;> rfl
  have hid : x.response.header.callId = x.id := by
    show x.reply.header.callId = x.id
    rcases hx.header with h | h <;> rw [h] <;> rfl
  cases hcomes with
  | whole hfits => exact ⟨_, by simp only [Connection.accept, hkind, if_true, hid], .whole hfits⟩
  | damaged hnot error =>
    exact ⟨_, by simp only [Connection.accept, hkind, if_true, hid], .damaged hnot error⟩

end Exchange

/-- Where a call is. -/
inductive Stage where
  /-- The task that calls is about to register the call, -/
  | calling
  /-- has a number for it, -/
  | sending
  /-- and hands it to the writer. -/
  | pushing
  /-- The request is on its way. -/
  | outward
  /-- The reader of the server sorts it -/
  | accepting
  /-- and hands it on, -/
  | delivering
  /-- so that it waits to be taken. -/
  | delivered
  /-- The server lets it in. -/
  | entering
  /-- A task works on it, -/
  | working
  /-- perhaps until a certain time, -/
  | sleeping (limit : Nat)
  /-- has a response -/
  | replying
  /-- and hands it to the writer. -/
  | pushingBack
  /-- The response is on its way. -/
  | homeward
  /-- The reader of the client sorts it. -/
  | returning (message : Except MalformedFrame Frame)
  /-- It has come to the call. -/
  | arrived (response : Response)

namespace Stage

variable (x : Exchange)

/-- Where the reader of the client stands. -/
def clientReader : Stage → Job
  | .returning message => .accept message
  | _ => .read

/-- Where the reader of the server stands. -/
def serverReader : Stage → Job
  | .accepting => .accept (.ok x.request)
  | .delivering => .deliver x.request
  | _ => .read

/-- Where the listener stands. -/
def listener : Stage → Job
  | .entering => .enter 0 x.request
  | _ => .serve 0

/-- What is on its way to the server. -/
def outbound : Stage → List Frame
  | .outward => [x.request]
  | _ => []

/-- What waits at the server. -/
def queued : Stage → List Frame
  | .delivered => [x.request]
  | _ => []

/-- What is on its way to the client. -/
def inbound : Stage → List Frame
  | .homeward => [x.response]
  | _ => []

/-- The host at a stage. -/
def host : Stage → Host
  | .calling | .sending | .pushing | .outward | .accepting | .delivering | .delivered | .entering
  | .working => x.host
  | _ => x.hostAfter

/-- How many tasks have been started since the call began. -/
def spawned : Stage → Nat
  | .calling | .sending | .pushing | .outward | .accepting | .delivering | .delivered
  | .entering => 0
  | _ => 1

/-- Who stands at the gate of what goes out from the client. -/
def pusher (call : Nat) : Stage → Option Nat
  | .pushing => some call
  | _ => none

/-- Who stands at the gate of what has come in for the server. -/
def deliverer : Stage → Option Nat
  | .delivering => some (Actor.serverReader.id 0)
  | _ => none

/-- Who stands at the gate of the server. -/
def enterer : Stage → Option Nat
  | .entering => some (Actor.listener.id 0)
  | _ => none

/-- Who stands at the gate of what goes out from the server. -/
def responder (call : Nat) : Stage → Option Nat
  | .pushingBack => some (Actor.worker.id call)
  | _ => none

/-- Where the task that works on the request stands. After the response it gives its place back and
ends. -/
def Worker : Stage → Option Job → Prop
  | .working, job => job = some (.work 0 x.request)
  | .sleeping limit, job => job = some (.sleep 0 limit (some x.reply))
  | .replying, job => job = some (.send x.reply (.release 0))
  | .pushingBack, job => job = some (.push (.frame x.response) (.release 0))
  | .homeward, job | .returning _, job | .arrived _, job =>
    job = some (.release 0) ∨ job = some .leave ∨ job = none
  | _, job => job = none

/-- Until when that task sleeps. -/
def wake : Stage → Nat
  | .sleeping limit => limit
  | _ => 0

/-- The messages and responses at a stage are those that the response comes to. -/
def Genuine : Stage → Prop
  | .returning message => x.response.ComesAs message
  | .arrived response => x.Yields response
  | _ => True

/-- The request has gone out and no response has arrived. -/
def isPending : Stage → Bool
  | .calling | .sending | .pushing | .arrived _ => false
  | _ => true

end Stage

/-- Whether the task that works on a request has a place of the server. -/
def holdsPlace : Option Job → Bool
  | none | some .leave => false
  | _ => true

/-- Where the task that calls stands, and what the table of calls and the reports say then. -/
inductive Calling (x : Exchange) (job : Option Job) (calls : Connection)
    (reports : List (Nat × Report)) (now : Nat) : Stage → Prop where
  | calling (hjob : job = some (.call x.frame x.deadline x.purpose)) (hcalls : calls = x.calls)
      (hreports : reports = x.reports) : Calling x job calls reports now .calling
  | sending
      (hjob : job = some (.send (x.frame.numbered x.id) (.await x.id x.deadline x.purpose)))
      (hcalls : calls = { x.calls with pending := x.calls.pending.register.2 })
      (hreports : reports = x.reports) : Calling x job calls reports now .sending
  | pushing (hjob : job = some (.push (.frame x.request) (.await x.id x.deadline x.purpose)))
      (hcalls : calls = { x.calls with pending := x.calls.pending.register.2 })
      (hreports : reports = x.reports) : Calling x job calls reports now .pushing
  | waiting {stage : Stage} (hstage : stage.isPending = true) {limit : Nat}
      (hjob : job = some (.await x.id limit x.deadline x.purpose))
      (hlimit : x.started + x.deadline ≤ limit)
      (hentry : calls.pending.find? x.id = some { id := x.id }) (hopen : calls.closed = false)
      (hreports : reports = x.reports) : Calling x job calls reports now stage
  | answered {r : Response} {limit : Nat}
      (hjob : job = some (.await x.id limit x.deadline x.purpose))
      (hentry : calls.pending.find? x.id = some { id := x.id, state := .completed r })
      (hopen : calls.closed = false) (hreports : reports = x.reports) :
      Calling x job calls reports now (.arrived r)
  | reported {r : Response} (hjob : job = none) (hopen : calls.closed = false)
      (hreports : reports = x.reports ++ [(x.ticket, x.judge r)]) :
      Calling x job calls reports now (.arrived r)
  /-- The time was over before there was a response. -/
  | late {stage : Stage} (hstage : stage.isPending = true ∨ ∃ r, stage = .arrived r)
      (hjob : job = none) (hentry : calls.pending.contains x.id = false)
      (hopen : calls.closed = false) (htime : x.started + x.deadline ≤ now)
      (hreports : reports =
        x.reports ++ [(x.ticket, .fault (Connection.timeoutFault x.deadline))]) :
      Calling x job calls reports now stage

/-- While the request is away, the task that calls does not notice where it is. -/
theorem Calling.of_isPending {x : Exchange} {job : Option Job} {calls : Connection}
    {reports : List (Nat × Report)} {now : Nat} {stage stage' : Stage}
    (h : Calling x job calls reports now stage) (hstage : stage.isPending = true)
    (hstage' : stage'.isPending = true) : Calling x job calls reports now stage' := by
  cases h with
  | calling | sending | pushing | answered | reported => contradiction
  | waiting _ hjob hlimit hentry hopen hreports =>
    exact .waiting hstage' hjob hlimit hentry hopen hreports
  | late _ hjob hentry hopen htime hreports =>
    exact .late (.inl hstage') hjob hentry hopen htime hreports

/-- A response reaches the task that waits for it, or nobody. -/
theorem Calling.complete {x : Exchange} {job : Option Job} {calls : Connection}
    {reports : List (Nat × Report)} {now : Nat} {message : Except MalformedFrame Frame}
    (h : Calling x job calls reports now (.returning message)) (r : Response) :
    Calling x job (calls.complete x.id r) reports now (.arrived r) := by
  cases h with
  | waiting _ hjob hlimit hentry hopen hreports =>
    exact .answered hjob (PendingCalls.find?_complete hentry r) hopen hreports
  | late _ hjob hentry hopen htime hreports =>
    have hsame : calls.complete x.id r = calls := by
      rw [Connection.complete, PendingCalls.complete_of_not_contains hentry]
    rw [hsame]
    exact .late (.inr ⟨r, rfl⟩) hjob hentry hopen htime hreports

/-- A call is at a stage. -/
structure Underway (x : Exchange) (stage : Stage) (pic : Picture) : Prop where
  sound : x.Sound
  client : pic.client = x.client
  genuine : stage.Genuine x
  calling : Calling x (pic.jobs .caller) pic.calls pic.reports pic.now stage
  outLane : ∃ writer, pic.jobs .clientWriter = some writer ∧
    Lane (pic.link.direction pic.side) pic.outbound.items writer (stage.outbound x)
  outGate : pic.outbound.gate.Passable (!pic.outbound.items.isEmpty) (stage.pusher pic.call)
  outLimit : (pic.link.direction pic.side).frameLimit = x.outLimit
  serverReader : pic.jobs .serverReader = some (stage.serverReader x)
  requests : pic.requests.items = stage.queued x
  requestsOpen : pic.requests.ended = false
  requestGate : pic.requests.gate.Passable (!pic.requests.items.isEmpty) stage.deliverer
  listener : pic.jobs .listener = some (stage.listener x)
  places : pic.server.gate.Passable (holdsPlace (pic.jobs .worker)) stage.enterer
  worker : stage.Worker x (pic.jobs .worker)
  host : pic.host = stage.host x
  wakes : stage.wake ≤ pic.now + x.host.delayOf x.request
  service : pic.service = x.service
  backLane : ∃ writer, pic.jobs .serverWriter = some writer ∧
    Lane (pic.link.direction pic.side.other) pic.responses.items writer (stage.inbound x)
  backGate : pic.responses.gate.Passable (!pic.responses.items.isEmpty) (stage.responder pic.call)
  backLimit : (pic.link.direction pic.side.other).frameLimit = x.backLimit
  clientReader : pic.jobs .clientReader = some stage.clientReader
  router : pic.jobs .router = some (.route 0)
  signals : pic.signals.items = []
  signalsOpen : pic.signals.ended = false
  nextTask : pic.nextTask = pic.call + 1 + stage.spawned
  since : x.started ≤ pic.now
  counts : x.Counts pic.calls.pending
  ticket : pic.ticket = x.ticket
  nextTicket : pic.nextTicket = x.ticket + 1
  tickets : ∀ r ∈ x.reports, r.1 < x.ticket

/-! ## What is left to do -/

namespace Stage

/-- How many stages are still to come. -/
def rank : Stage → Nat
  | .calling => 14
  | .sending => 13
  | .pushing => 12
  | .outward => 11
  | .accepting => 10
  | .delivering => 9
  | .delivered => 8
  | .entering => 7
  | .working => 6
  | .sleeping _ => 5
  | .replying => 4
  | .pushingBack => 3
  | .homeward => 2
  | .returning _ => 1
  | .arrived _ => 0

/-- A later stage of a call. A task that sleeps does not begin to sleep anew. -/
structure Continues (stage stage' : Stage) : Prop where
  rank : stage'.rank ≤ stage.rank
  sleeping : stage.rank = 5 → stage'.rank = 5 → stage' = stage

theorem Continues.refl (stage : Stage) : stage.Continues stage := ⟨le_rfl, fun _ _ => rfl⟩

theorem Continues.trans {stage stage' stage'' : Stage} (h : stage.Continues stage')
    (h' : stage'.Continues stage'') : stage.Continues stage'' := by
  refine ⟨h'.rank.trans h.rank, fun hrank hrank'' => ?_⟩
  have hle := h.rank
  have hle' := h'.rank
  have hrank' : stage'.rank = 5 := by omega
  rw [h'.sleeping hrank' hrank'', h.sleeping hrank hrank']

theorem Continues.of_lt {stage stage' : Stage} (h : stage'.rank < stage.rank) :
    stage.Continues stage' := ⟨h.le, by omega⟩

/-- What has not been put on its way yet. -/
def ahead (x : Exchange) : Stage → Nat
  | .calling | .sending | .pushing =>
    (Outgoing.frame x.request).load + (Outgoing.frame x.response).load + 2
  | .homeward | .returning _ | .arrived _ => 0
  | _ => (Outgoing.frame x.response).load + 2

end Stage

/-- What the task that worked on the request has left to do. -/
def farewell : Option Job → Nat
  | some (.release _) => 2
  | some .leave => 1
  | _ => 0

/-- How much is left to do on the way to the server. -/
def Picture.outLoad (pic : Picture) : Nat :=
  laneLoad (pic.link.direction pic.side) pic.outbound.items ((pic.jobs .clientWriter).getD .write)

/-- How much is left to do on the way back. -/
def Picture.backLoad (pic : Picture) : Nat :=
  laneLoad (pic.link.direction pic.side.other) pic.responses.items
    ((pic.jobs .serverWriter).getD .write)

/-- How much of a call is left to do. Every step of a task lowers it. -/
def callLoad (x : Exchange) (stage : Stage) (pic : Picture) : Nat :=
  stage.rank + stage.ahead x + farewell (pic.jobs .worker) +
    (if (pic.jobs .caller).isSome then 1 else 0) + pic.outLoad + pic.backLoad

section

variable {pic pic' : Picture} {x : Exchange} {stage stage' : Stage}

theorem callLoad_lt (hrank : stage'.rank < stage.rank) (hahead : stage'.ahead x = stage.ahead x)
    (hworker : farewell (pic'.jobs .worker) ≤ farewell (pic.jobs .worker))
    (hcaller : pic'.jobs .caller = pic.jobs .caller) (hout : pic'.outLoad = pic.outLoad)
    (hback : pic'.backLoad = pic.backLoad) : callLoad x stage' pic' < callLoad x stage pic := by
  unfold callLoad
  rw [hahead, hcaller, hout, hback]
  omega

/-- As long as nothing is on its way out, anybody may put something there. -/
theorem Underway.outGate_of_nil (hu : Underway x stage pic) (hnone : stage.outbound x = [])
    (hnobody : stage.pusher pic.call = none) {inUse : Bool} {guest : Option Nat} :
    pic.outbound.gate.Passable inUse guest := by
  obtain ⟨writer, -, hlane⟩ := hu.outLane
  have hgate := hu.outGate
  rw [(hlane.of_nil hnone).1, hnobody] at hgate
  exact hgate.weaken

/-- As long as nothing is on its way back, anybody may put something there. -/
theorem Underway.backGate_of_nil (hu : Underway x stage pic) (hnone : stage.inbound x = [])
    (hnobody : stage.responder pic.call = none) {inUse : Bool} {guest : Option Nat} :
    pic.responses.gate.Passable inUse guest := by
  obtain ⟨writer, -, hlane⟩ := hu.backLane
  have hgate := hu.backGate
  rw [(hlane.of_nil hnone).1, hnobody] at hgate
  exact hgate.weaken

theorem Underway.places_of_holds {job : Job} (hu : Underway x stage pic)
    (hworker : pic.jobs .worker = some job) (hholds : holdsPlace (some job) = true) :
    pic.server.gate.Passable true stage.enterer := by
  rw [← hholds, ← hworker]
  exact hu.places

end

end Remoting
