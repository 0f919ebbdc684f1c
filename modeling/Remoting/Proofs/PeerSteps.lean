import Remoting.Proofs.Happenings
import Remoting.Proofs.Steps

/-!
# Remoting.Proofs.PeerSteps

What a step of a task can do, said once (`Net.step_proceeds`). The task of a job has a `Duty`, which
it keeps while it goes on; what a step does to the subscriptions of clients is decided by the duty
and by how the step ends (`Net.stepSignals`, `Net.step_does`).

A step changes no peer but that of its task; it puts at most one message among what goes out or
among what has come in, takes at most one from there, and only a few steps shut a connection down
(`Net.step_peer`). The numbers of connections stay the same, and so do those that servers give next
(`Net.Reshapes`).
-/

namespace Remoting

open List Option

/-- What a task is there for, as far as it concerns incoming messages and signals. -/
inductive Duty where
  /-- It reads what comes in at its peer. -/
  | reader
  /-- It routes what has come in for a client. -/
  | router (client : Nat)
  /-- It lets a server work on what has come in. -/
  | server (server : Nat)
  /-- It waits for the answer to a signal. -/
  | answerer (client slot : Nat) (request : Header)
  /-- It asks for a subscription. -/
  | subscriber (subscription : Subscription)
  /-- It gives up a subscription. -/
  | discarder (subscription : Subscription)
  | other
  deriving DecidableEq, Repr

def Purpose.duty : Purpose → Duty
  | .subscribe s _ => .subscriber s
  | _ => .other

def After.duty : After → Duty
  | .await _ _ purpose => purpose.duty
  | .route client => .router client
  | .read => .reader
  | .discard s => .discarder s
  | _ => .other

def Job.duty : Job → Duty
  | .read | .accept _ | .deliver _ | .stopReading | .leaveReading => .reader
  | .call _ _ purpose | .await _ _ _ purpose => purpose.duty
  | .send _ after | .push _ after => after.duty
  | .route client | .dispatch client _ => .router client
  | .answer client slot request => .answerer client slot request
  | .serve server | .enter server _ => .server server
  | _ => .other

/-- The peer at which the next step of a task may start others. -/
def Task.origin? (t : Task) : Option Nat :=
  match t.job with
  | .enter _ _ | .work _ _ | .dispatch _ _ => some t.peer
  | _ => none

/-- Whether a report hands a subscription over. -/
def Report.subscription? : Report → Option Subscription
  | .subscribed s _ => some s
  | _ => none

namespace Duty

/-- What a task does to subscriptions when it ends with a report. -/
def signals (report : Report) : Duty → List (Nat × SignalAction)
  | .router client => [(client, .unrouteAll)]
  | .subscriber s =>
    if report.subscription?.isSome then []
    else [(s.client, .unroute s.handler), (s.client, .discard s.handler)]
  | .discarder s => [(s.client, .discard s.handler)]
  | _ => []

/-- The duty of a task after a step. Who has got the answer to a signal only sends it. -/
def Becomes (duty duty' : Duty) : Prop :=
  duty' = duty ∨ (duty' = .other ∧ ∃ client slot request, duty = .answerer client slot request)

end Duty

namespace Net

variable {net net' : Net} {duty : Duty}

/-- What a step of a task does to the subscriptions of clients. -/
def stepSignals (t : Task) (next : Next) : List (Nat × SignalAction) :=
  match t.job, next with
  | .dispatch client frame, _ => [(client, .route frame)]
  | job, .ended report => job.duty.signals report
  | _, _ => []

/-- Do something with the subscriptions of clients. -/
def changeBoards (net : Net) (signals : List (Nat × SignalAction)) : Net :=
  signals.foldl (fun net s => net.changeBoard s.1 (·.act s.2)) net

/-- Changing the boards of clients changes nothing else. -/
theorem changeBoards_eq (net : Net) (signals : List (Nat × SignalAction)) :
    net.changeBoards signals = { net with clients := (net.changeBoards signals).clients } := by
  induction signals generalizing net with
  | nil => rfl
  | cons s signals ih =>
    rw [changeBoards, List.foldl_cons, ← changeBoards, ih]
    rfl

theorem clients_changeBoards_congr (h : net'.clients = net.clients)
    (signals : List (Nat × SignalAction)) :
    (net'.changeBoards signals).clients = (net.changeBoards signals).clients := by
  induction signals generalizing net net' with
  | nil => exact h
  | cons s signals ih =>
    simp only [changeBoards, List.foldl_cons]
    exact ih (by simp [changeBoard, h])

/-- A board that is known may be changed as it is there. -/
theorem clients_changeBoard_of_getElem? {c : Nat} {client : Client}
    (hc : net.clients[c]? = some client) (change : Switchboard → Switchboard) :
    (net.changeBoard c fun _ => change client.board).clients = (net.changeBoard c change).clients := by
  obtain ⟨hlt, rfl⟩ := List.getElem?_eq_some_iff.mp hc
  simp [changeBoard, modify_eq_set_getElem?, hlt]

/-- Nothing has changed that tasks, clients and their users keep; of peers, there are as many. -/
structure Alike (net net' : Net) : Prop where
  clients : net'.clients = net.clients
  tasks : net'.tasks = net.tasks
  nextTask : net'.nextTask = net.nextTask
  reports : net'.reports = net.reports
  subscriptions : net'.subscriptions = net.subscriptions
  events : net'.events = net.events
  ownPeers : net'.ownPeers = net.ownPeers
  peers : net'.peers.length = net.peers.length

theorem Alike.refl (net : Net) : net.Alike net := ⟨rfl, rfl, rfl, rfl, rfl, rfl, rfl, rfl⟩

theorem Alike.trans {net'' : Net} (h : net.Alike net') (h' : net'.Alike net'') : net.Alike net'' :=
  ⟨h'.clients.trans h.clients, h'.tasks.trans h.tasks, h'.nextTask.trans h.nextTask,
    h'.reports.trans h.reports, h'.subscriptions.trans h.subscriptions, h'.events.trans h.events,
    h'.ownPeers.trans h.ownPeers, h'.peers.trans h.peers⟩

theorem alike_changePeer (net : Net) (peer : Nat) (change : Peer → Peer) :
    net.Alike (net.changePeer peer change) :=
  ⟨rfl, rfl, rfl, rfl, rfl, rfl, rfl, by simp [changePeer]⟩

/-- Using a link changes links only. -/
theorem alike_onLink {α : Type} {endpoint : Nat} {use : Link → Side → α × Link} {x : α}
    (h : net.onLink endpoint use = some (x, net')) : net.Alike net' := by
  simp only [onLink, bind_eq_bind, bind_eq_some_iff, Option.pure_def,
    some.injEq, Prod.mk.injEq] at h
  obtain ⟨link, -, -, rfl⟩ := h
  exact ⟨rfl, rfl, rfl, rfl, rfl, rfl, rfl, rfl⟩

/-- Tasks have been started, and nothing else has changed about tasks. -/
def Grows (P : Task → Prop) (net net' : Net) : Prop :=
  ∃ new : List Task, net'.tasks = net.tasks ++ new ∧ net'.nextTask = net.nextTask + new.length ∧
    new.map (·.id) = List.range' net.nextTask new.length ∧ ∀ t ∈ new, P t

/-- Tasks that are started get the next numbers. -/
theorem id_of_mem_new {new : List Task} {n : Nat}
    (hids : new.map (·.id) = range' n new.length) {u : Task} (hu : u ∈ new) :
    n ≤ u.id ∧ u.id < n + new.length := by
  have hid : u.id ∈ new.map (·.id) := List.mem_map_of_mem hu
  rwa [hids, mem_range'_1] at hid

theorem grows_of_eq {P : Task → Prop} (htasks : net'.tasks = net.tasks)
    (hnext : net'.nextTask = net.nextTask) : net.Grows P net' :=
  ⟨[], by simp [htasks], by simp [hnext], rfl, by simp⟩

/-- One more task is started. -/
theorem Grows.spawn {P : Task → Prop} (h : net.Grows P net') (peer : Nat) (job : Job)
    (ticket : Option Nat) (hP : P ⟨net'.nextTask, peer, job, ticket⟩) :
    net.Grows P (net'.spawn peer job ticket) := by
  obtain ⟨new, htasks, hnext, hids, hnew⟩ := h
  refine ⟨new ++ [⟨net'.nextTask, peer, job, ticket⟩], by simp [Net.spawn, htasks],
    by simp [Net.spawn, hnext, Nat.add_assoc], ?_, ?_⟩
  · simp [hids, hnext, range'_concat]
  · simpa [or_imp, forall_and] using ⟨hnew, hP⟩

/-- How a task may start that is started by another at a peer. -/
def Spawned (origin : Option Nat) (u : Task) : Prop :=
  origin = some u.peer ∧
    (u.job.duty = .other ∨ ∃ client slot request, u.job = .answer client slot request)

/-- What a step of a task with a duty can do, when it may start tasks at a peer and does something to
the subscriptions of clients. -/
structure Does (net : Net) (duty : Duty) (origin : Option Nat)
    (signals : List (Nat × SignalAction)) (out : Stepped) : Prop where
  clients : out.1.clients = (net.changeBoards signals).clients
  tasks : net.Grows (Spawned origin) out.1
  reports : out.1.reports = net.reports
  subscriptions : out.1.subscriptions = net.subscriptions
  events : out.1.events = net.events
  ownPeers : out.1.ownPeers = net.ownPeers
  peers : out.1.peers.length = net.peers.length
  stays : ∀ job, out.2 = .job job → duty.Becomes job.duty
  handsOver : ∀ report s, out.2 = .ended report → report.subscription? = some s →
    duty = .subscriber s

/-- Something is done to the subscriptions of clients, and nothing else changes. -/
theorem Alike.does {origin : Option Nat} {next : Next} (h : net.Alike net')
    (signals : List (Nat × SignalAction))
    (hstays : ∀ job, next = .job job → duty.Becomes job.duty)
    (hover : ∀ report s, next = .ended report → report.subscription? = some s →
      duty = .subscriber s) :
    net.Does duty origin signals (net'.changeBoards signals, next) := by
  have hclients := clients_changeBoards_congr h.clients signals
  rw [changeBoards_eq] at hclients ⊢
  exact ⟨hclients, grows_of_eq h.tasks h.nextTask, h.reports, h.subscriptions, h.events,
    h.ownPeers, h.peers, hstays, hover⟩

namespace Alike

variable {origin : Option Nat} {job : Job} {report : Report}

theorem goOn (h : net.Alike net') (hduty : job.duty = duty) :
    net.Does duty origin [] (net'.goOn job) :=
  h.does [] (by simp [Duty.Becomes, hduty]) (by simp)

theorem wait (h : net.Alike net') : net.Does duty origin [] net'.wait :=
  h.does [] (by simp) (by simp)

/-- A task ends, and hands over no subscription but its own. -/
theorem ends (h : net.Alike net') (signals : List (Nat × SignalAction))
    (hreport : ∀ s, report.subscription? = some s → duty = .subscriber s) :
    net.Does duty origin signals ((net'.changeBoards signals).stop report) :=
  h.does signals (by simp) fun _ _ heq => by cases heq; exact hreport _

theorem stop (h : net.Alike net')
    (hreport : ∀ s, report.subscription? = some s → duty = .subscriber s) :
    net.Does duty origin [] (net'.stop report) := h.ends [] hreport

end Alike

/-! ## Duties -/

variable {t : Task} {out : Stepped} {origin : Option Nat}

/-- What a task does to subscriptions when it goes on from a step. -/
def nextSignals (duty : Duty) : Next → List (Nat × SignalAction)
  | .ended report => duty.signals report
  | _ => []

/-- A call ends. A subscription that was not granted is given up. -/
theorem Alike.conclude (h : net.Alike net') (response : Response) (purpose : Purpose) :
    net.Does purpose.duty origin (nextSignals purpose.duty (net'.conclude response purpose).2)
      (net'.conclude response purpose) := by
  cases purpose with
  | frame => cases response <;> exact h.stop (by simp [Report.subscription?])
  | hello client name =>
    simp only [Net.conclude]
    cases Request.root response <;> exact h.stop (by simp [Report.subscription?])
  | fields =>
    simp only [Net.conclude]
    cases Request.fields response <;> exact h.stop (by simp [Report.subscription?])
  | types =>
    simp only [Net.conclude]
    cases Request.types response <;> exact h.stop (by simp [Report.subscription?])
  | narrow handle target name =>
    simp only [Net.conclude]
    cases Request.types response with
    | error fault => exact h.stop (by simp [Report.subscription?])
    | ok types =>
      dsimp only
      cases handle.narrow types target <;> exact h.stop (by simp [Report.subscription?])
  | subscribe s name =>
    simp only [Net.conclude]
    cases Request.fields response with
    | ok fields => exact h.stop (by simp [Report.subscription?, Purpose.duty])
    | error fault => exact h.ends _ (by simp [Report.subscription?])
  | keep object => exact Alike.stop { h with } (by simp [Report.subscription?])

theorem subscription?_ofResult (result : Except Fault Unit) :
    (Report.ofResult result).subscription? = none := by
  cases result <;> rfl

/-- A task goes on after something was sent, or could not be. -/
theorem Alike.resume (h : net.Alike net') (peer : Nat) (result : Except Fault Unit)
    (after : After) :
    net.Does after.duty origin (nextSignals after.duty (net'.resume peer result after).2)
      (net'.resume peer result after) := by
  cases after with
  | report => exact h.stop (by simp [subscription?_ofResult])
  | post frames =>
    simp only [Net.resume]
    split
    · exact h.goOn rfl
    · exact h.stop (by simp [subscription?_ofResult])
  | await call deadline purpose =>
    cases result with
    | ok _ => exact h.goOn rfl
    | error fault => exact (h.trans (alike_changePeer _ _ _)).conclude (.error fault) purpose
  | release server | route client | read => exact h.goOn rfl
  | shutDown => exact (h.trans (alike_changePeer _ _ _)).stop (by simp [Report.subscription?])
  | discard s =>
    exact h.ends [(s.client, .discard s.handler)] (by simp [subscription?_ofResult])

/-- Whether or not something could be sent, no subscription is concerned. -/
theorem Alike.afterSending (h : net.Alike net') (peer : Nat) {next : Job} (hduty : next.duty = .other)
    (sent : Sent) : net.Does .other origin [] (net'.afterSending peer next sent) := by
  cases sent with
  | done => exact h.goOn hduty
  | blocked => exact h.goOn rfl
  | failed error => exact (h.trans (alike_changePeer _ _ _)).goOn rfl

/-- A response concerns no subscription. -/
theorem Alike.respond (h : net.Alike net') (server : Nat) (response : Option Frame) :
    net.Does .other origin [] (net'.respond server response) := by
  cases response <;> exact h.goOn rfl

/-- Tasks that are started have no duty of their own. -/
theorem Does.spawned {duty : Duty} {signals : List (Nat × SignalAction)} {next : Next}
    {peer : Nat} (h : net.Does duty (some peer) signals (net', next)) {job : Job}
    (ticket : Option Nat)
    (hduty : job.duty = .other ∨ ∃ client slot request, job = .answer client slot request) :
    net.Does duty (some peer) signals (net'.spawn peer job ticket, next) :=
  { h with tasks := h.tasks.spawn peer job ticket ⟨rfl, hduty⟩ }

theorem duty_followUpJob (object : ObjectId) (f : FollowUp) :
    (followUpJob object f).duty = .other := by
  unfold followUpJob
  split <;> rfl

/-- What a handler wants done does nothing more to subscriptions. -/
theorem Does.followedUp {duty : Duty} {signals : List (Nat × SignalAction)} {next : Next}
    {peer : Nat} (h : net.Does duty (some peer) signals (net', next)) (object : ObjectId)
    (followUps : List FollowUp) :
    net.Does duty (some peer) signals
      (followUps.foldl (fun net f => net.followUp peer object f) net', next) := by
  induction followUps generalizing net' with
  | nil => exact h
  | cons f followUps ih => exact ih (h.spawned none (.inl (duty_followUpJob object f)))

/-- Working on a request concerns no subscription. -/
theorem does_stepWork (net : Net) (peer server : Nat) (frame : Frame) :
    net.Does .other (some peer) [] (net.stepWork peer server frame) := by
  unfold stepWork
  dsimp only
  split
  · exact (Alike.refl net).respond server _
  · have halike (host : Host) : net.Alike { net with host } := ⟨rfl, rfl, rfl, rfl, rfl, rfl, rfl, rfl⟩
    generalize Remoting.conclude frame.header _ = response
    split
    · apply Does.followedUp
      exact (halike _).goOn rfl
    · cases response <;>
      · apply Does.followedUp
        exact (halike _).goOn rfl

/-- A message to a client is routed. -/
theorem does_stepDispatch {peer client : Nat} {frame : Frame}
    (h : net.stepDispatch peer client frame = some out) :
    net.Does (.router client) (some peer) [(client, .route frame)] out := by
  obtain ⟨c, hc, h⟩ := bind_eq_some_iff.mp h
  have hclients : (net.changeBoard client fun _ => (c.board.route frame).2).clients =
      (net.changeBoards [(client, .route frame)]).clients :=
    clients_changeBoard_of_getElem? hc fun board => (board.route frame).2
  have hroute : net.Does (.router client) (some peer) [(client, .route frame)]
      ((net.changeBoard client fun _ => (c.board.route frame).2).goOn (.route client)) :=
    ⟨hclients, grows_of_eq rfl rfl, rfl, rfl, rfl, rfl, rfl,
      fun _ heq => by cases heq; exact .inl rfl, fun _ _ heq => (nomatch heq)⟩
  dsimp only at h
  split at h <;> cases h
  · exact hroute
  · exact { hroute with
      stays := fun _ heq => by cases heq; exact .inl rfl
      handsOver := fun _ _ heq => nomatch heq }
  · exact hroute.spawned none (.inr ⟨client, _, frame.header, rfl⟩)

/-- Only dispatching does something to subscriptions before it is over. -/
theorem stepSignals_eq {next : Next} (h : ∀ client frame, t.job ≠ .dispatch client frame) :
    stepSignals t next = nextSignals t.job.duty next := by
  obtain ⟨id, peer, job, ticket⟩ := t
  cases job <;> cases next <;> simp_all [stepSignals, nextSignals]

end Net

theorem Channel.ended_of_pop? {α : Type} {c c' : Channel α} {item : α}
    (h : c.pop? = some (item, c')) : c'.ended = c.ended := by
  unfold Channel.pop? at h
  split at h <;> cases h
  rfl

/-! ## Peers -/

/-- Whether a step from a job may shut the connection down: nothing can be sent or received any
more, or the connection is closed from this side. -/
def Job.shutsDown : Job → Next → Bool
  | .transmit _, .job .stopWriting | .flush, .job .stopWriting => true
  | .read, .job .stopReading => true
  | .push _ .shutDown, _ | .send _ .shutDown, _ => true
  | _, _ => false

/-- A step takes a message that has come in, for a client or for a server. -/
def Job.Takes (frame : Frame) (job : Job) (next : Next) : Prop :=
  (∃ client, job = .route client ∧ next = .job (.dispatch client frame)) ∨
    ∃ server, job = .serve server ∧ next = .job (.enter server frame)

/-- What a step from a job does to a peer. -/
structure Peer.Stepped (job : Job) (next : Next) (p p' : Peer) : Prop where
  closed : p.connection.closed = true → p'.connection.closed = true
  shut : p'.connection.closed = true → p.connection.closed = true ∨ job.shutsDown next = true
  stops : next = .job .stopReading → p'.connection.closed = true
  outbound : p'.outbound.items <:+ p.outbound.items ∨
    ∃ message after, job = .push message after ∧
      p'.outbound.items = p.outbound.items ++ [message]
  inbound : p'.inbound.items = p.inbound.items ∨
    (∃ frame, job = .deliver frame ∧ p'.inbound.items = p.inbound.items ++ [frame]) ∨
    ∃ frame, job.Takes frame next ∧ p.inbound.items = frame :: p'.inbound.items
  ended : p'.inbound.ended = true → p.inbound.ended = true ∨ job = .stopReading

/-- A peer has got no message, none has been taken that came in, and its connection stays as open as
it was. -/
structure Peer.Quiet (p p' : Peer) : Prop where
  closed : p'.connection.closed = p.connection.closed
  outbound : p'.outbound.items <:+ p.outbound.items
  inbound : p'.inbound.items = p.inbound.items
  ended : p'.inbound.ended = p.inbound.ended

theorem Peer.Quiet.refl (p : Peer) : p.Quiet p := ⟨rfl, suffix_rfl, rfl, rfl⟩

/-- A quiet change is one that any step may make. -/
theorem Peer.Quiet.stepped {p p' : Peer} (h : p.Quiet p') {job : Job} {next : Next}
    (hnext : next ≠ .job .stopReading) : p.Stepped job next p' :=
  ⟨fun hclosed => h.closed.trans hclosed, fun hclosed => .inl (h.closed.symm.trans hclosed),
    fun heq => absurd heq hnext, .inl h.outbound, .inl h.inbound,
    fun hended => .inl (h.ended.symm.trans hended)⟩

namespace Net

variable {net net' : Net} {t : Task} {p : Peer} {out : Stepped} {change : Peer → Peer}

section Map

variable {α β : Type} {f : α → β} {l : List α} {k : Nat} {x y : α}

theorem map_set_of_eq (hx : l[k]? = some x) (hf : f y = f x) : (l.set k y).map f = l.map f := by
  obtain ⟨hlt, rfl⟩ := List.getElem?_eq_some_iff.mp hx
  rw [map_set, hf, ← map_set, set_getElem_self]

theorem map_modify_of_eq {change : α → α} (hf : ∀ x, f (change x) = f x) :
    (l.modify k change).map f = l.map f := by
  cases hx : l[k]? with
  | some x =>
    rw [modify_eq_set_getElem?, hx]
    exact map_set_of_eq hx (hf x)
  | none => rw [modify_eq_self (List.getElem?_eq_none_iff.mp hx)]

end Map

/-- The numbers that servers give to their next connections. -/
def nextNumbers (net : Net) : List UInt16 := net.servers.map (·.nextConnection)

theorem peers_changePeer {peer : Nat} (hp : net.peers[peer]? = some p) (change : Peer → Peer) :
    (net.changePeer peer change).peers = net.peers.set peer (change p) := by
  obtain ⟨hlt, rfl⟩ := List.getElem?_eq_some_iff.mp hp
  simp [changePeer, modify_eq_set_getElem?, hlt]

theorem set_peers_self {peer : Nat} (hp : net.peers[peer]? = some p) :
    net.peers.set peer p = net.peers := by
  obtain ⟨hlt, rfl⟩ := List.getElem?_eq_some_iff.mp hp
  simp

/-- A step changes no peer but that of the task, whose connection keeps its number, and servers go
on counting from where they were. -/
def Reshapes (net : Net) (t : Task) (p : Peer) (out : Stepped) : Prop :=
  ∃ p', (out.1.peers = net.peers.set t.peer p' ∧ p.Stepped t.job out.2 p') ∧
    p'.connection.id = p.connection.id ∧ out.1.nextNumbers = net.nextNumbers

/-- Peers and servers are as they were. -/
theorem reshapes_of_eq (hp : net.peers[t.peer]? = some p) (hpeers : out.1.peers = net.peers)
    (hservers : out.1.nextNumbers = net.nextNumbers) (hnext : out.2 ≠ .job .stopReading) :
    net.Reshapes t p out :=
  ⟨p, ⟨by rw [hpeers, set_peers_self hp], (Peer.Quiet.refl p).stepped hnext⟩, rfl, hservers⟩

/-- The peer of the task has changed, as its job may change it. -/
theorem reshapes_changePeer (hp : net.peers[t.peer]? = some p)
    (hpeers : out.1.peers = (net.changePeer t.peer change).peers)
    (hservers : out.1.nextNumbers = net.nextNumbers)
    (hid : (change p).connection.id = p.connection.id)
    (hstepped : p.Stepped t.job out.2 (change p)) : net.Reshapes t p out :=
  ⟨change p, ⟨by rw [hpeers, peers_changePeer hp], hstepped⟩, hid, hservers⟩

/-- The end of a call leaves peers as they are. -/
theorem reshapes_conclude {p' : Peer} (hpeers : net'.peers = net.peers.set t.peer p')
    (hservers : net'.servers = net.servers) (hquiet : p.Quiet p')
    (hid : p'.connection.id = p.connection.id) (response : Response) (purpose : Purpose) :
    net.Reshapes t p (net'.conclude response purpose) := by
  obtain ⟨net'', report, hout, hsame, hservers', -⟩ := conclude_eq net' response purpose
  rw [hout]
  refine ⟨p', ⟨hsame.peers.trans hpeers, hquiet.stepped (by simp)⟩, hid, ?_⟩
  rw [nextNumbers, hservers', hservers, nextNumbers]

/-- After something was sent, or could not be, a call may be cancelled or the connection closed. -/
theorem peers_resume {peer : Nat} (hp : net.peers[peer]? = some p) (result : Except Fault Unit)
    (after : After) :
    ∃ p', (net.resume peer result after).1.peers = net.peers.set peer p' ∧
      p'.outbound = p.outbound ∧ p'.inbound = p.inbound ∧
      p'.connection.closed = (p.connection.closed || after = .shutDown) ∧
      (net.resume peer result after).2 ≠ .job .stopReading ∧
      p'.connection.id = p.connection.id ∧
      (net.resume peer result after).1.servers = net.servers := by
  have hself := set_peers_self hp
  cases after with
  | report | release server | route client | read | discard s =>
    exact ⟨p, hself.symm, rfl, rfl, by simp, by simp [resume, goOn, stop], rfl, rfl⟩
  | post frames =>
    refine ⟨p, ?_, rfl, rfl, by simp, ?_, rfl, ?_⟩ <;> simp only [resume] <;> split <;>
      simp [goOn, stop, hself]
  | await call deadline purpose =>
    cases result with
    | ok _ => exact ⟨p, hself.symm, rfl, rfl, by simp, by simp [resume, goOn], rfl, rfl⟩
    | error fault =>
      obtain ⟨net', report, hout, hsame, hservers, -⟩ :=
        conclude_eq (net.changeConnection peer (·.cancel call)) (.error fault) purpose
      simp only [resume, hout]
      exact ⟨_, hsame.peers.trans (peers_changePeer hp _), rfl, rfl,
        by simp [Connection.cancel], by simp, rfl, hservers⟩
  | shutDown =>
    exact ⟨_, peers_changePeer hp _, rfl, rfl, by simp [Connection.shutDown],
      by simp [resume, stop], rfl, rfl⟩

/-- A task resumes after its message has been taken, or could not be. -/
theorem reshapes_resume {p₁ : Peer} {after : After} (hp : net.peers[t.peer]? = some p)
    (hpeers : net'.peers = net.peers.set t.peer p₁) (hservers : net'.servers = net.servers)
    (hconnection : p₁.connection = p.connection) (hin : p₁.inbound = p.inbound)
    (hout : p₁.outbound.items <:+ p.outbound.items ∨
      ∃ message after, t.job = .push message after ∧
        p₁.outbound.items = p.outbound.items ++ [message])
    (hshut : after = .shutDown → ∀ next, t.job.shutsDown next = true)
    (result : Except Fault Unit) : net.Reshapes t p (net'.resume t.peer result after) := by
  have hp₁ : net'.peers[t.peer]? = some p₁ := by
    obtain ⟨hlt, -⟩ := List.getElem?_eq_some_iff.mp hp
    simp [hpeers, hlt]
  obtain ⟨p', hpeers', hout', hin', hclosed', hnext, hid, hservers'⟩ :=
    peers_resume hp₁ result after
  rw [hpeers, set_set] at hpeers'
  rw [hconnection] at hclosed' hid
  refine ⟨p', ⟨hpeers', ⟨fun h => by simp [hclosed', h], fun h => ?_, fun h => absurd h hnext, ?_,
    .inl (by rw [hin', hin]), fun h => .inl (by rwa [hin', hin] at h)⟩⟩, hid, ?_⟩
  · rw [hclosed', Bool.or_eq_true, decide_eq_true_eq] at h
    exact h.imp_right fun heq => hshut heq _
  · rwa [hout']
  · rw [nextNumbers, hservers', hservers, nextNumbers]

/-- The connection of the peer is shut down. -/
theorem reshapes_shutDown {job : Job} (hp : net.peers[t.peer]? = some p)
    (hpeers : net'.peers = net.peers) (hservers : net'.nextNumbers = net.nextNumbers)
    (hshut : t.job.shutsDown (.job job) = true) (reason : String) :
    net.Reshapes t p ((net'.shutDown t.peer reason).goOn job) := by
  have hchanged : (net'.shutDown t.peer reason).peers = (net.shutDown t.peer reason).peers := by
    simp [shutDown, changeConnection, changePeer, hpeers]
  exact reshapes_changePeer hp hchanged hservers rfl
    ⟨fun _ => rfl, fun _ => .inr hshut, fun _ => rfl, .inl suffix_rfl, .inl rfl, .inl⟩

theorem nextNumbers_onLink {α : Type} {endpoint : Nat} {use : Link → Side → α × Link} {x : α}
    (h : net.onLink endpoint use = some (x, net')) : net'.nextNumbers = net.nextNumbers := by
  obtain ⟨link, -, h⟩ := bind_eq_some_iff.mp h
  cases h
  rfl

/-- What a handler wants done changes no peer at once. -/
theorem peers_followUp (peer : Nat) (object : ObjectId) (followUps : List FollowUp) (net : Net) :
    (followUps.foldl (fun net f => net.followUp peer object f) net).peers = net.peers ∧
      (followUps.foldl (fun net f => net.followUp peer object f) net).nextNumbers =
        net.nextNumbers := by
  induction followUps generalizing net with
  | nil => exact ⟨rfl, rfl⟩
  | cons f followUps ih => exact ih _

/-- Accepting a message neither closes a connection nor changes its number. -/
theorem closed_accept (c : Connection) (message : Except MalformedFrame Frame) :
    (c.accept message).2.closed = c.closed ∧ (c.accept message).2.id = c.id := by
  unfold Connection.accept
  split
  · split <;> exact ⟨rfl, rfl⟩
  · dsimp only
    split
    · exact ⟨rfl, rfl⟩
    · split <;> exact ⟨rfl, rfl⟩

/-- Nor does giving a call its number. -/
theorem closed_of_enroll {c c' : Connection} {frame frame' : Frame} {call : CallId}
    (h : c.enroll frame = .ok (call, frame', c')) : c'.closed = c.closed ∧ c'.id = c.id := by
  unfold Connection.enroll at h
  split at h <;> cases h
  exact ⟨rfl, rfl⟩

theorem respond_eq (net : Net) (server : Nat) (response : Option Frame) :
    (net.respond server response).1 = net ∧
      (net.respond server response).2 ≠ .job .stopReading := by
  cases response <;> simp [respond, goOn]

/-! ## Steps -/

/-- What a step of a task can do, to its peer and to all that there is besides. -/
def Proceeds (net : Net) (t : Task) (p : Peer) (out : Stepped) : Prop :=
  net.Does t.job.duty t.origin? (stepSignals t out.2) out ∧ net.Reshapes t p out

/-- A step that dispatches nothing does what its duty lets it do. -/
theorem proceeds_of_does (hdoes : net.Does t.job.duty t.origin? (nextSignals t.job.duty out.2) out)
    (hreshapes : net.Reshapes t p out) (hjob : ∀ client frame, t.job ≠ .dispatch client frame) :
    net.Proceeds t p out :=
  ⟨by rwa [stepSignals_eq hjob], hreshapes⟩

/-- A task that has no duty has nothing to do with subscriptions. -/
theorem proceeds_of_other (hdoes : net.Does .other t.origin? [] out)
    (hreshapes : net.Reshapes t p out) (hother : t.job.duty = .other) : net.Proceeds t p out := by
  refine proceeds_of_does ?_ hreshapes fun client frame heq => ?_
  · rw [hother]
    cases hnext : out.2 <;> exact hdoes
  · rw [heq] at hother
    contradiction

/-- The peer changes quietly, and the task goes on. -/
theorem proceeds_changePeer {job : Job} (hp : net.peers[t.peer]? = some p)
    (hquiet : p.Quiet (change p)) (hid : (change p).connection.id = p.connection.id)
    (hduty : job.duty = t.job.duty)
    (hnext : job ≠ .stopReading) (hjob : ∀ client frame, t.job ≠ .dispatch client frame) :
    net.Proceeds t p ((net.changePeer t.peer change).goOn job) :=
  proceeds_of_does ((alike_changePeer _ _ _).goOn hduty)
    (reshapes_changePeer hp rfl rfl hid (hquiet.stepped (by simpa [goOn] using hnext))) hjob

/-- A step that leaves peers and servers alone. -/
theorem proceeds_aside (hp : net.peers[t.peer]? = some p)
    (hdoes : net.Does t.job.duty t.origin? (nextSignals t.job.duty out.2) out)
    (hpeers : out.1.peers = net.peers) (hservers : out.1.nextNumbers = net.nextNumbers)
    (hnext : out.2 ≠ .job .stopReading) (hjob : ∀ client frame, t.job ≠ .dispatch client frame) :
    net.Proceeds t p out :=
  proceeds_of_does hdoes (reshapes_of_eq hp hpeers hservers hnext) hjob

/-- Something was sent over the link of the peer, or could not be. -/
theorem proceeds_afterSending {use : Link → Side → Sent × Link} {next : Job} {sent : Sent}
    (hp : net.peers[t.peer]? = some p) (hlink : net.onLink p.endpoint use = some (sent, net'))
    (hshut : t.job.shutsDown (.job .stopWriting) = true) (hother : t.job.duty = .other)
    (hduty : next.duty = .other) (hnext : next ≠ .stopReading) :
    net.Proceeds t p (net'.afterSending t.peer next sent) := by
  have halike := alike_onLink hlink
  have hpeers := peers_onLink hlink
  have hservers := nextNumbers_onLink hlink
  refine proceeds_of_other (halike.afterSending _ hduty sent) ?_ hother
  cases sent with
  | done => exact reshapes_of_eq hp hpeers hservers (by simpa [afterSending, goOn] using hnext)
  | blocked => exact reshapes_of_eq hp hpeers hservers (by simp [afterSending, goOn])
  | failed error => exact reshapes_shutDown hp hpeers hservers hshut _

section Jobs

variable {n peer : Nat} {ticket : Option Nat} (hp : net.peers[peer]? = some p)
include hp

/-- The writer takes the next message, or closes when nobody can send. -/
theorem proceeds_write (h : net.stepWrite peer p = some out) :
    net.Proceeds ⟨n, peer, .write, ticket⟩ p out := by
  simp only [stepWrite] at h
  split at h
  · next message outbound hpop =>
    have hquiet : p.Quiet { p with outbound } :=
      ⟨rfl, ⟨[_], (items_of_pop? hpop).symm⟩, rfl, rfl⟩
    split at h <;> cases h <;> exact proceeds_changePeer hp hquiet rfl rfl (by simp) (by simp)
  · split at h
    · contradiction
    · cases h
      exact proceeds_aside hp ((Alike.refl net).goOn rfl) rfl rfl (by simp [goOn]) (by simp)

theorem proceeds_flush (h : net.stepFlush peer p = some out) :
    net.Proceeds ⟨n, peer, .flush, ticket⟩ p out := by
  obtain ⟨link, -, h⟩ := bind_eq_some_iff.mp h
  split at h
  · obtain ⟨⟨sent, net₁⟩, hlink, heq⟩ := bind_eq_some_iff.mp h
    cases heq
    exact proceeds_afterSending hp hlink rfl rfl rfl (by simp)
  · contradiction

/-- Who reads goes on, or shuts the connection down when nothing can be received any more. -/
theorem proceeds_read (h : net.stepRead peer p = some out) :
    net.Proceeds ⟨n, peer, .read, ticket⟩ p out := by
  obtain ⟨⟨arrival, net₁⟩, hlink, h⟩ := bind_eq_some_iff.mp h
  have halike := alike_onLink hlink
  have hpeers := peers_onLink hlink
  have hservers := nextNumbers_onLink hlink
  have hproceeds {job : Job} (hduty : job.duty = .reader) (hnext : job ≠ .stopReading) :
      net.Proceeds ⟨n, peer, .read, ticket⟩ p (net₁.goOn job) :=
    proceeds_aside hp (halike.goOn hduty) hpeers hservers (by simpa [goOn] using hnext) (by simp)
  have hshut (reason : String) :
      net.Proceeds ⟨n, peer, .read, ticket⟩ p ((net₁.shutDown peer reason).goOn .stopReading) :=
    proceeds_of_does ((halike.trans (alike_changePeer _ _ _)).goOn rfl)
      (reshapes_shutDown hp hpeers hservers rfl _) (by simp)
  dsimp only at h
  split at h <;> cases h
  · exact hproceeds rfl (by simp)
  · exact hproceeds rfl (by simp)
  · exact hproceeds rfl (by simp)
  · exact hshut _
  · exact hshut _

/-- A message that was read is sorted. -/
theorem proceeds_accept (message : Except MalformedFrame Frame) :
    net.Proceeds ⟨n, peer, .accept message, ticket⟩ p (net.stepAccept peer p message) := by
  obtain ⟨hclosed, hid⟩ := closed_accept p.connection message
  have hquiet : p.Quiet { p with connection := (p.connection.accept message).2 } :=
    ⟨hclosed, suffix_rfl, rfl, rfl⟩
  unfold stepAccept
  dsimp only
  split
  · exact proceeds_changePeer hp hquiet hid rfl (by simp) (by simp)
  · exact proceeds_changePeer hp hquiet hid rfl (by simp) (by simp)
  · split <;> exact proceeds_changePeer hp hquiet hid rfl (by simp) (by simp)

/-- A message is put among those that have come in, waits for room, or is lost. -/
theorem proceeds_deliver {frame : Frame} (h : net.stepDeliver n peer p frame = some out) :
    net.Proceeds ⟨n, peer, .deliver frame, ticket⟩ p out := by
  obtain ⟨⟨entry, gate⟩, -, h⟩ := bind_eq_some_iff.mp h
  cases entry <;> cases h
  · exact proceeds_of_does ((alike_changePeer _ _ _).goOn rfl)
      (reshapes_changePeer hp rfl rfl rfl ⟨fun hclosed => hclosed, .inl, by simp [goOn],
        .inl suffix_rfl, .inr (.inl ⟨frame, rfl, rfl⟩), .inl⟩) (by simp)
  · have hquiet : p.Quiet { p with inbound := { p.inbound with gate } } :=
      ⟨rfl, suffix_rfl, rfl, rfl⟩
    exact proceeds_of_does (alike_changePeer _ _ _).wait
      (reshapes_changePeer hp rfl rfl rfl (hquiet.stepped (by simp [wait]))) (by simp)
  · exact proceeds_aside hp ((Alike.refl net).goOn rfl) rfl rfl (by simp [goOn]) (by simp)

/-- Nothing comes in any more, and that is noted. -/
theorem proceeds_stopReading :
    net.Proceeds ⟨n, peer, .stopReading, ticket⟩ p (net.stepStopReading peer) :=
  proceeds_of_does ((alike_changePeer _ _ _).goOn rfl)
    (reshapes_changePeer hp rfl rfl rfl ⟨fun hclosed => hclosed, .inl,
      by simp [stepStopReading, goOn], .inl suffix_rfl, .inl rfl, fun _ => .inr rfl⟩) (by simp)

/-- A call gets its number, or is refused. -/
theorem proceeds_call (frame : Frame) (deadline : Nat) (purpose : Purpose) :
    net.Proceeds ⟨n, peer, .call frame deadline purpose, ticket⟩ p
      (net.stepCall peer p frame deadline purpose) := by
  unfold stepCall
  split
  · exact proceeds_of_does ((Alike.refl net).conclude _ purpose)
      (reshapes_conclude (set_peers_self hp).symm rfl (.refl p) rfl _ purpose) (by simp)
  · next call frame connection henroll =>
    obtain ⟨hclosed, hid⟩ := closed_of_enroll henroll
    have hquiet : p.Quiet { p with connection } := ⟨hclosed, suffix_rfl, rfl, rfl⟩
    exact proceeds_changePeer hp hquiet hid rfl (by simp) (by simp)

/-- A message is stamped, unless the connection is shut down. -/
theorem proceeds_send (frame : Frame) (after : After) :
    net.Proceeds ⟨n, peer, .send frame after, ticket⟩ p (net.stepSend peer p frame after) := by
  unfold stepSend
  split
  · exact proceeds_of_does ((Alike.refl net).resume peer _ after)
      (reshapes_resume hp (set_peers_self hp).symm rfl rfl rfl (.inl suffix_rfl)
        (fun heq _ => by rw [heq]; rfl) _) (by simp)
  · exact proceeds_aside hp ((Alike.refl net).goOn rfl) rfl rfl (by simp [goOn]) (by simp)

/-- A message is put among those that go out, waits, or is not taken. -/
theorem proceeds_push {message : Outgoing} {after : After}
    (h : net.stepPush n peer p message after = some out) :
    net.Proceeds ⟨n, peer, .push message after, ticket⟩ p out := by
  have hshut (heq : after = .shutDown) (next : Next) :
      (Job.push message after).shutsDown next = true := by
    rw [heq]
    rfl
  obtain ⟨⟨entry, gate⟩, -, h⟩ := bind_eq_some_iff.mp h
  cases entry <;> cases h
  · exact proceeds_of_does ((alike_changePeer _ _ _).resume peer _ after)
      (reshapes_resume (t := ⟨n, peer, .push message after, ticket⟩) hp (peers_changePeer hp _) rfl
        rfl rfl (.inr ⟨message, after, rfl, rfl⟩) hshut _) (by simp)
  · have hquiet : p.Quiet { p with outbound := { p.outbound with gate } } :=
      ⟨rfl, suffix_rfl, rfl, rfl⟩
    exact proceeds_of_does (alike_changePeer _ _ _).wait
      (reshapes_changePeer hp rfl rfl rfl (hquiet.stepped (by simp [wait]))) (by simp)
  · exact proceeds_of_does ((Alike.refl net).resume peer _ after)
      (reshapes_resume hp (set_peers_self hp).symm rfl rfl rfl (.inl suffix_rfl) hshut _)
      (by simp)

/-- Who waits for a response takes it, is told that there will be none, or gives the call up. -/
theorem proceeds_await {call : CallId} {limit deadline : Nat} {purpose : Purpose}
    (h : net.stepAwait peer p call limit deadline purpose = some out) :
    net.Proceeds ⟨n, peer, .await call limit deadline purpose, ticket⟩ p out := by
  have hends (response : Response) :
      net.Proceeds ⟨n, peer, .await call limit deadline purpose, ticket⟩ p
        (net.conclude response purpose) :=
    proceeds_of_does ((Alike.refl net).conclude response purpose)
      (reshapes_conclude (set_peers_self hp).symm rfl (.refl p) rfl _ purpose) (by simp)
  have hcancel : p.Quiet { p with connection := p.connection.cancel call } :=
    ⟨rfl, suffix_rfl, rfl, rfl⟩
  have hreceive : p.Quiet { p with connection :=
      { p.connection with pending := (p.connection.pending.receive call).2 } } :=
    ⟨rfl, suffix_rfl, rfl, rfl⟩
  simp only [stepAwait] at h
  split at h
  · cases h
    exact proceeds_of_does ((alike_changePeer _ _ _).conclude _ purpose)
      (reshapes_conclude (peers_changePeer hp _) (by rfl) hreceive (by rfl) _ purpose) (by simp)
  · cases h
    exact hends _
  · cases h
    exact hends _
  · split at h
    · cases h
      exact proceeds_of_does ((alike_changePeer _ _ _).conclude _ purpose)
        (reshapes_conclude (peers_changePeer hp _) (by rfl) hcancel (by rfl) _ purpose) (by simp)
    · contradiction

/-- A message that has come in is taken, for a client or for a server. -/
theorem proceeds_taking {job next : Job} {frame : Frame} {inbound : Channel Frame}
    (hpop : p.inbound.pop? = some (frame, inbound)) (htakes : job.Takes frame (.job next))
    (hduty : next.duty = job.duty) (hjob : ∀ client frame, job ≠ .dispatch client frame)
    (hnext : next ≠ .stopReading) :
    net.Proceeds ⟨n, peer, job, ticket⟩ p
      ((net.changePeer peer fun p => { p with inbound }).goOn next) :=
  proceeds_of_does ((alike_changePeer _ _ _).goOn hduty)
    (reshapes_changePeer hp rfl rfl rfl ⟨fun hclosed => hclosed, .inl,
      fun heq => absurd (Next.job.inj heq) hnext, .inl suffix_rfl,
      .inr (.inr ⟨frame, htakes, items_of_pop? hpop⟩),
      fun h => .inl ((Channel.ended_of_pop? hpop).symm.trans h)⟩) hjob

theorem proceeds_serve {server : Nat} (h : net.stepServe peer p server = some out) :
    net.Proceeds ⟨n, peer, .serve server, ticket⟩ p out := by
  unfold stepServe at h
  split at h
  · next hpop =>
    cases h
    exact proceeds_taking hp hpop (.inr ⟨server, rfl, rfl⟩) rfl (by simp) (by simp)
  · split at h <;> cases h
    exact proceeds_aside hp ((Alike.refl net).stop (by simp [Report.subscription?])) rfl rfl
      (by simp [stop]) (by simp)

theorem proceeds_route {client : Nat} (h : net.stepRoute peer p client = some out) :
    net.Proceeds ⟨n, peer, .route client, ticket⟩ p out := by
  unfold stepRoute at h
  split at h
  · next hpop =>
    cases h
    exact proceeds_taking hp hpop (.inl ⟨client, rfl, rfl⟩) rfl (by simp) (by simp)
  · split at h <;> cases h
    exact proceeds_aside hp ((Alike.refl net).ends _ (by simp [Report.subscription?])) rfl rfl
      (by simp [stop]) (by simp)

/-- A request gets a place at the server or waits, or serving ends. -/
theorem proceeds_enter {server : Nat} {frame : Frame}
    (h : net.stepEnter n peer server frame = some out) :
    net.Proceeds ⟨n, peer, .enter server frame, ticket⟩ p out := by
  obtain ⟨s, hs, h⟩ := bind_eq_some_iff.mp h
  obtain ⟨⟨entry, gate⟩, -, h⟩ := bind_eq_some_iff.mp h
  have halike : net.Alike { net with servers := net.servers.set server { s with gate } } :=
    ⟨rfl, rfl, rfl, rfl, rfl, rfl, rfl, rfl⟩
  have hservers := map_set_of_eq hs (f := Server.nextConnection) (y := { s with gate }) rfl
  cases entry <;> cases h
  · have hdoes : net.Does (.server server) (some peer) [] (_, .job (.serve server)) :=
      halike.goOn rfl
    exact proceeds_aside hp (hdoes.spawned none (.inl rfl)) rfl hservers (by simp [goOn]) (by simp)
  · exact proceeds_aside hp halike.wait rfl hservers (by simp [wait]) (by simp)
  · exact proceeds_aside hp (halike.stop (by simp [Report.subscription?])) rfl hservers
      (by simp [stop]) (by simp)

/-- A response is sent, or there is none. -/
theorem proceeds_respond {job : Job} (hother : job.duty = .other) (server : Nat)
    (response : Option Frame) :
    net.Proceeds ⟨n, peer, job, ticket⟩ p (net.respond server response) := by
  obtain ⟨hsame, hnext⟩ := respond_eq net server response
  exact proceeds_of_other ((Alike.refl net).respond server response)
    (reshapes_of_eq hp (by rw [hsame]) (by rw [hsame]) hnext) hother

/-- Working on a request may change the host, and starts what the handler wants done. -/
theorem proceeds_work (server : Nat) (frame : Frame) :
    net.Proceeds ⟨n, peer, .work server frame, ticket⟩ p (net.stepWork peer server frame) := by
  refine proceeds_of_other (does_stepWork net peer server frame) ?_ rfl
  unfold stepWork
  dsimp only
  split
  · obtain ⟨hsame, hnext⟩ := respond_eq net server _
    exact reshapes_of_eq hp (by rw [hsame]) (by rw [hsame]) hnext
  · generalize hfollowed : List.foldl _ _ _ = followed
    obtain ⟨hpeers, hservers⟩ := peers_followUp _ _ _ _
    rw [hfollowed] at hpeers hservers
    split
    · exact reshapes_of_eq hp hpeers hservers (by simp [goOn])
    · obtain ⟨hsame, hnext⟩ := respond_eq followed server _
      exact reshapes_of_eq hp (by rw [hsame, hpeers]) (by rw [hsame]; exact hservers) hnext

/-- A message is routed to a client. -/
theorem proceeds_dispatch {client : Nat} {frame : Frame}
    (h : net.stepDispatch peer client frame = some out) :
    net.Proceeds ⟨n, peer, .dispatch client frame, ticket⟩ p out := by
  refine ⟨does_stepDispatch h, ?_⟩
  obtain ⟨c, -, h⟩ := bind_eq_some_iff.mp h
  dsimp only at h
  split at h <;> cases h <;> exact reshapes_of_eq hp rfl rfl (by simp [goOn])

/-- The answer to a signal is sent when it is there. -/
theorem proceeds_answer {client slot : Nat} {request : Header}
    (h : net.stepAnswer client slot request = some out) :
    net.Proceeds ⟨n, peer, .answer client slot request, ticket⟩ p out := by
  obtain ⟨c, -, h⟩ := bind_eq_some_iff.mp h
  obtain ⟨reply, -, heq⟩ := bind_eq_some_iff.mp h
  cases heq
  refine proceeds_aside hp ((Alike.refl net).does [] (fun job heq => ?_) (by simp)) rfl rfl
    (by simp [goOn]) (by simp)
  cases heq
  exact .inr ⟨rfl, client, slot, request, rfl⟩

end Jobs

/-- What a step of a task can do, whatever its job is. -/
theorem step_proceeds (hp : net.peers[t.peer]? = some p) (h : net.step t = some out) :
    net.Proceeds t p out := by
  obtain ⟨p', hp', h⟩ := bind_eq_some_iff.mp h
  obtain rfl : p = p' := some.inj (hp.symm.trans hp')
  obtain ⟨n, peer, job, ticket⟩ := t
  cases job with
  | write => exact proceeds_write hp h
  | transmit frame =>
    obtain ⟨⟨sent, net₁⟩, hlink, heq⟩ := bind_eq_some_iff.mp h
    cases heq
    exact proceeds_afterSending hp hlink rfl rfl rfl (by simp)
  | flush => exact proceeds_flush hp h
  | close =>
    obtain ⟨⟨sent, net₁⟩, hlink, heq⟩ := bind_eq_some_iff.mp h
    cases heq
    exact proceeds_aside hp ((alike_onLink hlink).goOn rfl) (peers_onLink hlink)
      (nextNumbers_onLink hlink) (by simp [goOn]) (by simp)
  | stopWriting =>
    cases h
    have hquiet : p.Quiet { p with outbound := p.outbound.abandon } :=
      ⟨rfl, nil_suffix, rfl, rfl⟩
    exact proceeds_changePeer hp hquiet rfl rfl (by simp) (by simp)
  | leaveWriting | leaveReading =>
    cases h
    exact proceeds_aside hp
      (Alike.stop ⟨rfl, rfl, rfl, rfl, rfl, rfl, rfl, rfl⟩ (by simp [Report.subscription?]))
      rfl rfl (by simp [stop]) (by simp)
  | read => exact proceeds_read hp h
  | accept message =>
    cases h
    exact proceeds_accept hp message
  | deliver frame => exact proceeds_deliver hp h
  | stopReading =>
    cases h
    exact proceeds_stopReading hp
  | call frame deadline purpose =>
    cases h
    exact proceeds_call hp frame deadline purpose
  | send frame after =>
    cases h
    exact proceeds_send hp frame after
  | push message after => exact proceeds_push hp h
  | await call limit deadline purpose => exact proceeds_await hp h
  | serve server => exact proceeds_serve hp h
  | enter server frame => exact proceeds_enter hp h
  | work server frame =>
    cases h
    exact proceeds_work hp server frame
  | sleep server limit response =>
    dsimp only at h
    split at h <;> cases h
    exact proceeds_respond hp rfl server response
  | release server =>
    cases h
    exact proceeds_aside hp (Alike.goOn ⟨rfl, rfl, rfl, rfl, rfl, rfl, rfl, rfl⟩ rfl) rfl
      (map_modify_of_eq fun _ => rfl) (by simp [goOn]) (by simp)
  | route client => exact proceeds_route hp h
  | dispatch client frame => exact proceeds_dispatch hp h
  | answer client slot request => exact proceeds_answer hp h
  | leave =>
    cases h
    exact proceeds_aside hp ((Alike.refl net).stop (by simp [Report.subscription?])) rfl rfl
      (by simp [stop]) (by simp)

/-- What a step does, by the duty of its task. -/
theorem step_does (h : net.step t = some out) :
    net.Does t.job.duty t.origin? (stepSignals t out.2) out := by
  obtain ⟨p, hp, -⟩ := bind_eq_some_iff.mp h
  exact (step_proceeds hp h).1

/-- What a step of a task does to its peer, and that it leaves the others alone. -/
theorem step_peer {next : Next} (h : net.step t = some (net', next)) :
    ∃ p p', net.peers[t.peer]? = some p ∧ p.Stepped t.job next p' ∧
      net'.peers[t.peer]? = some p' ∧ ∀ k, t.peer ≠ k → net'.peers[k]? = net.peers[k]? := by
  obtain ⟨p, hp, -⟩ := bind_eq_some_iff.mp h
  obtain ⟨-, p', ⟨hpeers, hstepped⟩, -⟩ := step_proceeds hp h
  replace hpeers : net'.peers = net.peers.set t.peer p' := hpeers
  have hlt := (List.getElem?_eq_some_iff.mp hp).1
  exact ⟨p, p', hp, hstepped, by simp [hpeers, hlt], fun k hk => by rw [hpeers, getElem?_set_ne hk]⟩

end Net

end Remoting
