import Remoting.Proofs.FrameDelivery

/-!
# Remoting.Proofs.Attached

A client and a server at the two ends of one link. Everything that can change there while the client
calls is put into a `Picture`: the link, the two peers, the server and its host, and where each of
the tasks stands. `Net.Pictures` says that a network looks like a picture; a step of a task is then
a small change of the picture (`Net.Goes`).
-/

namespace Remoting

open List Option

variable {a : Actor} {call : Nat}

/-- The tasks of a client and a server while the client calls. -/
inductive Actor where
  | clientWriter
  | clientReader
  /-- Takes the signals to the client. -/
  | router
  | serverWriter
  | serverReader
  /-- Takes the requests to the server. -/
  | listener
  /-- Calls. -/
  | caller
  /-- Works on the request. -/
  | worker
  deriving DecidableEq, Repr

namespace Actor

/-- The number of a task, where the task that calls has the given one. -/
def id (call : Nat) : Actor → Nat
  | .clientWriter => 0
  | .clientReader => 1
  | .router => 2
  | .serverWriter => 3
  | .serverReader => 4
  | .listener => 5
  | .caller => call
  | .worker => call + 1

/-- The task of a number. -/
def ofId? (call : Nat) : Nat → Option Actor
  | 0 => some .clientWriter
  | 1 => some .clientReader
  | 2 => some .router
  | 3 => some .serverWriter
  | 4 => some .serverReader
  | 5 => some .listener
  | n => if n = call then some .caller else if n = call + 1 then some .worker else none

/-- An actor is found by its number, when that of the caller comes after the fixed ones. -/
theorem ofId?_id (h : 6 ≤ call) (a : Actor) : ofId? call (a.id call) = some a := by
  obtain ⟨n, rfl⟩ : ∃ n, call = n + 6 := ⟨call - 6, by omega⟩
  cases a with
  | worker =>
    show ofId? (n + 6) (n + 1 + 6) = some .worker
    simp [ofId?]
  | caller => simp [ofId?, id]
  | _ => rfl

/-- An actor that is found by a number has that number. -/
theorem id_of_ofId? {n : Nat} (h : ofId? call n = some a) : a.id call = n := by
  unfold ofId? at h
  split at h
  all_goals try (cases h; rfl)
  split at h
  · next heq =>
    cases h
    exact heq.symm
  · split at h
    · next heq =>
      cases h
      exact heq.symm
    · contradiction

/-- The peer that a task is about: the client's or the server's. -/
def peer : Actor → Nat
  | .clientWriter | .clientReader | .router | .caller => 0
  | .serverWriter | .serverReader | .listener | .worker => 1

end Actor

/-- A client and a server at the two ends of a link. -/
structure Picture where
  now : Nat
  /-- The side of the client. -/
  side : Side
  link : Link
  client : Client
  /-- The connection at the client. -/
  calls : Connection
  /-- What is to go out from the client. -/
  outbound : Channel Outgoing
  /-- What has come in for the client and is no response. -/
  signals : Channel Frame
  /-- The connection at the server. -/
  service : Connection
  /-- What has come in for the server. -/
  requests : Channel Frame
  /-- What is to go out from the server. -/
  responses : Channel Outgoing
  server : Server
  host : Host
  /-- Where the tasks stand. -/
  jobs : Actor → Option Job
  /-- The number of the task that calls. -/
  call : Nat
  /-- The number under which its end is reported. -/
  ticket : Nat
  nextTask : Nat
  nextTicket : Nat
  reports : List (Nat × Report)

namespace Picture

/-- The peer of the client. -/
def clientPeer (pic : Picture) : Peer :=
  ⟨pic.calls, pic.side.index, pic.outbound, pic.signals, true⟩

/-- The peer of the server. -/
def serverPeer (pic : Picture) : Peer :=
  ⟨pic.service, pic.side.other.index, pic.responses, pic.requests, false⟩

/-- A task that stands somewhere. -/
def task (pic : Picture) (a : Actor) (job : Job) : Task :=
  ⟨a.id pic.call, a.peer, job, if a = .caller then some pic.ticket else none⟩

/-- The task of a number. -/
def task? (pic : Picture) (id : Nat) : Option Task :=
  (Actor.ofId? pic.call id).bind fun a => (pic.jobs a).map (pic.task a)

/-- Let a task stand somewhere else, or nowhere any more. -/
def put (pic : Picture) (a : Actor) (job : Option Job) : Picture :=
  { pic with jobs := fun b => if b = a then job else pic.jobs b }

@[simp] theorem jobs_put_self (pic : Picture) (a : Actor) (job : Option Job) :
    (pic.put a job).jobs a = job := if_pos rfl

@[simp] theorem jobs_put_of_ne (pic : Picture) {b : Actor} (h : b ≠ a) (job : Option Job) :
    (pic.put a job).jobs b = pic.jobs b := if_neg h

/-- The task of an actor has the job that the picture shows. -/
theorem task?_id {pic : Picture} (h : 6 ≤ pic.call) (a : Actor) :
    pic.task? (a.id pic.call) = (pic.jobs a).map (pic.task a) := by
  rw [task?, Actor.ofId?_id h, bind_some]

/-- A picture with another job has another task of that actor only. -/
theorem task?_put {pic : Picture} (h : 6 ≤ pic.call) (a : Actor) (job : Option Job) (id : Nat) :
    (pic.put a job).task? id =
      if id = a.id pic.call then job.map (pic.task a) else pic.task? id := by
  by_cases hid : id = a.id pic.call
  · rw [if_pos hid, hid]
    have hcall : 6 ≤ (pic.put a job).call := h
    exact (task?_id hcall a).trans (by rw [jobs_put_self]; rfl)
  · rw [if_neg hid]
    show (Actor.ofId? pic.call id).bind _ = (Actor.ofId? pic.call id).bind _
    cases hb : Actor.ofId? pic.call id with
    | none => rfl
    | some b =>
      have hne : b ≠ a := by
        rintro rfl
        exact hid (Actor.id_of_ofId? hb).symm
      rw [bind_some, bind_some, jobs_put_of_ne pic hne]
      rfl

end Picture

namespace Net

variable {job : Job}

/-! ## Tasks by number -/

variable {net net' : Net} {pic pic' : Picture}

/-- Only the task that goes on has a new job. -/
theorem task?_setJob (net : Net) (t : Task) (job : Job) (id : Nat) :
    (net.setJob t job).task? id = if id = t.id then some { t with job } else net.task? id := by
  unfold task? setJob
  by_cases h : id = t.id
  · subst h
    have hnone : (net.tasks.filter (·.id != t.id)).find? (·.id == t.id) = none := by simp
    rw [if_pos rfl, find?_append, hnone]
    simp
  · rw [if_neg h, find?_append, find?_filter]
    have hlast : ([{ t with job := job }] : List Task).find? (·.id == id) = none := by
      simpa using fun heq => h heq.symm
    rw [hlast, or_none]
    congr 1
    funext u
    by_cases hu : u.id = id
    · simp [hu, h]
    · simp [hu]

/-- Only the task that ends is gone. -/
theorem task?_endTask (net : Net) (t : Task) (report : Report) (id : Nat) :
    (net.endTask t report).task? id = if id = t.id then none else net.task? id := by
  unfold task? endTask
  rw [find?_filter]
  by_cases h : id = t.id
  · subst h
    simp
  · rw [if_neg h]
    congr 1
    funext u
    by_cases hu : u.id = id
    · simp [hu, h]
    · simp [hu]

/-- A task that is started has the next number. -/
theorem task?_spawn {net : Net} (hfresh : net.task? net.nextTask = none) (peer : Nat) (job : Job)
    (ticket : Option Nat) (id : Nat) :
    (net.spawn peer job ticket).task? id =
      if id = net.nextTask then some ⟨net.nextTask, peer, job, ticket⟩ else net.task? id := by
  have hspawn : (net.spawn peer job ticket).task? id =
      (net.task? id).or
        (if id = net.nextTask then some ⟨net.nextTask, peer, job, ticket⟩ else none) := by
    unfold task? spawn
    rw [find?_append]
    by_cases h : id = net.nextTask
    · simp [h]
    · have hne : ¬ net.nextTask = id := fun heq => h heq.symm
      simp [h, hne]
  rw [hspawn]
  by_cases h : id = net.nextTask
  · subst h
    simp [hfresh]
  · simp [h]

/-! ## Pictures -/

/-- A network looks like a picture. -/
structure Pictures (net : Net) (pic : Picture) : Prop where
  now : net.now = pic.now
  links : net.links = [pic.link]
  peers : net.peers = [pic.clientPeer, pic.serverPeer]
  clients : net.clients = [pic.client]
  servers : net.servers = [pic.server]
  host : net.host = pic.host
  reports : net.reports = pic.reports
  nextTask : net.nextTask = pic.nextTask
  nextTicket : net.nextTicket = pic.nextTicket
  later : 6 ≤ pic.call
  tasks : ∀ id, net.task? id = pic.task? id

namespace Pictures

section Pictured

variable (h : net.Pictures pic)
include h

/-- The network has the tasks of its picture. -/
theorem task?_eq (hjob : pic.jobs a = some job) :
    net.task? (a.id pic.call) = some (pic.task a job) := by
  rw [h.tasks, Picture.task?_id h.later, hjob, map_some]

/-- Every task is one of the picture. -/
theorem exists_actor {id : Nat} {t : Task} (ht : net.task? id = some t) :
    ∃ a job, pic.jobs a = some job ∧ t = pic.task a job := by
  rw [h.tasks] at ht
  obtain ⟨a, -, hmap⟩ := bind_eq_some_iff.mp ht
  obtain ⟨job, hjob, rfl⟩ := map_eq_some_iff.mp hmap
  exact ⟨a, job, hjob, rfl⟩

theorem mem_tasks (hjob : pic.jobs a = some job) : pic.task a job ∈ net.tasks :=
  mem_of_find?_eq_some (h.task?_eq hjob)

/-- A change of the client's peer leaves that of the server alone. -/
theorem peers_changePeer_client (change : Peer → Peer) :
    (net.changePeer 0 change).peers = [change pic.clientPeer, pic.serverPeer] := by
  simp only [changePeer, h.peers, modify_zero_cons]

/-- A change of the server's peer leaves that of the client alone. -/
theorem peers_changePeer_server (change : Peer → Peer) :
    (net.changePeer 1 change).peers = [pic.clientPeer, change pic.serverPeer] := by
  simp only [changePeer, h.peers, modify_succ_cons, modify_zero_cons]

/-! What changes of a network are in the picture. -/

theorem setLink (l : Link) : { net with links := [l] }.Pictures { pic with link := l } :=
  { h with links := rfl }

theorem setHost (host : Host) : { net with host }.Pictures { pic with host } :=
  { h with host := rfl }

theorem setServer (server : Server) :
    { net with servers := [server] }.Pictures { pic with server } :=
  { h with servers := rfl }

theorem changeServer (change : Server → Server) :
    { net with servers := net.servers.modify 0 change }.Pictures
      { pic with server := change pic.server } :=
  { h with servers := by simp only [h.servers, modify_zero_cons] }

theorem tick : { net with now := net.now + 1 }.Pictures { pic with now := pic.now + 1 } :=
  { h with now := congrArg (· + 1) h.now }

theorem order (agenda : Agenda) : { net with agenda }.Pictures pic := { h with }

/-- The table of calls of the client changes. -/
theorem changeCalls (change : Connection → Connection) :
    (net.changeConnection 0 change).Pictures { pic with calls := change pic.calls } :=
  { h with peers := h.peers_changePeer_client _ }

/-- What the client has to send changes. -/
theorem changeOutbound (change : Channel Outgoing → Channel Outgoing) :
    (net.changePeer 0 fun p => { p with outbound := change p.outbound }).Pictures
      { pic with outbound := change pic.outbound } :=
  { h with peers := h.peers_changePeer_client _ }

/-- The connection of the server changes. -/
theorem changeService (change : Connection → Connection) :
    (net.changeConnection 1 change).Pictures { pic with service := change pic.service } :=
  { h with peers := h.peers_changePeer_server _ }

/-- The requests that have come in change. -/
theorem changeRequests (change : Channel Frame → Channel Frame) :
    (net.changePeer 1 fun p => { p with inbound := change p.inbound }).Pictures
      { pic with requests := change pic.requests } :=
  { h with peers := h.peers_changePeer_server _ }

/-- What the server has to send changes. -/
theorem changeResponses (change : Channel Outgoing → Channel Outgoing) :
    (net.changePeer 1 fun p => { p with outbound := change p.outbound }).Pictures
      { pic with responses := change pic.responses } :=
  { h with peers := h.peers_changePeer_server _ }

/-! What changes of tasks are in the picture. -/

/-- A task goes on with another job. -/
theorem setJob (old job : Job) :
    (net.setJob (pic.task a old) job).Pictures (pic.put a (some job)) := by
  refine { h with tasks := fun id => ?_ }
  rw [task?_setJob, Picture.task?_put h.later, h.tasks]
  rfl

/-- A task ends, and what the caller ends with is reported. -/
theorem endTask (old : Job) (report : Report) :
    (net.endTask (pic.task a old) report).Pictures { pic.put a none with
      reports := if a = .caller then pic.reports ++ [(pic.ticket, report)] else pic.reports } := by
  refine { h with reports := ?_, tasks := fun id => ?_ }
  · unfold Net.endTask Picture.task
    by_cases ha : a = .caller
    · simp [ha, h.reports]
    · simp [ha, h.reports]
  · rw [task?_endTask, h.tasks]
    exact (Picture.task?_put h.later a none id).symm

/-- The caller starts. -/
theorem start (hnone : pic.jobs .caller = none) (hcall : pic.call = pic.nextTask)
    (hticket : pic.ticket = pic.nextTicket) (job : Job) :
    (net.start 0 job).2.Pictures { pic.put .caller (some job) with
      nextTask := pic.nextTask + 1, nextTicket := pic.nextTicket + 1 } := by
  have hid : net.nextTask = Actor.caller.id pic.call := h.nextTask.trans hcall.symm
  have hfresh : net.task? net.nextTask = none := by
    rw [hid, h.tasks, Picture.task?_id h.later, hnone, map_none]
  refine { h with
    nextTask := congrArg (· + 1) h.nextTask
    nextTicket := congrArg (· + 1) h.nextTicket
    tasks := fun id => ?_ }
  show (net.spawn 0 job (some net.nextTicket)).task? id = _
  rw [task?_spawn hfresh, h.tasks, hid, h.nextTicket, ← hticket]
  exact (Picture.task?_put h.later .caller (some job) id).symm

/-- Without a task that calls and one that works on the request, any task may be the next. -/
theorem prepare (hcaller : pic.jobs .caller = none) (hworker : pic.jobs .worker = none)
    (hlater : 6 ≤ call) (ticket : Nat) : net.Pictures { pic with call, ticket } := by
  refine { h with later := hlater, tasks := fun id => ?_ }
  rw [h.tasks]
  have hnone {n : Nat} (hn : 6 ≤ n) (t : Nat) (k : Nat) (hk : 6 ≤ k) :
      Picture.task? { pic with call := n, ticket := t } k = none := by
    unfold Picture.task?
    cases ha : Actor.ofId? n k with
    | none => rfl
    | some a =>
      have hid := Actor.id_of_ofId? ha
      cases a with
      | caller => simp [hcaller]
      | worker => simp [hworker]
      | _ => simp [Actor.id] at hid; omega
  by_cases hid : 6 ≤ id
  · rw [hnone hlater ticket id hid]
    exact hnone h.later pic.ticket id hid
  · have hsmall : id = 0 ∨ id = 1 ∨ id = 2 ∨ id = 3 ∨ id = 4 ∨ id = 5 := by omega
    rcases hsmall with rfl | rfl | rfl | rfl | rfl | rfl <;> rfl

/-- The task that works on the request starts. -/
theorem spawnWorker (hnone : pic.jobs .worker = none) (hnext : pic.nextTask = pic.call + 1)
    (job : Job) :
    (net.spawn 1 job none).Pictures
      { pic.put .worker (some job) with nextTask := pic.nextTask + 1 } := by
  have hid : net.nextTask = Actor.worker.id pic.call := h.nextTask.trans hnext
  have hfresh : net.task? net.nextTask = none := by
    rw [hid, h.tasks, Picture.task?_id h.later, hnone, map_none]
  refine { h with nextTask := congrArg (· + 1) h.nextTask, tasks := fun id => ?_ }
  rw [task?_spawn hfresh, h.tasks, hid]
  exact (Picture.task?_put h.later .worker (some job) id).symm

end Pictured

end Pictures

/-! ## Steps -/

/-- A task goes on, and the network then looks like another picture. No time passes. -/
def Goes (net : Net) (pic : Picture) (a : Actor) (pic' : Picture) : Prop :=
  ∃ job net' next, pic.jobs a = some job ∧ net.step (pic.task a job) = some (net', next) ∧
    (net'.place (pic.task a job) next).Pictures pic' ∧ pic'.now = pic.now

/-- A task waits, or is not there. -/
def Stays (net : Net) (pic : Picture) (a : Actor) : Prop :=
  ∀ job, pic.jobs a = some job → net.step (pic.task a job) = none

/-- A task without a step stays. -/
theorem stays_of_step (hjob : pic.jobs a = some job) (hstep : net.step (pic.task a job) = none) :
    net.Stays pic a := by
  intro job' hjob'
  rwa [some.inj (hjob'.symm.trans hjob)]

theorem stays_of_none (hjob : pic.jobs a = none) : net.Stays pic a := by
  intro job hjob'
  rw [hjob] at hjob'
  contradiction

/-- A step to another job is a step in the picture. -/
theorem goes_job {old : Job} (hold : pic.jobs a = some old)
    (hstep : net.step (pic.task a old) = some (net', .job job)) (h' : net'.Pictures pic')
    (htask : pic'.task a old = pic.task a old) (hnow : pic'.now = pic.now) :
    net.Goes pic a (pic'.put a (some job)) :=
  ⟨old, net', .job job, hold, hstep, htask ▸ h'.setJob old job, hnow⟩

/-- So is the last step of a task. -/
theorem goes_ended {old : Job} {report : Report} (hold : pic.jobs a = some old)
    (hstep : net.step (pic.task a old) = some (net', .ended report)) (h' : net'.Pictures pic')
    (htask : pic'.task a old = pic.task a old) (hnow : pic'.now = pic.now) :
    net.Goes pic a { pic'.put a none with
      reports := if a = .caller then pic'.reports ++ [(pic'.ticket, report)] else pic'.reports } :=
  ⟨old, net', .ended report, hold, hstep, htask ▸ h'.endTask old report, hnow⟩

/-- A task of the client is at the client's peer. -/
theorem Pictures.peer_client (h : net.Pictures pic) (ha : a.peer = 0) (job : Job) :
    net.peers[(pic.task a job).peer]? = some pic.clientPeer := by
  rw [h.peers]
  show [pic.clientPeer, pic.serverPeer][a.peer]? = _
  rw [ha]
  rfl

/-- A task of the server is at the server's peer. -/
theorem Pictures.peer_server (h : net.Pictures pic) (ha : a.peer = 1) (job : Job) :
    net.peers[(pic.task a job).peer]? = some pic.serverPeer := by
  rw [h.peers]
  show [pic.clientPeer, pic.serverPeer][a.peer]? = _
  rw [ha]
  rfl

end Net

end Remoting
