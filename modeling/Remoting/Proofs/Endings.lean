import Remoting.Proofs.SubscriptionOwners

/-!
# Remoting.Proofs.Endings

The end of a connection, as its client notices it. Messages end at a peer only when its connection
has been shut down (`Net.Stops`), and the task that routes the messages of a client goes on until
they have ended (`Net.Routed`). Nothing is asked for any more on a connection that is shut down. So
when a client has no more messages to come, signals are routed to no subscription but those whose
tasks are about to give them up (`Net.Late`).
-/

namespace Remoting

open List Option

variable {report : Report} {s : Nat × SignalAction}

/-- The subscription that a task is about to ask for. -/
def Job.asks? : Job → Option Subscription
  | .call _ _ (.subscribe s _) | .send _ (.await _ _ (.subscribe s _)) => some s
  | _ => none

/-- The message that an action routes. -/
def SignalAction.frame? : SignalAction → Option Frame
  | .route frame => some frame
  | _ => none

/-- A task that ends ends the routing to handlers and gives up subscriptions, and does nothing else
with them. -/
theorem Duty.of_mem_signals {duty : Duty} (hs : s ∈ duty.signals report) :
    s.2.isOutside = false ∧ s.2.frame? = none := by
  cases duty with
  | subscriber s' =>
    simp only [Duty.signals] at hs
    split at hs
    · contradiction
    · simp only [List.mem_cons, not_mem_nil, or_false] at hs
      obtain rfl | rfl := hs <;> exact ⟨rfl, rfl⟩
  | router c | discarder s' =>
    obtain rfl := List.mem_singleton.mp hs
    exact ⟨rfl, rfl⟩
  | reader | server n | answerer client slot request | other => contradiction

namespace Net

variable {net net' : Net} {a : Happening} {happenings : List Happening} {host : Host} {t u : Task}
  {signals : List (Nat × SignalAction)} {next : Next} {c k : Nat}

/-- The connection of a peer has been shut down. -/
def ClosedAt (net : Net) (k : Nat) : Prop :=
  ∃ p, net.peers[k]? = some p ∧ p.connection.closed = true

/-! ## Connections stay shut down -/

/-- What is done from outside opens no connection again. -/
theorem ClosedAt.change (h : net.ClosedAt k) (hchange : net.Change signals net') :
    net'.ClosedAt k := by
  obtain ⟨p, hp, hclosed⟩ := h
  obtain ⟨hle, hpeers⟩ := hchange.peers
  have hlt := (List.getElem?_eq_some_iff.mp hp).1
  have hp' := getElem?_eq_getElem (hlt.trans_le hle)
  obtain ⟨p₀, hp₀, hsame, -⟩ | ⟨hk, -⟩ := hpeers k _ hp'
  · obtain rfl : p = p₀ := some.inj (hp.symm.trans hp₀)
    exact ⟨_, hp', by rwa [hsame]⟩
  · omega

theorem peers_place (net : Net) (t : Task) (next : Next) :
    (net.place t next).peers = net.peers := by
  cases next <;> rfl

/-- Steps open no connection again. -/
theorem ClosedAt.step (h : net.ClosedAt k) (hstep : net.step t = some (net', next)) :
    net'.ClosedAt k := by
  obtain ⟨p₀, p', hp₀, hstepped, hp', hothers⟩ := step_peer hstep
  obtain ⟨p, hp, hclosed⟩ := h
  by_cases hk : t.peer = k
  · subst hk
    obtain rfl : p = p₀ := some.inj (hp.symm.trans hp₀)
    exact ⟨p', hp', hstepped.closed hclosed⟩
  · exact ⟨p, (hothers k hk).trans hp, hclosed⟩

/-! ## Clients and their peers -/

/-- The peer of a client. -/
def peerOf (net : Net) (c : Nat) : Option Nat := net.clients[c]?.map (·.peer)

theorem lt_of_peerOf (h : net.peerOf c = some k) : c < net.clients.length := by
  obtain ⟨client, hclient, -⟩ := map_eq_some_iff.mp h
  exact (List.getElem?_eq_some_iff.mp hclient).1

theorem peerOf_congr (h : net'.clients = net.clients) (c : Nat) : net'.peerOf c = net.peerOf c := by
  rw [peerOf, peerOf, h]

theorem peerOf_changeBoards (net : Net) (signals : List (Nat × SignalAction)) (c : Nat) :
    (net.changeBoards signals).peerOf c = net.peerOf c := by
  rw [peerOf, peerOf, getElem?_changeBoards]
  cases net.clients[c]? <;> rfl

/-- A client stays at its peer. -/
theorem Change.peerOf (h : net.Change signals net') (hc : net.peerOf c = some k) :
    net'.peerOf c = some k := by
  obtain ⟨new, hclients, -⟩ := h.clients
  rw [← peerOf_changeBoards net signals] at hc
  obtain ⟨client, hclient, rfl⟩ := map_eq_some_iff.mp hc
  have hlt := (List.getElem?_eq_some_iff.mp hclient).1
  rw [Net.peerOf, hclients, getElem?_append_left hlt, hclient, map_some]

/-- A step moves no client to another peer. -/
theorem peerOf_step (hstep : net.step t = some (net', next)) (c : Nat) :
    net'.peerOf c = net.peerOf c := by
  rw [peerOf_congr (step_does hstep).clients, peerOf_changeBoards]

/-- A peer that was started by itself stays such a peer. -/
theorem Change.mem_ownPeers (h : net.Change signals net') (hk : k ∈ net.ownPeers) :
    k ∈ net'.ownPeers := by
  induction h with
  | aside halike hpeers => rwa [halike.ownPeers]
  | join endpoint settings => exact mem_append_left _ hk
  | trans hfirst hsecond ihfirst ihsecond => exact ihsecond (ihfirst hk)
  | @record net =>
    rw [takeReports_eq]
    exact hk
  | spawn | report | serve | client | close | subscribe | unsubscribe | drop | next | use =>
    exact hk

/-- How a task may start that is started from outside. -/
inductive Starts (net : Net) (u : Task) : Prop
  | other (hduty : u.job.duty = .other) (hmute : u.job.isMute = true ∨ u.peer ∈ net.ownPeers)
  | reader (hjob : u.job = .read)
  | server (n : Nat) (hjob : u.job = .serve n)
  | router (c : Nat) (hjob : u.job = .route c) (hpeer : net.peerOf c = some u.peer)
  | subscriber (frame : Frame) (deadline : Nat) (s : Subscription) (name : String)
      (hjob : u.job = .call frame deadline (.subscribe s name))
      (hpeer : net.peerOf s.client = some u.peer)
  | discarder (frame : Frame) (s : Subscription) (hjob : u.job = .send frame (.discard s))
      (hmute : frame.header.kind.isResponse = false)

theorem mem_tasks_spawn {peer : Nat} {job : Job} {ticket : Option Nat} :
    u ∈ (net.spawn peer job ticket).tasks ↔
      u ∈ net.tasks ∨ u = ⟨net.nextTask, peer, job, ticket⟩ := by
  simp [Net.spawn]

/-- A new peer has a task that writes and one that reads. -/
theorem mem_tasks_startPeer {endpoint : Nat} {settings : PeerSettings} {held : Bool}
    (hu : u ∈ (net.startPeer endpoint settings held).2.tasks) :
    u ∈ net.tasks ∨ (u.peer = net.peers.length ∧ (u.job = .write ∨ u.job = .read)) := by
  obtain hu | rfl := mem_tasks_spawn.mp hu
  · obtain hu | rfl := mem_tasks_spawn.mp hu
    · exact .inl hu
    · exact .inr ⟨rfl, .inl rfl⟩
  · exact .inr ⟨rfl, .inr rfl⟩

theorem starts_of_startPeer (h : u.job = .write ∨ u.job = .read) : net.Starts u := by
  obtain hjob | hjob := h
  · exact .other (by simp [hjob, Job.duty]) (.inl (by simp [hjob, Job.isMute]))
  · exact .reader hjob

theorem Starts.change (h : net.Starts u) (hchange : net.Change signals net') : net'.Starts u := by
  cases h with
  | other hduty hmute => exact .other hduty (hmute.imp_right hchange.mem_ownPeers)
  | reader hjob => exact .reader hjob
  | server n hjob => exact .server n hjob
  | router c hjob hpeer => exact .router c hjob (hchange.peerOf hpeer)
  | subscriber frame deadline s name hjob hpeer =>
    exact .subscriber frame deadline s name hjob (hchange.peerOf hpeer)
  | discarder frame s hjob hmute => exact .discarder frame s hjob hmute

/-- A task that is new was started from outside. -/
theorem Change.starts (h : net.Change signals net') (hu : u ∈ net'.tasks) :
    u ∈ net.tasks ∨ net'.Starts u := by
  induction h with
  | aside halike hpeers => exact .inl (halike.tasks ▸ hu)
  | spawn peer job ticket hduty hmute =>
    obtain hu | rfl := mem_tasks_spawn.mp hu
    · exact .inl hu
    · exact .inr (.other hduty hmute)
  | join endpoint settings => exact (mem_tasks_startPeer hu).imp_right fun h => starts_of_startPeer h.2
  | serve endpoint settings server =>
    obtain hu | rfl := mem_tasks_spawn.mp hu
    · exact (mem_tasks_startPeer hu).imp_right fun h => starts_of_startPeer h.2
    · exact .inr (.server server rfl)
  | @client net endpoint settings =>
    obtain hu | rfl := mem_tasks_spawn.mp hu
    · exact (mem_tasks_startPeer hu).imp_right fun h => starts_of_startPeer h.2
    · exact .inr (.router net.clients.length rfl (by simp [Net.peerOf, Net.spawn]))
  | trans hfirst hsecond ihfirst ihsecond =>
    obtain hu | hu := ihsecond hu
    · obtain hu | hu := ihfirst hu
      · exact .inl hu
      · exact .inr (hu.change hsecond)
    · exact .inr hu
  | close hclient =>
    obtain hu | rfl := mem_tasks_spawn.mp hu
    · exact .inl hu
    · exact .inr (.other rfl (.inl rfl))
  | @subscribe net c client hclient frame deadline target connector name =>
    obtain hu | rfl := mem_tasks_spawn.mp hu
    · exact .inl hu
    · refine .inr (.subscriber frame deadline _ name rfl ?_)
      simp [Net.peerOf, Net.start, Net.spawn, changeBoard, hclient]
  | @unsubscribe net name s hs c peer frame hmute =>
    obtain hu | rfl := mem_tasks_spawn.mp hu
    · exact .inl hu
    · exact .inr (.discarder frame s rfl hmute)
  | @record net =>
    rw [takeReports_eq] at hu
    exact .inl hu
  | report | drop | next | use => exact .inl hu

/-- The tasks after a step: the others, and what has become of its own. -/
theorem mem_tasks_place :
    u ∈ (net.place t next).tasks ↔
      (u ∈ net.tasks ∧ u.id ≠ t.id) ∨ (∃ job, next = .job job ∧ u = { t with job }) ∨
        (next = .waiting ∧ u = t) := by
  cases next <;> simp [place, setJob, endTask]

/-! ## Messages end when the connection has been shut down -/

/-- Who lets messages end at a peer has shut its connection down before. -/
structure Stops (net : Net) : Prop where
  stopping : ∀ t ∈ net.tasks, t.job = .stopReading → net.ClosedAt t.peer
  ended : ∀ (k : Nat) (p : Peer), net.peers[k]? = some p → p.inbound.ended = true →
    p.connection.closed = true

/-- Nobody starts by stopping to read. -/
theorem Starts.ne_stopReading (h : net.Starts u) : u.job ≠ .stopReading := by
  cases h with
  | other hduty => intro heq; simp [heq, Job.duty] at hduty
  | reader hjob | server n hjob | router c hjob hpeer
  | subscriber frame deadline s name hjob hpeer | discarder frame s hjob => simp [hjob]

/-- From outside, messages end only where the connection is shut down. -/
theorem Change.ended (h : net.Change signals net')
    (hended : ∀ (k : Nat) (p : Peer), net.peers[k]? = some p → p.inbound.ended = true →
      p.connection.closed = true) :
    ∀ (k : Nat) (p : Peer), net'.peers[k]? = some p → p.inbound.ended = true →
      p.connection.closed = true := by
  intro k p' hp' hends
  obtain ⟨p, hp, hsame, hsaid⟩ | ⟨-, -, hnew⟩ := h.peers.2 k p' hp'
  · rw [hsame]
    exact hended k p hp (hsaid ▸ hends)
  · simp [hnew] at hends

/-- A task after a step of another one: it was there before, or it has been started by the step. -/
theorem mem_tasks_step (hstep : net.step t = some (net', next)) (hu : u ∈ net'.tasks) :
    u ∈ net.tasks ∨ u.job.duty = .other ∨
      ∃ client slot request, u.job = .answer client slot request := by
  obtain ⟨new, htasks, -, -, hnew⟩ := (step_does hstep).tasks
  rw [htasks, mem_append] at hu
  exact hu.imp_right fun hu => (hnew u hu).2

theorem mem_tasks_step_of_mem (hstep : net.step t = some (net', next)) (hu : u ∈ net.tasks) :
    u ∈ net'.tasks := by
  obtain ⟨new, htasks, -⟩ := (step_does hstep).tasks
  rw [htasks]
  exact mem_append_left new hu

/-- A step that lets messages end has found the connection shut down. -/
theorem Stops.step (h : net.Stops) (ht : t ∈ net.tasks) (hstep : net.step t = some (net', next)) :
    (net'.place t next).Stops := by
  obtain ⟨p₀, p', hp₀, hstepped, hp', hothers⟩ := step_peer hstep
  constructor
  · intro u hu hjob
    rw [ClosedAt, peers_place]
    obtain ⟨hu, -⟩ | ⟨job, rfl, rfl⟩ | ⟨rfl, rfl⟩ := mem_tasks_place.mp hu
    · obtain hu | hduty | ⟨client, slot, request, heq⟩ := mem_tasks_step hstep hu
      · exact (h.stopping u hu hjob).step hstep
      · simp [hjob, Job.duty] at hduty
      · simp [hjob] at heq
    · exact ⟨p', hp', hstepped.stops (congrArg Next.job hjob)⟩
    · exact (h.stopping u ht hjob).step hstep
  · intro k p hp hends
    rw [peers_place] at hp
    by_cases hk : t.peer = k
    · subst hk
      obtain rfl : p' = p := some.inj (hp'.symm.trans hp)
      obtain hends | hjob := hstepped.ended hends
      · exact hstepped.closed (h.ended _ p₀ hp₀ hends)
      · obtain ⟨p, hp, hclosed⟩ := h.stopping t ht hjob
        obtain rfl : p₀ = p := some.inj (hp₀.symm.trans hp)
        exact hstepped.closed hclosed
    · exact h.ended k p ((hothers k hk).symm.trans hp) hends

/-- Whatever happens, messages end only where the connection is shut down. -/
theorem Stops.happen (h : net.Stops) (ha : net.happen a = some net') : net'.Stops := by
  obtain ⟨t, net₁, next, -, ht, -, hstep, rfl, -⟩ | ⟨-, hchange⟩ := happen_cases ha
  · exact h.step ht hstep
  · refine ⟨fun u hu hjob => ?_, hchange.ended h.ended⟩
    obtain hu | hu := hchange.starts hu
    · exact (h.stopping u hu hjob).change hchange
    · exact absurd hjob hu.ne_stopReading

/-! ## The messages of a client are routed until they have ended -/

/-- Who routes the messages of a client does so at its peer, and somebody does unless the connection
has been shut down. -/
structure Routed (net : Net) : Prop where
  routers : ∀ t ∈ net.tasks, ∀ c, t.job.duty = .router c → net.peerOf c = some t.peer
  tended : ∀ c k, net.peerOf c = some k →
    (∃ t ∈ net.tasks, t.job.duty = .router c) ∨ net.ClosedAt k

/-- Who starts to route messages of a client is at its peer. -/
theorem Starts.peerOf_router (h : net.Starts u) (hduty : u.job.duty = .router c) :
    net.peerOf c = some u.peer := by
  cases h with
  | other hother => simp [hother] at hduty
  | router c' hjob hpeer =>
    obtain rfl : c' = c := by simpa [hjob, Job.duty] using hduty
    exact hpeer
  | reader hjob | server n hjob | subscriber frame deadline s name hjob hpeer
  | discarder frame s hjob =>
    simp [hjob, Job.duty, Purpose.duty, After.duty] at hduty

/-- A client that is new has a task of its own that routes its messages, at a peer that is new. -/
theorem Change.router_of_new (h : net.Change signals net') (hle : net.clients.length ≤ c)
    (hlt : c < net'.clients.length) :
    ∃ t ∈ net'.tasks, t.job.duty = .router c ∧ net.peers.length ≤ t.peer := by
  induction h with
  | aside halike hpeers =>
    rw [halike.clients] at hlt
    omega
  | @client net endpoint settings =>
    simp only [Net.spawn, length_append, length_singleton] at hlt
    obtain rfl : c = net.clients.length := by omega
    exact ⟨_, mem_tasks_spawn.mpr (.inr rfl), rfl, le_rfl⟩
  | @trans net₁ net₂ net₃ hfirst hsecond ihfirst ihsecond =>
    obtain hlt' | hle' := Nat.lt_or_ge c net₂.clients.length
    · obtain ⟨t, ht, hduty, hpeer⟩ := ihfirst hle hlt'
      obtain ⟨new, htasks, -⟩ := hsecond.grows
      exact ⟨t, htasks ▸ mem_append_left new ht, hduty, hpeer⟩
    · obtain ⟨t, ht, hduty, hpeer⟩ := ihsecond hle' hlt
      exact ⟨t, ht, hduty, hfirst.peers.1.trans hpeer⟩
  | @record net =>
    have hlength : net.takeReports.2.clients.length = net.clients.length :=
      (congrArg length (clients_foldl_record net.sortedReports _)).trans
        (length_changeBoards _ _)
    omega
  | spawn | report | join | serve | close | subscribe | unsubscribe | drop | next | use =>
    simp only [Net.spawn, Net.start, startEnded, startPeer, changeBoard, forget, discard,
      changeLink, length_modify] at hlt
    omega

/-- A new client has a task that routes, and the others keep theirs. -/
theorem Routed.change (h : net.Routed) (hchange : net.Change signals net') : net'.Routed := by
  constructor
  · intro u hu c hduty
    obtain hu | hu := hchange.starts hu
    · exact hchange.peerOf (h.routers u hu c hduty)
    · exact hu.peerOf_router hduty
  · intro c k hc
    obtain hlt | hle := Nat.lt_or_ge c net.clients.length
    · have hold : net.peerOf c = some net.clients[c].peer := by simp [peerOf, hlt]
      obtain rfl := some.inj ((hchange.peerOf hold).symm.trans hc)
      obtain ⟨t, ht, hduty⟩ | hclosed := h.tended c _ hold
      · obtain ⟨new, htasks, -⟩ := hchange.grows
        exact .inl ⟨t, htasks ▸ mem_append_left new ht, hduty⟩
      · exact .inr (hclosed.change hchange)
    · obtain ⟨t, ht, hduty, -⟩ := hchange.router_of_new hle (lt_of_peerOf hc)
      exact .inl ⟨t, ht, hduty⟩

/-- Nobody who makes a call routes messages. -/
theorem duty_ne_router (purpose : Purpose) (c : Nat) : purpose.duty ≠ .router c := by
  cases purpose <;> simp [Purpose.duty]

/-- Of those who route the messages of a client, only who asks for the next one hands a message on
or ends. -/
theorem eq_route_of_router (hduty : t.job.duty = .router c)
    (hstep : net.step t = some (net', next))
    (hnext : (∃ report, next = .ended report) ∨ ∃ frame, next = .job (.dispatch c frame)) :
    t.job = .route c := by
  obtain ⟨p, -, hstep⟩ := bind_eq_some_iff.mp hstep
  obtain ⟨n, peer, job, ticket⟩ := t
  cases job with
  | route c' => exact congrArg Job.route (Duty.router.inj hduty)
  | dispatch c' frame =>
    obtain ⟨client, -, hstep⟩ := bind_eq_some_iff.mp hstep
    dsimp only at hstep
    split at hstep <;> cases hstep <;> simp at hnext
  | send frame after =>
    cases after <;> simp [Job.duty, After.duty, duty_ne_router] at hduty
    simp only [stepSend, resume, goOn, some.injEq] at hstep
    split at hstep <;> cases hstep <;> simp at hnext
  | push message after =>
    cases after <;> simp [Job.duty, After.duty, duty_ne_router] at hduty
    obtain ⟨⟨entry, gate⟩, -, hstep⟩ := bind_eq_some_iff.mp hstep
    cases entry <;> cases hstep <;> simp at hnext
  | _ => simp [Job.duty, duty_ne_router] at hduty

/-- Who routes the messages of a client ends when they have ended. -/
theorem ended_of_router {p : Peer} (hduty : t.job.duty = .router c)
    (hp : net.peers[t.peer]? = some p) (hstep : net.step t = some (net', .ended report)) :
    p.inbound.ended = true := by
  have hjob := eq_route_of_router hduty hstep (.inl ⟨report, rfl⟩)
  obtain ⟨p', hp', hstep⟩ := bind_eq_some_iff.mp hstep
  obtain rfl : p = p' := some.inj (hp.symm.trans hp')
  simp only [hjob, stepRoute] at hstep
  split at hstep
  · simp [goOn] at hstep
  · split at hstep
    · assumption
    · contradiction

/-- The task that routes goes on unless the connection is shut down. -/
theorem Routed.step (h : net.Routed) (hnumbered : net.Numbered) (hstops : net.Stops)
    (ht : t ∈ net.tasks) (hstep : net.step t = some (net', next)) :
    (net'.place t next).Routed := by
  have hdoes := step_does hstep
  have hpeerOf (c : Nat) : (net'.place t next).peerOf c = net.peerOf c := by
    rw [peerOf_congr (clients_place net' t next), peerOf_step hstep]
  constructor
  · intro u hu c hduty
    rw [hpeerOf]
    obtain ⟨hu, -⟩ | ⟨job, rfl, rfl⟩ | ⟨rfl, rfl⟩ := mem_tasks_place.mp hu
    · obtain hu | hother | ⟨client, slot, request, heq⟩ := mem_tasks_step hstep hu
      · exact h.routers u hu c hduty
      · simp [hother] at hduty
      · simp [heq, Job.duty] at hduty
    · obtain heq | ⟨heq, -⟩ := hdoes.stays job rfl
      · exact h.routers t ht c (heq ▸ hduty)
      · simp [heq] at hduty
    · exact h.routers u ht c hduty
  · intro c k hc
    rw [hpeerOf] at hc
    obtain ⟨u, hu, hduty⟩ | hclosed := h.tended c k hc
    · by_cases hid : u.id = t.id
      · obtain rfl := hnumbered.eq_of_id ht hu hid
        cases next with
        | job job =>
          refine .inl ⟨_, mem_tasks_place.mpr (.inr (.inl ⟨job, rfl, rfl⟩)), ?_⟩
          obtain heq | ⟨-, client, slot, request, heq⟩ := hdoes.stays job rfl
          · exact heq.trans hduty
          · simp [heq] at hduty
        | waiting => exact .inl ⟨_, mem_tasks_place.mpr (.inr (.inr ⟨rfl, rfl⟩)), hduty⟩
        | ended report =>
          -- The messages have ended, so the connection has been shut down.
          obtain ⟨p, hp, -⟩ := bind_eq_some_iff.mp hstep
          have hended := ended_of_router hduty hp hstep
          obtain rfl : u.peer = k :=
            some.inj ((h.routers u hu c hduty).symm.trans hc)
          have hclosed : net.ClosedAt u.peer := ⟨p, hp, hstops.ended _ p hp hended⟩
          rw [ClosedAt, peers_place]
          exact .inr (hclosed.step hstep)
      · have hu' := mem_tasks_step_of_mem hstep hu
        exact .inl ⟨u, mem_tasks_place.mpr (.inl ⟨hu', hid⟩), hduty⟩
    · rw [ClosedAt, peers_place]
      exact .inr (hclosed.step hstep)

/-- Whatever happens, open clients keep the tasks that route for them. -/
theorem Routed.happen (h : net.Routed) (hnumbered : net.Numbered) (hstops : net.Stops)
    (ha : net.happen a = some net') : net'.Routed := by
  obtain ⟨t, net₁, next, -, ht, -, hstep, rfl, -⟩ | ⟨-, hchange⟩ := happen_cases ha
  · exact h.step hnumbered hstops ht hstep
  · exact h.change hchange

/-! ## Nothing is asked for on a connection that is shut down -/

/-- When nobody routes the messages of a client any more, signals are routed only to handlers whose
subscriptions tasks are about to ask for. -/
def Late (history : Nat → List SignalAction) (net : Net) : Prop :=
  ∀ c, (∀ t ∈ net.tasks, t.job.duty ≠ .router c) → ∀ h, RoutedAfter (history c) h →
    ∃ t ∈ net.tasks, ∃ s, t.job.asks? = some s ∧ s.place = (c, h) ∧ net.peerOf c = some t.peer

/-- Taking the reports up gives subscriptions up, and does nothing else to them. -/
theorem eq_discard_of_mem_recordSignals {reports : List (Nat × Report)}
    (h : s ∈ recordSignals net reports) :
    ∃ old : Subscription, s = (old.client, .discard old.handler) := by
  induction reports generalizing net with
  | nil => contradiction
  | cons r reports ih =>
    rw [recordSignals, mem_append] at h
    obtain h | h := h
    · unfold reportSignals at h
      split at h
      · obtain ⟨old, -, rfl⟩ := List.mem_map.mp h
        exact ⟨old, rfl⟩
      · contradiction
    · exact ih h

/-- A subscription is opened only together with a task that asks for it. -/
theorem Change.asks (h : net.Change signals net') :
    (∀ s ∈ signals, s.2.isSubscribe = false) ∨
      ∃ c client, net.clients[c]? = some client ∧ signals = [(c, .subscribe)] ∧
        ∃ t ∈ net'.tasks, ∃ s, t.job.asks? = some s ∧ s.place = (c, client.board.subscribe.1) ∧
          net.peerOf c = some t.peer := by
  cases h with
  | subscribe hclient =>
    refine .inr ⟨_, _, hclient, rfl, _, mem_tasks_spawn.mpr (.inr rfl), _, rfl, rfl, ?_⟩
    simp [Net.peerOf, hclient]
  | record =>
    refine .inl fun s hs => ?_
    obtain ⟨old, rfl⟩ := eq_discard_of_mem_recordSignals hs
    rfl
  | _ => exact .inl (by simp [SignalAction.isSubscribe])

variable {history : Nat → List SignalAction}

/-- From outside, a subscription that comes late is about to be asked for. -/
theorem Late.change (h : net.Late history) (hrecorded : net.Recorded history)
    (hchange : net.Change (net.signals a) net')
    (hfew : ∀ c, subscribed (history c ++ net.actionsOf c a) < 2 ^ 64) :
    net'.Late fun c => history c ++ net.actionsOf c a := by
  intro c hrouters h' hrouted
  obtain ⟨new, htasks, -⟩ := hchange.grows
  have hmem {t : Task} (ht : t ∈ net.tasks) : t ∈ net'.tasks := htasks ▸ mem_append_left new ht
  have hbefore (hrouted : RoutedAfter (history c) h') : ∃ t ∈ net'.tasks, ∃ s, t.job.asks? = some s ∧
      s.place = (c, h') ∧ net'.peerOf c = some t.peer := by
    obtain ⟨t, ht, s, hs, hplace, hpeer⟩ := h c (fun t ht => hrouters t (hmem ht)) h' hrouted
    exact ⟨t, hmem ht, s, hs, hplace, hchange.peerOf hpeer⟩
  obtain hnone | ⟨c', client, hclient, hsignals, t, ht, s, hs, hplace, hpeer⟩ := hchange.asks
  · rw [routedAfter_append_iff fun action haction => hnone _ (mem_of_mem_actionsOf haction)]
      at hrouted
    exact hbefore hrouted.1
  · have hfew' := hfew c
    by_cases hc : c' = c
    · subst hc
      have hactions : net.actionsOf c' a = [.subscribe] := by
        have hlt := (List.getElem?_eq_some_iff.mp hclient).1
        simp [actionsOf, actionsAt, hsignals, hlt]
      rw [hactions, subscribed_concat, SignalAction.isSubscribe, if_pos rfl] at hfew'
      simp only [hactions, routedAfter_concat] at hrouted
      obtain hopens | ⟨hrouted, -⟩ := hrouted
      · -- The handler is the one of the task that asks for the new subscription.
        have hnew := (Switchboard.subscribe_after_eq_iff hfew').mpr hopens.2
        rw [← hrecorded.board c' client hclient] at hnew
        exact ⟨t, ht, s, hs, hnew ▸ hplace, hchange.peerOf hpeer⟩
      · exact hbefore hrouted
    · have hactions : net.actionsOf c a = [] := by simp [actionsOf, actionsAt, hsignals, hc]
      simp only [hactions, append_nil] at hrouted
      exact hbefore hrouted

/-- Who asks for a subscription is its subscriber, and dispatches nothing. -/
theorem duty_of_asks? {job : Job} {s : Subscription} (h : job.asks? = some s) :
    job.duty = .subscriber s ∧ ∀ client frame, job ≠ .dispatch client frame := by
  unfold Job.asks? at h
  split at h <;> simp_all [Job.duty, After.duty, Purpose.duty]

/-- On a connection that is shut down a subscription is not asked for: its task goes on to where it
notices, or gives up. -/
theorem step_asks {s : Subscription} (hs : t.job.asks? = some s) (hclosed : net.ClosedAt t.peer)
    (hstep : net.step t = some (net', next)) :
    (∃ job, next = .job job ∧ job.asks? = some s) ∨ ∃ fault, next = .ended (.fault fault) := by
  obtain ⟨p, hp, hclosed⟩ := hclosed
  obtain ⟨p', hp', hstep⟩ := bind_eq_some_iff.mp hstep
  obtain rfl : p = p' := some.inj (hp.symm.trans hp')
  obtain ⟨n, peer, job, ticket⟩ := t
  simp only at hs hstep
  unfold Job.asks? at hs
  split at hs <;> cases hs
  · simp only [stepCall] at hstep
    split at hstep
    · next fault _ => exact .inr ⟨fault, (congrArg Prod.snd (some.inj hstep)).symm⟩
    · exact .inl ⟨_, (congrArg Prod.snd (some.inj hstep)).symm, rfl⟩
  · simp only [stepSend, hclosed, if_true] at hstep
    exact .inr ⟨_, (congrArg Prod.snd (some.inj hstep)).symm⟩

/-- Tasks route messages, end the routing to handlers and give up subscriptions, and do nothing
else with them. -/
theorem isOutside_of_mem_stepSignals (h : s ∈ stepSignals t next) : s.2.isOutside = false := by
  by_cases hdispatch : ∃ client frame, t.job = .dispatch client frame
  · obtain ⟨client, frame, hjob⟩ := hdispatch
    simp only [stepSignals, hjob, List.mem_singleton] at h
    rw [h]
    rfl
  · rw [stepSignals_eq fun client frame heq => hdispatch ⟨client, frame, heq⟩] at h
    cases next with
    | ended report => exact (Duty.of_mem_signals h).1
    | job job | waiting => contradiction

/-- Who routes the messages of a client ends all routing at its end. -/
theorem stepSignals_router {p : Peer} (hduty : t.job.duty = .router c)
    (hp : net.peers[t.peer]? = some p) (hstep : net.step t = some (net', .ended report)) :
    stepSignals t (.ended report) = [(c, .unrouteAll)] := by
  rw [stepSignals_eq, hduty]
  · rfl
  · intro client frame hjob
    simp only [step, hp, hjob, bind_eq_bind, bind_some, stepDispatch,
      bind_eq_some_iff] at hstep
    obtain ⟨client, -, hstep⟩ := hstep
    split at hstep <;> simp [goOn] at hstep

theorem mem_actionsOf {action : SignalAction} (hc : c < net.clients.length)
    (h : (c, action) ∈ net.signals a) : action ∈ net.actionsOf c a := by
  rw [actionsOf, if_pos hc, actionsAt, List.mem_filterMap]
  exact ⟨_, h, if_pos rfl⟩

/-- A task that routes ends all routing when it ends. -/
theorem Late.step (h : net.Late history) (hnumbered : net.Numbered) (hrouted : net.Routed)
    (ht : t ∈ net.tasks) (hstep : net.step t = some (net', next))
    (hsignals : net.signals a = stepSignals t next) :
    (net'.place t next).Late fun c => history c ++ net.actionsOf c a := by
  intro c hrouters h' hroutes
  have hdoes := step_does hstep
  have hactions : ∀ action ∈ net.actionsOf c a, action.isSubscribe = false := by
    intro action haction
    have houtside := isOutside_of_mem_stepSignals (hsignals ▸ mem_of_mem_actionsOf haction)
    cases action <;> first | rfl | contradiction
  rw [routedAfter_append_iff hactions] at hroutes
  obtain ⟨hroutes, hlater⟩ := hroutes
  have hpeerOf : (net'.place t next).peerOf c = net.peerOf c := by
    rw [peerOf_congr (clients_place net' t next), peerOf_step hstep]
  -- Nobody routed the messages of the client before: who did so would have ended all routing.
  have hbefore : ∀ u ∈ net.tasks, u.job.duty ≠ .router c := by
    intro u hu hduty
    by_cases hid : u.id = t.id
    · obtain rfl := hnumbered.eq_of_id ht hu hid
      cases next with
      | job job =>
        refine hrouters _ (mem_tasks_place.mpr (.inr (.inl ⟨job, rfl, rfl⟩))) ?_
        obtain heq | ⟨-, client, slot, request, heq⟩ := hdoes.stays job rfl
        · exact heq.trans hduty
        · simp [heq] at hduty
      | waiting => exact hrouters _ (mem_tasks_place.mpr (.inr (.inr ⟨rfl, rfl⟩))) hduty
      | ended report =>
        obtain ⟨p, hp, -⟩ := bind_eq_some_iff.mp hstep
        rw [stepSignals_router hduty hp hstep] at hsignals
        have hends := hlater .unrouteAll
          (mem_actionsOf (lt_of_peerOf (hrouted.routers u hu c hduty)) (by simp [hsignals]))
        contradiction
    · exact hrouters u
        (mem_tasks_place.mpr (.inl ⟨mem_tasks_step_of_mem hstep hu, hid⟩)) hduty
  obtain ⟨u, hu, s, hs, hplace, hpeer⟩ := h c hbefore h' hroutes
  by_cases hid : u.id = t.id
  · obtain rfl := hnumbered.eq_of_id ht hu hid
    have hclosed : net.ClosedAt u.peer :=
      (hrouted.tended c _ hpeer).resolve_left fun ⟨r, hr, hduty⟩ => hbefore r hr hduty
    obtain ⟨job, rfl, hasks⟩ | ⟨fault, rfl⟩ := step_asks hs hclosed hstep
    · exact ⟨_, mem_tasks_place.mpr (.inr (.inl ⟨job, rfl, rfl⟩)), s, hasks, hplace,
        hpeerOf.trans hpeer⟩
    · -- Who gives up asking ends the routing to the handler.
      obtain ⟨hduty, hother⟩ := duty_of_asks? hs
      cases hplace
      rw [stepSignals_eq hother, hduty] at hsignals
      have hends := hlater (.unroute s.handler)
        (mem_actionsOf (lt_of_peerOf hpeer)
          (by simp [hsignals, nextSignals, Duty.signals, Report.subscription?]))
      simp [SignalAction.unroutes] at hends
  · exact ⟨u, mem_tasks_place.mpr (.inl ⟨mem_tasks_step_of_mem hstep hu, hid⟩), s, hs, hplace,
      hpeerOf.trans hpeer⟩

/-- Whatever happens, what is routed late is about to be asked for. -/
theorem Late.happen (h : net.Late history) (hnumbered : net.Numbered) (hrouted : net.Routed)
    (hrecorded : net.Recorded history) (ha : net.happen a = some net')
    (hfew : ∀ c, subscribed (history c ++ net.actionsOf c a) < 2 ^ 64) :
    net'.Late fun c => history c ++ net.actionsOf c a := by
  obtain ⟨t, net₁, next, -, ht, -, hstep, rfl, hsignals⟩ | ⟨-, hchange⟩ := happen_cases ha
  · exact h.step hnumbered hrouted ht hstep hsignals
  · exact h.change hrecorded hchange hfew

end Net

end Remoting
