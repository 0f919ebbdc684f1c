import Remoting.Proofs.Intake

/-!
# Remoting.Proofs.Isolation

Damaged messages concern nobody but their senders. Whatever is read at a peer that is attended,
intact or damaged, the connection stays open, every message has the one effect that it is for, and
no other call, message or peer is touched (`Net.Isolates`).
-/

namespace Remoting

/-- What a task that reads does after what it has found on the link. -/
def Arrival.next? : Arrival → Option Next
  | .frame intact => some (.job (.accept (.ok intact)))
  | .failed (.malformed damaged) => some (.job (.accept (.error damaged)))
  | .nothing => none
  | .ended | .failed _ => some (.job .stopReading)

/-- What sorting a message does to a peer: it completes the call that the message is for. -/
structure Peer.Sorted (message : Except MalformedFrame Frame) (p p' : Peer) : Prop where
  closed : p'.connection.closed = p.connection.closed
  inbound : p'.inbound = p.inbound
  outbound : p'.outbound = p.outbound
  calls : ∀ id, p'.connection.pending.find? id =
    (p.connection.pending.find? id).map (·.after message)

namespace Net

variable {net net' : Net} {a : Happening} {happenings : List Happening} {host : Host} {t : Task}
  {next : Next} {p : Peer} {k : Nat}

/-! ## Connections stay open -/

/-- Where the connection of a peer may have been shut down in a run: by tasks that could not send or
receive any more, and by those that were to close it. -/
def shutDowns (net : Net) (happenings : List Happening) (k : Nat) : List Job :=
  net.trace (noted fun t next =>
    if t.peer = k ∧ t.job.shutsDown next = true then some t.job else none) happenings

/-- From outside no connection is closed at once. -/
theorem Change.closedAt {signals : List (Nat × SignalAction)} (h : net.Change signals net')
    (hclosed : net'.ClosedAt k) : net.ClosedAt k := by
  obtain ⟨p', hp', hclosed⟩ := hclosed
  obtain ⟨p, hp, hsame, -⟩ | ⟨-, hnew, -⟩ := h.peers.2 k p' hp'
  · exact ⟨p, hp, hsame ▸ hclosed⟩
  · simp [hnew] at hclosed

/-- A step closes the connection of its own peer only, and if its job does that. -/
theorem closedAt_step (hstep : net.step t = some (net', next))
    (hclosed : (net'.place t next).ClosedAt k) :
    net.ClosedAt k ∨ (t.peer = k ∧ t.job.shutsDown next = true) := by
  obtain ⟨p, p', hp, hstepped, hp', hothers⟩ := step_peer hstep
  obtain ⟨q, hq, hclosed⟩ := hclosed
  rw [peers_place] at hq
  by_cases hk : t.peer = k
  · subst hk
    obtain rfl : p' = q := Option.some.inj (hp'.symm.trans hq)
    obtain hclosed | hshut := hstepped.shut hclosed
    · exact .inl ⟨p, hp, hclosed⟩
    · exact .inr ⟨rfl, hshut⟩
  · exact .inl ⟨q, (hothers k hk).symm.trans hq, hclosed⟩

/-- A connection is open unless something has shut it down. -/
theorem not_closedAt_of_shutDowns (hrun : ({ host } : Net).happens happenings = some net)
    (hnone : ({ host } : Net).shutDowns happenings k = []) : ¬ net.ClosedAt k := by
  refine happens_induction (P := fun happenings net =>
    ({ host } : Net).shutDowns happenings k = [] → ¬ net.ClosedAt k)
    (fun _ => by simp [ClosedAt]) (fun {happenings a net₁ net₂} hbefore ih ha hnone hclosed => ?_)
    hrun hnone
  rw [shutDowns, trace_concat _ hbefore, List.append_eq_nil_iff] at hnone
  obtain ⟨t, net', next, rfl, -, htask, hstep, rfl, -⟩ | ⟨-, hchange⟩ := happen_cases ha
  · obtain hclosed | hshut := closedAt_step hstep hclosed
    · exact ih hnone.1 hclosed
    · have hnoted := hnone.2
      rw [noted_go _ htask hstep, if_pos hshut] at hnoted
      contradiction
  · exact ih hnone.1 (hchange.closedAt hclosed)

/-! ## Isolation -/

/-- What becomes of the messages that are read at a peer in a run from `net₀` to `net`. -/
structure Isolates (net₀ : Net) (happenings : List Happening) (net : Net) (k : Nat) (p : Peer) :
    Prop where
  /-- What is on the link is read, and one damaged message does not end the reading. -/
  reads : ∀ t ∈ net.tasks, t.peer = k → t.job = .read → ∀ arrival net',
    net.onLink p.endpoint Link.attempt = some (some arrival, net') →
      (net.step t).map (·.2) = arrival.next?
  /-- Messages are sorted in the order in which they were read. -/
  received : net₀.received happenings k =
    net₀.sorted happenings k ++ net.handed (atPeer k Job.unsorted?)
  /-- What has come in are the messages that are intact and no responses, each once and in order;
  one of them may have to wait for room. -/
  delivered : net₀.arrived happenings k ++ net.handed (atPeer k Job.undelivered?) =
    (net₀.sorted happenings k).filterMap forwarded?
  /-- Each damaged message whose sender waits for a response is refused, once and in order; one of
  the refusals may have to wait for room. Nothing else is sent back. -/
  refused : List.Forall₂ Refuses ((net₀.sorted happenings k).filterMap refused?)
    (net₀.sentBy (readsAt k) happenings k ++ net.handed (atPeer k Job.unsent?))
  /-- A message is sorted at once. It completes the call that it is for, if that is pending, and
  changes nothing else. -/
  sorts : ∀ t ∈ net.tasks, t.peer = k → ∀ message, t.job = .accept message →
    ∃ net' p', net.happen (.go t.id) = some net' ∧ p.Sorted message p' ∧
      net'.peers = net.peers.set k p' ∧ net'.links = net.links ∧ net'.host = net.host ∧
      net'.clients = net.clients
  /-- Reading goes on, unless there is nothing to read or no room. -/
  goesOn : ∀ t ∈ net.tasks, t.peer = k → t.job.duty = .reader → net.happen (.go t.id) = none →
    t.job = .read ∨ (t.job.undelivered?.isSome = true ∧ t.id ∈ p.inbound.gate.waiting) ∨
      (t.job.unsent?.isSome = true ∧ t.id ∈ p.outbound.gate.waiting)
  /-- The connection is open, unless something else has shut it down. -/
  stays : net₀.shutDowns happenings k = [] → p.connection.closed = false

theorem Numbered.task?_eq (h : net.Numbered) (ht : t ∈ net.tasks) : net.task? t.id = some t := by
  cases hfound : net.task? t.id with
  | none => simpa using List.find?_eq_none.mp hfound t ht
  | some u =>
    obtain ⟨hu, hid⟩ := mem_tasks_of_task? hfound
    rw [h.eq_of_id ht hu hid]

theorem map_step_read (hjob : t.job = .read) (hp : net.peers[t.peer]? = some p) {arrival : Arrival}
    (hlink : net.onLink p.endpoint Link.attempt = some (some arrival, net')) :
    (net.step t).map (·.2) = arrival.next? := by
  simp only [step, hp, hjob, Option.bind_eq_bind, Option.bind_some, stepRead, hlink]
  cases arrival with
  | failed error => cases error <;> rfl
  | _ => rfl

theorem stepAccept_fst (net : Net) (k : Nat) (p : Peer) (message : Except MalformedFrame Frame) :
    (net.stepAccept k p message).1 =
      net.changePeer k fun q => { q with connection := (p.connection.accept message).2 } := by
  unfold stepAccept
  dsimp only
  split <;> rfl

/-- Who reads and cannot go on has nothing to read or no room. -/
theorem reader_waits (hduty : t.job.duty = .reader) (hp : net.peers[t.peer]? = some p)
    (hplain : ∀ frame, t.job ≠ .send frame .read) (hstep : net.step t = none) :
    t.job = .read ∨ (t.job.undelivered?.isSome = true ∧ t.id ∈ p.inbound.gate.waiting) ∨
      (t.job.unsent?.isSome = true ∧ t.id ∈ p.outbound.gate.waiting) := by
  cases hjob : t.job with
  | read => exact .inl rfl
  | deliver frame => exact .inr (.inl ⟨rfl, mem_waiting_of_deliver hjob hp hstep⟩)
  | push message after =>
    obtain rfl : after = .read := After.eq_read_of_duty (by rwa [hjob] at hduty)
    exact .inr (.inr ⟨rfl, mem_waiting_of_push hjob hp hstep⟩)
  | send frame after =>
    obtain rfl : after = .read := After.eq_read_of_duty (by rwa [hjob] at hduty)
    exact absurd hjob (hplain frame)
  | accept message | stopReading | leaveReading => simp [step, hp, hjob] at hstep
  | call frame deadline purpose | await call limit deadline purpose =>
    rw [hjob] at hduty
    cases purpose <;> simp [Job.duty, Purpose.duty] at hduty
  | _ => simp [hjob, Job.duty] at hduty

/-- Whatever is read at a peer that is attended, intact or damaged, has the one effect that it is
for, in the order in which it was read, and leaves the connection open. That the peer is attended
includes that a handle of it is still held (`Attended`). -/
theorem damage_isolated (hrun : ({ host } : Net).happens happenings = some net)
    (hattended : ({ host } : Net).Throughout (Attended k) happenings)
    (hp : net.peers[k]? = some p) : ({ host } : Net).Isolates happenings net k p := by
  have hnumbered := (kept_happens hrun).numbered
  have hsorting := sorting_happens hrun hattended
  constructor
  case reads =>
    intro t ht hk hjob arrival net' hlink
    exact map_step_read hjob (hk ▸ hp) hlink
  case received => exact hsorting.received
  case delivered => exact hsorting.delivered
  case refused => exact hsorting.refused
  case sorts =>
    intro t ht hk message hjob
    subst hk
    obtain ⟨hclosed, hcalls⟩ := p.connection.accept_snd message
    have hplace (net : Net) (next : Next) :
        (net.place t next).links = net.links ∧ (net.place t next).host = net.host := by
      cases next <;> exact ⟨rfl, rfl⟩
    have hstep := step_accept hjob hp
    have hchanged := net.stepAccept_fst t.peer p message
    generalize net.stepAccept t.peer p message = out at hstep hchanged
    obtain ⟨net', next⟩ := out
    replace hchanged : net' = _ := hchanged
    refine ⟨_, { p with connection := (p.connection.accept message).2 },
      happen_go (hnumbered.task?_eq ht) hstep, ⟨hclosed, rfl, rfl, hcalls⟩, ?_⟩
    rw [peers_place, clients_place, (hplace _ _).1, (hplace _ _).2, hchanged]
    exact ⟨peers_changePeer hp _, rfl, rfl, rfl⟩
  case goesOn =>
    intro t ht hk hduty hwaits
    have hstep := step_eq_none_of_happen (hnumbered.task?_eq ht) hwaits
    exact reader_waits hduty (hk ▸ hp) (hsorting.plain t ht hk) hstep
  case stays =>
    intro hnone
    have hopen := not_closedAt_of_shutDowns hrun hnone
    simpa [ClosedAt, hp] using hopen

/-- A message that has lost its last byte on the way. -/
def clipped (frame : Frame) : Bytes := frame.encode.dropLast

/-- While two calls are pending, a peer reads damaged responses, one of which nobody waits for, a
damaged request, a damaged signal, an intact message and an intact response. -/
def mangling : List Happening :=
  [.links [{ fromLeft := .mailbox {}, fromRight := .mailbox { messages :=
      [clipped ⟨{ kind := .callResult, callId := ⟨1⟩ }, [.int 1]⟩,
        clipped ⟨{ kind := .callResult, callId := ⟨7⟩ }, [.int 2]⟩,
        clipped ⟨{ kind := .twoWayCall, target := ⟨3⟩, digest := ⟨0, 5⟩, callId := ⟨8⟩ }, [.int 3]⟩,
        clipped ⟨{ kind := .signalEmit, target := ⟨4⟩ }, [.int 4]⟩,
        Frame.encode ⟨{ kind := .signalEmit, target := ⟨4⟩ }, [.int 5]⟩,
        Frame.encode ⟨{ kind := .callResult, callId := ⟨2⟩ }, [.int 6]⟩] } }],
    .addPeer 0 {}, .callPeer 0 .hello 1000, .callPeer 0 .hello 1000,
    .go 2, .go 2, .go 2, .go 3, .go 3, .go 3,
    .go 1, .go 1, .go 1, .go 1, .go 1, .go 1, .go 1, .go 1, .go 1, .go 1, .go 1, .go 1, .go 1, .go 1]

/-- Damaged frames of all sorts among good ones. -/
theorem damage_isolated_mangling :
    ∃ net p, ({} : Net).happens mangling = some net ∧ net.peers[0]? = some p ∧
      ({} : Net).Throughout (Attended 0) mangling ∧
      (({} : Net).sorted mangling 0).length = 6 ∧
      ({} : Net).arrived mangling 0 = [⟨{ kind := .signalEmit, target := ⟨4⟩ }, [.int 5]⟩] ∧
      (({} : Net).sentBy (readsAt 0) mangling 0).length = 1 ∧
      ({} : Net).shutDowns mangling 0 = [] ∧
      ({} : Net).Isolates mangling net 0 p := by
  have hlength : (({} : Net).happens mangling).map (·.peers.length) = some 1 := by decide +kernel
  obtain ⟨net, hrun, hpeers⟩ := Option.map_eq_some_iff.mp hlength
  have hattended : ({} : Net).Throughout (Attended 0) mangling := by decide +kernel
  have hp : net.peers[0]? = some net.peers[0] := List.getElem?_eq_getElem (by omega)
  exact ⟨net, _, hrun, hp, hattended, by decide +kernel, by decide +kernel, by decide +kernel,
    by decide +kernel, damage_isolated hrun hattended hp⟩

end Net

end Remoting
