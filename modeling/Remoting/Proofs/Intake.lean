import Remoting.Proofs.SentMessages

/-!
# Remoting.Proofs.Intake

What becomes of the messages that a peer reads, intact or damaged. Each is for something: to be
handed on (`forwarded?`), to be refused (`refused?`), to complete a call (`completion?`), or for
nothing. The task that reads does with one after the other what it is for, and nothing else
(`Job.Handles`). So what has come in at a peer, and what went out as a refusal, can be told from the
messages that were read (`Net.Sorting`), and a damaged message concerns nobody but its sender
(`Net.Isolates`).
-/

namespace Remoting

variable {next : Next} {came : List Frame} {sent : List Outgoing}

open List Option

/-! ## What a message is for -/

/-- The message that is handed on: one that is intact and no response. -/
def forwarded? : Except MalformedFrame Frame → Option Frame
  | .ok frame => if frame.header.kind.isResponse then none else some frame
  | .error _ => none

/-- The message that is refused: one that is damaged and whose sender waits for a response. -/
def refused? : Except MalformedFrame Frame → Option MalformedFrame
  | .ok _ => none
  | .error damaged => if damaged.header.kind.expectsResponse then some damaged else none

/-- The call that a message completes, and what it gets. -/
def completion? : Except MalformedFrame Frame → Option (CallId × Response)
  | .ok frame =>
    if frame.header.kind.isResponse then some (frame.header.callId, .ok frame) else none
  | .error damaged =>
    if damaged.header.kind.isResponse then
      some (damaged.header.callId, .error ⟨.framing, damaged.error.message, none⟩)
    else none

/-- A call after a message has come in. Only a call that is pending can be completed. -/
def RegisteredCall.after (message : Except MalformedFrame Frame) (call : RegisteredCall) :
    RegisteredCall :=
  match completion? message with
  | some (id, response) =>
    if call.id = id ∧ call.state.isPending = true then { call with state := .completed response }
    else call
  | none => call

/-- A message goes out that refuses a damaged one. -/
def Refuses (damaged : MalformedFrame) : Outgoing → Prop :=
  Outgoing.Responds damaged.header .error [.string "framing", .string damaged.error.message]

/-- A response reaches the call that it is for, if that is pending, and no other. -/
theorem PendingCalls.find?_of_complete (q : PendingCalls) (id : CallId) (response : Response)
    (id' : CallId) :
    (q.complete id response).2.find? id' = (q.find? id').map fun call =>
      if call.id = id ∧ call.state.isPending = true then { call with state := .completed response }
      else call := by
  have hstate {call : RegisteredCall} (hcall : q.find? id' = some call) (heq : call.id = id) :
      call.state.isPending = q.contains id := by
    obtain rfl : id' = id := (id_of_find? hcall).symm.trans heq
    simp [contains, hcall]
  cases hcontains : q.contains id with
  | false =>
    rw [complete_of_not_contains hcontains]
    cases hcall : q.find? id' with
    | none => rfl
    | some call =>
      by_cases heq : call.id = id
      · simp [heq, hstate hcall heq, hcontains]
      · simp [heq]
  | true =>
    have hcomplete : (q.complete id response).2 =
        q.update id fun call => { call with state := .completed response } := by
      unfold contains at hcontains
      unfold complete
      split at hcontains <;> simp_all
    rw [hcomplete, update, find?_map q (fun call => by split <;> rfl)]
    cases hcall : q.find? id' with
    | none => rfl
    | some call =>
      by_cases heq : call.id = id
      · simp [heq, hstate hcall heq, hcontains]
      · simp [heq]

namespace Connection

/-- Sorting a message completes the call that it is for. -/
theorem accept_snd (c : Connection) (message : Except MalformedFrame Frame) :
    (c.accept message).2.closed = c.closed ∧
      ∀ id, (c.accept message).2.pending.find? id =
        (c.pending.find? id).map (·.after message) := by
  cases message with
  | ok frame =>
    cases hresponse : frame.header.kind.isResponse with
    | false => simp [accept, hresponse, RegisteredCall.after, completion?]
    | true =>
      simpa [accept, hresponse, RegisteredCall.after, completion?, complete] using
        c.pending.find?_of_complete _ _
  | error damaged =>
    cases hresponse : damaged.header.kind.isResponse with
    | false =>
      cases hexpects : damaged.header.kind.expectsResponse <;>
        simp [accept, hresponse, hexpects, RegisteredCall.after, completion?]
    | true =>
      simpa [accept, hresponse, RegisteredCall.after, completion?, complete,
        FramingError.toFault] using c.pending.find?_of_complete _ _

/-- A message is handed on, refused, or neither. -/
theorem accept_fst (c : Connection) (message : Except MalformedFrame Frame) :
    match (c.accept message).1 with
    | .done => forwarded? message = none ∧ refused? message = none
    | .deliver frame => forwarded? message = some frame ∧ refused? message = none
    | .reply response => forwarded? message = none ∧
        ∃ damaged, refused? message = some damaged ∧ Refuses damaged (.frame response) := by
  cases message with
  | ok frame =>
    cases hresponse : frame.header.kind.isResponse <;>
      simp [accept, hresponse, forwarded?, refused?]
  | error damaged =>
    cases hresponse : damaged.header.kind.isResponse with
    | true =>
      have hexpects := MessageKind.expectsResponse_of_isResponse hresponse
      simp [accept, hresponse, hexpects, forwarded?, refused?]
    | false =>
      cases hexpects : damaged.header.kind.expectsResponse with
      | false => simp [accept, hresponse, hexpects, forwarded?, refused?]
      | true =>
        have hresponds : Refuses damaged
            (.frame (c.stamp (.errorFor damaged.header damaged.error.toFault))) :=
          (Outgoing.responds_errorFor _ _).stamp c
        simpa [accept, hresponse, hexpects, forwarded?, refused?] using hresponds

end Connection

/-! ## Steps of the task that reads -/

theorem After.eq_read_of_duty {after : After} (h : after.duty = .reader) : after = .read := by
  cases after with
  | read => rfl
  | await call deadline purpose => cases purpose <;> simp [After.duty, Purpose.duty] at h
  | _ => simp [After.duty] at h

/-- The message that a task has read and not sorted. -/
def Job.unsorted? : Job → Option (Except MalformedFrame Frame)
  | .accept message => some message
  | _ => none

/-- The message that a task is to hand on. -/
def Job.undelivered? : Job → Option Frame
  | .deliver frame => some frame
  | _ => none

/-- The message that a task that reads is to send back. -/
def Job.unsent? : Job → Option Outgoing
  | .push message .read => some message
  | _ => none

/-- The message that a task reads with a step. -/
def Job.takes? : Job → Next → Option (Except MalformedFrame Frame)
  | .read, .job (.accept message) => some message
  | _, _ => none

/-- What a step of a task that reads can be: where it leads, what comes in with it and what goes
out. -/
inductive Job.Handles : Job → Next → List Frame → List Outgoing → Prop
  | look : Handles .read (.job .read) [] []
  | take (message : Except MalformedFrame Frame) : Handles .read (.job (.accept message)) [] []
  | stop : Handles .read (.job .stopReading) [] []
  | settle {message : Except MalformedFrame Frame} (hforward : forwarded? message = none)
      (hrefuse : refused? message = none) : Handles (.accept message) (.job .read) [] []
  | forward {message : Except MalformedFrame Frame} {frame : Frame}
      (hforward : forwarded? message = some frame) (hrefuse : refused? message = none) :
      Handles (.accept message) (.job (.deliver frame)) [] []
  | refuse {message : Except MalformedFrame Frame} {damaged : MalformedFrame} {response : Outgoing}
      (hforward : forwarded? message = none) (hrefuse : refused? message = some damaged)
      (hresponse : Refuses damaged response) :
      Handles (.accept message) (.job (.push response .read)) [] []
  | holdIn (frame : Frame) : Handles (.deliver frame) .waiting [] []
  | holdOut (response : Outgoing) : Handles (.push response .read) .waiting [] []
  | deliver (frame : Frame) : Handles (.deliver frame) (.job .read) [frame] []
  | send (response : Outgoing) : Handles (.push response .read) (.job .read) [] [response]
  | finish : Handles .stopReading (.job .leaveReading) [] []
  | leave (report : Report) : Handles .leaveReading (.ended report) [] []

namespace Net

variable {net net' : Net} {a : Happening} {happenings : List Happening} {host : Host} {t : Task}
  {next : Next} {p : Peer} {k : Nat} {frame : Frame} {message : Except MalformedFrame Frame}
  {job : Job}

/-- Somebody receives what has come in at a peer, the writer goes on, and a handle of the peer is
still held. Refusals are sent through such a handle; when the last one is gone, nothing is sent back
any more, even while the writer still has something to write. -/
def Attended (k : Nat) (net : Net) : Prop :=
  ∀ p ∈ net.peers[k]?,
    p.inbound.hasReceiver = true ∧ p.outbound.hasReceiver = true ∧ net.hasSender k = true

instance (k : Nat) : DecidablePred (Attended k) :=
  fun net => inferInstanceAs (Decidable (∀ p ∈ net.peers[k]?, _ ∧ _ ∧ _))

theorem arrivals_step_of_ne (htask : net.task? t.id = some t)
    (hstep : net.step t = some (net', next)) (hjob : ∀ frame, t.job ≠ .deliver frame) (k : Nat) :
    arrivals k net (.go t.id) = [] := by
  have ha := happen_go htask hstep
  obtain hsame | ⟨-, frame, heq, -⟩ | ⟨-, frame, -, htaken⟩ := inboundAt_step hstep k
  · exact arrivals_of_suffix ha (by rw [hsame])
  · exact absurd heq (hjob frame)
  · exact arrivals_of_suffix ha ⟨[frame], htaken.symm⟩

theorem departures_step_of_ne (htask : net.task? t.id = some t)
    (hstep : net.step t = some (net', next)) (hjob : ∀ message after, t.job ≠ .push message after)
    (k : Nat) : departures k net (.go t.id) = [] := by
  obtain hnone | ⟨-, message, after, heq, -⟩ := departures_step htask hstep k
  · exact hnone
  · exact absurd heq (hjob message after)

/-- Who has a message to hand on does so, or waits for room. -/
theorem arrivals_deliver (hjob : t.job = .deliver frame)
    (hp : net.peers[t.peer]? = some p) (hopen : p.inbound.gate.closed = false)
    (htask : net.task? t.id = some t) (hstep : net.step t = some (net', next)) :
    (next = .waiting ∧ arrivals t.peer net (.go t.id) = []) ∨
      (next = .job .read ∧ arrivals t.peer net (.go t.id) = [frame]) := by
  have ha := happen_go htask hstep
  have hlt := (List.getElem?_eq_some_iff.mp hp).1
  have hdeliver : net.stepDeliver t.id t.peer p frame = some (net', next) := by
    simpa [step, hp, hjob] using hstep
  obtain ⟨⟨entry, gate⟩, henter, hout⟩ := bind_eq_some_iff.mp hdeliver
  have hplace : (net'.place t next).inboundAt t.peer = net'.inboundAt t.peer := by
    rw [inboundAt, inboundAt, peers_place]
  cases entry with
  | refused => exact absurd henter (Gate.enter_ne_refused hopen)
  | queued =>
    cases hout
    refine .inl ⟨rfl, arrivals_of_suffix ha ?_⟩
    rw [hplace, inboundAt_eq hp, inboundAt, peers_changePeer hp, getElem?_set_self hlt]
  | entered =>
    cases hout
    refine .inr ⟨rfl, ?_⟩
    rw [arrivals_eq ha, hplace, inboundAt_eq hp, inboundAt, peers_changePeer hp,
      getElem?_set_self hlt]
    simp [Channel.push]

theorem mem_waiting_of_deliver (hjob : t.job = .deliver frame)
    (hp : net.peers[t.peer]? = some p) (hstep : net.step t = none) :
    t.id ∈ p.inbound.gate.waiting := by
  have hdeliver : net.stepDeliver t.id t.peer p frame = none := by
    simpa [step, hp, hjob] using hstep
  cases henter : p.inbound.gate.enter t.id with
  | none => exact Gate.mem_waiting_of_enter henter
  | some found =>
    obtain ⟨entry, gate⟩ := found
    cases entry <;> simp [stepDeliver, henter] at hdeliver

theorem hasSender_changeConnection (hp : net.peers[k]? = some p) (connection : Connection) :
    (net.changePeer k fun p => { p with connection }).hasSender k = net.hasSender k := by
  have hlt := (List.getElem?_eq_some_iff.mp hp).1
  simp only [hasSender, peers_changePeer hp, getElem?_set_self hlt, hp]
  rfl

/-- What was read is sorted next. -/
theorem step_accept (hjob : t.job = .accept message) (hp : net.peers[t.peer]? = some p) :
    net.step t = some (net.stepAccept t.peer p message) := by
  simp [step, hp, hjob]

theorem handles_accept (hjob : t.job = .accept message)
    (hp : net.peers[t.peer]? = some p) (hsender : net.hasSender t.peer = true)
    (hstep : net.step t = some (net', next)) : t.job.Handles next [] [] := by
  have haccept := p.connection.accept_fst message
  have hsender' := hasSender_changeConnection hp (p.connection.accept message).2
  rw [step_accept hjob hp, stepAccept] at hstep
  rw [hjob]
  cases hintake : (p.connection.accept message).1 with
  | done =>
    simp only [hintake] at haccept hstep
    cases hstep
    exact .settle haccept.1 haccept.2
  | deliver frame =>
    simp only [hintake] at haccept hstep
    cases hstep
    exact .forward haccept.1 haccept.2
  | reply response =>
    simp only [hintake] at haccept hstep
    rw [hsender', hsender, if_pos rfl] at hstep
    cases hstep
    obtain ⟨hforward, damaged, hrefuse, hresponse⟩ := haccept
    exact .refuse hforward hrefuse hresponse

/-- What a step of a task that reads does, as long as the peer is attended. -/
theorem handles_of_reader (hduty : t.job.duty = .reader) (hp : net.peers[t.peer]? = some p)
    (hattended : net.Attended t.peer) (hplain : ∀ frame, t.job ≠ .send frame .read)
    (htask : net.task? t.id = some t) (hstep : net.step t = some (net', next)) :
    t.job.Handles next (arrivals t.peer net (.go t.id)) (departures t.peer net (.go t.id)) := by
  obtain ⟨hreceived, hwritten, hsender⟩ := hattended p hp
  simp only [Channel.hasReceiver, Bool.not_eq_true'] at hreceived hwritten
  have hcame := arrivals_step_of_ne htask hstep
  have hsent := departures_step_of_ne htask hstep
  -- one case for each job of a reader; the duty excludes all others
  cases hjob : t.job with
  | read =>
    rw [hcame (by simp [hjob]), hsent (by simp [hjob])]
    have hread : net.stepRead t.peer p = some (net', next) := by simpa [step, hp, hjob] using hstep
    obtain ⟨⟨arrival, net₁⟩, -, hread⟩ := bind_eq_some_iff.mp hread
    dsimp only at hread
    split at hread <;> cases hread
    · exact .look
    · exact .take _
    · exact .take _
    · exact .stop
    · exact .stop
  | accept message =>
    rw [hcame (by simp [hjob]), hsent (by simp [hjob]), ← hjob]
    exact handles_accept hjob hp hsender hstep
  | deliver frame =>
    rw [hsent (by simp [hjob])]
    obtain ⟨rfl, hnone⟩ | ⟨rfl, hone⟩ := arrivals_deliver hjob hp hreceived htask hstep
    · rw [hnone]
      exact .holdIn frame
    · rw [hone]
      exact .deliver frame
  | push message after =>
    obtain rfl : after = .read := After.eq_read_of_duty (by rwa [hjob] at hduty)
    rw [hcame (by simp [hjob])]
    obtain ⟨rfl, hnone⟩ | ⟨hone, net₁, hresumed⟩ := departures_push hjob hp hwritten htask hstep
    · rw [hnone]
      exact .holdOut message
    · rw [hone]
      cases hresumed
      exact .send message
  | stopReading =>
    rw [hcame (by simp [hjob]), hsent (by simp [hjob])]
    simp only [step, hp, hjob, bind_eq_bind, bind_some, stepStopReading, goOn,
      some.injEq, Prod.mk.injEq] at hstep
    rw [← hstep.2]
    exact .finish
  | leaveReading =>
    rw [hcame (by simp [hjob]), hsent (by simp [hjob])]
    simp only [step, hp, hjob, bind_eq_bind, bind_some, Net.stop,
      some.injEq, Prod.mk.injEq] at hstep
    rw [← hstep.2]
    exact .leave _
  | send frame after =>
    obtain rfl : after = .read := After.eq_read_of_duty (by rwa [hjob] at hduty)
    exact absurd hjob (hplain frame)
  | call frame deadline purpose | await call limit deadline purpose =>
    rw [hjob] at hduty
    cases purpose <;> simp [Job.duty, Purpose.duty] at hduty
  | _ => simp [hjob, Job.duty] at hduty

/-! ## What the task that reads has in hand -/

section InHand

variable {β : Type} {f : Job → Option β}

/-- What a task at a peer has in hand. -/
def atPeer (k : Nat) (f : Job → Option β) (t : Task) : Option β :=
  if t.peer = k then f t.job else none

section Reader

variable (hreader : ∀ job, job.duty ≠ .reader → f job = none)
include hreader

theorem atPeer_eq_none (h : ¬ (t.peer = k ∧ t.job.duty = .reader)) : atPeer k f t = none := by
  by_cases hk : t.peer = k
  · simp [atPeer, hreader t.job fun hduty => h ⟨hk, hduty⟩]
  · simp [atPeer, hk]

theorem atPeer_eq_none_of_new
    (h : t.job.duty = .other ∨ ∃ client slot request, t.job = .answer client slot request) :
    atPeer k f t = none := by
  refine atPeer_eq_none hreader fun hduty => ?_
  obtain hother | ⟨client, slot, request, hjob⟩ := h
  · simp [hother] at hduty
  · simp [hjob, Job.duty] at hduty

/-- The one task that reads at a peer goes on. -/
theorem handed_reader (hnumbered : net.Numbered) (hposted : net.Posted) (ht : t ∈ net.tasks)
    (hduty : t.job.duty = .reader) (hstep : net.step t = some (net', next)) :
    net.handed (atPeer t.peer f) = (f t.job).toList ∧
      (net'.place t next).handed (atPeer t.peer f) = (next.handed? (fun u => f u.job) t).toList := by
  have honly (u : Task) (hu : u ∈ net.tasks) (hid : u.id ≠ t.id) : atPeer t.peer f u = none :=
    atPeer_eq_none hreader fun h =>
      hid (hposted.single u hu t ht h.1 (by rw [h.2, hduty]) (by simp [h.2, Duty.post?]))
  have hnext : next.handed? (atPeer t.peer f) t = next.handed? (fun u => f u.job) t := by
    cases next <;> simp [Next.handed?, atPeer]
  rw [hnumbered.handed_eq ht honly,
    handed_step_of_only hstep (fun _ _ => atPeer_eq_none_of_new hreader) honly, hnext]
  simp [atPeer]

/-- Another task goes on. -/
theorem handed_of_not_reader (hnumbered : net.Numbered) (ht : t ∈ net.tasks)
    (hother : ¬ (t.peer = k ∧ t.job.duty = .reader)) (hstep : net.step t = some (net', next)) :
    (net'.place t next).handed (atPeer k f) = net.handed (atPeer k f) := by
  refine hnumbered.handed_step_of_none hstep (fun _ _ => atPeer_eq_none_of_new hreader) ht
    (atPeer_eq_none hreader hother) ?_
  cases next with
  | job job =>
    refine atPeer_eq_none hreader fun h => hother ⟨h.1, ?_⟩
    obtain heq | ⟨heq, -⟩ := (step_does hstep).stays job rfl
    · exact heq.symm.trans h.2
    · simp [heq] at h
  | waiting => exact atPeer_eq_none hreader hother
  | ended report => rfl

end Reader

theorem Change.handed_reader {signals : List (Nat × SignalAction)} (h : net.Change signals net')
    (hreader : ∀ job, job.duty ≠ .reader → f job = none) (hread : f .read = none)
    (hnumbered : net.Numbered) : net'.handed (atPeer k f) = net.handed (atPeer k f) := by
  refine h.handed hnumbered fun u _ hstarts => ?_
  by_cases hjob : u.job = .read
  · simp [atPeer, hjob, hread]
  · refine atPeer_eq_none hreader fun hduty => ?_
    cases hstarts with
    | other hother => simp [hother] at hduty
    | reader heq => exact hjob heq
    | server n heq | router c heq | subscriber frame deadline s name heq | discarder frame s heq =>
      simp [heq, Job.duty, Purpose.duty, After.duty] at hduty

end InHand

/-! ## Messages that were read -/

/-- The messages that are read at a peer in a run. -/
def received (net : Net) (happenings : List Happening) (k : Nat) :
    List (Except MalformedFrame Frame) :=
  net.trace (noted fun t next => if t.peer = k then t.job.takes? next else none) happenings

/-- The messages that are sorted at a peer in a run. -/
def sorted (net : Net) (happenings : List Happening) (k : Nat) :
    List (Except MalformedFrame Frame) :=
  net.trace (noted fun t _ => atPeer k Job.unsorted? t) happenings

/-- Whether a task is the one that reads at a peer. -/
def readsAt (k : Nat) (t : Task) : Bool := t.peer == k && t.job.duty == .reader

/-- What became of the messages that were read at a peer: they have been sorted, except for one that
is about to be; what was to be handed on has come in, and what was to be refused has been, except
for one message at a time for which there is no room yet. -/
structure Sorting (k : Nat) (received sorted : List (Except MalformedFrame Frame))
    (came : List Frame) (sent : List Outgoing) (net : Net) : Prop where
  received : received = sorted ++ net.handed (atPeer k Job.unsorted?)
  delivered : came ++ net.handed (atPeer k Job.undelivered?) = sorted.filterMap forwarded?
  refused : List.Forall₂ Refuses (sorted.filterMap refused?)
    (sent ++ net.handed (atPeer k Job.unsent?))
  /-- What is sent back goes out at once, whether or not the connection is open. -/
  plain : ∀ t ∈ net.tasks, t.peer = k → ∀ frame, t.job ≠ .send frame .read

theorem unsorted?_eq_none (h : job.duty ≠ .reader) : job.unsorted? = none := by
  cases job <;> simp_all [Job.unsorted?, Job.duty]

theorem takes?_eq_none (h : job.duty ≠ .reader) : job.takes? next = none := by
  cases job <;> simp_all [Job.takes?, Job.duty]

theorem undelivered?_eq_none (h : job.duty ≠ .reader) : job.undelivered? = none := by
  cases job <;> simp_all [Job.undelivered?, Job.duty]

theorem unsent?_eq_none (h : job.duty ≠ .reader) : job.unsent? = none := by
  unfold Job.unsent?
  split
  · simp [Job.duty, After.duty] at h
  · rfl

end Net

/-- A step of a task that reads loses no message, doubles none and puts none out of order. -/
theorem Job.Handles.balanced {t : Task} (h : t.job.Handles next came sent) :
    t.job.takes? next = next.handed? (fun u => u.job.unsorted?) t ∧
      came ++ (next.handed? (fun u => u.job.undelivered?) t).toList =
        t.job.undelivered?.toList ++ t.job.unsorted?.toList.filterMap forwarded? ∧
      ∃ refusals, sent ++ (next.handed? (fun u => u.job.unsent?) t).toList =
          t.job.unsent?.toList ++ refusals ∧
        List.Forall₂ Refuses (t.job.unsorted?.toList.filterMap refused?) refusals := by
  obtain ⟨id, peer, job, ticket⟩ := t
  cases h with
  | refuse hforward hrefuse hresponse =>
    simp [Job.takes?, Next.handed?, Job.unsorted?, Job.undelivered?, Job.unsent?, hforward,
      hrefuse, hresponse]
  | settle hforward hrefuse | forward hforward hrefuse =>
    simp [Job.takes?, Next.handed?, Job.unsorted?, Job.undelivered?, Job.unsent?, hforward,
      hrefuse]
  | _ => simp [Job.takes?, Next.handed?, Job.unsorted?, Job.undelivered?, Job.unsent?]

theorem Job.Handles.ne_send {job : Job}
    (h : job.Handles next came sent) (frame : Frame) : next ≠ .job (.send frame .read) := by
  rintro rfl
  cases h

namespace Net

variable {net net' : Net} {a : Happening} {happenings : List Happening} {host : Host} {t : Task}
  {next : Next} {k : Nat} {received sorted : List (Except MalformedFrame Frame)}
  {came : List Frame} {sent : List Outgoing}

theorem plain_step (h : ∀ t ∈ net.tasks, t.peer = k → ∀ frame, t.job ≠ .send frame .read)
    (ht : t ∈ net.tasks) (hstep : net.step t = some (net', next))
    (hnext : t.peer = k → ∀ frame, next ≠ .job (.send frame .read)) :
    ∀ u ∈ (net'.place t next).tasks, u.peer = k → ∀ frame, u.job ≠ .send frame .read := by
  intro u hu hk frame hjob
  obtain ⟨hu, -⟩ | ⟨job, rfl, rfl⟩ | ⟨rfl, rfl⟩ := mem_tasks_place.mp hu
  · obtain hu | hother | ⟨client, slot, request, heq⟩ := mem_tasks_step hstep hu
    · exact h u hu hk frame hjob
    · simp [hjob, Job.duty, After.duty] at hother
    · simp [hjob] at heq
  · exact hnext hk frame (congrArg Next.job hjob)
  · exact h u ht hk frame hjob

section Sorting

variable (h : net.Sorting k received sorted came sent) (hnumbered : net.Numbered)
include h hnumbered

/-- The task that reads at a peer goes on. -/
theorem Sorting.reader_step (hposted : net.Posted) (ht : t ∈ net.tasks)
    (hduty : t.job.duty = .reader) (hk : t.peer = k) (hstep : net.step t = some (net', next))
    {came' : List Frame} {sent' : List Outgoing} (hhandles : t.job.Handles next came' sent') :
    (net'.place t next).Sorting k (received ++ (t.job.takes? next).toList)
      (sorted ++ t.job.unsorted?.toList) (came ++ came') (sent ++ sent') := by
  subst hk
  obtain ⟨htakes, hcame, refusals, hsent, hrefusals⟩ := hhandles.balanced
  obtain ⟨hunsorted, hunsorted'⟩ := handed_reader (fun _ => unsorted?_eq_none) hnumbered hposted ht
    hduty hstep
  obtain ⟨hundelivered, hundelivered'⟩ := handed_reader (fun _ => undelivered?_eq_none) hnumbered
    hposted ht hduty hstep
  obtain ⟨hunsent, hunsent'⟩ := handed_reader (fun _ => unsent?_eq_none) hnumbered hposted ht hduty
    hstep
  constructor
  case received => rw [h.received, hunsorted, hunsorted', htakes]
  case delivered =>
    rw [hundelivered', append_assoc, hcame, ← append_assoc, ← hundelivered, h.delivered,
      filterMap_append]
  case refused =>
    rw [hunsent', append_assoc, hsent, ← append_assoc, ← hunsent, filterMap_append]
    exact rel_append h.refused hrefusals
  case plain => exact plain_step h.plain ht hstep fun _ frame => hhandles.ne_send frame

/-- Another task goes on. -/
theorem Sorting.other_step (ht : t ∈ net.tasks) (hother : ¬ (t.peer = k ∧ t.job.duty = .reader))
    (hstep : net.step t = some (net', next)) :
    (net'.place t next).Sorting k received sorted came sent := by
  constructor
  case received =>
    rw [handed_of_not_reader (fun _ => unsorted?_eq_none) hnumbered ht hother hstep, ← h.received]
  case delivered =>
    rw [handed_of_not_reader (fun _ => undelivered?_eq_none) hnumbered ht hother hstep, h.delivered]
  case refused =>
    rw [handed_of_not_reader (fun _ => unsent?_eq_none) hnumbered ht hother hstep]
    exact h.refused
  case plain =>
    refine plain_step h.plain ht hstep fun hk frame hnext => ?_
    obtain heq | ⟨heq, -⟩ := (step_does hstep).stays _ hnext
    · exact hother ⟨hk, heq.symm⟩
    · simp [Job.duty, After.duty] at heq

/-- From outside, nothing is sorted. -/
theorem Sorting.change {signals : List (Nat × SignalAction)} (hchange : net.Change signals net') :
    net'.Sorting k received sorted came sent := by
  constructor
  case received =>
    rw [hchange.handed_reader (fun _ => unsorted?_eq_none) rfl hnumbered, ← h.received]
  case delivered =>
    rw [hchange.handed_reader (fun _ => undelivered?_eq_none) rfl hnumbered, h.delivered]
  case refused =>
    rw [hchange.handed_reader (fun _ => unsent?_eq_none) rfl hnumbered]
    exact h.refused
  case plain =>
    intro u hu hpeer frame hjob
    obtain hu | hstarts := hchange.starts hu
    · exact h.plain u hu hpeer frame hjob
    · cases hstarts with
      | other hother => simp [hjob, Job.duty, After.duty] at hother
      | reader heq | server n heq | router c heq | subscriber frame deadline s name heq
      | discarder frame s heq => simp [hjob] at heq

theorem Sorting.happen (hposted : net.Posted) (hattended : net.Attended k)
    (ha : net.happen a = some net') :
    net'.Sorting k
      (received ++ net.noted (fun t next => if t.peer = k then t.job.takes? next else none) a)
      (sorted ++ net.noted (fun t _ => atPeer k Job.unsorted? t) a)
      (came ++ arrivals k net a) (sent ++ departuresBy (readsAt k) k net a) := by
  obtain ⟨t, net₁, next, rfl, ht, htask, hstep, rfl, -⟩ | ⟨hgo, hchange⟩ := happen_cases ha
  · rw [noted_go _ htask hstep, noted_go _ htask hstep]
    by_cases hreads : t.peer = k ∧ t.job.duty = .reader
    · obtain ⟨rfl, hduty⟩ := hreads
      obtain ⟨p, hp, -⟩ := bind_eq_some_iff.mp hstep
      have hhandles := handles_of_reader hduty hp hattended (h.plain t ht rfl) htask hstep
      rw [departuresBy_go htask (by simp [readsAt, hduty])]
      simpa [atPeer] using h.reader_step hnumbered hposted ht hduty rfl hstep hhandles
    · -- What comes in at a peer is only handed on by the task that reads there.
      have hnone : arrivals k net (.go t.id) = [] := by
        obtain hsame | ⟨hk, frame, hjob, -⟩ | ⟨-, frame, -, htaken⟩ := inboundAt_step hstep k
        · exact arrivals_of_suffix ha (by rw [hsame])
        · exact absurd ⟨hk, by rw [hjob, Job.duty]⟩ hreads
        · exact arrivals_of_suffix ha ⟨[frame], htaken.symm⟩
      have htakes : (if t.peer = k then t.job.takes? next else none) = none := by
        split
        · next hk => exact takes?_eq_none fun hduty => hreads ⟨hk, hduty⟩
        · rfl
      rw [hnone, departuresBy_go_of_not htask (by simpa [readsAt] using hreads), htakes,
        atPeer_eq_none (fun _ => unsorted?_eq_none) hreads]
      simpa using h.other_step hnumbered ht hreads hstep
  · rw [noted_of_ne_go _ hgo, noted_of_ne_go _ hgo, departuresBy_of_ne_go _ _ hgo,
      arrivals_of_suffix ha (hchange.inboundAt k).1]
    simpa using h.change hnumbered hchange

end Sorting

/-- What is read at a peer that is attended is sorted, whatever else happens. -/
theorem sorting_happens (hrun : ({ host } : Net).happens happenings = some net)
    (hattended : ({ host } : Net).Throughout (Attended k) happenings) :
    net.Sorting k (({ host } : Net).received happenings k) (({ host } : Net).sorted happenings k)
      (({ host } : Net).arrived happenings k)
      (({ host } : Net).sentBy (readsAt k) happenings k) := by
  refine happens_induction (P := fun happenings net =>
    ({ host } : Net).Throughout (Attended k) happenings →
      net.Sorting k (({ host } : Net).received happenings k) (({ host } : Net).sorted happenings k)
        (({ host } : Net).arrived happenings k)
        (({ host } : Net).sentBy (readsAt k) happenings k))
    (fun _ => ⟨rfl, rfl, .nil, by simp⟩) (fun {happenings a net₁ net₂} hbefore ih ha hall => ?_)
    hrun hattended
  have hkept := kept_happens hbefore
  have hsorting := (ih hall.concat).happen hkept.numbered hkept.posted
    (hall.concat.last hbefore) ha
  simpa only [Net.received, Net.sorted, arrived, sentBy, trace_concat _ hbefore] using hsorting

end Net

end Remoting
