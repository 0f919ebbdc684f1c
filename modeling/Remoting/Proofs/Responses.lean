import Remoting.Proofs.HeldEvents
import Remoting.Proofs.Intake

/-!
# Remoting.Proofs.Responses

Who sends responses at the peer of a client. The task that routes messages turns away those that
reach no subscription (`Job.Routes`); for each of the others whose sender waits for a response there
is a task that waits for the answer and sends it (`Answering`). Tasks that send anything else are
mute (`Net.isMute_step`).
-/

namespace Remoting

open List Option

/-! ## What responses say -/

/-- A message goes out that turns another away. -/
def TurnsAway (f : Frame) : Outgoing → Prop :=
  Outgoing.Responds f.header .error [.string "dispatch", .string "no such handler"]

/-- A message goes out that says what a signal was answered. -/
def Replies (request : Header) : Reply → Outgoing → Prop
  | .ok fields => Outgoing.Responds request .callResult fields
  | .error fault =>
    Outgoing.Responds request .error [.string fault.wireDomain, .string fault.message]

theorem replies_responseFor (request : Header) (reply : Reply) :
    Replies request reply (.frame (Switchboard.responseFor request reply)) := by
  cases reply with
  | ok fields => exact ⟨rfl, rfl, rfl, rfl, rfl⟩
  | error fault => exact Outgoing.responds_errorFor request fault

theorem Replies.stamp {request : Header} {reply : Reply} {response : Frame}
    (h : Replies request reply (.frame response)) (connection : Connection) :
    Replies request reply (.frame (connection.stamp response)) := by
  cases reply <;> exact h

/-- Whether a message that goes out is a response. -/
def Outgoing.isResponse : Outgoing → Bool
  | .frame response => response.header.kind.isResponse
  | .close => false

/-- The message that a task is to send. -/
def Job.departing? : Job → Option Outgoing
  | .send frame _ => some (.frame frame)
  | .push message _ => some message
  | _ => none

/-! ## Requests in a history -/

section Requests

variable {actions more : List SignalAction}

/-- Without incoming messages there are no more requests. -/
theorem requests_append (hmore : ∀ a ∈ more, a.frame? = none) :
    awaited (actions ++ more) = awaited actions ∧
      turnedAway (actions ++ more) = turnedAway actions := by
  induction more using reverseRecOn with
  | nil => simp
  | append_singleton more a ih =>
    rw [forall_mem_append, forall_mem_singleton] at hmore
    obtain ⟨hawaited, hturned⟩ := ih hmore.1
    rw [← append_assoc, awaited_concat, turnedAway_concat, hawaited, hturned]
    cases a with
    | route f => simp [SignalAction.frame?] at hmore
    | _ => simp [awaitedBy, turnedAwayBy]

/-- Every message that waits for a response has reached a subscription or been turned away. -/
theorem perm_requests (actions : List SignalAction) :
    (awaited actions ++ turnedAway actions).Perm
      ((routedFrames actions).filter (·.header.kind.expectsResponse)) := by
  induction actions using reverseRecOn with
  | nil => exact .refl _
  | append_singleton actions a ih =>
    rw [awaited_concat, turnedAway_concat, routedFrames_append, filter_append]
    cases a with
    | route f =>
      by_cases hreaches : ReachesAfter actions f <;>
        cases hexpects : f.header.kind.expectsResponse
      · simpa [awaitedBy, turnedAwayBy, routedFrames, SignalAction.frame?, hexpects] using ih
      · have hlast := ih.append_right [f]
        have hcomm : (awaited actions ++ [f] ++ turnedAway actions).Perm
            (awaited actions ++ turnedAway actions ++ [f]) := by
          rw [append_assoc, append_assoc]
          exact perm_append_comm.append_left _
        simpa [awaitedBy, turnedAwayBy, routedFrames, SignalAction.frame?, hexpects, hreaches]
          using hcomm.trans hlast
      · simpa [awaitedBy, turnedAwayBy, routedFrames, SignalAction.frame?, hexpects] using ih
      · simpa [awaitedBy, turnedAwayBy, routedFrames, SignalAction.frame?, hexpects, hreaches]
          using ih.append_right [f]
    | _ => simpa [awaitedBy, turnedAwayBy, routedFrames, SignalAction.frame?] using ih

/-- What was answered stays answered. -/
theorem Switchboard.replyTo_append {s : Nat} {reply : Reply}
    (h : replyTo (used actions) s = some reply) :
    replyTo (used (actions ++ more)) s = some reply := by
  induction more using reverseRecOn with
  | nil => rwa [append_nil]
  | append_singleton more a ih =>
    rw [← append_assoc, used_concat, replyTo, find?_append]
    obtain ⟨u, hu, rfl⟩ := map_eq_some_iff.mp ih
    rw [hu]
    rfl

end Requests

/-! ## Turning messages away -/

/-- What a step of the task that routes the messages of a client can be: where it leads, which
message it turns away and what goes out. -/
inductive Job.Routes (c : Nat) : Job → Next → List Frame → List Outgoing → Prop
  | take (frame : Frame) : Routes c (.route c) (.job (.dispatch c frame)) [] []
  | finish : Routes c (.route c) (.ended .done) [] []
  | pass (frame : Frame) : Routes c (.dispatch c frame) (.job (.route c)) [] []
  | turnAway {frame response : Frame} (hresponse : TurnsAway frame (.frame response)) :
      Routes c (.dispatch c frame) (.job (.send response (.route c))) [frame] []
  | stamp (response : Frame) (connection : Connection) :
      Routes c (.send response (.route c))
        (.job (.push (.frame (connection.stamp response)) (.route c))) [] []
  | hold (message : Outgoing) : Routes c (.push message (.route c)) .waiting [] []
  | send (message : Outgoing) :
      Routes c (.push message (.route c)) (.job (.route c)) [] [message]

theorem forall₂_concat {α β : Type} {R : α → β → Prop} {xs : List α} {ys : List β} {y z : β}
    (h : List.Forall₂ R xs (ys ++ [y])) (himp : ∀ x, R x y → R x z) :
    List.Forall₂ R xs (ys ++ [z]) := by
  have htake := forall₂_take_append xs ys [y] h
  have hdrop := forall₂_drop_append xs ys [y] h
  obtain ⟨x, rest, hx, hrest, heq⟩ := forall₂_cons_right_iff.mp hdrop
  obtain rfl := forall₂_nil_right_iff.mp hrest
  rw [← take_append_drop ys.length xs, heq]
  exact rel_append htake (.cons (himp x hx) .nil)

/-- Every message that is turned away gets its response, in order. -/
theorem Job.Routes.keeps {c : Nat} {t : Task} {next : Next} {away turned : List Frame}
    {before sent : List Outgoing} (h : t.job.Routes c next away sent)
    (hlaw : List.Forall₂ TurnsAway turned (before ++ t.job.departing?.toList)) :
    List.Forall₂ TurnsAway (turned ++ away)
      (before ++ sent ++ (next.handed? (fun u => u.job.departing?) t).toList) := by
  obtain ⟨id, peer, job, ticket⟩ := t
  cases h with
  | turnAway hresponse =>
    simp only [Job.departing?, toList_none, append_nil] at hlaw
    exact rel_append (by simpa using hlaw) (.cons hresponse .nil)
  | stamp response connection =>
    have hstamp : List.Forall₂ TurnsAway turned
        (before ++ [.frame (connection.stamp response)]) :=
      forall₂_concat hlaw fun f hf => Outgoing.Responds.stamp hf connection
    simpa [Job.departing?, Next.handed?] using hstamp
  | take | finish | pass | hold | send =>
    simpa [Job.departing?, Next.handed?] using hlaw

namespace Net

variable {net net' : Net} {t : Task} {next : Next} {p : Peer} {client : Client} {c : Nat} {f : Frame}
  {actions : List SignalAction}

/-- The task that is to send the answer to a message. -/
def answerer (net : Net) (peer c slot : Nat) (f : Frame) : Task :=
  ⟨net.nextTask, peer, .answer c slot f.header, none⟩

/-- A message is routed: it is turned away, or somebody is to send the answer, if anybody waits for
one. -/
theorem step_dispatch (hjob : t.job = .dispatch c f) (hclient : net.clients[c]? = some client)
    (hboard : client.board = .after actions) (hfew : subscribed actions < 2 ^ 64)
    (hstep : net.step t = some (net', next)) :
    t.job.Routes c next (turnedAwayBy actions (.route f)) [] ∧
      net'.tasks = net.tasks ++
        (awaitedBy actions (.route f)).map (net.answerer t.peer c (awaited actions).length) := by
  have hroute := Switchboard.route_after hfew f
  rw [← hboard] at hroute
  obtain ⟨p, hp, hstep⟩ := bind_eq_some_iff.mp hstep
  simp only [hjob, stepDispatch, hclient, hroute, bind_eq_bind, bind_some] at hstep
  rw [hjob]
  cases hexpects : f.header.kind.expectsResponse with
  | false =>
    simp only [hexpects, Bool.false_eq_true, if_false] at hstep
    cases hstep
    simp only [turnedAwayBy, awaitedBy, hexpects, Bool.false_eq_true, false_and, if_false,
      map_nil, append_nil]
    exact ⟨.pass f, rfl⟩
  | true =>
    by_cases hreaches : ReachesAfter actions f
    · simp only [hexpects, hreaches, if_true] at hstep
      cases hstep
      simp only [turnedAwayBy, awaitedBy, hexpects, hreaches, not_true_eq_false, and_false,
        and_self, if_true, if_false, List.map_cons, map_nil]
      exact ⟨.pass f, rfl⟩
    · simp only [hexpects, hreaches, if_true, if_false] at hstep
      cases hstep
      simp only [turnedAwayBy, awaitedBy, hexpects, hreaches, not_false_eq_true, and_false,
        and_self, if_true, if_false, map_nil, append_nil]
      exact ⟨.turnAway (Outgoing.responds_errorFor _ _), rfl⟩

/-- The connection of a peer is open: it has not been shut down, and what comes in and goes out is
attended to. -/
def OpenAt (k : Nat) (net : Net) : Prop :=
  net.Attended k ∧ ∀ p ∈ net.peers[k]?, p.connection.closed = false

instance (k : Nat) : DecidablePred (OpenAt k) :=
  fun net => inferInstanceAs (Decidable (net.Attended k ∧ _))

theorem OpenAt.gate {k : Nat} (h : net.OpenAt k) (hp : net.peers[k]? = some p) :
    p.outbound.gate.closed = false := by
  simpa [Channel.hasReceiver] using (h.1 p hp).2.1

/-- The messages that a task is about to route to a subscription and whose senders wait for a
response. -/
def reaching (c : Nat) (actions : List SignalAction) (t : Task) : List Frame :=
  (t.job.routes? c).toList.flatMap fun f => awaitedBy actions (.route f)

/-- The messages that a task is about to turn away. -/
def turning (c : Nat) (actions : List SignalAction) (t : Task) : List Frame :=
  (t.job.routes? c).toList.flatMap fun f => turnedAwayBy actions (.route f)

/-- A step of a task adds the message to the history that it routes. -/
theorem requests_step (c : Nat) (actions : List SignalAction) (t : Task) (next : Next) :
    awaited (actions ++ actionsAt c (stepSignals t next)) = awaited actions ++ reaching c actions t ∧
      turnedAway (actions ++ actionsAt c (stepSignals t next)) =
        turnedAway actions ++ turning c actions t := by
  cases hroutes : t.job.routes? c with
  | none =>
    have hnone := routedFrames_stepSignals c t next
    rw [hroutes, routedFrames, toList_none, filterMap_eq_nil_iff] at hnone
    simpa [reaching, turning, hroutes] using requests_append hnone
  | some f =>
    have hactions : actionsAt c (stepSignals t next) = [.route f] := by
      simp [stepSignals, Job.eq_dispatch_of_routes? hroutes, actionsAt]
    simp [hactions, reaching, turning, hroutes, awaited_concat, turnedAway_concat]

theorem eq_route_of_duty {after : After} (h : after.duty = .router c) : after = .route c := by
  cases after with
  | route c' => simpa [After.duty] using h
  | await call deadline purpose => exact absurd h (duty_ne_router purpose c)
  | _ => simp [After.duty] at h

/-- What the task that routes the messages of a client does on an open connection. -/
theorem routes_of_router (hduty : t.job.duty = .router c) (hopen : net.OpenAt t.peer)
    (hclient : net.clients[c]? = some client) (hboard : client.board = .after actions)
    (hfew : subscribed actions < 2 ^ 64) (htask : net.task? t.id = some t)
    (hstep : net.step t = some (net', next)) :
    t.job.Routes c next (turning c actions t) (departures t.peer net (.go t.id)) := by
  obtain ⟨p, hp, -⟩ := bind_eq_some_iff.mp hstep
  have hsent := departures_step_of_ne htask hstep
  have hnone (hroutes : t.job.routes? c = none) : turning c actions t = [] := by
    simp [turning, hroutes]
  cases hjob : t.job with
  | route c' =>
    obtain rfl : c' = c := by simpa [hjob, Job.duty] using hduty
    rw [hsent (by simp [hjob]), hnone (by simp [hjob, Job.routes?])]
    have hroute : net.stepRoute t.peer p c' = some (net', next) := by
      simpa [step, hp, hjob] using hstep
    unfold stepRoute at hroute
    split at hroute
    · cases hroute
      exact .take _
    · split at hroute <;> cases hroute
      exact .finish
  | dispatch c' f =>
    obtain rfl : c' = c := by simpa [hjob, Job.duty] using hduty
    have hroutes := (step_dispatch hjob hclient hboard hfew hstep).1
    rw [hsent (by simp [hjob]), ← hjob]
    simpa [turning, hjob, Job.routes?] using hroutes
  | send response after =>
    obtain rfl : after = .route c := eq_route_of_duty (by rwa [hjob] at hduty)
    rw [hsent (by simp [hjob]), hnone (by simp [hjob, Job.routes?])]
    rw [step_send hjob hp (hopen.2 p hp)] at hstep
    cases hstep
    exact .stamp _ _
  | push message after =>
    obtain rfl : after = .route c := eq_route_of_duty (by rwa [hjob] at hduty)
    rw [hnone (by simp [hjob, Job.routes?])]
    obtain ⟨rfl, hout⟩ | ⟨hout, net₁, hresume⟩ := departures_push hjob hp (hopen.gate hp) htask
      hstep
    · rw [hout]
      exact .hold _
    · rw [hout]
      cases hresume
      exact .send _
  | call frame deadline purpose | await call limit deadline purpose =>
    rw [hjob] at hduty
    exact absurd hduty (duty_ne_router purpose c)
  | _ => simp [hjob, Job.duty] at hduty

end Net

/-! ## Sending answers -/

/-- How far a task has got that is to send the answer to a signal: it waits for the answer, has it
and is to send it, or has sent it and ended. -/
inductive Answering (c slot : Nat) (request : Header) (reply? : Option Reply) :
    Option Job → List Outgoing → Prop
  | waits : Answering c slot request reply? (some (.answer c slot request)) []
  | sends {reply : Reply} {response : Frame} (hreply : reply? = some reply)
      (hresponse : Replies request reply (.frame response)) :
      Answering c slot request reply? (some (.send response .report)) []
  | pushes {reply : Reply} {message : Outgoing} (hreply : reply? = some reply)
      (hresponse : Replies request reply message) :
      Answering c slot request reply? (some (.push message .report)) []
  | done {reply : Reply} {message : Outgoing} (hreply : reply? = some reply)
      (hresponse : Replies request reply message) :
      Answering c slot request reply? none [message]

namespace Answering

variable {c slot : Nat} {request : Header} {reply? : Option Reply} {job? : Option Job}
  {sent : List Outgoing}

/-- An answer that has been given stays the same. -/
theorem mono (h : Answering c slot request reply? job? sent) {later? : Option Reply}
    (hlater : ∀ reply, reply? = some reply → later? = some reply) :
    Answering c slot request later? job? sent := by
  cases h with
  | waits => exact .waits
  | sends hreply hresponse => exact .sends (hlater _ hreply) hresponse
  | pushes hreply hresponse => exact .pushes (hlater _ hreply) hresponse
  | done hreply hresponse => exact .done (hlater _ hreply) hresponse

/-- Before there is an answer, nothing is sent. -/
theorem silent (h : Answering c slot request none job? sent) :
    job? = some (.answer c slot request) ∧ sent = [] := by
  cases h with
  | waits => exact ⟨rfl, rfl⟩
  | sends hreply | pushes hreply | done hreply => contradiction

theorem origin?_eq_none {t : Task} (h : Answering c slot request reply? (some t.job) sent) :
    t.origin? = none := by
  obtain ⟨id, peer, job, ticket⟩ := t
  cases h <;> rfl

end Answering

namespace Net

variable {net net' : Net} {t : Task} {next : Next} {p : Peer} {client : Client} {c slot : Nat}
  {request : Header} {reply? : Option Reply} {sent : List Outgoing}

/-- The task goes on with the answer when there is one. -/
theorem answering_step (h : Answering c slot request reply? (some t.job) sent)
    (hopen : net.OpenAt t.peer) (hclient : net.clients[c]? = some client)
    (hreply : client.board.reply? slot = reply?) (htask : net.task? t.id = some t)
    (hstep : net.step t = some (net', next)) :
    Answering c slot request reply? (next.handed? (fun u => some u.job) t)
      (sent ++ departures t.peer net (.go t.id)) := by
  obtain ⟨p, hp, -⟩ := bind_eq_some_iff.mp hstep
  have hsent := departures_step_of_ne htask hstep
  generalize hjob : t.job = job at h
  cases h with
  | waits =>
    have hanswer : net.stepAnswer c slot request = some (net', next) := by
      simpa [step, hp, hjob] using hstep
    simp only [stepAnswer, hclient, hreply, bind_eq_bind, bind_some] at hanswer
    obtain ⟨reply, hfound, hanswer⟩ := bind_eq_some_iff.mp hanswer
    cases hanswer
    rw [hsent (by simp [hjob])]
    exact .sends hfound (replies_responseFor request reply)
  | sends hfound hresponse =>
    rw [hsent (by simp [hjob])]
    rw [step_send hjob hp (hopen.2 p hp)] at hstep
    cases hstep
    exact .pushes hfound (hresponse.stamp p.connection)
  | @pushes reply message hfound hresponse =>
    obtain ⟨rfl, hout⟩ | ⟨hout, net₁, hresume⟩ := departures_push hjob hp (hopen.gate hp) htask
      hstep
    · rw [hout, Next.handed?, hjob]
      exact .pushes hfound hresponse
    · rw [hout]
      cases hresume
      exact .done hfound hresponse

/-- The task that is to send an answer waits only for that answer, or for room. -/
theorem answering_waits (h : Answering c slot request reply? (some t.job) sent)
    (hp : net.peers[t.peer]? = some p) (hopen : net.OpenAt t.peer)
    (hclient : net.clients[c]? = some client) (hreply : client.board.reply? slot = reply?)
    (hstep : net.step t = none) : reply? = none ∨ t.id ∈ p.outbound.gate.waiting := by
  generalize hjob : t.job = job at h
  cases h with
  | waits =>
    have hanswer : net.stepAnswer c slot request = none := by
      simpa [step, hp, hjob] using hstep
    cases reply? with
    | none => exact .inl rfl
    | some reply => simp [stepAnswer, hclient, hreply] at hanswer
  | sends hfound hresponse =>
    rw [step_send hjob hp (hopen.2 p hp)] at hstep
    contradiction
  | pushes hfound hresponse => exact .inr (mem_waiting_of_push hjob hp hstep)

/-- The task that routes the messages of a client waits only for messages, or for room. -/
theorem routing_waits (hduty : t.job.duty = .router c) (hp : net.peers[t.peer]? = some p)
    (hopen : net.OpenAt t.peer) (hclient : net.clients[c]? = some client)
    (hstep : net.step t = none) :
    (t.job = .route c ∧ p.inbound.items = []) ∨ t.id ∈ p.outbound.gate.waiting := by
  cases hjob : t.job with
  | route c' =>
    obtain rfl : c' = c := by simpa [hjob, Job.duty] using hduty
    have hroute : net.stepRoute t.peer p c' = none := by simpa [step, hp, hjob] using hstep
    refine .inl ⟨rfl, ?_⟩
    cases hitems : p.inbound.items with
    | nil => rfl
    | cons frame frames => simp [stepRoute, Channel.pop?, hitems] at hroute
  | dispatch c' f =>
    obtain rfl : c' = c := by simpa [hjob, Job.duty] using hduty
    have hdispatch : net.stepDispatch t.peer c' f = none := by
      simpa [step, hp, hjob] using hstep
    simp only [stepDispatch, hclient, bind_eq_bind, bind_some] at hdispatch
    split at hdispatch <;> contradiction
  | send response after =>
    rw [step_send hjob hp (hopen.2 p hp)] at hstep
    contradiction
  | push message after => exact .inr (mem_waiting_of_push hjob hp hstep)
  | call frame deadline purpose | await call limit deadline purpose =>
    rw [hjob] at hduty
    exact absurd hduty (duty_ne_router purpose c)
  | _ => simp [hjob, Job.duty] at hduty

/-! ## Tasks that send no responses -/

theorem conclude_ne_job (net : Net) (response : Response) (purpose : Purpose) (job : Job) :
    (net.conclude response purpose).2 ≠ .job job := by
  obtain ⟨net', report, hout, -⟩ := conclude_eq net response purpose
  simp [hout]

theorem isMute_resume {peer : Nat} {result : Except Fault Unit} {after : After} {job : Job}
    (hmute : after.isMute = true) (h : (net.resume peer result after).2 = .job job) :
    job.isMute = true := by
  cases after with
  | report | shutDown | discard s => simp [resume, stop] at h
  | release server | route c | read => contradiction
  | post frames =>
    simp only [resume] at h
    split at h
    · cases h
      simpa [Job.isMute, After.isMute] using hmute
    · simp [stop] at h
  | await call deadline purpose =>
    cases result with
    | ok _ =>
      cases h
      rfl
    | error fault => exact absurd h (conclude_ne_job _ _ purpose job)

/-- A task that sends no responses goes on like that. -/
theorem isMute_step {job : Job} (hmute : t.job.isMute = true)
    (hstep : net.step t = some (net', .job job)) : job.isMute = true := by
  obtain ⟨p, hp, h⟩ := bind_eq_some_iff.mp hstep
  obtain ⟨id, peer, old, ticket⟩ := t
  cases old with
  | write =>
    simp only [stepWrite] at h
    split at h
    · split at h <;> cases h <;> rfl
    · split at h <;> cases h
      rfl
  | transmit frame =>
    obtain ⟨⟨sent, net₁⟩, -, heq⟩ := bind_eq_some_iff.mp h
    cases sent <;> cases heq <;> rfl
  | flush =>
    obtain ⟨link, -, h⟩ := bind_eq_some_iff.mp h
    split at h
    · obtain ⟨⟨sent, net₁⟩, -, heq⟩ := bind_eq_some_iff.mp h
      cases sent <;> cases heq <;> rfl
    · contradiction
  | close =>
    obtain ⟨⟨sent, net₁⟩, -, heq⟩ := bind_eq_some_iff.mp h
    cases heq
    rfl
  | stopWriting =>
    cases h
    rfl
  | leaveWriting | leave => simp [stop] at h
  | call frame deadline purpose =>
    replace h := some.inj h
    unfold stepCall at h
    split at h
    · exact absurd (congrArg Prod.snd h) (conclude_ne_job _ _ purpose job)
    · next call frame' connection henroll =>
      cases h
      unfold Connection.enroll at henroll
      split at henroll
      · next hexpects =>
        cases henroll
        -- what gets a number expects a response, so it is none itself
        cases hresponse : frame.header.kind.isResponse with
        | true => simp [MessageKind.expectsResponse_of_isResponse hresponse] at hexpects
        | false => simp [Job.isMute, After.isMute, hresponse]
      · contradiction
  | await call limit deadline purpose =>
    have hends (net₁ : Net) (response : Response) :
        some (net₁.conclude response purpose) ≠ some (net', .job job) := fun heq =>
      conclude_ne_job net₁ response purpose job (congrArg Prod.snd (some.inj heq))
    simp only [stepAwait] at h
    split at h
    · exact absurd h (hends _ _)
    · exact absurd h (hends _ _)
    · exact absurd h (hends _ _)
    · split at h
      · exact absurd h (hends _ _)
      · contradiction
  | send frame after =>
    replace h := some.inj h
    simp only [Job.isMute, Bool.and_eq_true] at hmute
    unfold stepSend at h
    split at h
    · exact isMute_resume hmute.2 (congrArg Prod.snd h)
    · cases h
      simpa [Job.isMute, Connection.stamp] using hmute
  | push message after =>
    have hafter : after.isMute = true := by
      cases message <;> simp_all [Job.isMute]
    obtain ⟨⟨entry, gate⟩, -, h⟩ := bind_eq_some_iff.mp h
    cases entry with
    | refused | entered =>
      exact isMute_resume hafter (congrArg Prod.snd (some.inj h))
    | queued => cases h
  | _ => contradiction

theorem origin?_of_isMute (hmute : t.job.isMute = true) : t.origin? = none := by
  obtain ⟨id, peer, job, ticket⟩ := t
  cases job <;> first | rfl | contradiction

end Net

end Remoting
