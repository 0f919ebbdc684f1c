import Remoting.Proofs.Traffic

/-!
# Remoting.Proofs.Steps

What the steps of tasks do to the traffic between a caller and a server. Every step but the one that
adds a call leads to a later state of the network (`Net.Leads`), and the task goes on in a place
where it may be (`Net.NextProper`). When a task that waits for a response ends, its call is settled,
and what it reports is the response to that call.

There is a lemma for each kind of step; `Net.step_leads` puts them together.
-/

namespace Remoting.Net

open List Option

variable {w : Wiring} {h : History} {net net' : Net} {f r request : Frame} {server task : Nat}
  {after : After}

/-! ## Steps -/

/-- Where a task may stand after a step. It waits for the response to the same call as before, if
there is one; when it ends, it reports a frame only if that is the response, and the call is
settled. -/
def NextProper (w : Wiring) (h : History) (side : Side) (ticket : Option Nat)
    (awaits : Option CallId) (net : Net) : Next → Prop
  | .job job => job.Proper w h side ticket ∧ job.awaits? = awaits
  | .waiting => True
  | .ended report =>
    (∀ r, report = .frame r → ∃ id, awaits = some id ∧ Delivers w h side id r) ∧
    ∀ id, awaits = some id → ∀ p : Peer, net.peers[side.index]? = some p →
      p.connection.pending.contains id = false

/-- What a step of a task comes to. -/
structure StepsTo (w : Wiring) (h : History) (side : Side) (ticket : Option Nat)
    (awaits : Option CallId) (net : Net) (out : Stepped) : Prop where
  leads : net.Leads w h out.1
  next : NextProper w h side ticket awaits out.1 out.2

variable {side : Side} {ticket : Option Nat} {awaits : Option CallId}

/-- A task goes on with a job that is proper. -/
theorem stepsTo_goOn {job : Job} (hl : net.Leads w h net') (hjob : job.Proper w h side ticket)
    (hawaits : job.awaits? = awaits) :
    StepsTo w h side ticket awaits net (net'.goOn job) := ⟨hl, hjob, hawaits⟩

theorem stepsTo_wait (hl : net.Leads w h net') :
    StepsTo w h side ticket awaits net net'.wait := ⟨hl, trivial⟩

/-- A task that waits for no response ends, and reports none. -/
theorem stepsTo_stop {report : Report} (hl : net.Leads w h net')
    (hreport : ∀ r, report ≠ .frame r) :
    StepsTo w h side ticket none net (net'.stop report) :=
  ⟨hl, fun r hr => absurd hr (hreport r), by simp⟩

theorem ofResult_ne_frame (result : Except Fault Unit) (r : Frame) :
    Report.ofResult result ≠ .frame r := by
  cases result <;> simp [Report.ofResult]

/-- Whatever the response to a call is for, a frame is reported only if it is the response. -/
theorem conclude_eq (net : Net) (response : Response) (purpose : Purpose) :
    ∃ net' report, net.conclude response purpose = (net', .ended report) ∧ net.Same net' ∧
      net'.servers = net.servers ∧ ∀ r, report = .frame r → response = .ok r := by
  have hsame : net.Same net := ⟨rfl, rfl, rfl, rfl, rfl, rfl, rfl⟩
  cases purpose with
  | frame =>
    refine ⟨net, _, rfl, hsame, rfl, fun r hr => ?_⟩
    cases response with
    | ok frame => rw [Report.frame.inj hr]
    | error fault => contradiction
  | hello client name =>
    simp only [conclude]
    split <;> exact ⟨net, _, rfl, hsame, rfl, by simp⟩
  | fields =>
    refine ⟨net, _, rfl, hsame, rfl, fun r hr => ?_⟩
    split at hr <;> contradiction
  | types =>
    refine ⟨net, _, rfl, hsame, rfl, fun r hr => ?_⟩
    split at hr <;> contradiction
  | narrow handle target name =>
    simp only [conclude]
    split
    · exact ⟨net, _, rfl, hsame, rfl, by simp⟩
    · split <;> exact ⟨net, _, rfl, hsame, rfl, by simp⟩
  | subscribe s name =>
    simp only [conclude]
    split
    · exact ⟨net, _, rfl, hsame, rfl, by simp⟩
    · exact ⟨_, _, rfl, ⟨rfl, rfl, rfl, rfl, rfl, rfl, rfl⟩, rfl, by simp⟩
  | keep object => exact ⟨_, _, rfl, ⟨rfl, rfl, rfl, rfl, rfl, rfl, rfl⟩, rfl, by simp⟩

/-- A call ends with the response that it waited for, or without any. -/
theorem stepsTo_conclude {response : Response} {purpose : Purpose} (hl : net.Leads w h net')
    (hresponse : ∀ r, response = .ok r → ∃ id, awaits = some id ∧ Delivers w h side id r)
    (hsettled : ∀ id, awaits = some id → ∀ p : Peer, net'.peers[side.index]? = some p →
      p.connection.pending.contains id = false) :
    StepsTo w h side ticket awaits net (net'.conclude response purpose) := by
  obtain ⟨net'', report, hout, hsame, -, hreport⟩ := conclude_eq net' response purpose
  rw [hout]
  refine ⟨hl.trans hsame.leads, fun r hr => hresponse r (hreport r hr), ?_⟩
  rw [hsame.peers]
  exact hsettled

/-- A call that is not awaited any more is settled. -/
theorem contains_changeConnection_cancel {id : CallId} {p : Peer}
    (hp : (net.changeConnection side.index (·.cancel id)).peers[side.index]? = some p) :
    p.connection.pending.contains id = false := by
  simp only [changeConnection, changePeer, getElem?_modify] at hp
  obtain ⟨p₀, -, rfl⟩ := map_eq_some_iff.mp hp
  simp [Connection.cancel, PendingCalls.contains_cancel_self]

/-- A message was taken or not, and its task goes on accordingly. -/
theorem stepsTo_resume {p : Peer} {result : Except Fault Unit} (hl : net.Leads w h net')
    (hp : net'.peers[side.index]? = some p) (hafter : after.Proper w h side) :
    StepsTo w h side ticket after.awaits? net (net'.resume side.index result after) := by
  cases after with
  | report => exact stepsTo_stop hl (ofResult_ne_frame result)
  | post frames =>
    cases result with
    | error fault => exact stepsTo_stop hl (ofResult_ne_frame _)
    | ok u =>
      cases frames with
      | nil => exact stepsTo_stop hl (ofResult_ne_frame _)
      | cons f frames =>
        have hframe := hafter f List.mem_cons_self
        have hframes : (After.post frames).Proper w h side :=
          fun g hg => hafter g (List.mem_cons_of_mem f hg)
        exact stepsTo_goOn hl ⟨hframe, hframes⟩ rfl
  | await id deadline purpose =>
    cases result with
    | ok u => exact stepsTo_goOn hl trivial rfl
    | error fault =>
      have hcancel : net'.Leads w h (net'.changeConnection side.index (·.cancel id)) :=
        leads_changeConnection hp (p.connection.continues_cancel id)
      show StepsTo w h side ticket (some id) net
        ((net'.changeConnection side.index (·.cancel id)).conclude (.error fault) purpose)
      refine stepsTo_conclude (hl.trans hcancel) (by simp) fun id' hid' p' hp' => ?_
      cases hid'
      exact contains_changeConnection_cancel hp'
  | release server => exact stepsTo_goOn hl trivial rfl
  | route client => exact hafter.elim
  | read => exact stepsTo_goOn hl trivial rfl
  | shutDown => exact stepsTo_stop (hl.trans (leads_shutDown hp _)) (by simp)
  | discard s =>
    have hsame : net'.Same (net'.discard s) := ⟨rfl, rfl, rfl, rfl, rfl, rfl, rfl⟩
    exact stepsTo_stop (hl.trans hsame.leads) (ofResult_ne_frame result)

/-! ## Writing -/

/-- What is popped was the first. -/
theorem items_of_pop? {α : Type} {c c' : Channel α} {item : α} (hpop : c.pop? = some (item, c')) :
    c.items = item :: c'.items := by
  unfold Channel.pop? at hpop
  split at hpop
  · contradiction
  · next first rest hitems =>
    cases hpop
    exact hitems

theorem peers_onLink {endpoint : Nat} {use : Link → Side → α × Link} {a : α}
    (hon : net.onLink endpoint use = some (a, net')) : net'.peers = net.peers := by
  obtain ⟨l, -, hrest⟩ := bind_eq_some_iff.mp hon
  cases hrest
  rfl

variable {net : Net} {p : Peer} {out : Stepped}

/-- The writer goes on, waits, or shuts the connection down. -/
theorem stepsTo_afterSending (hl : net.Leads w h net') (hp : net'.peers[side.index]? = some p)
    (next : Job) (hnext : next.Proper w h side ticket) (hawaits : next.awaits? = none) (sent : Sent)
    :
    StepsTo w h side ticket none net (net'.afterSending side.index next sent) := by
  cases sent with
  | done => exact stepsTo_goOn hl hnext hawaits
  | blocked => exact stepsTo_goOn hl trivial rfl
  | failed error => exact stepsTo_goOn (hl.trans (leads_shutDown hp _)) trivial rfl

section Writer

variable (hp : net.peers[side.index]? = some p) (hpeer : p.Proper w h side)
include hp hpeer

/-- The writer takes what may be sent from the queue. -/
theorem stepsTo_write (hstep : net.stepWrite side.index p = some out) :
    StepsTo w h side ticket none net out := by
  unfold stepWrite at hstep
  split at hstep
  · next message outbound hpop =>
    have hitems := items_of_pop? hpop
    have hl : net.Leads w h (net.changePeer side.index fun p => { p with outbound }) := by
      refine leads_changePeer hp (p.leads_outbound fun f hf => .inl ?_)
      rw [hitems]
      exact List.mem_cons_of_mem _ hf
    cases message with
    | frame f =>
      cases hstep
      exact stepsTo_goOn hl (hpeer.outbound f (by rw [hitems]; exact List.mem_cons_self)) rfl
    | close =>
      cases hstep
      exact stepsTo_goOn hl trivial rfl
  · split at hstep
    · contradiction
    · cases hstep
      exact stepsTo_goOn (.refl net) trivial rfl

/-- It puts the frame on the link. -/
theorem stepsTo_transmit (hmay : May w h side f)
    (hstep : net.stepTransmit side.index p f = some out) :
    StepsTo w h side ticket none net out := by
  unfold stepTransmit at hstep
  rw [hpeer.endpoint] at hstep
  obtain ⟨⟨sent, net'⟩, hon, hrest⟩ := bind_eq_some_iff.mp hstep
  cases hrest
  have hl : net.Leads w h net' := leads_onLink (fun l hl => hl.feed hmay rfl) hon
  exact stepsTo_afterSending hl (by rw [peers_onLink hon]; exact hp) .flush trivial rfl sent

/-- It lets bytes go out, which are on their way already. -/
theorem stepsTo_flush (hstep : net.stepFlush side.index p = some out) :
    StepsTo w h side ticket none net out := by
  unfold stepFlush at hstep
  rw [hpeer.endpoint] at hstep
  obtain ⟨l, -, hrest⟩ := bind_eq_some_iff.mp hstep
  split at hrest
  · obtain ⟨⟨sent, net'⟩, hon, hlast⟩ := bind_eq_some_iff.mp hrest
    cases hlast
    have hl : net.Leads w h net' :=
      leads_onLink (fun l hl => hl.of_rests (l.rests_flush side)) hon
    exact stepsTo_afterSending hl (by rw [peers_onLink hon]; exact hp) .write trivial rfl sent
  · contradiction

end Writer

theorem stepsTo_close (hpeer : p.Proper w h side) (hstep : net.stepClose p = some out) :
    StepsTo w h side ticket none net out := by
  unfold stepClose at hstep
  rw [hpeer.endpoint] at hstep
  obtain ⟨⟨sent, net'⟩, hon, hrest⟩ := bind_eq_some_iff.mp hstep
  cases hrest
  exact stepsTo_goOn (leads_onLink (fun l hl => hl.of_rests (l.rests_close side)) hon) trivial rfl

theorem stepsTo_stopWriting (hp : net.peers[side.index]? = some p) :
    StepsTo w h side ticket none net (net.stepStopWriting side.index) :=
  stepsTo_goOn (leads_changePeer hp (p.leads_outbound (by simp [Channel.abandon]))) trivial rfl

/-! ## Reading -/

/-- Whatever is read was on its way from the other side. -/
theorem stepsTo_read (hp : net.peers[side.index]? = some p) (hnet : net.Proper w h)
    (hstep : net.stepRead side.index p = some out) : StepsTo w h side ticket none net out := by
  have hpeer := hnet.peers side p hp
  unfold stepRead at hstep
  rw [hpeer.endpoint] at hstep
  obtain ⟨⟨answer, net'⟩, hon, hrest⟩ := bind_eq_some_iff.mp hstep
  have hl : net.Leads w h net' := leads_onLink (fun l hl => (hl.attempt rfl).1) hon
  have hp' : net'.peers[side.index]? = some p := by rw [peers_onLink hon]; exact hp
  have hanswer : ∀ a ∈ answer, a.isQuiet = true ∨ ∃ f, May w h side.other f ∧ a.Brings f := by
    simp only [onLink, linkOf_index, sideOf_index] at hon
    obtain ⟨l, hlink, hpair⟩ := bind_eq_some_iff.mp hon
    obtain ⟨rfl, -⟩ := Prod.mk.inj (some.inj hpair)
    exact ((hnet.links l hlink).attempt rfl).2
  cases answer with
  | none =>
    cases hrest
    exact stepsTo_goOn hl trivial rfl
  | some a =>
    have harrival := hanswer a rfl
    cases a with
    | nothing => contradiction
    | ended =>
      cases hrest
      exact stepsTo_goOn (hl.trans (leads_shutDown hp' _)) trivial rfl
    | frame f =>
      cases hrest
      rcases harrival with hquiet | ⟨g, hmay, hbrings⟩
      · contradiction
      · cases hbrings with
        | whole hfits => exact stepsTo_goOn hl ⟨hmay, hfits⟩ rfl
    | failed error =>
      cases error with
      | malformed damaged =>
        cases hrest
        rcases harrival with hquiet | ⟨g, hmay, hbrings⟩
        · contradiction
        · cases hbrings with
          | damaged hfits cause => exact stepsTo_goOn hl ⟨g, hmay, hfits, rfl⟩ rfl
      | _ =>
        cases hrest
        exact stepsTo_goOn (hl.trans (leads_shutDown hp' _)) trivial rfl

/-- A damaged request may be refused. -/
theorem may_refusal (hmay : May w h side.other request) (hfits : ¬ Field.Fits request.toFields)
    (hexpects : request.header.kind.expectsResponse = true) (error : FramingError) :
    May w h side ((Frame.errorFor request.header error.toFault).sentOn (w.id side)) := by
  cases side with
  | left =>
    intro hkind
    contradiction
  | right =>
    intro _
    exact ⟨request, hmay hexpects, rfl, .inr ⟨hfits, error, rfl⟩⟩

section Peer

variable (hp : net.peers[side.index]? = some p)
include hp

/-- What was read is done with, handed on, or replied to. -/
theorem stepsTo_accept (hpeer : p.Proper w h side) {message : Except MalformedFrame Frame}
    (hmessage : (Job.accept message).Proper w h side ticket) :
    StepsTo w h side ticket none net (net.stepAccept side.index p message) := by
  have hc : p.connection.Continues (Delivers w h side) (p.connection.accept message).2 := by
    refine p.connection.continues_accept fun r hr hresponse => ?_
    subst hr
    exact ⟨hmessage.may, hresponse, rfl⟩
  unfold stepAccept
  cases haccept : p.connection.accept message with
  | mk intake connection =>
    have hintake : (p.connection.accept message).1 = intake := by rw [haccept]
    rw [haccept] at hc
    have hl : net.Leads w h (net.changePeer side.index fun p => { p with connection }) :=
      leads_changePeer hp (p.leads_connection hc)
    cases intake with
    | done => exact stepsTo_goOn hl trivial rfl
    | deliver f =>
      obtain rfl := Connection.eq_ok_of_accept_deliver hintake
      exact stepsTo_goOn hl hmessage rfl
    | reply f =>
      obtain ⟨damaged, rfl, hexpects, rfl⟩ := Connection.eq_error_of_accept_reply hintake
      obtain ⟨request, hmay, hfits, hheader⟩ := hmessage
      have hreply : May w h side
          (p.connection.stamp (.errorFor damaged.header damaged.error.toFault)) := by
        rw [hheader] at hexpects ⊢
        have hmay' := may_refusal hmay hfits hexpects damaged.error
        rwa [← hpeer.id] at hmay'
      simp only
      split
      · exact stepsTo_goOn hl ⟨hreply, trivial⟩ rfl
      · exact stepsTo_goOn hl trivial rfl

/-- What has come is handed on when there is room. -/
theorem stepsTo_deliver (hf : Came w h side f)
    (hstep : net.stepDeliver task side.index p f = some out) :
    StepsTo w h side ticket none net out := by
  unfold stepDeliver at hstep
  obtain ⟨⟨entry, gate⟩, -, hrest⟩ := bind_eq_some_iff.mp hstep
  cases entry with
  | refused =>
    cases hrest
    exact stepsTo_goOn (.refl net) trivial rfl
  | entered =>
    cases hrest
    refine stepsTo_goOn (leads_changePeer hp (p.leads_inbound fun g hg => ?_)) trivial rfl
    rcases mem_append.mp hg with hmem | hmem
    · exact .inl hmem
    · rw [List.mem_singleton.mp hmem]
      exact .inr hf
  | queued =>
    cases hrest
    exact stepsTo_wait (leads_changePeer hp (p.leads_inbound fun g hg => .inl hg))

theorem stepsTo_stopReading : StepsTo w h side ticket none net (net.stepStopReading side.index) :=
  stepsTo_goOn (leads_changePeer hp (p.leads_inbound fun _ hg => .inl hg)) trivial rfl

/-! ## Calls and sending -/

theorem getElem?_changePeer (change : Peer → Peer) :
    (net.changePeer side.index change).peers[side.index]? = some (change p) := by
  simp [changePeer, hp]

/-- Who waits for a response gets its own, or none. -/
theorem stepsTo_await (hpeer : p.Proper w h side) {id : CallId} {limit deadline : Nat}
    {purpose : Purpose} (hstep : net.stepAwait side.index p id limit deadline purpose = some out) :
    StepsTo w h side ticket (some id) net out := by
  have hcontinues : p.connection.pending.Continues (Delivers w h side)
      (p.connection.pending.receive id).2 := PendingCalls.continues_receive _ id
  have hsettled : (p.connection.pending.receive id).1 ≠ .empty →
      p.connection.pending.contains id = false := PendingCalls.contains_of_receive hpeer.sound
  have hdelivers : ∀ r, (p.connection.pending.receive id).1 = .response (.ok r) →
      Delivers w h side id r := fun r => PendingCalls.delivers_of_receive hpeer.sound
  unfold stepAwait at hstep
  generalize p.connection.pending.receive id = result at *
  obtain ⟨received, pending⟩ := result
  -- whoever got an answer of any kind does not wait for a pending call
  have hquiet (hne : received ≠ .empty) (response : Response)
      (hresponse : ∀ r, response ≠ .ok r) :
      StepsTo w h side ticket (some id) net (net.conclude response purpose) := by
    refine stepsTo_conclude (.refl net) (fun r hr => absurd hr (hresponse r)) ?_
    intro id' hid' p' hp'
    cases hid'
    obtain rfl := some.inj (hp.symm.trans hp')
    exact hsettled hne
  cases received with
  | response response =>
    cases hstep
    have hl : net.Leads w h
        (net.changeConnection side.index fun c => { c with pending }) :=
      leads_changeConnection hp ⟨rfl, hcontinues⟩
    refine stepsTo_conclude hl (fun r hr => ⟨id, rfl, hdelivers r (by rw [hr])⟩) ?_
    intro id' hid' p' hp'
    cases hid'
    obtain rfl := some.inj ((getElem?_changePeer hp _).symm.trans hp')
    exact hcontinues.settled id (hsettled (by simp))
  | closed =>
    cases hstep
    exact hquiet (by simp) _ (by simp)
  | noReceiver =>
    cases hstep
    exact hquiet (by simp) _ (by simp)
  | empty =>
    simp only at hstep
    split at hstep
    · cases hstep
      have hl : net.Leads w h (net.changeConnection side.index (·.cancel id)) :=
        leads_changeConnection hp (p.connection.continues_cancel id)
      refine stepsTo_conclude hl (by simp) fun id' hid' p' hp' => ?_
      cases hid'
      exact contains_changeConnection_cancel hp'
    · contradiction

/-- A message is stamped, unless the connection is closed. -/
theorem stepsTo_send (hpeer : p.Proper w h side)
    (hjob : (Job.send f after).Proper w h side ticket) :
    StepsTo w h side ticket after.awaits? net (net.stepSend side.index p f after) := by
  obtain ⟨hmay, hafter⟩ := hjob
  unfold stepSend
  split
  · exact stepsTo_resume (.refl net) hp hafter
  · have hstamp : p.connection.stamp f = f.sentOn (w.id side) := by rw [← hpeer.id]; rfl
    rw [hstamp]
    exact stepsTo_goOn (.refl net) ⟨hmay, hafter⟩ rfl

/-- It is put in the queue when there is room. -/
theorem stepsTo_push {message : Outgoing} (hjob : (Job.push message after).Proper w h side ticket)
    (hstep : net.stepPush task side.index p message after = some out) :
    StepsTo w h side ticket after.awaits? net out := by
  have hafter : after.Proper w h side := by
    cases message with
    | frame f => exact hjob.2
    | close => exact hjob
  unfold stepPush at hstep
  obtain ⟨⟨entry, gate⟩, -, hrest⟩ := bind_eq_some_iff.mp hstep
  cases entry with
  | refused =>
    cases hrest
    exact stepsTo_resume (.refl net) hp hafter
  | entered =>
    cases hrest
    refine stepsTo_resume (leads_changePeer hp (p.leads_outbound fun f hf => ?_))
      (getElem?_changePeer hp _) hafter
    rcases mem_append.mp hf with hmem | hmem
    · exact .inl hmem
    · obtain rfl : Outgoing.frame f = message := List.mem_singleton.mp hmem
      exact .inr hjob.1
  | queued =>
    cases hrest
    exact stepsTo_wait (leads_changePeer hp (p.leads_outbound fun f hf => .inl hf))

end Peer

/-! ## Serving -/

/-- The server takes a request that has come. -/
theorem stepsTo_serve (hp : net.peers[Side.right.index]? = some p) (hpeer : p.Proper w h .right)
    (hstep : net.stepServe Side.right.index p server = some out) :
    StepsTo w h .right ticket none net out := by
  unfold stepServe at hstep
  split at hstep
  · next f inbound hpop =>
    cases hstep
    have hitems := items_of_pop? hpop
    refine stepsTo_goOn (leads_changePeer hp (p.leads_inbound fun g hg => .inl ?_)) ?_ rfl
    · rw [hitems]
      exact List.mem_cons_of_mem f hg
    · exact ⟨rfl, hpeer.inbound f (by rw [hitems]; exact List.mem_cons_self)⟩
  · split at hstep
    · cases hstep
      exact stepsTo_stop (.refl net) (by simp)
    · contradiction

/-- A request that gets a place is worked on by a new task. -/
theorem stepsTo_enter (hf : Came w h .right f)
    (hstep : net.stepEnter task Side.right.index server f = some out) :
    StepsTo w h .right ticket none net out := by
  unfold stepEnter at hstep
  obtain ⟨s, -, hrest⟩ := bind_eq_some_iff.mp hstep
  obtain ⟨⟨entry, gate⟩, -, hlast⟩ := bind_eq_some_iff.mp hrest
  have hsame : net.Same { net with servers := net.servers.set server { s with gate } } :=
    ⟨rfl, rfl, rfl, rfl, rfl, rfl, rfl⟩
  cases entry with
  | refused =>
    cases hlast
    exact stepsTo_stop hsame.leads (by simp)
  | entered =>
    cases hlast
    exact stepsTo_goOn (hsame.leads.trans (leads_spawn _ ⟨rfl, hf⟩)) rfl rfl
  | queued =>
    cases hlast
    exact stepsTo_wait hsame.leads

/-- A response that may be sent is sent. -/
theorem stepsTo_respond (hl : net.Leads w h net') {response : Option Frame}
    (hresponse : ∀ r ∈ response, May w h side (r.sentOn (w.id side))) :
    StepsTo w h side ticket none net (net'.respond server response) := by
  cases response with
  | none => exact stepsTo_goOn hl trivial rfl
  | some r => exact stepsTo_goOn hl ⟨hresponse r rfl, trivial⟩ rfl

/-- Only what a request expects is refused with a response to it. -/
theorem of_refuse_eq_some {request : Header} {fault : Fault} (hr : refuse request fault = some r) :
    request.kind.expectsResponse = true ∧ r.header.callId = request.callId := by
  unfold refuse at hr
  split at hr
  · next hexpects =>
    cases hr
    exact ⟨hexpects, rfl⟩
  · contradiction

/-- Only requests that expect a response get one, with their number. -/
theorem of_conclude_eq_some {request : Header} {outcome : Outcome}
    (hr : Remoting.conclude request outcome = some r) :
    request.kind.expectsResponse = true ∧ r.header.callId = request.callId := by
  cases outcome with
  | result payload =>
    simp only [Remoting.conclude] at hr
    split at hr
    · next hexpects =>
      cases hr
      exact ⟨hexpects, rfl⟩
    · contradiction
  | fault fault => exact of_refuse_eq_some hr
  | crash message => exact of_refuse_eq_some hr

/-- A host makes responses only to requests that expect one, and with the number of the call. -/
theorem of_answer_eq_some {host : Host} (hr : host.answer request = some r) :
    request.header.kind.expectsResponse = true ∧ r.header.callId = request.header.callId := by
  unfold Host.answer at hr
  split at hr
  · next response hjudge =>
    subst hr
    unfold Host.judge at hjudge
    split at hjudge
    · exact absurd (Verdict.answered.inj hjudge) (by simp)
    · split at hjudge
      · next hhello =>
        obtain rfl := some.inj (Verdict.answered.inj hjudge)
        refine ⟨by rw [hhello]; rfl, ?_⟩
        unfold Host.welcome
        split <;> rfl
      · split at hjudge
        · exact of_refuse_eq_some (Verdict.answered.inj hjudge)
        · exact of_refuse_eq_some (Verdict.answered.inj hjudge)
        · split at hjudge
          · exact of_refuse_eq_some (Verdict.answered.inj hjudge)
          · contradiction
  · exact of_conclude_eq_some hr

/-- What the host has made for a request may be sent. -/
theorem may_answer {host : Host} (hcame : Came w h .right request)
    (hanswer : host.answer request = some r) (hmem : (request, r) ∈ h.answers) :
    May w h .right (r.sentOn w.server) := by
  intro _
  obtain ⟨hexpects, hid⟩ := of_answer_eq_some hanswer
  exact ⟨request, hcame.may hexpects, hid, .inl ⟨hcame.fits, r, hmem, rfl⟩⟩

/-- What a handler wants done brings up no response. -/
theorem leads_followUps (object : ObjectId) {followUps : List FollowUp}
    (hposts : ∀ frames, .post frames ∈ followUps → ∀ f ∈ frames, f.header.kind.isResponse = false)
    (net : Net) :
    net.Leads w h (followUps.foldl (fun net f => net.followUp Side.right.index object f) net) := by
  induction followUps generalizing net with
  | nil => exact .refl net
  | cons followUp followUps ih =>
    have hjob : (followUpJob object followUp).Proper w h .right none := by
      cases followUp with
      | ask f deadline => exact fun hside => by contradiction
      | post frames =>
        have hmay : ∀ f ∈ frames, May w h .right (f.sentOn (w.id .right)) := by
          intro f hf hkind
          have hnone := hposts frames List.mem_cons_self f hf
          rw [Frame.sentOn, hnone] at hkind
          contradiction
        cases frames with
        | nil => trivial
        | cons f frames =>
          exact ⟨hmay f List.mem_cons_self,
            fun g hg => hmay g (List.mem_cons_of_mem f hg)⟩
    have hrest := ih (fun frames hmem => hposts frames (List.mem_cons_of_mem _ hmem))
      (net.followUp Side.right.index object followUp)
    exact (leads_spawn net hjob).trans hrest

/-- Handlers do not change the registry. -/
theorem registry_apply (host : Host) (target : ObjectId) (reaction : Reaction) :
    (host.apply target reaction).registry = host.registry := by
  unfold Host.apply
  split <;> rfl

/-- The host answers the request, and its handler may post messages. -/
theorem stepsTo_work (hnet : net.Proper w h) (hcame : Came w h .right request)
    (hanswer : ∀ r, net.host.answer request = some r → (request, r) ∈ h.answers) :
    StepsTo w h .right ticket none net (net.stepWork Side.right.index server request) := by
  have hmay : ∀ r ∈ net.host.answer request, May w h .right (r.sentOn (w.id .right)) :=
    fun r hr => may_answer hcame hr (hanswer r hr)
  unfold stepWork
  unfold Host.answer at hmay
  simp only
  cases hjudge : net.host.judge request.header with
  | answered response =>
    simp only [hjudge] at hmay
    exact stepsTo_respond (.refl net) hmay
  | invoke handler target =>
    simp only [hjudge] at hmay ⊢
    have hdiscreet : Discreet handler := by
      unfold Host.judge at hjudge
      split at hjudge
      · contradiction
      · split at hjudge
        · contradiction
        · split at hjudge
          · contradiction
          · contradiction
          · next handler' hlookup =>
            split at hjudge
            · contradiction
            · obtain ⟨rfl, -⟩ := Verdict.invoke.inj hjudge
              exact hnet.host _ _ hlookup
    generalize hreaction : handler ⟨request.header, request.payload, target, true⟩ = reaction
      at hmay
    have hsame : net.Same { net with host := net.host.apply request.header.target reaction } :=
      ⟨rfl, rfl, registry_apply _ _ _, rfl, rfl, rfl, rfl⟩
    have hl := hsame.leads.trans (leads_followUps (w := w) (h := h) request.header.target
      (fun frames hmem => hdiscreet _ frames (by rw [hreaction]; exact hmem)) _)
    cases reaction.delay with
    | none => exact stepsTo_respond hl hmay
    | some delay => exact stepsTo_goOn hl hmay rfl

/-! ## Any step -/

/-- **What a step of a task can do**, unless it adds a call: nothing is on its way that may not be,
a response is reported only to the call that it belongs to, and a call that has ended is settled. -/
theorem step_leads {t : Task} (hnet : net.Proper w h) (ht : t.Proper w h side)
    (hcall : ∀ f deadline purpose, t.job ≠ .call f deadline purpose)
    (hwork : ∀ server request r, t.job = .work server request →
      net.host.answer request = some r → (request, r) ∈ h.answers)
    (hstep : net.step t = some out) : StepsTo w h side t.ticket t.job.awaits? net out := by
  obtain ⟨id, peer, job, ticket⟩ := t
  obtain ⟨rfl, -, hjob⟩ := ht
  obtain ⟨p, hp, hstep⟩ := bind_eq_some_iff.mp hstep
  have hpeer := hnet.peers side p hp
  simp only at hcall hwork hjob hstep ⊢
  cases job with
  | write => exact stepsTo_write hp hpeer hstep
  | transmit f => exact stepsTo_transmit hp hpeer hjob hstep
  | flush => exact stepsTo_flush hp hpeer hstep
  | close => exact stepsTo_close hpeer hstep
  | stopWriting =>
    cases hstep
    exact stepsTo_stopWriting hp
  | leaveWriting =>
    cases hstep
    rw [hpeer.endpoint]
    exact stepsTo_stop (leads_changeLink fun l hl => hl.of_rests (l.rests_dropSending side))
      (by simp)
  | read => exact stepsTo_read hp hnet hstep
  | accept message =>
    cases hstep
    exact stepsTo_accept hp hpeer hjob
  | deliver f => exact stepsTo_deliver hp hjob hstep
  | stopReading =>
    cases hstep
    exact stepsTo_stopReading hp
  | leaveReading =>
    cases hstep
    rw [hpeer.endpoint]
    exact stepsTo_stop (leads_changeLink fun l hl => hl.dropReceiving) (by simp)
  | call f deadline purpose => exact absurd rfl (hcall f deadline purpose)
  | send f after =>
    cases hstep
    exact stepsTo_send hp hpeer hjob
  | push message after => exact stepsTo_push hp hjob hstep
  | await id limit deadline purpose => exact stepsTo_await hp hpeer hstep
  | serve server =>
    obtain rfl : side = .right := hjob
    exact stepsTo_serve hp hpeer hstep
  | enter server f =>
    obtain ⟨rfl, hf⟩ := hjob
    exact stepsTo_enter hf hstep
  | work server f =>
    obtain ⟨rfl, hf⟩ := hjob
    cases hstep
    exact stepsTo_work hnet hf fun r hr => hwork server f r rfl hr
  | sleep server limit response =>
    simp only at hstep
    split at hstep
    · cases hstep
      exact stepsTo_respond (.refl net) hjob
    · contradiction
  | release server =>
    cases hstep
    have hsame : net.Same (net.release server) := ⟨rfl, rfl, rfl, rfl, rfl, rfl, rfl⟩
    exact stepsTo_goOn hsame.leads trivial rfl
  -- there is no client among the two peers, so these jobs are not proper
  | route client => exact hjob.elim
  | dispatch client f => exact hjob.elim
  | answer client slot request => exact hjob.elim
  | leave =>
    cases hstep
    exact stepsTo_stop (.refl net) (by simp)

end Remoting.Net
