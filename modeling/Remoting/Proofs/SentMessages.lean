import Remoting.Proofs.Arrivals

/-!
# Remoting.Proofs.SentMessages

What goes out at a peer. A message is put among what goes out by the task that has it in hand, when
there is room (`Net.departures_push`), and by nobody else (`Net.departures_step`). So it can be told
who sent what in a run (`Net.sentBy`).
-/

namespace Remoting

/-- A message that goes out is a response to a request. -/
def Outgoing.Responds (request : Header) (kind : MessageKind) (payload : List Field) :
    Outgoing → Prop
  | .frame response =>
    response.header.kind = kind ∧ response.header.callId = request.callId ∧
      response.header.target = request.target ∧ response.header.digest = request.digest ∧
      response.payload = payload
  | .close => False

theorem Outgoing.responds_errorFor (request : Header) (fault : Fault) :
    (Outgoing.frame (.errorFor request fault)).Responds request .error
      [.string fault.wireDomain, .string fault.message] :=
  ⟨rfl, rfl, rfl, rfl, rfl⟩

/-- A message says the same on whichever connection it goes out. -/
theorem Outgoing.Responds.stamp {request : Header} {kind : MessageKind} {payload : List Field}
    {response : Frame} (h : (Outgoing.frame response).Responds request kind payload)
    (c : Connection) : (Outgoing.frame (c.stamp response)).Responds request kind payload := h

/-- Who gets no answer at a gate waits there. -/
theorem Gate.mem_waiting_of_enter {g : Gate} {task : Nat} (h : g.enter task = none) :
    task ∈ g.waiting := by
  unfold Gate.enter at h
  split at h
  · contradiction
  · split at h
    · contradiction
    · split at h
      · assumption
      · split at h <;> contradiction

/-- An open gate refuses nobody. -/
theorem Gate.enter_ne_refused {g g' : Gate} {task : Nat} (hopen : g.closed = false) :
    g.enter task ≠ some (.refused, g') := by
  unfold Gate.enter
  rw [hopen]
  split
  · contradiction
  · split
    · simp
    · split
      · simp
      · split <;> simp

namespace Net

variable {net net' : Net} {a : Happening} {happenings : List Happening} {t : Task} {next : Next}
  {p : Peer} {message : Outgoing} {after : After}

/-- What is to go out at a peer. -/
def outboundAt (net : Net) (k : Nat) : List Outgoing :=
  match net.peers[k]? with
  | some p => p.outbound.items
  | none => []

/-- What is put among what goes out at a peer with a happening. -/
def departures (k : Nat) : Net → Happening → List Outgoing := gained (·.outboundAt k)

/-- What tasks of some sort put among what goes out at a peer with a happening. -/
def departuresBy (sort : Task → Bool) (k : Nat) (net : Net) : Happening → List Outgoing
  | .go task => if (net.task? task).any sort then departures k net (.go task) else []
  | _ => []

/-- What tasks of some sort send at a peer in a run. -/
def sentBy (sort : Task → Bool) (net : Net) (happenings : List Happening) (k : Nat) :
    List Outgoing := net.trace (departuresBy sort k) happenings

theorem departuresBy_of_ne_go (sort : Task → Bool) (k : Nat) (hgo : ∀ task, a ≠ .go task) :
    departuresBy sort k net a = [] := by
  cases a with
  | go task => exact absurd rfl (hgo task)
  | _ => rfl

theorem departuresBy_go {sort : Task → Bool} (htask : net.task? t.id = some t) (hsort : sort t = true)
    (k : Nat) : departuresBy sort k net (.go t.id) = departures k net (.go t.id) := by
  simp [departuresBy, htask, hsort]

theorem departuresBy_go_of_not {sort : Task → Bool} (htask : net.task? t.id = some t)
    (hsort : sort t = false) (k : Nat) : departuresBy sort k net (.go t.id) = [] := by
  simp [departuresBy, htask, hsort]

theorem outboundAt_eq {k : Nat} (hp : net.peers[k]? = some p) :
    net.outboundAt k = p.outbound.items := by
  rw [outboundAt, hp]

theorem outboundAt_place (net : Net) (t : Task) (next : Next) (k : Nat) :
    (net.place t next).outboundAt k = net.outboundAt k := by
  rw [outboundAt, outboundAt, peers_place]

theorem happen_go (htask : net.task? t.id = some t) (hstep : net.step t = some (net', next)) :
    net.happen (.go t.id) = some (net'.place t next) := by
  simp [happen, htask, hstep]

theorem step_eq_none_of_happen (htask : net.task? t.id = some t)
    (h : net.happen (.go t.id) = none) : net.step t = none := by
  cases hstep : net.step t with
  | none => rfl
  | some out => simp [happen_go htask hstep] at h

/-- What goes out is only put there by tasks at the same peer, which had it in hand. -/
theorem departures_step (htask : net.task? t.id = some t)
    (hstep : net.step t = some (net', next)) (k : Nat) :
    departures k net (.go t.id) = [] ∨ (t.peer = k ∧ ∃ message after, t.job = .push message after ∧
      departures k net (.go t.id) = [message]) := by
  have ha := happen_go htask hstep
  obtain ⟨p, p', hp, hstepped, hp', hothers⟩ := step_peer hstep
  rw [← peers_place net' t next] at hp' hothers
  by_cases hk : t.peer = k
  · subst hk
    obtain hsuffix | ⟨message, after, hjob, hmore⟩ := hstepped.outbound
    · exact .inl (gained_of_suffix ha (by rwa [outboundAt_eq hp, outboundAt_eq hp']))
    · refine .inr ⟨rfl, message, after, hjob, ?_⟩
      rw [departures, gained_eq _ ha, outboundAt_eq hp, outboundAt_eq hp', hmore, List.drop_left]
  · have hsame : (net'.place t next).outboundAt k = net.outboundAt k := by
      rw [outboundAt, outboundAt, hothers k hk]
    exact .inl (gained_of_suffix ha (by rw [hsame]))

/-- Who has a message that is to go out puts it there, or waits for room. -/
theorem departures_push (hjob : t.job = .push message after) (hp : net.peers[t.peer]? = some p)
    (hopen : p.outbound.gate.closed = false) (htask : net.task? t.id = some t)
    (hstep : net.step t = some (net', next)) :
    (next = .waiting ∧ departures t.peer net (.go t.id) = []) ∨
      (departures t.peer net (.go t.id) = [message] ∧
        ∃ net₁ : Net, net₁.resume t.peer (.ok ()) after = (net', next)) := by
  have ha := happen_go htask hstep
  have hlt := (List.getElem?_eq_some_iff.mp hp).1
  have hpush : net.stepPush t.id t.peer p message after = some (net', next) := by
    simpa [step, hp, hjob] using hstep
  obtain ⟨⟨entry, gate⟩, henter, hout⟩ := Option.bind_eq_some_iff.mp hpush
  cases entry with
  | refused => exact absurd henter (Gate.enter_ne_refused hopen)
  | queued =>
    cases hout
    refine .inl ⟨rfl, gained_of_suffix ha ?_⟩
    rw [outboundAt_place, outboundAt_eq hp, outboundAt, peers_changePeer hp,
      List.getElem?_set_self hlt]
  | entered =>
    have hresumed := Option.some.inj hout
    have hchanged := peers_changePeer hp fun q =>
      { q with outbound := { p.outbound with gate }.push message }
    have hp₁ : ((net.changePeer t.peer fun q =>
        { q with outbound := { p.outbound with gate }.push message }).peers)[t.peer]? =
        some { p with outbound := { p.outbound with gate }.push message } := by
      simp [hchanged, hlt]
    obtain ⟨p', hpeers, hitems, -⟩ := peers_resume hp₁ (.ok ()) after
    rw [hresumed, hchanged, List.set_set] at hpeers
    have hp' : net'.peers[t.peer]? = some p' := by
      rw [show net'.peers = _ from hpeers, List.getElem?_set_self hlt]
    refine .inr ⟨?_, _, hresumed⟩
    rw [departures, gained_eq _ ha, outboundAt_place, outboundAt_eq hp, outboundAt_eq hp', hitems,
      Channel.push, List.drop_left]

/-- Who cannot put a message among what goes out waits for room. -/
theorem mem_waiting_of_push (hjob : t.job = .push message after)
    (hp : net.peers[t.peer]? = some p) (hstep : net.step t = none) :
    t.id ∈ p.outbound.gate.waiting := by
  have hpush : net.stepPush t.id t.peer p message after = none := by
    simpa [step, hp, hjob] using hstep
  cases henter : p.outbound.gate.enter t.id with
  | none => exact Gate.mem_waiting_of_enter henter
  | some found =>
    obtain ⟨entry, gate⟩ := found
    cases entry <;> simp [stepPush, henter] at hpush

/-- What is sent on an open connection is stamped. -/
theorem step_send {frame : Frame} (hjob : t.job = .send frame after)
    (hp : net.peers[t.peer]? = some p) (hopen : p.connection.closed = false) :
    net.step t = some (net, .job (.push (.frame (p.connection.stamp frame)) after)) := by
  simp [step, hp, hjob, stepSend, hopen, goOn]

end Net

end Remoting
