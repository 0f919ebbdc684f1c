import Remoting.Proofs.Ledger
import Remoting.Proofs.Steps

/-!
# Remoting.Proofs.Correlation

Responses come to the calls that they belong to. Of a caller and a server at the two ends of a link,
whatever happens there and in whatever order (`Net.follow`):

* calls have different numbers;
* what was asked for is reported at most once;
* a frame that is reported for a call is the response that the host made for its own request;
* a call that has been reported is not pending any more, and a response to it that arrives later
  changes nothing.

All of this follows from one invariant (`Net.Inv`), which every action keeps (`Net.Inv.act`).
-/

namespace Remoting

open List Option

/-! ## The beginning -/

/-- A link on which nothing has been sent, and on which frames stay in order. The limit of a stream
has to fit into the four bytes of a length. -/
inductive Link.Fresh : Link → Prop where
  | memory : Fresh .memory
  | stream (capacity : Nat) {limit : Nat} (h : limit < 2 ^ 32) : Fresh (.stream capacity limit)

/-- On a new link there is only what may be there. -/
theorem Link.Fresh.safe_split {l : Link} (h : l.Fresh) (May : Side → Frame → Prop) :
    ((l.split .left).split .right).Safe May := by
  refine ⟨fun side => ?_, fun side => ⟨[], ⟨by simp, ?_⟩, by simp⟩⟩
  · cases h with
    | memory => cases side <;> decide
    | stream capacity hlimit =>
      cases side with
      | left => exact hlimit
      | right =>
        show Envelope.defaultLimit < 2 ^ 32
        decide
  · cases h <;> cases side <;> rfl

/-- A peer that has just been set up. -/
theorem Peer.proper_new {w : Wiring} {h : History} (side : Side) {p : Peer}
    (hconnection : p.connection = { id := w.id side }) (hendpoint : p.endpoint = side.index)
    (houtbound : p.outbound.items = []) (hinbound : p.inbound.items = []) :
    p.Proper w h side where
  id := by rw [hconnection]
  endpoint := hendpoint
  outbound := by simp [houtbound]
  inbound := by simp [hinbound]
  sound id c hc := by
    rw [hconnection] at hc
    contradiction
  numbered := by
    rw [hconnection]
    exact ⟨rfl, rfl⟩

namespace Net

variable {net' : Net} {h' : History} {next : Next} {peer : Nat} {job : Job}

/-- What there is at the beginning. -/
theorem facing_eq_ok {host : Host} {link : Link} {settings : PeerSettings} {maxInFlight : Nat}
    {net : Net} (h : facing host link settings maxInFlight = .ok net) :
    net.host = host ∧ net.links = [(link.split .left).split .right] ∧
      net.ownPeers = [0] ∧ net.nextTicket = 0 ∧ net.reports = [] ∧
      net.peers = [
        { connection := { id := settings.connection }
          endpoint := 0
          outbound := .ofCapacity settings.outboundCapacity
          inbound := .ofCapacity settings.inboundCapacity
          held := true },
        { connection := { id := ⟨1⟩ }
          endpoint := 1
          outbound := .ofCapacity 256
          inbound := .ofCapacity 256
          held := false }] ∧
      net.tasks = [⟨0, 0, .write, none⟩, ⟨1, 0, .read, none⟩, ⟨2, 1, .write, none⟩,
        ⟨3, 1, .read, none⟩, ⟨4, 1, .serve 0, none⟩] := by
  unfold facing at h
  obtain ⟨⟨n, net₁⟩, hpeer, h⟩ := bind_eq_ok_iff.mp h
  obtain ⟨net₂, hserver, h⟩ := bind_eq_ok_iff.mp h
  obtain ⟨⟨connection, net₃⟩, hserve, h⟩ := bind_eq_ok_iff.mp h
  cases h
  unfold addPeer at hpeer
  split at hpeer
  · contradiction
  · split at hpeer
    · contradiction
    · obtain ⟨-, rfl⟩ := Prod.mk.inj (Except.ok.inj hpeer)
      obtain rfl := eq_of_addServer hserver
      unfold serve at hserve
      simp only at hserve
      split at hserve
      · contradiction
      · next s hs =>
        obtain rfl : Server.ofLimit maxInFlight = s := some.inj hs
        split at hserve
        · obtain ⟨-, rfl⟩ := Prod.mk.inj (Except.ok.inj hserve)
          exact ⟨rfl, rfl, rfl, rfl, rfl, rfl, rfl⟩
        · contradiction

/-! ## The invariant -/

/-- The table of calls of a caller agrees with the history and with what was reported. -/
structure Tallies (h : History) (reports : List (Nat × Report)) (q : PendingCalls) : Prop where
  numbers : q.calls.map (·.id) = h.numbers.map (·.2)
  settled : ∀ k id report, (k, id) ∈ h.numbers → (k, report) ∈ reports → q.contains id = false

/-- What holds at all times: only what may be on its way is, tickets and numbers are in order, and
the table of the caller and the reports agree with them. -/
structure Inv (w : Wiring) (h : History) (net : Net) : Prop where
  proper : net.Proper w h
  tasks : ∀ t ∈ net.tasks, ∃ side, t.Proper w h side
  ledger : Ledger h net.tasks net.reports net.nextTicket
  ownPeers : net.ownPeers = [Side.left.index]
  caller : ∃ p : Peer, net.peers[Side.left.index]? = some p ∧
    Tallies h net.reports p.connection.pending
  reported : ∀ k r, (k, .frame r) ∈ net.reports →
    ∃ id, (k, id) ∈ h.numbers ∧ Delivers w h .left id r

variable {w : Wiring} {h : History} {net : Net}

/-- The invariant holds at the beginning. -/
theorem inv_of_facing {host : Host} {link : Link} {settings : PeerSettings} {maxInFlight : Nat}
    (hhost : host.Discreet) (hlink : link.Fresh)
    (hnet : facing host link settings maxInFlight = .ok net) :
    Inv ⟨settings.connection, ⟨1⟩⟩ {} net := by
  obtain ⟨hhost', hlinks, hown, hticket, hreports, hpeers, htasks⟩ := facing_eq_ok hnet
  refine ⟨⟨fun side p hp => ?_, fun l hl => ?_, by rw [hhost']; exact hhost⟩, ?_, ?_, hown, ?_, ?_⟩
  · rw [hpeers] at hp
    cases side <;> obtain rfl := some.inj hp <;> exact Peer.proper_new _ rfl rfl rfl rfl
  · rw [hlinks] at hl
    cases hl
    exact hlink.safe_split _
  · intro t ht
    rw [htasks] at ht
    simp only [List.mem_cons, not_mem_nil, or_false] at ht
    rcases ht with rfl | rfl | rfl | rfl | rfl
    · exact ⟨.left, rfl, fun _ => rfl, trivial⟩
    · exact ⟨.left, rfl, fun _ => rfl, trivial⟩
    · exact ⟨.right, rfl, fun _ => rfl, trivial⟩
    · exact ⟨.right, rfl, fun _ => rfl, trivial⟩
    · exact ⟨.right, rfl, fun _ => rfl, rfl⟩
  · have hempty : Ledger {} [] [] 0 := by constructor <;> simp
    rw [htasks, hreports, hticket]
    exact hempty.spawn (by simp)
  · rw [hpeers, hreports]
    exact ⟨_, rfl, rfl, by simp⟩
  · simp [hreports]

/-- Steps that make no call. -/
theorem Inv.leads (hi : Inv w h net) (hl : net.Leads w h net') : Inv w h net' := by
  obtain ⟨new, htasks, hnew⟩ := hl.tasks
  refine ⟨hl.proper hi.proper, ?_, ?_, hl.ownPeers.trans hi.ownPeers, ?_, ?_⟩
  · intro t ht
    rw [htasks] at ht
    rcases mem_append.mp ht with hmem | hmem
    · exact hi.tasks t hmem
    · exact (hnew t hmem).2
  · rw [htasks, hl.reports, hl.nextTicket]
    exact hi.ledger.spawn fun t ht => (hnew t ht).1
  · obtain ⟨p, hp, htallies⟩ := hi.caller
    have hlt : Side.left.index < net'.peers.length := by
      rw [hl.size]
      exact (List.getElem?_eq_some_iff.mp hp).1
    have hp' := getElem?_eq_getElem hlt
    obtain ⟨p₀, hp₀, hleads⟩ := hl.peers .left _ hp'
    obtain rfl := some.inj (hp.symm.trans hp₀)
    refine ⟨_, hp', hleads.calls.trans htallies.numbers, fun k id report hk hreport => ?_⟩
    rw [hl.reports] at hreport
    exact hleads.settled id (htallies.settled k id report hk hreport)
  · rw [hl.reports]
    exact hi.reported

/-! ## What the caller asks for -/

theorem Proper.mono (hle : h.Extends h') (hnet : net.Proper w h) :
    net.Proper w h' where
  peers side p hp := (hnet.peers side p hp).mono hle
  links l hl := (hnet.links l hl).mono fun _ _ hmay => hmay.mono hle
  host := hnet.host

/-- Tasks stay proper while the history grows. -/
theorem Inv.tasks_mono (hle : h.Extends h') (hi : Inv w h net) :
    ∀ t ∈ net.tasks, ∃ side, t.Proper w h' side := by
  intro t ht
  obtain ⟨side, hside⟩ := hi.tasks t ht
  exact ⟨side, hside.mono hle⟩

theorem Inv.reported_mono (hle : h.Extends h') (hi : Inv w h net) :
    ∀ k r, (k, .frame r) ∈ net.reports → ∃ id, (k, id) ∈ h'.numbers ∧ Delivers w h' .left id r := by
  intro k r hmem
  obtain ⟨id, hk, hdelivers⟩ := hi.reported k r hmem
  exact ⟨id, hle.numbers hk, hdelivers.mono hle⟩

/-- The caller asks for something, which may be a call. -/
theorem Inv.start (hi : Inv w h net) (call : Option Frame) (job : Job)
    (hjob : job.Proper w { h with calls := h.calls ++ call.toList.map (net.nextTicket, ·) } .left
      (some net.nextTicket))
    (hawaits : job.awaits? = none) :
    Inv w { h with calls := h.calls ++ call.toList.map (net.nextTicket, ·) }
      (net.start Side.left.index job).2 := by
  have hle : h.Extends { h with calls := h.calls ++ call.toList.map (net.nextTicket, ·) } :=
    ⟨subset_append_left _ _, fun _ hmem => hmem, fun _ hmem => hmem⟩
  obtain ⟨p, hp, htallies⟩ := hi.caller
  have hproper := hi.proper.mono hle
  have hreported := hi.reported_mono hle
  refine ⟨⟨hproper.peers, hproper.links, hproper.host⟩, ?_, hi.ledger.ask rfl hawaits call,
    hi.ownPeers, ⟨p, hp, htallies.numbers, htallies.settled⟩, hreported⟩
  intro t ht
  rcases mem_append.mp ht with hmem | hmem
  · exact hi.tasks_mono hle t hmem
  · obtain rfl := List.mem_singleton.mp hmem
    exact ⟨.left, rfl, fun hside => by contradiction, hjob⟩

/-! ## Steps of tasks -/

variable {side : Side} {t : Task}

/-- A task goes on and waits for the same as before. -/
theorem Inv.setJob (hi : Inv w h net) (ht : t ∈ net.tasks) (hside : t.Proper w h side)
    (hjob : job.Proper w h side t.ticket) (hawaits : job.awaits? = t.job.awaits?) :
    Inv w h (net.setJob t job) := by
  refine ⟨⟨hi.proper.peers, hi.proper.links, hi.proper.host⟩, ?_, hi.ledger.goOn ht hawaits,
    hi.ownPeers, hi.caller, hi.reported⟩
  intro t' ht'
  rcases mem_append.mp ht' with hmem | hmem
  · exact hi.tasks t' (List.mem_filter.mp hmem).1
  · obtain rfl := List.mem_singleton.mp hmem
    exact ⟨side, hside.peer, hside.ticket, hjob⟩

theorem reports_endTask (net : Net) (t : Task) (report : Report) :
    (net.endTask t report).reports = net.reports ++ t.ticket.toList.map (·, report) := by
  unfold endTask
  cases t.ticket with
  | none => simp
  | some ticket => rfl

/-- A task ends. Whoever asked for a call waited for its response until now. -/
theorem Inv.endTask (hi : Inv w h net) (ht : t ∈ net.tasks) (hside : t.Proper w h side)
    {report : Report} (hend : NextProper w h side t.ticket t.job.awaits? net (.ended report)) :
    Inv w h (net.endTask t report) := by
  obtain ⟨hframe, hsettled⟩ := hend
  -- what is new among the reports stands under a ticket, so it is for the caller
  have hreports : ∀ k report', (k, report') ∈ (net.endTask t report).reports →
      (k, report') ∈ net.reports ∨ side = .left ∧ t.ticket = some k ∧ report' = report := by
    intro k report' hmem
    rw [reports_endTask] at hmem
    rcases mem_append.mp hmem with hold | hnew
    · exact .inl hold
    · obtain ⟨k', hk', heq⟩ := List.mem_map.mp hnew
      cases heq
      rw [Option.mem_toList] at hk'
      cases side with
      | left => exact .inr ⟨rfl, hk', rfl⟩
      | right =>
        rw [hside.ticket rfl] at hk'
        contradiction
  refine ⟨⟨hi.proper.peers, hi.proper.links, hi.proper.host⟩, ?_, ?_, hi.ownPeers, ?_, ?_⟩
  · exact fun t' ht' => hi.tasks t' (List.mem_filter.mp ht').1
  · rw [reports_endTask]
    exact hi.ledger.finish ht report
  · obtain ⟨p, hp, htallies⟩ := hi.caller
    refine ⟨p, hp, htallies.numbers, fun k id report' hk hmem => ?_⟩
    rcases hreports k report' hmem with hold | ⟨rfl, hticket, -⟩
    · exact htallies.settled k id report' hk hold
    · exact hsettled id ((hi.ledger.awaits t ht k hticket id).mp hk) p hp
  · intro k r hmem
    rcases hreports k _ hmem with hold | ⟨rfl, hticket, heq⟩
    · exact hi.reported k r hold
    · obtain ⟨id, hawaits, hdelivers⟩ := hframe r heq.symm
      exact ⟨id, (hi.ledger.awaits t ht k hticket id).mpr hawaits, hdelivers⟩

/-- A step that makes no call. -/
theorem Inv.place {out : Stepped} (hi : Inv w h net) (ht : t ∈ net.tasks)
    (hside : t.Proper w h side) (hs : StepsTo w h side t.ticket t.job.awaits? net out) :
    Inv w h (out.1.place t out.2) := by
  obtain ⟨net', next⟩ := out
  have hi' : Inv w h net' := hi.leads hs.leads
  have ht' : t ∈ net'.tasks := by
    obtain ⟨new, htasks, -⟩ := hs.leads.tasks
    rw [htasks]
    exact mem_append_left new ht
  cases next with
  | job job => exact hi'.setJob ht' hside hs.next.1 hs.next.2
  | waiting => exact hi'.setJob ht' hside hside.job rfl
  | ended report => exact hi'.endTask ht' hside hs.next

/-- More responses of the host keep the invariant. -/
theorem Inv.answer (hi : Inv w h net) (more : List (Frame × Frame)) :
    Inv w { h with answers := h.answers ++ more } net := by
  have hle : h.Extends { h with answers := h.answers ++ more } :=
    ⟨fun _ hmem => hmem, fun _ hmem => hmem, subset_append_left _ _⟩
  obtain ⟨p, hp, htallies⟩ := hi.caller
  exact ⟨hi.proper.mono hle, hi.tasks_mono hle, { hi.ledger with }, hi.ownPeers,
    ⟨p, hp, htallies.numbers, htallies.settled⟩, hi.reported_mono hle⟩

/-! ## Steps that make a call -/

/-- A connection to whose table a call was added. -/
def registered (net : Net) (side : Side) (c : Connection) : Net :=
  net.changePeer side.index fun p =>
    { p with connection := { c with pending := c.pending.register.2 } }

/-- A network in which a call was registered is proper. -/
theorem Proper.registered (hnet : net.Proper w h) {p : Peer}
    (hp : net.peers[side.index]? = some p) : (net.registered side p.connection).Proper w h := by
  refine ⟨fun side' p' hp' => ?_, hnet.links, hnet.host⟩
  rcases of_getElem?_changePeer hp' with ⟨rfl, p₀, hp₀, rfl⟩ | hother
  · obtain rfl := some.inj (hp.symm.trans hp₀)
    have hpeer := hnet.peers _ p hp
    exact { hpeer with
      sound := hpeer.sound.register
      numbered := hpeer.numbered.register }
  · exact hnet.peers side' p' hother

/-- What a call that was added to the table of its connection has to do next. -/
theorem may_enroll {c c' : Connection} {f request : Frame} {id : CallId}
    (henroll : c.enroll f = .ok (id, request, c'))
    (hasked : side = .left → ∃ k, (k, f) ∈ h'.calls ∧ (k, id) ∈ h'.numbers) :
    May w h' side (request.sentOn (w.id side)) := by
  obtain ⟨hexpects, -, rfl, -⟩ := Connection.enroll_eq_ok henroll
  cases side with
  | left =>
    intro _
    obtain ⟨k, hcall, hnumber⟩ := hasked rfl
    exact ⟨k, f, id, hcall, hnumber, rfl⟩
  | right =>
    intro hresponse
    have hnone : f.header.kind.expectsResponse = false :=
      MessageKind.expectsResponse_of_isResponse hresponse
    rw [hexpects] at hnone
    contradiction

variable {p : Peer} {f request : Frame} {deadline : Nat} {purpose : Purpose} {id : CallId}
  {c : Connection}

/-- A call of the server itself is none of those of the caller. -/
theorem Inv.enroll_right (hi : Inv w h net) (hside : t.Proper w h .right)
    (hp : net.peers[Side.right.index]? = some p)
    (henroll : p.connection.enroll f = .ok (id, request, c)) :
    Inv w h ((net.registered .right p.connection).setJob t
      (.send request (.await id deadline purpose))) := by
  have hproper := hi.proper.registered hp
  refine ⟨⟨hproper.peers, hproper.links, hproper.host⟩, ?_, ?_, hi.ownPeers, ?_, hi.reported⟩
  · intro t' ht'
    rcases mem_append.mp ht' with hmem | hmem
    · exact hi.tasks t' (List.mem_filter.mp hmem).1
    · obtain rfl := List.mem_singleton.mp hmem
      exact ⟨.right, hside.peer, hside.ticket, may_enroll henroll (by simp), trivial⟩
  · refine (hi.ledger.sublist (filter_subset_self net.tasks)).spawn ?_
    intro t' ht'
    obtain rfl := List.mem_singleton.mp ht'
    exact hside.ticket rfl
  · obtain ⟨q, hq, htallies⟩ := hi.caller
    refine ⟨q, ?_, htallies⟩
    show (net.registered .right p.connection).peers[Side.left.index]? = some q
    rw [← hq]
    simp [registered, changePeer, Side.index]

/-- A call of the caller gets its number. -/
theorem Inv.enroll_left (hi : Inv w h net) (ht : t ∈ net.tasks) (hside : t.Proper w h .left)
    (hp : net.peers[Side.left.index]? = some p) (hjob : t.job = .call f deadline purpose)
    (henroll : p.connection.enroll f = .ok (id, request, c)) {k : Nat} (hk : t.ticket = some k) :
    Inv w { h with numbers := h.numbers ++ [(k, id)] }
      ((net.registered .left p.connection).setJob t
        (.send request (.await id deadline purpose))) := by
  have hle : h.Extends { h with numbers := h.numbers ++ [(k, id)] } :=
    ⟨fun _ hmem => hmem, subset_append_left _ _, fun _ hmem => hmem⟩
  have hproper := (hi.proper.mono hle).registered hp
  have hreported := hi.reported_mono hle
  have hcall : (k, f) ∈ h.calls := by
    have hcalled := hside.job
    rw [hjob] at hcalled
    obtain ⟨k', hk', hmem⟩ := hcalled rfl
    rwa [some.inj (hk.symm.trans hk')]
  obtain ⟨-, hid, -, -⟩ := Connection.enroll_eq_ok henroll
  refine ⟨⟨hproper.peers, hproper.links, hproper.host⟩, ?_, ?_, hi.ownPeers, ?_, hreported⟩
  · intro t' ht'
    rcases mem_append.mp ht' with hmem | hmem
    · exact hi.tasks_mono hle t' (List.mem_filter.mp hmem).1
    · obtain rfl := List.mem_singleton.mp hmem
      exact ⟨.left, hside.peer, hside.ticket,
        may_enroll henroll fun _ => ⟨k, hcall, by simp⟩, trivial⟩
  · exact hi.ledger.number ht hk (by rw [hjob]; rfl) hcall rfl
  · obtain ⟨q, hq, htallies⟩ := hi.caller
    obtain rfl := some.inj (hp.symm.trans hq)
    refine ⟨_, getElem?_changePeer hp _, ?_, ?_⟩
    · rw [map_append, ← htallies.numbers, hid]
      exact map_append
    · -- the other calls stand as they did, and nothing has been reported for the new one
      intro k' id' report hnumber hreport
      rcases mem_append.mp hnumber with hold | hnew
      · have hmem : id' ∈ p.connection.pending.calls.map (·.id) := by
          rw [htallies.numbers]
          exact List.mem_map.mpr ⟨_, hold, rfl⟩
        show p.connection.pending.register.2.contains id' = false
        rw [PendingCalls.contains_register_of_mem hmem]
        exact htallies.settled k' id' report hold hreport
      · obtain ⟨rfl, -⟩ := Prod.mk.inj (List.mem_singleton.mp hnew)
        exact absurd hreport (hi.ledger.unreported t ht k' report hk)

/-! ## Every action -/

/-- Only the host's responses are noted unless a call is made. -/
theorem note_of_no_call (h : History)
    (hcall : ∀ f deadline purpose, t.job ≠ .call f deadline purpose) :
    ∃ more, net.note t next h = { h with answers := h.answers ++ more } ∧
      ∀ server request r, t.job = .work server request → net.host.answer request = some r →
        (request, r) ∈ more := by
  unfold note
  split
  · next hjob _ => exact absurd hjob (hcall _ _ _)
  · next server request hjob =>
    refine ⟨_, rfl, fun server' request' r hjob' hr => ?_⟩
    obtain ⟨rfl, rfl⟩ := Job.work.inj (hjob.symm.trans hjob')
    simp [hr]
  · next hwork _ =>
    exact ⟨[], by simp, fun server request r hjob => absurd hjob (hwork server request)⟩

/-- A step that registers no call keeps the invariant. -/
theorem Inv.step_of_no_call (hi : Inv w h net) (ht : t ∈ net.tasks)
    (hcall : ∀ f deadline purpose, t.job ≠ .call f deadline purpose)
    (hstep : net.step t = some (net', next)) : Inv w (net.note t next h) (net'.place t next) := by
  obtain ⟨more, hnote, hmore⟩ := note_of_no_call h hcall
  rw [hnote]
  have hi' := hi.answer more
  obtain ⟨side, hside⟩ := hi'.tasks t ht
  refine hi'.place ht hside (step_leads hi'.proper hside hcall (fun server request r hjob hr => ?_)
    hstep)
  exact mem_append_right _ (hmore server request r hjob hr)

/-- So does a step that registers one. -/
theorem Inv.step_of_call (hi : Inv w h net) (ht : t ∈ net.tasks)
    (hjob : t.job = .call f deadline purpose) (hstep : net.step t = some (net', next)) :
    Inv w (net.note t next h) (net'.place t next) := by
  obtain ⟨side, hside⟩ := hi.tasks t ht
  obtain ⟨p, hp, hstep⟩ := bind_eq_some_iff.mp hstep
  rw [hjob, hside.peer] at hstep
  rw [hside.peer] at hp
  have hout : net.stepCall side.index p f deadline purpose = (net', next) := some.inj hstep
  unfold stepCall at hout
  cases henroll : p.connection.enroll f with
  | error fault =>
    rw [henroll] at hout
    obtain ⟨net'', report, hconclude, -⟩ := conclude_eq net (.error fault) purpose
    obtain rfl : .ended report = next := (Prod.mk.inj (hconclude.symm.trans hout)).2
    have hnote : net.note t (.ended report) h = h := by simp [note, hjob]
    have hs : StepsTo w h side t.ticket t.job.awaits? net (net', .ended report) := by
      rw [← hout, hjob]
      exact stepsTo_conclude (.refl net) (by simp) (by simp [Job.awaits?])
    rw [hnote]
    exact hi.place ht hside hs
  | ok enrolled =>
    obtain ⟨id, request, c⟩ := enrolled
    obtain ⟨-, -, -, rfl⟩ := Connection.enroll_eq_ok henroll
    rw [henroll] at hout
    cases hout
    cases side with
    | right =>
      have hnote : net.note t (.job (.send request (.await id deadline purpose))) h = h := by
        simp [note, hjob, hside.ticket rfl]
      rw [hnote]
      exact hi.enroll_right hside hp henroll
    | left =>
      have hcalled := hside.job
      rw [hjob] at hcalled
      obtain ⟨k, hk, -⟩ := hcalled rfl
      have hnote : net.note t (.job (.send request (.await id deadline purpose))) h =
          { h with numbers := h.numbers ++ [(k, id)] } := by
        simp [note, hjob, hk]
      rw [hnote]
      exact hi.enroll_left ht hside hp hjob henroll hk

/-- Every step keeps the invariant. -/
theorem Inv.step (hi : Inv w h net) (ht : t ∈ net.tasks) (hstep : net.step t = some (net', next)) :
    Inv w (net.note t next h) (net'.place t next) := by
  by_cases hcall : ∃ f deadline purpose, t.job = .call f deadline purpose
  · obtain ⟨f, deadline, purpose, hjob⟩ := hcall
    exact hi.step_of_call ht hjob hstep
  · exact hi.step_of_no_call ht (fun f deadline purpose hjob => hcall ⟨f, deadline, purpose, hjob⟩)
      hstep

theorem leads_keepPlace (hpeer : t.peer = side.index) : net.Leads w h (net.keepPlace t) := by
  unfold keepPlace
  rw [hpeer]
  split
  · exact leads_changePeer_of fun p _ => p.leads_outbound fun f hf => .inl hf
  · exact leads_changePeer_of fun p _ => p.leads_inbound fun f hf => .inl hf
  · exact Same.leads ⟨rfl, rfl, rfl, rfl, rfl, rfl, rfl⟩
  · exact .refl net

theorem Inv.eq_of_ownPeers (hi : Inv w h net) (hown : net.ownPeers[0]? = some peer) :
    peer = Side.left.index := by
  rw [hi.ownPeers] at hown
  exact (some.inj hown).symm

/-- The first peer that was started by itself is the caller's. -/
theorem Inv.eq_of_ownPeer? (hi : Inv w h net) (hown : net.ownPeer? 0 = some peer) :
    peer = Side.left.index := by
  obtain ⟨peer', hpeer', hrest⟩ := bind_eq_some_iff.mp hown
  obtain ⟨p, -, hheld⟩ := bind_eq_some_iff.mp hrest
  split at hheld
  · cases hheld
    exact hi.eq_of_ownPeers hpeer'
  · contradiction

/-- What is asked for through the caller's own peer is asked for on the left side. -/
theorem Inv.eq_start (hi : Inv w h net) {asked : Nat × Net}
    (hasked : (net.ownPeer? 0).bind (fun peer => some (net.start peer job)) = some asked) :
    asked = net.start Side.left.index job := by
  obtain ⟨peer, hpeer, hstart⟩ := bind_eq_some_iff.mp hasked
  rw [← hi.eq_of_ownPeer? hpeer]
  exact (some.inj hstart).symm

/-- What is asked for without a call keeps the invariant. -/
theorem Inv.start_of_no_call (hi : Inv w h net) (hjob : job.Proper w h .left (some net.nextTicket))
    (hawaits : job.awaits? = none) :
    Inv w h (net.start Side.left.index job).2 := by
  have hstart := hi.start none job
  simp only [toList_none, map_nil, append_nil] at hstart
  exact hstart hjob hawaits

/-- Every action keeps the invariant. -/
theorem Inv.act {action : Action} (hi : Inv w h net) (hact : net.act h action = some (h', net')) :
    Inv w h' net' := by
  obtain ⟨caller, hcaller, -⟩ := hi.caller
  have hsame {net'' : Net} (hs : net.Same net'') : Inv w h net'' := hi.leads hs.leads
  cases action with
  | call f deadline =>
    obtain ⟨asked, hcall, heq⟩ := bind_eq_some_iff.mp hact
    obtain rfl := hi.eq_start hcall
    obtain ⟨rfl, rfl⟩ := Prod.mk.inj (some.inj heq)
    exact hi.start (some f) _ (fun _ => ⟨_, rfl, by simp⟩) rfl
  | send f =>
    simp only [Net.act] at hact
    split at hact
    · contradiction
    · next hexpects =>
      obtain ⟨asked, hsend, heq⟩ := map_eq_some_iff.mp hact
      obtain rfl := hi.eq_start hsend
      obtain ⟨rfl, rfl⟩ := Prod.mk.inj heq
      exact hi.start_of_no_call ⟨fun hkind => absurd hkind hexpects, trivial⟩ rfl
  | close =>
    obtain ⟨asked, hclose, heq⟩ := map_eq_some_iff.mp hact
    obtain rfl := hi.eq_start hclose
    obtain ⟨rfl, rfl⟩ := Prod.mk.inj heq
    exact hi.start_of_no_call trivial rfl
  | letGo =>
    obtain ⟨net'', hdrop, heq⟩ := map_eq_some_iff.mp hact
    obtain ⟨peer, hpeer, hlast⟩ := bind_eq_some_iff.mp hdrop
    obtain rfl := hi.eq_of_ownPeer? hpeer
    obtain rfl := some.inj hlast
    obtain ⟨rfl, rfl⟩ := Prod.mk.inj heq
    exact hi.leads (leads_changePeer hcaller ⟨fun hp => { hp with }, rfl, fun _ hid => hid⟩)
  | hangUp =>
    obtain ⟨rfl, rfl⟩ := Prod.mk.inj (some.inj hact)
    have hclose : (Job.push .close .shutDown).Proper w h .right none := trivial
    exact hi.leads (leads_spawn net hclose)
  | take =>
    obtain ⟨⟨taken, net''⟩, htake, heq⟩ := map_eq_some_iff.mp hact
    obtain ⟨rfl, rfl⟩ := Prod.mk.inj heq
    obtain ⟨peer, hpeer, hrest⟩ := bind_eq_some_iff.mp htake
    obtain rfl := hi.eq_of_ownPeers hpeer
    obtain ⟨p, hp, hlast⟩ := bind_eq_some_iff.mp hrest
    split at hlast
    · split at hlast
      · next f inbound hpop =>
        obtain ⟨-, rfl⟩ := Prod.mk.inj (some.inj hlast)
        refine hi.leads (leads_changePeer hp (p.leads_inbound fun g hg => .inl ?_))
        rw [items_of_pop? hpop]
        exact List.mem_cons_of_mem f hg
      · obtain ⟨-, rfl⟩ := Prod.mk.inj (some.inj hlast)
        exact hi
    · obtain ⟨-, rfl⟩ := Prod.mk.inj (some.inj hlast)
      exact hi
  | ignore =>
    obtain ⟨net'', hdrop, heq⟩ := map_eq_some_iff.mp hact
    obtain ⟨peer, hpeer, hlast⟩ := bind_eq_some_iff.mp hdrop
    obtain rfl := hi.eq_of_ownPeers hpeer
    obtain rfl := some.inj hlast
    obtain ⟨rfl, rfl⟩ := Prod.mk.inj heq
    exact hi.leads (leads_changePeer hcaller (caller.leads_inbound (by simp [Channel.abandon])))
  | tick =>
    obtain ⟨rfl, rfl⟩ := Prod.mk.inj (some.inj hact)
    exact hsame ⟨rfl, rfl, rfl, rfl, rfl, rfl, rfl⟩
  | go task =>
    obtain ⟨t, htask, hrest⟩ := bind_eq_some_iff.mp hact
    obtain ⟨⟨net'', next⟩, hstep, hlast⟩ := bind_eq_some_iff.mp hrest
    obtain ⟨rfl, rfl⟩ := Prod.mk.inj (some.inj hlast)
    exact hi.step (mem_of_find?_eq_some htask) hstep
  | hold task =>
    obtain ⟨t, htask, heq⟩ := map_eq_some_iff.mp hact
    obtain ⟨rfl, rfl⟩ := Prod.mk.inj heq
    obtain ⟨side, hside⟩ := hi.tasks t (mem_of_find?_eq_some htask)
    exact hi.leads (leads_keepPlace hside.peer)
  | order agenda =>
    obtain ⟨rfl, rfl⟩ := Prod.mk.inj (some.inj hact)
    exact hsame ⟨rfl, rfl, rfl, rfl, rfl, rfl, rfl⟩

/-- Every run keeps the invariant. -/
theorem Inv.follow {actions : List Action} (hi : Inv w h net)
    (hrun : net.follow h actions = some (h', net')) : Inv w h' net' := by
  induction actions generalizing net h with
  | nil =>
    cases hrun
    exact hi
  | cons action actions ih =>
    obtain ⟨⟨h₁, net₁⟩, hact, hrest⟩ := bind_eq_some_iff.mp hrun
    exact ih (hi.act hact) hrest

/-! ## Calls and responses -/

theorem changePeer_eq_self {change : Peer → Peer} (hp : net.peers[peer]? = some p)
    (hchange : change p = p) : net.changePeer peer change = net := by
  have hpeers : net.peers.modify peer change = net.peers := by
    refine ext_getElem? fun n => ?_
    rw [getElem?_modify]
    by_cases hn : peer = n
    · subst hn
      simp [hp, hchange]
    · simp [hn]
  rw [changePeer, hpeers]

/-- A response to a call that is not pending changes nothing. -/
theorem stepAccept_of_not_contains {message : Except MalformedFrame Frame}
    (hp : net.peers[peer]? = some p) (hresponse : (headerOf message).kind.isResponse = true)
    (hid : p.connection.pending.contains (headerOf message).callId = false) :
    net.stepAccept peer p message = net.goOn .read := by
  rw [stepAccept, Connection.accept_of_not_contains hresponse hid]
  show (net.changePeer peer fun p' => { p' with connection := p.connection }).goOn .read = _
  rw [changePeer_eq_self hp rfl]

/-- No two calls have the same number, if there are not too many. -/
theorem Inv.numbers_nodup (hi : Inv w h net) (hcount : h.calls.length < 2 ^ 64 - 1) :
    (h.numbers.map (·.2)).Nodup := by
  obtain ⟨p, hp, htallies⟩ := hi.caller
  have hlen : p.connection.pending.calls.length = h.numbers.length := by
    simpa using congrArg length htallies.numbers
  have hle := hi.ledger.length_numbers_le
  rw [← htallies.numbers, (hi.proper.peers .left p hp).numbered.calls]
  exact PendingCalls.nodup_numbering (by omega)

/-- What is reported as the response to a call answers its own request. -/
theorem Inv.answers_own (hi : Inv w h net) (hcount : h.calls.length < 2 ^ 64 - 1) {k : Nat}
    {r : Frame} (hreport : (k, .frame r) ∈ net.reports) :
    ∃ f id, (k, f) ∈ h.calls ∧ (k, id) ∈ h.numbers ∧
      Answers w h ((f.numbered id).sentOn w.caller) r := by
  obtain ⟨id, hk, hdelivers⟩ := hi.reported k r hreport
  obtain ⟨request, ⟨k', f, id', hcall, hk', rfl⟩, hcallId, hanswers⟩ :=
    hdelivers.may hdelivers.response
  have hid : id = id' := hdelivers.callId.symm.trans hcallId
  have hsame := List.inj_on_of_nodup_map (hi.numbers_nodup hcount) hk hk' hid
  cases hsame
  exact ⟨f, id, hcall, hk, hanswers⟩

/-- Calls and responses belong together. -/
structure Correlated (w : Wiring) (h : History) (net : Net) : Prop where
  /-- A ticket stands for one call. -/
  tickets : (h.calls.map (·.1)).Nodup
  /-- A call has one number, and different calls have different ones. -/
  numbers : ∀ k id k' id', (k, id) ∈ h.numbers → (k', id') ∈ h.numbers → (k = k' ↔ id = id')
  /-- Whatever was asked for is reported once at most. -/
  once : (net.reports.map (·.1)).Nodup
  /-- A frame is only reported for a call, and as the response to its own request: what the host
  has made for it, or, if the request does not fit the format, the error with which the peer of the
  server refuses it before it gets to the host. -/
  own : ∀ k r, (k, .frame r) ∈ net.reports →
    ∃ f id, (k, f) ∈ h.calls ∧ (k, id) ∈ h.numbers ∧ Answers w h ((f.numbered id).sentOn w.caller) r
  /-- A call that was reported, whatever came of it, is not pending; a response to it that arrives
  now, damaged or not, changes nothing. -/
  settled : ∃ p : Peer, net.peers[0]? = some p ∧
    ∀ k id report, (k, id) ∈ h.numbers → (k, report) ∈ net.reports →
      p.connection.pending.contains id = false ∧
      ∀ message, (headerOf message).kind.isResponse = true → (headerOf message).callId = id →
        net.stepAccept 0 p message = net.goOn .read

/-- While numbers last, calls and responses belong together. -/
theorem Inv.correlated (hi : Inv w h net) (hcount : h.calls.length < 2 ^ 64 - 1) :
    Correlated w h net where
  tickets := hi.ledger.callsOnce
  numbers k id k' id' hk hk' := by
    constructor
    · intro heq
      exact (Prod.mk.inj (List.inj_on_of_nodup_map hi.ledger.numbersOnce hk hk' heq)).2
    · intro heq
      exact (Prod.mk.inj (List.inj_on_of_nodup_map (hi.numbers_nodup hcount) hk hk' heq)).1
  once := hi.ledger.reportsOnce
  own k r hreport := hi.answers_own hcount hreport
  settled := by
    obtain ⟨p, hp, htallies⟩ := hi.caller
    refine ⟨p, hp, fun k id report hk hreport => ?_⟩
    have hnot := htallies.settled k id report hk hreport
    refine ⟨hnot, fun message hresponse hid => ?_⟩
    exact stepAccept_of_not_contains hp hresponse (by rw [hid]; exact hnot)

/-- **Calls and responses belong together**, in every state that a caller and a server on a new link
can come to: whatever the caller asks for, whenever calls time out, in whatever order the tasks of
both sides go on, and whether or not the connection is closed. -/
theorem correlated_of_follow {host : Host} {link : Link} {settings : PeerSettings}
    {maxInFlight : Nat} {start net : Net} {actions : List Action} {h : History}
    (hhost : host.Discreet) (hlink : link.Fresh)
    (hstart : facing host link settings maxInFlight = .ok start)
    (hrun : start.follow {} actions = some (h, net)) (hcount : h.calls.length < 2 ^ 64 - 1) :
    Correlated ⟨settings.connection, ⟨1⟩⟩ h net :=
  ((inv_of_facing hhost hlink hstart).follow hrun).correlated hcount

/-- A host with one object, whose only operation returns its arguments. -/
def echoHost : Host where
  registry := { entries := [⟨⟨0, 5⟩, "echo", Script.echo.run⟩], serving := true }
  objects := { objects := [(⟨1⟩, { interface := ⟨0⟩ })] }

/-- A request to the object of that host. -/
def echoRequest (n : Int64) : Frame :=
  ⟨{ kind := .twoWayCall, target := ⟨1⟩, digest := ⟨0, 5⟩ }, [.int n]⟩

/-- Of two calls the first one times out. The server answers the second one first, and then both
responses arrive. -/
def lateResponse : List Action :=
  [.call (echoRequest 1) 1, .call (echoRequest 2) 50, .go 5, .go 6, .go 5, .go 6, .go 5, .go 6,
    .go 0, .go 0, .go 0, .go 0, .go 0, .go 0, .go 3, .go 3, .go 3, .go 3, .go 3, .go 3,
    .go 4, .go 4, .go 4, .go 4, .tick, .go 5, .go 8, .go 8, .go 8, .go 7, .go 7, .go 7,
    .go 2, .go 2, .go 2, .go 2, .go 2, .go 2, .go 1, .go 1, .go 1, .go 1, .go 6]

/-- A response that comes too late is dropped, and the other call gets its own. -/
theorem correlated_lateResponse :
    ∃ start h net, facing echoHost .memory {} 4 = .ok start ∧
      start.follow {} lateResponse = some (h, net) ∧
      net.reports = [(0, .fault (Connection.timeoutFault 1)),
        (1, .frame (((Frame.resultFor (echoRequest 2).header [.int 2]).numbered ⟨2⟩).sentOn ⟨1⟩))] ∧
      Correlated ⟨⟨0⟩, ⟨1⟩⟩ h net := by
  have hrun : ((facing echoHost .memory {} 4).toOption.bind fun start =>
      (start.follow {} lateResponse).map fun run => (run.1.calls.length, run.2.reports)) =
      some (2, [(0, .fault (Connection.timeoutFault 1)),
        (1, .frame (((Frame.resultFor (echoRequest 2).header [.int 2]).numbered ⟨2⟩).sentOn ⟨1⟩))])
      := by decide +kernel
  obtain ⟨start, hfacing, hrest⟩ := Option.bind_eq_some_iff.mp hrun
  obtain ⟨⟨h, net⟩, hfollow, heq⟩ := Option.map_eq_some_iff.mp hrest
  obtain ⟨hcount, hreports⟩ := Prod.mk.inj heq
  have hstart : facing echoHost .memory {} 4 = .ok start := by
    cases hcase : facing echoHost .memory {} 4 with
    | error e => simp [hcase, Except.toOption] at hfacing
    | ok net => simpa [hcase, Except.toOption] using hfacing
  have hhost : echoHost.Discreet := Host.discreet_of_scripts (by simp [echoHost])
  have hcalls : h.calls.length < 2 ^ 64 - 1 := by rw [hcount]; decide
  exact ⟨start, h, net, hstart, hfollow, hreports,
    correlated_of_follow hhost .memory hstart hfollow hcalls⟩

end Net

end Remoting
