import Remoting.Proofs.CallSteps

/-!
# Remoting.Proofs.CallRuns

Calls from beginning to end. A run is any list of steps of tasks, places kept for tasks, changes of
turns and milliseconds that pass (`Net.Runs`), so there is a run for every order in which the tasks
can go on.

`Net.call_resolves` says what a call on an idle connection comes to in every run: the tasks cannot
go on for ever, what is reported is what the response says unless the time is over, and a network
that has settled, and settles again after as long as the handler takes, has reported the end of the
call and is idle as before. The run that the scheduler picks is one of these
(`Net.Completes.advance`).
-/

namespace Remoting

open List Option

/-- How often a task goes on. -/
def Action.steps : List Action → Nat
  | [] => 0
  | .go _ :: actions => steps actions + 1
  | _ :: actions => steps actions

/-- No task can go on. -/
def Net.Settled (net : Net) : Prop := ∀ id t, net.task? id = some t → net.step t = none

/-- How something that was asked for goes on and ends. -/
structure Net.Completes (net : Net) (ticket deadline delay : Nat) (Expected : Report → Prop)
    (After : Picture → Prop) : Prop where
  /-- The tasks do not go on for ever, -/
  bounded : ∃ most, ∀ actions net', net.Runs actions net' → Action.steps actions ≤ most
  /-- and as long as they can, they need not wait for time to pass. -/
  settles : ∀ actions net', net.Runs actions net' →
    ∃ more net'', net'.Runs more net'' ∧ net''.Settled ∧ Action.ticks more = 0
  /-- Only what is expected is reported, unless the time is over. -/
  reports : ∀ actions net', net.Runs actions net' → ∀ report, (ticket, report) ∈ net'.reports →
    Expected report ∨
      report = .fault (Connection.timeoutFault deadline) ∧ deadline ≤ Action.ticks actions
  /-- A network that has settled, and settles again after as long as there is to wait, is as it is
  expected to be afterwards. -/
  done : ∀ actions net', net.Runs actions net' → net'.Settled →
    ∀ more net'', net'.Runs more net'' → net''.Settled → delay ≤ Action.ticks more →
      ∃ pic, net''.Pictures pic ∧ After pic

theorem Net.Completes.imp {net : Net} {ticket deadline delay : Nat}
    {Expected Expected' : Report → Prop} {After After' : Picture → Prop}
    (h : net.Completes ticket deadline delay Expected After)
    (hexpected : ∀ report, Expected report → Expected' report)
    (hafter : ∀ pic, After pic → After' pic) :
    net.Completes ticket deadline delay Expected' After' where
  bounded := h.bounded
  settles := h.settles
  reports actions net' hrun report hreport :=
    (h.reports actions net' hrun report hreport).imp_left (hexpected report)
  done actions net' hrun hsettled more net'' hmore hsettled' hdelay := by
    obtain ⟨pic, hpic, hpic'⟩ := h.done actions net' hrun hsettled more net'' hmore hsettled' hdelay
    exact ⟨pic, hpic, hafter pic hpic'⟩

/-- If the scheduler lets such a network settle, before and after so much time has passed as there
is to wait, the network is as it is expected to be. -/
theorem Net.Completes.advance {net : Net} {ticket deadline delay milliseconds : Nat}
    {Expected : Report → Prop} {After : Picture → Prop}
    (h : net.Completes ticket deadline delay Expected After) (hsettled : net.settle.Settled)
    (hsettled' : (net.settle.advance milliseconds).Settled) (hdelay : delay ≤ milliseconds) :
    (∃ pic, (net.settle.advance milliseconds).Pictures pic ∧ After pic) ∧
      ∀ report, (ticket, report) ∈ (net.settle.advance milliseconds).reports →
        Expected report ∨
          report = .fault (Connection.timeoutFault deadline) ∧ deadline ≤ milliseconds := by
  obtain ⟨actions, hrun, hticks⟩ := net.passes_settle
  obtain ⟨more, hmore, rfl⟩ := passes_advance milliseconds net.settle
  refine ⟨h.done actions _ hrun hsettled more _ hmore hsettled' hdelay, fun report hreport => ?_⟩
  have hboth := h.reports _ _ (hrun.append hmore) report hreport
  rwa [Action.ticks_append, hticks, Nat.zero_add] at hboth

namespace Net

variable {net net' : Net} {pic : Picture} {x : Exchange} {stage : Stage}

/-! ## What happens between the steps -/

theorem Calling.tick {job : Option Job} {calls : Connection} {reports : List (Nat × Report)}
    {now : Nat} (h : Calling x job calls reports now stage) :
    Calling x job calls reports (now + 1) stage := by
  cases h with
  | calling hjob hcalls hreports => exact .calling hjob hcalls hreports
  | sending hjob hcalls hreports => exact .sending hjob hcalls hreports
  | pushing hjob hcalls hreports => exact .pushing hjob hcalls hreports
  | waiting hstage hjob hlimit hentry hopen hreports =>
    exact .waiting hstage hjob hlimit hentry hopen hreports
  | answered hjob hentry hopen hreports => exact .answered hjob hentry hopen hreports
  | reported hjob hopen hreports => exact .reported hjob hopen hreports
  | late hstage hjob hentry hopen htime hreports =>
    exact .late hstage hjob hentry hopen (Nat.le_succ_of_le htime) hreports

theorem Underway.tick (hu : Underway x stage pic) :
    Underway x stage { pic with now := pic.now + 1 } :=
  { hu with
    calling := Calling.tick hu.calling
    wakes := hu.wakes.trans (by show _ ≤ pic.now + 1 + _; omega)
    since := Nat.le_succ_of_le hu.since }

section Underway

variable (h : net.Pictures pic) (hu : Underway x stage pic)
include h hu

/-- A place that is kept for a task changes nothing about a call. -/
theorem keepPlace_underway {a : Actor} {job : Job} (hjob : pic.jobs a = some job) :
    ∃ pic', (net.keepPlace (pic.task a job)).Pictures pic' ∧ Underway x stage pic' ∧
      pic'.now = pic.now ∧ callLoad x stage pic' = callLoad x stage pic := by
  have hsame (hkeep : net.keepPlace (pic.task a job) = net) :
      ∃ pic', (net.keepPlace (pic.task a job)).Pictures pic' ∧ Underway x stage pic' ∧
        pic'.now = pic.now ∧ callLoad x stage pic' = callLoad x stage pic :=
    ⟨pic, by rw [hkeep]; exact h, hu, rfl, rfl⟩
  -- only a task that stands at a gate has a place to keep
  cases a with
  | clientWriter =>
    obtain ⟨writer, hwriter, hlane⟩ := hu.outLane
    obtain rfl := some.inj (hjob.symm.trans hwriter)
    rcases hlane.writer_cases with rfl | ⟨f, rfl⟩ | rfl <;> exact hsame rfl
  | serverWriter =>
    obtain ⟨writer, hwriter, hlane⟩ := hu.backLane
    obtain rfl := some.inj (hjob.symm.trans hwriter)
    rcases hlane.writer_cases with rfl | ⟨f, rfl⟩ | rfl <;> exact hsame rfl
  | clientReader =>
    obtain rfl := some.inj (hjob.symm.trans hu.clientReader)
    cases stage <;> exact hsame rfl
  | router =>
    obtain rfl := some.inj (hjob.symm.trans hu.router)
    exact hsame rfl
  | serverReader =>
    obtain rfl := some.inj (hjob.symm.trans hu.serverReader)
    cases stage with
    | delivering =>
      refine ⟨_, h.changeRequests (·.keepPlace (Actor.serverReader.id 0)), ?_, rfl, rfl⟩
      exact { hu with requestGate := hu.requestGate.keepPlace }
    | _ => exact hsame rfl
  | listener =>
    obtain rfl := some.inj (hjob.symm.trans hu.listener)
    cases stage with
    | entering =>
      refine ⟨_, h.changeServer fun s =>
        { s with gate := s.gate.keepPlace (Actor.listener.id 0) }, ?_, rfl, rfl⟩
      exact { hu with places := hu.places.keepPlace }
    | _ => exact hsame rfl
  | worker =>
    have hworker := hu.worker
    rw [hjob] at hworker
    cases stage with
    | pushingBack =>
      cases hworker
      refine ⟨_, h.changeResponses (·.keepPlace (Actor.worker.id pic.call)), ?_, rfl, rfl⟩
      exact { hu with backGate := hu.backGate.keepPlace }
    | working | sleeping | replying =>
      cases hworker
      exact hsame rfl
    | homeward | returning | arrived =>
      rcases hworker with hworker | hworker | hworker
      · cases hworker
        exact hsame rfl
      · cases hworker
        exact hsame rfl
      · contradiction
    | _ => contradiction
  | caller =>
    cases hu.calling with
    | pushing hpush =>
      obtain rfl := some.inj (hjob.symm.trans hpush)
      refine ⟨_, h.changeOutbound (·.keepPlace pic.call), ?_, rfl, rfl⟩
      exact { hu with outGate := hu.outGate.keepPlace }
    | calling hcall | sending hcall | waiting _ hcall | answered hcall =>
      obtain rfl := some.inj (hjob.symm.trans hcall)
      exact hsame rfl
    | reported hnone | late _ hnone =>
      rw [hjob] at hnone
      contradiction

/-! ## Runs -/

/-- Whatever happens while a call is under way, it stays under way and does not get farther from its
end. -/
theorem act_underway {action : Action} (hinternal : action.isInternal = true) {hist hist' : History}
    (hact : net.act hist action = some (hist', net')) :
    ∃ stage' pic', net'.Pictures pic' ∧ stage.Continues stage' ∧ Underway x stage' pic' ∧
      pic'.now = pic.now + Action.ticks [action] ∧
      callLoad x stage' pic' + Action.steps [action] ≤ callLoad x stage pic := by
  cases action with
  | call | send | close | letGo | hangUp | take | ignore => contradiction
  | tick =>
    cases hact
    exact ⟨stage, _, h.tick, .refl stage, Underway.tick hu, rfl, le_rfl⟩
  | order agenda =>
    cases hact
    exact ⟨stage, pic, h.order agenda, .refl stage, hu, rfl, le_rfl⟩
  | hold id =>
    obtain ⟨t, ht, heq⟩ := map_eq_some_iff.mp hact
    obtain ⟨-, rfl⟩ := Prod.mk.inj heq
    obtain ⟨a, job, hjob, rfl⟩ := h.exists_actor ht
    obtain ⟨pic', h', hu', hnow, hload⟩ := keepPlace_underway h hu hjob
    exact ⟨stage, pic', h', .refl stage, hu', hnow, hload.le⟩
  | go id =>
    obtain ⟨t, ht, hrest⟩ := bind_eq_some_iff.mp hact
    obtain ⟨⟨net₁, next⟩, hstep, heq⟩ := bind_eq_some_iff.mp hrest
    cases heq
    obtain ⟨a, job, hjob, rfl⟩ := h.exists_actor ht
    rcases advances_or_waits h hu a with ⟨hstays, -⟩ |
      ⟨stage', pic', ⟨job', net₂, next', hjob', hstep', h', hnow⟩, hcontinues, hu', hload⟩
    · rw [hstays job hjob] at hstep
      contradiction
    · obtain rfl := some.inj (hjob.symm.trans hjob')
      obtain ⟨rfl, rfl⟩ := Prod.mk.inj (some.inj (hstep.symm.trans hstep'))
      exact ⟨stage', pic', h', hcontinues, hu', hnow, hload⟩

/-- A call that is under way stays under way in every run. -/
theorem follow_underway {actions : List Action}
    (hinternal : ∀ action ∈ actions, action.isInternal = true) {hist hist' : History}
    (hrun : net.follow hist actions = some (hist', net')) :
    ∃ stage' pic', net'.Pictures pic' ∧ stage.Continues stage' ∧ Underway x stage' pic' ∧
      pic'.now = pic.now + Action.ticks actions ∧
      callLoad x stage' pic' + Action.steps actions ≤ callLoad x stage pic := by
  induction actions generalizing net pic stage hist with
  | nil =>
    cases hrun
    exact ⟨stage, pic, h, .refl stage, hu, rfl, le_rfl⟩
  | cons action actions ih =>
    obtain ⟨⟨hist₁, net₁⟩, hact, hrest⟩ := bind_eq_some_iff.mp hrun
    obtain ⟨hfirst, hothers⟩ := List.forall_mem_cons.mp hinternal
    obtain ⟨stage₁, pic₁, h₁, hcontinues₁, hu₁, hnow₁, hload₁⟩ := act_underway h hu hfirst hact
    obtain ⟨stage₂, pic₂, h₂, hcontinues₂, hu₂, hnow₂, hload₂⟩ := ih h₁ hu₁ hothers hrest
    have hticks : Action.ticks (action :: actions) =
        Action.ticks [action] + Action.ticks actions := by
      cases action <;> simp [Action.ticks, Nat.add_comm]
    have hsteps : Action.steps (action :: actions) =
        Action.steps [action] + Action.steps actions := by
      cases action <;> simp [Action.steps, Nat.add_comm]
    refine ⟨stage₂, pic₂, h₂, hcontinues₁.trans hcontinues₂, hu₂, ?_, ?_⟩
    · rw [hnow₂, hnow₁, hticks, Nat.add_assoc]
    · omega

theorem runs_underway {actions : List Action} (hrun : net.Runs actions net') :
    ∃ stage' pic', net'.Pictures pic' ∧ stage.Continues stage' ∧ Underway x stage' pic' ∧
      pic'.now = pic.now + Action.ticks actions ∧
      callLoad x stage' pic' + Action.steps actions ≤ callLoad x stage pic := by
  obtain ⟨hinternal, hfollow⟩ := hrun
  obtain ⟨hist', hfollow⟩ := hfollow {}
  exact follow_underway h hu hinternal hfollow

/-- When the network has settled, the task that works on the request sleeps, or all is done. -/
theorem settled_underway (hsettled : net.Settled) :
    (∃ limit, stage = .sleeping limit ∧ pic.now < limit) ∨
    ∃ r, stage = .arrived r ∧ pic.jobs .caller = none ∧ pic.jobs .worker = none ∧
      pic.jobs .clientWriter = some .write ∧ pic.jobs .serverWriter = some .write := by
  refine settled_cases hu fun a => ?_
  rcases advances_or_waits h hu a with ⟨-, hwaits⟩ | ⟨-, -, ⟨job, net', next, hjob, hstep, -⟩, -⟩
  · exact hwaits
  · rw [hsettled _ _ (h.task?_eq hjob)] at hstep
    contradiction

/-- As long as a task can go on while a call is under way, it may do so until none can. -/
theorem settles_underway :
    ∃ actions net', net.Runs actions net' ∧ net'.Settled ∧ Action.ticks actions = 0 := by
  induction hload : callLoad x stage pic using Nat.strong_induction_on
    generalizing net pic stage with
  | _ load ih =>
    by_cases hsettled : net.Settled
    · exact ⟨[], net, .nil net, hsettled, rfl⟩
    · simp only [Settled, not_forall] at hsettled
      obtain ⟨id, t, ht, hstep⟩ := hsettled
      obtain ⟨⟨net₁, next⟩, hstep⟩ := ne_none_iff_exists'.mp hstep
      have hgo := runs_go ht hstep
      obtain ⟨stage', pic', h', -, hu', -, hless⟩ := runs_underway h hu hgo
      have hlt : callLoad x stage' pic' < load := hload ▸ hless
      obtain ⟨actions, net', hrun, hsettled', hticks⟩ := ih _ hlt h' hu' rfl
      exact ⟨_, net', hgo.append hrun, hsettled', hticks⟩

end Underway

/-- What is reported of a call is what the response says, unless the time is over. -/
theorem report_underway (hu : Underway x stage pic) {report : Report}
    (hreport : (x.ticket, report) ∈ pic.reports) :
    (∃ r, x.Yields r ∧ report = x.judge r) ∨
      report = .fault (Connection.timeoutFault x.deadline) ∧
        x.started + x.deadline ≤ pic.now := by
  have hnot : (x.ticket, report) ∉ x.reports := fun hmem => (hu.tickets _ hmem).ne rfl
  have hgenuine := hu.genuine
  cases hu.calling with
  | calling _ _ hreports | sending _ _ hreports | pushing _ _ hreports
  | waiting _ _ _ _ _ hreports | answered _ _ _ hreports =>
    rw [hreports] at hreport
    exact absurd hreport hnot
  | reported _ _ hreports =>
    rw [hreports, mem_append, List.mem_singleton] at hreport
    rcases hreport with hmem | heq
    · exact absurd hmem hnot
    · exact .inl ⟨_, hgenuine, (Prod.mk.inj heq).2⟩
  | late _ _ _ _ htime hreports =>
    rw [hreports, mem_append, List.mem_singleton] at hreport
    rcases hreport with hmem | heq
    · exact absurd hmem hnot
    · exact .inr ⟨(Prod.mk.inj heq).2, htime⟩

end Net

/-! ## Idle connections -/

/-- A client and a server on an open connection on which nothing is under way. -/
structure Picture.Idle (pic : Picture) : Prop where
  peer : pic.client.peer = 0
  isOpen : pic.calls.closed = false
  numbered : pic.calls.pending.Numbered
  clientWriter : pic.jobs .clientWriter = some .write
  clientReader : pic.jobs .clientReader = some .read
  router : pic.jobs .router = some (.route 0)
  serverWriter : pic.jobs .serverWriter = some .write
  serverReader : pic.jobs .serverReader = some .read
  listener : pic.jobs .listener = some (.serve 0)
  caller : pic.jobs .caller = none
  worker : pic.jobs .worker = none
  out : (pic.link.direction pic.side).Conveys [] ∧ (pic.link.direction pic.side).Drained
  outbound : pic.outbound.items = []
  outGate : pic.outbound.gate.Passable false none
  back : (pic.link.direction pic.side.other).Conveys [] ∧
    (pic.link.direction pic.side.other).Drained
  responses : pic.responses.items = []
  backGate : pic.responses.gate.Passable false none
  requests : pic.requests.items = []
  requestsOpen : pic.requests.ended = false
  requestGate : pic.requests.gate.Passable false none
  signals : pic.signals.items = []
  signalsOpen : pic.signals.ended = false
  places : pic.server.gate.Passable false none
  serves : pic.service.closed = false
  call : pic.call = pic.nextTask
  ticket : pic.ticket = pic.nextTicket
  tickets : ∀ r ∈ pic.reports, r.1 < pic.nextTicket

/-- A call of an idle client. -/
def Picture.exchange (pic : Picture) (frame reply : Frame) (purpose : Purpose)
    (judge : Response → Report) : Exchange where
  client := pic.client
  frame
  deadline := pic.client.settings.timeout.toNat
  purpose
  calls := pic.calls
  service := pic.service
  outLimit := (pic.link.direction pic.side).frameLimit
  backLimit := (pic.link.direction pic.side.other).frameLimit
  host := pic.host
  reply
  started := pic.now
  ticket := pic.nextTicket
  reports := pic.reports
  judge

/-- What a call leaves: its end has been reported, and the connection is idle as before. -/
structure Exchange.Leaves (x : Exchange) (pic : Picture) : Prop where
  idle : pic.Idle
  client : pic.client = x.client
  service : pic.service = x.service
  outLimit : (pic.link.direction pic.side).frameLimit = x.outLimit
  backLimit : (pic.link.direction pic.side.other).frameLimit = x.backLimit
  host : pic.host = x.hostAfter
  counts : x.Counts pic.calls.pending
  reported : ∃ report, pic.reports = x.reports ++ [(x.ticket, report)]

/-- A call comes to its end as it should: what is reported is what the response says. -/
def Exchange.Resolves (x : Exchange) (net : Net) : Prop :=
  net.Completes x.ticket x.deadline (x.host.delayOf x.request)
    (fun report => ∃ r, x.Yields r ∧ report = x.judge r) x.Leaves

namespace Net

variable {net : Net} {pic : Picture} {x : Exchange} {stage : Stage}

/-- After everything about a call is done, the connection is idle again. -/
theorem leaves_of_done {r : Response} (hu : Underway x (.arrived r) pic)
    (hcaller : pic.jobs .caller = none) (hworker : pic.jobs .worker = none)
    (hout : pic.jobs .clientWriter = some .write) (hback : pic.jobs .serverWriter = some .write) :
    x.Leaves { pic with call := pic.nextTask, ticket := pic.nextTicket } := by
  obtain ⟨writer, hwriter, houtLane⟩ := hu.outLane
  obtain ⟨houtbound, houtConveys, houtDrained⟩ := houtLane.of_nil rfl
  obtain rfl := some.inj (hwriter.symm.trans hout)
  obtain ⟨writer, hwriter, hbackLane⟩ := hu.backLane
  obtain ⟨hresponses, hbackConveys, hbackDrained⟩ := hbackLane.of_nil rfl
  obtain rfl := some.inj (hwriter.symm.trans hback)
  have hplaces := hu.places
  rw [hworker] at hplaces
  have hrequestGate := hu.requestGate
  rw [hu.requests] at hrequestGate
  -- the caller is gone, so it has been answered or has given up before
  have hend : pic.calls.closed = false ∧
      ∃ report, pic.reports = x.reports ++ [(x.ticket, report)] := by
    cases hu.calling with
    | waiting hpending => contradiction
    | answered hjob =>
      rw [hcaller] at hjob
      contradiction
    | reported _ hopen hreports => exact ⟨hopen, _, hreports⟩
    | late _ _ _ hopen _ hreports => exact ⟨hopen, _, hreports⟩
  obtain ⟨hopen, report, hreports⟩ := hend
  have htickets : ∀ r ∈ pic.reports, r.1 < pic.nextTicket := by
    intro r hr
    rw [hreports, mem_append, List.mem_singleton] at hr
    rw [hu.nextTicket]
    rcases hr with hmem | rfl
    · exact Nat.lt_succ_of_lt (hu.tickets r hmem)
    · exact Nat.lt_succ_self _
  exact {
    idle := {
      peer := (congrArg Client.peer hu.client).trans hu.sound.peer
      isOpen := hopen
      numbered := hu.counts.numbered
      clientWriter := hout
      clientReader := hu.clientReader
      router := hu.router
      serverWriter := hback
      serverReader := hu.serverReader
      listener := hu.listener
      caller := hcaller
      worker := hworker
      out := ⟨houtConveys, houtDrained rfl⟩
      outbound := houtbound
      outGate := hu.outGate_of_nil rfl rfl
      back := ⟨hbackConveys, hbackDrained rfl⟩
      responses := hresponses
      backGate := hu.backGate_of_nil rfl rfl
      requests := hu.requests
      requestsOpen := hu.requestsOpen
      requestGate := hrequestGate
      signals := hu.signals
      signalsOpen := hu.signalsOpen
      places := hplaces
      serves := by
        show pic.service.closed = false
        rw [hu.service]
        exact hu.sound.serves
      call := rfl
      ticket := rfl
      tickets := htickets }
    client := hu.client
    service := hu.service
    outLimit := hu.outLimit
    backLimit := hu.backLimit
    host := hu.host
    counts := hu.counts
    reported := ⟨report, hreports⟩ }

/-- A call that is under way comes to its end. -/
theorem resolves_underway (h : net.Pictures pic) (hu : Underway x stage pic)
    (hstarted : x.started = pic.now) : x.Resolves net where
  bounded := by
    refine ⟨callLoad x stage pic, fun actions net' hrun => ?_⟩
    obtain ⟨stage', pic', -, -, -, -, hload⟩ := runs_underway h hu hrun
    omega
  settles := by
    intro actions net' hrun
    obtain ⟨stage', pic', h', -, hu', -⟩ := runs_underway h hu hrun
    exact settles_underway h' hu'
  reports := by
    intro actions net' hrun report hreport
    obtain ⟨stage', pic', h', -, hu', hnow, -⟩ := runs_underway h hu hrun
    rw [h'.reports] at hreport
    refine (report_underway hu' hreport).imp_right fun hlate => ⟨hlate.1, ?_⟩
    have htime := hlate.2
    rw [hnow, hstarted] at htime
    omega
  done := by
    intro actions net' hrun hsettled more net'' hmore hsettled' hdelay
    obtain ⟨stage', pic', h', -, hu', -, -⟩ := runs_underway h hu hrun
    obtain ⟨stage'', pic'', h'', hcontinues, hu'', hnow, -⟩ := runs_underway h' hu' hmore
    rcases settled_underway h'' hu'' hsettled' with ⟨limit, rfl, hlimit⟩ |
      ⟨r, rfl, hcaller, hworker, hout, hback⟩
    · -- the handler cannot sleep for longer than it takes
      rcases settled_underway h' hu' hsettled with ⟨limit', rfl, -⟩ | ⟨r, rfl, -⟩
      · have hwakes : limit' ≤ pic'.now + x.host.delayOf x.request := hu'.wakes
        obtain rfl := Stage.sleeping.inj (hcontinues.sleeping rfl rfl)
        omega
      · have hrank := hcontinues.rank
        contradiction
    · have hlater : 6 ≤ pic''.nextTask := by
        rw [hu''.nextTask]
        exact Nat.le_add_right_of_le (Nat.le_succ_of_le h''.later)
      exact ⟨_, h''.prepare hcaller hworker hlater pic''.nextTicket,
        leaves_of_done hu'' hcaller hworker hout hback⟩

/-- **A call on an idle connection comes to its end**, whatever the order in which tasks go on. -/
theorem call_resolves (h : net.Pictures pic) (hidle : pic.Idle) {frame reply : Frame}
    {purpose : Purpose} {judge : Response → Report}
    (hsound : (pic.exchange frame reply purpose judge).Sound) :
    ∃ net', net.call 0 frame purpose = some (pic.nextTicket, net') ∧
      (pic.exchange frame reply purpose judge).Resolves net' := by
  refine ⟨(net.start 0 (.call frame pic.client.settings.timeout.toNat purpose)).2, ?_, ?_⟩
  · have hclient : net.clients[0]? = some pic.client := by
      rw [h.clients]
      rfl
    rw [call, hclient]
    show some (net.start pic.client.peer _) = _
    rw [hidle.peer, ← h.nextTicket]
    rfl
  · have houtLane : Lane (pic.link.direction pic.side) pic.outbound.items .write [] := by
      have hlane : Lane (pic.link.direction pic.side) [] .write ([] ++ []) :=
        .write hidle.out.1 hidle.out.2 rfl (by simp)
      rw [hidle.outbound]
      exact hlane
    have hbackLane : Lane (pic.link.direction pic.side.other) pic.responses.items .write [] := by
      have hlane : Lane (pic.link.direction pic.side.other) [] .write ([] ++ []) :=
        .write hidle.back.1 hidle.back.2 rfl (by simp)
      rw [hidle.responses]
      exact hlane
    have hunder : Underway (pic.exchange frame reply purpose judge) .calling
        { pic.put .caller (some (.call frame pic.client.settings.timeout.toNat purpose)) with
          nextTask := pic.nextTask + 1, nextTicket := pic.nextTicket + 1 } := {
      sound := hsound
      client := rfl
      genuine := trivial
      calling := .calling rfl rfl rfl
      outLane := ⟨.write, hidle.clientWriter, houtLane⟩
      outGate := hidle.outGate.weaken
      outLimit := rfl
      serverReader := hidle.serverReader
      requests := hidle.requests
      requestsOpen := hidle.requestsOpen
      requestGate := hidle.requestGate.weaken
      listener := hidle.listener
      places := hidle.places.weaken
      worker := hidle.worker
      host := rfl
      wakes := Nat.zero_le _
      service := rfl
      backLane := ⟨.write, hidle.serverWriter, hbackLane⟩
      backGate := hidle.backGate.weaken
      backLimit := rfl
      clientReader := hidle.clientReader
      router := hidle.router
      signals := hidle.signals
      signalsOpen := hidle.signalsOpen
      nextTask := congrArg (· + 1) hidle.call.symm
      since := le_rfl
      counts := ⟨hidle.numbered, Nat.le_succ _⟩
      ticket := hidle.ticket
      nextTicket := rfl
      tickets := hidle.tickets }
    exact resolves_underway (h.start hidle.caller hidle.call hidle.ticket _) hunder rfl

end Net

end Remoting
