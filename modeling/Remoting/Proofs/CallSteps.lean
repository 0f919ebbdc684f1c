import Remoting.Proofs.CallStages

/-!
# Remoting.Proofs.CallSteps

What each task does while a call is under way: it waits for one of the others, or its step brings
the call nearer to its end (`Net.Advances`). There is one lemma for each place where a task can
stand.
-/

namespace Remoting

open List Option
open Picture (put outLoad backLoad)
open Stage (rank ahead isPending)

namespace Net

variable {net : Net} {pic : Picture} {x : Exchange} {stage : Stage}

/-- A task goes on, and the call comes nearer to its end. -/
def Advances (x : Exchange) (stage : Stage) (net : Net) (pic : Picture) (a : Actor) : Prop :=
  ∃ stage' pic', net.Goes pic a pic' ∧ stage.Continues stage' ∧ Underway x stage' pic' ∧
    callLoad x stage' pic' < callLoad x stage pic

section

variable {pic' : Picture} {a : Actor}

theorem Advances.same (hgoes : net.Goes pic a pic') (hu : Underway x stage pic')
    (hload : callLoad x stage pic' < callLoad x stage pic) : Advances x stage net pic a :=
  ⟨stage, pic', hgoes, .refl stage, hu, hload⟩

theorem Advances.later (stage' : Stage) (hgoes : net.Goes pic a pic')
    (hrank : stage'.rank < stage.rank) (hu : Underway x stage' pic')
    (hload : callLoad x stage' pic' < callLoad x stage pic) : Advances x stage net pic a :=
  ⟨stage', pic', hgoes, .of_lt hrank, hu, hload⟩

end

/-! ## Writers -/

/-- The writer of the client has nothing to do, or waits for room. -/
def OutWaits (pic : Picture) : Prop :=
  pic.jobs .clientWriter = some .write ∧ pic.outbound.items = [] ∨
    pic.jobs .clientWriter = some .flush ∧ pic.link.canWrite pic.side = false

/-- The writer of the server has nothing to do, or waits for room. -/
def BackWaits (pic : Picture) : Prop :=
  pic.jobs .serverWriter = some .write ∧ pic.responses.items = [] ∨
    pic.jobs .serverWriter = some .flush ∧ pic.link.canWrite pic.side.other = false

section Pictured

variable (h : net.Pictures pic)
include h

/-- The writer of the client goes on, unless it has nothing to do or waits for room. -/
theorem clientWriter_advances (hu : Underway x stage pic) :
    (net.Stays pic .clientWriter ∧ OutWaits pic) ∨ Advances x stage net pic .clientWriter := by
  obtain ⟨writer, hwriter, hlane⟩ := hu.outLane
  have hpeer := h.peer_client (a := .clientWriter) rfl writer
  have hsender : net.hasSender (pic.task .clientWriter writer).peer = true := by
    rw [hasSender, hpeer]
    rfl
  rcases step_writer hpeer rfl h.links hsender hlane with ⟨hstay, hreason⟩ |
    ⟨f, outbound, hstep, houtbound, hlane', hload⟩ | ⟨l', job, hstep, hlane', honly, hload⟩
  · rw [OutWaits, hwriter, some.injEq, some.injEq]
    exact .inl ⟨stays_of_step hwriter hstay, hreason⟩
  · have hload' : laneLoad (pic.link.direction pic.side) outbound.items (.transmit f) <
        laneLoad (pic.link.direction pic.side) pic.outbound.items writer := hload
    refine .inr (.same (goes_job hwriter hstep (h.changeOutbound fun _ => outbound) rfl rfl) ?_ ?_)
    · exact { hu with
        outLane := ⟨_, rfl, hlane'⟩
        outGate := by
          rw [houtbound]
          exact hu.outGate.release.weaken }
    · simp only [callLoad, outLoad, backLoad, put, reduceCtorEq, if_false,
        if_true, hwriter, getD_some]
      omega
  · have hload' : laneLoad (l'.direction pic.side) pic.outbound.items job <
        laneLoad (pic.link.direction pic.side) pic.outbound.items writer := hload
    refine .inr (.same (goes_job hwriter hstep (h.setLink l') rfl rfl) ?_ ?_)
    · exact { hu with
        outLane := ⟨_, rfl, hlane'⟩
        outLimit := honly.limit.trans hu.outLimit
        backLane := honly.other ▸ hu.backLane
        backLimit := honly.other ▸ hu.backLimit }
    · simp only [callLoad, outLoad, backLoad, put, reduceCtorEq, if_false,
        if_true, hwriter, getD_some, honly.other]
      omega

/-- The writer of the server goes on, unless it has nothing to do or waits for room. -/
theorem serverWriter_advances (hu : Underway x stage pic) :
    (net.Stays pic .serverWriter ∧ BackWaits pic) ∨ Advances x stage net pic .serverWriter := by
  obtain ⟨writer, hwriter, hlane⟩ := hu.backLane
  have hpeer := h.peer_server (a := .serverWriter) rfl writer
  -- the listener holds the peer of the server
  have hsender : net.hasSender (pic.task .serverWriter writer).peer = true := by
    have hholds : (stage.listener x).holdsPeer = true := by cases stage <;> rfl
    rw [hasSender, List.any_eq_true.mpr ⟨_, h.mem_tasks hu.listener, ?_⟩, Bool.or_true]
    simpa using ⟨rfl, hholds⟩
  rcases step_writer hpeer rfl h.links hsender hlane with ⟨hstay, hreason⟩ |
    ⟨f, responses, hstep, hresponses, hlane', hload⟩ | ⟨l', job, hstep, hlane', honly, hload⟩
  · rw [BackWaits, hwriter, some.injEq, some.injEq]
    exact .inl ⟨stays_of_step hwriter hstay, hreason⟩
  · have hload' : laneLoad (pic.link.direction pic.side.other) responses.items (.transmit f) <
        laneLoad (pic.link.direction pic.side.other) pic.responses.items writer := hload
    refine .inr (.same (goes_job hwriter hstep (h.changeResponses fun _ => responses) rfl rfl)
      ?_ ?_)
    · exact { hu with
        backLane := ⟨_, rfl, hlane'⟩
        backGate := by
          rw [hresponses]
          exact hu.backGate.release.weaken }
    · simp only [callLoad, outLoad, backLoad, put, reduceCtorEq, if_false,
        if_true, hwriter, getD_some]
      omega
  · have hother := honly.other
    rw [Side.other_other] at hother
    have hload' : laneLoad (l'.direction pic.side.other) pic.responses.items job <
        laneLoad (pic.link.direction pic.side.other) pic.responses.items writer := hload
    refine .inr (.same (goes_job hwriter hstep (h.setLink l') rfl rfl) ?_ ?_)
    · exact { hu with
        outLane := hother ▸ hu.outLane
        outLimit := hother ▸ hu.outLimit
        backLane := ⟨_, rfl, hlane'⟩
        backLimit := honly.limit.trans hu.backLimit }
    · simp only [callLoad, outLoad, backLoad, put, reduceCtorEq, if_false,
        if_true, hwriter, getD_some, hother]
      omega

/-! ## Readers -/

/-- A reader of the server that waits for the request comes nearer to it or gets it. It waits only
when nothing is on its way, or when the writer of the client can go on. -/
theorem serverReader_reads (hu : Underway x stage pic) (hread : stage.serverReader x = .read) :
    (net.Stays pic .serverReader ∧ (stage.outbound x = [] ∨ ¬ OutWaits pic)) ∨
    Advances x stage net pic .serverReader := by
  obtain ⟨writer, hwriter, hlane⟩ := hu.outLane
  have hreader := hu.serverReader
  rw [hread] at hreader
  have hpeer := h.peer_server (a := .serverReader) rfl .read
  rw [OutWaits, hwriter, some.injEq, some.injEq, not_or]
  rcases step_reader hpeer rfl h.links rfl hlane with ⟨hstay, hreason⟩ |
    ⟨l', hstep, hlane', honly, hload⟩ |
    ⟨f, rest, message, l', hframes, hcomes, hstep, hlane', honly, hload⟩
  · exact .inl ⟨stays_of_step hreader hstay, hreason⟩
  · refine .inr (.same (goes_job hreader hstep (h.setLink l') rfl rfl) ?_ ?_)
    · exact { hu with
        outLane := ⟨writer, hwriter, hlane'⟩
        outLimit := honly.limit.trans hu.outLimit
        serverReader := by
          rw [hread]
          rfl
        backLane := honly.other ▸ hu.backLane
        backLimit := honly.other ▸ hu.backLimit }
    · simp only [callLoad, outLoad, backLoad, put, reduceCtorEq, if_false,
        hwriter, getD_some, honly.other]
      omega
  · obtain rfl : stage = .outward := by
      cases stage <;> simp [Stage.outbound] at hframes ⊢
    obtain ⟨rfl, rfl⟩ : x.request = f ∧ [] = rest := List.cons.inj hframes
    cases hcomes with
    | damaged hnot => exact absurd hu.sound.fits hnot
    | whole hfits =>
      refine .inr (.later .accepting (goes_job hreader hstep (h.setLink l') rfl rfl)
        (by simp [rank]) ?_ ?_)
      · exact { hu with
          calling := hu.calling.of_isPending rfl rfl
          outLane := ⟨writer, hwriter, hlane'⟩
          outLimit := honly.limit.trans hu.outLimit
          serverReader := rfl
          backLane := honly.other ▸ hu.backLane
          backLimit := honly.other ▸ hu.backLimit }
      · simp only [callLoad, outLoad, backLoad, put, reduceCtorEq,
          if_false, hwriter, getD_some, honly.other, rank, ahead]
        omega

/-- The request is no response, so the reader of the server hands it on. -/
theorem serverReader_accepts (hu : Underway x .accepting pic) :
    Advances x .accepting net pic .serverReader := by
  have hkind : x.request.header.kind.isResponse = false := by
    have hexpects : x.request.header.kind.expectsResponse = true := hu.sound.expects
    by_contra hresponse
    rw [MessageKind.expectsResponse_of_isResponse (by simpa using hresponse)] at hexpects
    contradiction
  have hpeer := h.peer_server (a := .serverReader) rfl (.accept (.ok x.request))
  have hstep : net.step (pic.task .serverReader (.accept (.ok x.request))) =
      some (net.changeConnection 1 fun _ => pic.service, .job (.deliver x.request)) := by
    rw [step, hpeer]
    show some (net.stepAccept 1 pic.serverPeer (.ok x.request)) = _
    simp only [stepAccept, Connection.accept, hkind]
    rfl
  have hgate := hu.requestGate
  rw [hu.requests] at hgate
  refine .later .delivering (goes_job hu.serverReader hstep
      (h.changeService fun _ => pic.service) rfl rfl)
    (by simp [rank]) ?_ ?_
  · exact { hu with
      calling := hu.calling.of_isPending rfl rfl
      serverReader := rfl
      requestGate := Gate.Passable.weaken hgate }
  · exact callLoad_lt (by simp [rank]) rfl le_rfl rfl rfl rfl

/-- There is room for the request at the server. -/
theorem serverReader_delivers (hu : Underway x .delivering pic) :
    Advances x .delivering net pic .serverReader := by
  have hpeer := h.peer_server (a := .serverReader) rfl (.deliver x.request)
  have hempty : pic.requests.items = [] := hu.requests
  have hgate := hu.requestGate
  rw [hempty] at hgate
  obtain ⟨gate, henter, hpassable⟩ := Gate.Passable.enter hgate
  have hstep : net.step (pic.task .serverReader (.deliver x.request)) =
      some (net.changePeer 1 fun p =>
        { p with inbound := Channel.push { pic.requests with gate } x.request }, .job .read) := by
    rw [step, hpeer]
    show (pic.requests.gate.enter (Actor.serverReader.id 0)).bind _ = _
    rw [henter]
    rfl
  refine .later .delivered (goes_job hu.serverReader hstep
      (h.changeRequests fun _ => Channel.push { pic.requests with gate } x.request) rfl rfl)
    (by simp [rank]) ?_ ?_
  · exact { hu with
      calling := hu.calling.of_isPending rfl rfl
      serverReader := rfl
      requests := by
        show pic.requests.items ++ [x.request] = [x.request]
        rw [hempty, nil_append]
      requestGate := by
        show gate.Passable (!(pic.requests.items ++ [x.request]).isEmpty) none
        rw [hempty]
        exact hpassable }
  · exact callLoad_lt (by simp [rank]) rfl le_rfl rfl rfl rfl

/-- A reader of the client that waits for the response comes nearer to it or gets it. It waits only
when nothing is on its way, or when the writer of the server can go on. -/
theorem clientReader_reads (hu : Underway x stage pic) (hread : stage.clientReader = .read) :
    (net.Stays pic .clientReader ∧ (stage.inbound x = [] ∨ ¬ BackWaits pic)) ∨
    Advances x stage net pic .clientReader := by
  obtain ⟨writer, hwriter, hlane⟩ := hu.backLane
  have hreader := hu.clientReader
  rw [hread] at hreader
  have hpeer := h.peer_client (a := .clientReader) rfl .read
  have hend : pic.clientPeer.endpoint = pic.side.other.other.index := by
    rw [Side.other_other]
    rfl
  rw [BackWaits, hwriter, some.injEq, some.injEq, not_or]
  rcases step_reader hpeer hend h.links rfl hlane with ⟨hstay, hreason⟩ |
    ⟨l', hstep, hlane', honly, hload⟩ |
    ⟨f, rest, message, l', hframes, hcomes, hstep, hlane', honly, hload⟩
  · exact .inl ⟨stays_of_step hreader hstay, hreason⟩
  · have hother := honly.other
    rw [Side.other_other] at hother
    refine .inr (.same (goes_job hreader hstep (h.setLink l') rfl rfl) ?_ ?_)
    · exact { hu with
        outLane := hother ▸ hu.outLane
        outLimit := hother ▸ hu.outLimit
        backLane := ⟨writer, hwriter, hlane'⟩
        backLimit := honly.limit.trans hu.backLimit
        clientReader := by
          rw [hread]
          rfl }
    · simp only [callLoad, outLoad, backLoad, put, reduceCtorEq, if_false,
        hwriter, getD_some, hother]
      omega
  · have hother := honly.other
    rw [Side.other_other] at hother
    obtain rfl : stage = .homeward := by
      cases stage <;> simp [Stage.inbound] at hframes ⊢
    obtain ⟨rfl, rfl⟩ : x.response = f ∧ [] = rest := List.cons.inj hframes
    refine .inr (.later (.returning message) (goes_job hreader hstep (h.setLink l') rfl rfl)
      (by simp [rank]) ?_ ?_)
    · exact { hu with
        genuine := hcomes
        calling := hu.calling.of_isPending rfl rfl
        outLane := hother ▸ hu.outLane
        outLimit := hother ▸ hu.outLimit
        backLane := ⟨writer, hwriter, hlane'⟩
        backLimit := honly.limit.trans hu.backLimit
        clientReader := rfl }
    · simp only [callLoad, outLoad, backLoad, put, reduceCtorEq,
        if_false, hwriter, getD_some, hother, rank, ahead]
      omega

/-- The response completes its call, unless nobody waits for it any more. -/
theorem clientReader_accepts {message : Except MalformedFrame Frame}
    (hu : Underway x (.returning message) pic) :
    Advances x (.returning message) net pic .clientReader := by
  have hpeer := h.peer_client (a := .clientReader) rfl (.accept message)
  obtain ⟨r, haccept, hyields⟩ := hu.sound.accept hu.genuine pic.calls
  have hstep : net.step (pic.task .clientReader (.accept message)) =
      some (net.changeConnection 0 fun _ => pic.calls.complete x.id r, .job .read) := by
    rw [step, hpeer]
    show some (net.stepAccept 0 pic.clientPeer message) = _
    rw [stepAccept, show pic.clientPeer.connection.accept message = _ from haccept]
    rfl
  refine .later (.arrived r) (goes_job hu.clientReader hstep
      (h.changeCalls fun _ => pic.calls.complete x.id r) rfl rfl)
    (by simp [rank]) ?_ ?_
  · exact { hu with
      genuine := hyields
      calling := hu.calling.complete r
      counts := hu.counts.of_continues
        (pic.calls.pending.continues_complete x.id fun _ _ => trivial)
      clientReader := rfl }
  · exact callLoad_lt (by simp [rank]) rfl le_rfl rfl rfl rfl

/-! ## The server -/

/-- The listener takes the request. -/
theorem listener_takes (hu : Underway x .delivered pic) :
    Advances x .delivered net pic .listener := by
  have hpeer := h.peer_server (a := .listener) rfl (.serve 0)
  have hpop := Channel.pop?_cons hu.requests
  have hstep : net.step (pic.task .listener (.serve 0)) =
      some (net.changePeer 1 fun p => { p with
        inbound := { pic.requests with items := [], gate := pic.requests.gate.release } },
        .job (.enter 0 x.request)) := by
    rw [step, hpeer]
    show net.stepServe 1 pic.serverPeer 0 = _
    rw [stepServe, show pic.serverPeer.inbound.pop? = _ from hpop]
    rfl
  have hworker : pic.jobs .worker = none := hu.worker
  have hplaces := hu.places
  rw [hworker] at hplaces
  refine .later .entering (goes_job hu.listener hstep
      (h.changeRequests fun _ =>
        { pic.requests with items := [], gate := pic.requests.gate.release }) rfl rfl)
    (by simp [rank]) ?_ ?_
  · exact { hu with
      calling := hu.calling.of_isPending rfl rfl
      requests := rfl
      requestGate := hu.requestGate.release
      listener := rfl
      places := by
        show pic.server.gate.Passable (holdsPlace (pic.jobs .worker)) _
        rw [hworker]
        exact Gate.Passable.weaken hplaces }
  · exact callLoad_lt (by simp [rank]) rfl le_rfl rfl rfl rfl

/-- The server has a place for the request. -/
theorem listener_enters (hu : Underway x .entering pic) :
    Advances x .entering net pic .listener := by
  have hpeer := h.peer_server (a := .listener) rfl (.enter 0 x.request)
  have hworker : pic.jobs .worker = none := hu.worker
  have hplaces := hu.places
  rw [hworker] at hplaces
  obtain ⟨gate, henter, hpassable⟩ := Gate.Passable.enter hplaces
  have hstep : net.step (pic.task .listener (.enter 0 x.request)) =
      some ({ net with servers := [{ pic.server with gate }] }.spawn 1 (.work 0 x.request) none,
        .job (.serve 0)) := by
    rw [step, hpeer]
    show net.stepEnter 5 1 0 x.request = _
    rw [stepEnter, h.servers]
    show (pic.server.gate.enter (Actor.listener.id 0)).bind _ = _
    rw [henter]
    rfl
  have hpic := (h.setServer { pic.server with gate }).spawnWorker hworker hu.nextTask
    (.work 0 x.request)
  refine .later .working (goes_job hu.listener hstep hpic rfl rfl) (by simp [rank]) ?_ ?_
  · exact { hu with
      calling := hu.calling.of_isPending rfl rfl
      listener := rfl
      places := hpassable
      worker := rfl
      nextTask := congrArg (· + 1) hu.nextTask }
  · exact callLoad_lt (by simp [rank]) rfl (Nat.zero_le _) rfl rfl rfl

/-- The listener waits as long as no request has come in. -/
theorem listener_waits (hu : Underway x stage pic) (hqueued : stage.queued x = [])
    (hlistener : stage.listener x = .serve 0) : net.Stays pic .listener := by
  have hpeer := h.peer_server (a := .listener) rfl (.serve 0)
  have hjob := hu.listener
  rw [hlistener] at hjob
  refine stays_of_step hjob ?_
  rw [step, hpeer]
  show net.stepServe 1 pic.serverPeer 0 = none
  have hpop : pic.serverPeer.inbound.pop? = none := by
    simp [Channel.pop?, Picture.serverPeer, hu.requests, hqueued]
  rw [stepServe, hpop]
  exact if_neg (by simp [Picture.serverPeer, hu.requestsOpen])

/-- Working on the request makes the reply. It is sent at once or after a while. -/
theorem worker_works (hu : Underway x .working pic) : Advances x .working net pic .worker := by
  have hpeer := h.peer_server (a := .worker) rfl (.work 0 x.request)
  have hhost : net.host = x.host := h.host.trans hu.host
  have hworker : pic.jobs .worker = some (.work 0 x.request) := hu.worker
  obtain ⟨job, hwork, hjob⟩ := stepWork_of_detaches (hhost ▸ hu.sound.detaches)
    (hhost ▸ hu.sound.replies) 1 0
  rw [hhost] at hwork
  have hstep : net.step (pic.task .worker (.work 0 x.request)) =
      some ({ net with host := x.hostAfter }, .job job) := by
    rw [step, hpeer]
    exact congrArg some hwork
  rcases hjob with rfl | ⟨limit, rfl, hlimit⟩
  · refine .later .replying (goes_job hworker hstep (h.setHost x.hostAfter) rfl rfl)
      (by simp [rank]) ?_ ?_
    · exact { hu with
        calling := hu.calling.of_isPending rfl rfl
        places := hu.places_of_holds hworker rfl
        worker := rfl
        host := rfl }
    · exact callLoad_lt (by simp [rank]) rfl (Nat.zero_le _) rfl rfl rfl
  · refine .later (.sleeping limit) (goes_job hworker hstep (h.setHost x.hostAfter) rfl rfl)
      (by simp [rank]) ?_ ?_
    · exact { hu with
        calling := hu.calling.of_isPending rfl rfl
        places := hu.places_of_holds hworker rfl
        worker := rfl
        host := rfl
        wakes := by
          rw [hhost, h.now] at hlimit
          exact hlimit }
    · exact callLoad_lt (by simp [rank]) rfl (Nat.zero_le _) rfl rfl rfl

/-- The response is sent when its time has come. -/
theorem worker_sleeps {limit : Nat} (hu : Underway x (.sleeping limit) pic) :
    (net.Stays pic .worker ∧ pic.now < limit) ∨ Advances x (.sleeping limit) net pic .worker := by
  have hpeer := h.peer_server (a := .worker) rfl (.sleep 0 limit (some x.reply))
  have hworker : pic.jobs .worker = some (.sleep 0 limit (some x.reply)) := hu.worker
  by_cases htime : limit ≤ net.now
  · have hstep : net.step (pic.task .worker (.sleep 0 limit (some x.reply))) =
        some (net, .job (.send x.reply (.release 0))) := by
      rw [step, hpeer]
      exact if_pos htime
    refine .inr (.later .replying (goes_job hworker hstep h rfl rfl) (by simp [rank]) ?_ ?_)
    · exact { hu with
        wakes := Nat.zero_le _
        calling := hu.calling.of_isPending rfl rfl
        places := hu.places_of_holds hworker rfl
        worker := rfl }
    · exact callLoad_lt (by simp [rank]) rfl (Nat.zero_le _) rfl rfl rfl
  · refine .inl ⟨stays_of_step hworker ?_, ?_⟩
    · rw [step, hpeer]
      exact if_neg htime
    · rw [← h.now]
      exact Nat.lt_of_not_le htime

/-- The response is sent on the connection of the server. -/
theorem worker_sends (hu : Underway x .replying pic) : Advances x .replying net pic .worker := by
  have hpeer := h.peer_server (a := .worker) rfl (.send x.reply (.release 0))
  have hworker : pic.jobs .worker = some (.send x.reply (.release 0)) := hu.worker
  have hstep : net.step (pic.task .worker (.send x.reply (.release 0))) =
      some (net, .job (.push (.frame x.response) (.release 0))) := by
    rw [step, hpeer]
    show some (net.stepSend 1 pic.serverPeer x.reply (.release 0)) = _
    have hopen : pic.serverPeer.connection.closed = false := by
      show pic.service.closed = false
      rw [hu.service]
      exact hu.sound.serves
    rw [stepSend, if_neg (by simp [hopen])]
    show some (net.goOn (.push (.frame (pic.service.stamp x.reply)) (.release 0))) = _
    rw [hu.service]
    rfl
  refine .later .pushingBack (goes_job hworker hstep h rfl rfl) (by simp [rank]) ?_ ?_
  · exact { hu with
      calling := hu.calling.of_isPending rfl rfl
      places := hu.places_of_holds hworker rfl
      worker := rfl
      backGate := hu.backGate_of_nil rfl rfl }
  · exact callLoad_lt (by simp [rank]) rfl (Nat.zero_le _) rfl rfl rfl

/-- There is room for the response among what goes out. -/
theorem worker_pushes (hu : Underway x .pushingBack pic) :
    Advances x .pushingBack net pic .worker := by
  have hpeer := h.peer_server (a := .worker) rfl (.push (.frame x.response) (.release 0))
  have hworker : pic.jobs .worker = some (.push (.frame x.response) (.release 0)) := hu.worker
  obtain ⟨writer, hwriter, hlane⟩ := hu.backLane
  obtain ⟨hempty, -⟩ := hlane.of_nil rfl
  have hgate := hu.backGate
  rw [hempty] at hgate
  obtain ⟨gate, henter, hpassable⟩ := Gate.Passable.enter hgate
  have hstep : net.step (pic.task .worker (.push (.frame x.response) (.release 0))) =
      some (net.changePeer 1 fun p =>
        { p with outbound := Channel.push { pic.responses with gate } (.frame x.response) },
        .job (.release 0)) := by
    rw [step, hpeer]
    show (pic.responses.gate.enter (Actor.worker.id pic.call)).bind _ = _
    rw [henter]
    rfl
  refine .later .homeward (goes_job hworker hstep
      (h.changeResponses fun _ => Channel.push { pic.responses with gate } (.frame x.response))
      rfl rfl)
    (by simp [rank]) ?_ ?_
  · exact { hu with
      calling := hu.calling.of_isPending rfl rfl
      places := hu.places_of_holds hworker rfl
      worker := .inl rfl
      backLane := ⟨writer, hwriter, hlane.push (hu.backLimit ▸ hu.sound.backSmall)⟩
      backGate := by
        show gate.Passable (!(pic.responses.items ++ [_]).isEmpty) none
        rw [hempty]
        exact hpassable }
  · have hload := Lane.laneLoad_push (pic.link.direction pic.side.other) pic.responses.items writer
      x.response
    simp only [callLoad, outLoad, backLoad, put, reduceCtorEq, if_false,
      if_true, hworker, hwriter, getD_some, rank, ahead, farewell, Outgoing.load,
      Channel.push, hload]
    omega

end Pictured

/-- After the response has gone out, it does not matter for the worker where it is. -/
theorem worker_of_release {job : Job} (hu : Underway x stage pic)
    (hworker : pic.jobs .worker = some job) (hjob : job = .release 0 ∨ job = .leave)
    {later : Option Job} (hlater : later = some .leave ∨ later = none) : stage.Worker x later := by
  have hw := hu.worker
  rw [hworker] at hw
  cases stage with
  | homeward | returning | arrived => exact .inr hlater
  | _ => rcases hjob with rfl | rfl <;> simp [Stage.Worker] at hw

section Stages

variable (h : net.Pictures pic)
include h

/-- The place for requests is given back. -/
theorem worker_releases (hu : Underway x stage pic)
    (hworker : pic.jobs .worker = some (.release 0)) : Advances x stage net pic .worker := by
  have hpeer := h.peer_server (a := .worker) rfl (.release 0)
  have hstep : net.step (pic.task .worker (.release 0)) = some (net.release 0, .job .leave) := by
    rw [step, hpeer]
    rfl
  refine .same (goes_job hworker hstep
      (h.changeServer fun s => { s with gate := s.gate.release }) rfl rfl) ?_ ?_
  · exact { hu with
      places := hu.places.release.weaken
      worker := worker_of_release hu hworker (.inl rfl) (.inl rfl) }
  · simp only [callLoad, outLoad, backLoad, put, reduceCtorEq, if_false,
      if_true, hworker, farewell]
    omega

/-- The worker ends. -/
theorem worker_leaves (hu : Underway x stage pic) (hworker : pic.jobs .worker = some .leave) :
    Advances x stage net pic .worker := by
  have hpeer := h.peer_server (a := .worker) rfl .leave
  have hstep : net.step (pic.task .worker .leave) = some (net, .ended .done) := by
    rw [step, hpeer]
    rfl
  have hplaces := hu.places
  rw [hworker] at hplaces
  refine .same (goes_ended hworker hstep h rfl rfl) ?_ ?_
  · exact { hu with
      places := hplaces
      worker := worker_of_release hu hworker (.inr rfl) (.inr rfl) }
  · simp only [callLoad, outLoad, backLoad, put, reduceCtorEq, if_false,
      if_true, hworker, farewell]
    omega

/-! ## The client -/

/-- Nothing comes to the client but the response. -/
theorem router_waits (hu : Underway x stage pic) : net.Stays pic .router := by
  have hpeer := h.peer_client (a := .router) rfl (.route 0)
  refine stays_of_step hu.router ?_
  rw [step, hpeer]
  show net.stepRoute 0 pic.clientPeer 0 = none
  have hpop : pic.clientPeer.inbound.pop? = none := by
    simp [Channel.pop?, Picture.clientPeer, hu.signals]
  rw [stepRoute, hpop]
  exact if_neg (by simp [Picture.clientPeer, hu.signalsOpen])

/-- The call gets its number. -/
theorem caller_calls (hu : Underway x .calling pic) : Advances x .calling net pic .caller := by
  have hpeer := h.peer_client (a := .caller) rfl (.call x.frame x.deadline x.purpose)
  cases hu.calling with
  | waiting hstage | late hstage => simp [isPending] at hstage
  | calling hjob hcalls hreports =>
    have hstep : net.step (pic.task .caller (.call x.frame x.deadline x.purpose)) =
        some (net.changeConnection 0 fun _ =>
          { x.calls with pending := x.calls.pending.register.2 },
          .job (.send (x.frame.numbered x.id) (.await x.id x.deadline x.purpose))) := by
      rw [step, hpeer]
      show some (net.stepCall 0 pic.clientPeer x.frame x.deadline x.purpose) = _
      have henroll : pic.clientPeer.connection.enroll x.frame = .ok (x.id, x.frame.numbered x.id,
          { x.calls with pending := x.calls.pending.register.2 }) := by
        show pic.calls.enroll x.frame = _
        rw [hcalls, Connection.enroll, if_pos hu.sound.expects]
        rfl
      rw [stepCall, henroll]
      rfl
    refine .later .sending (goes_job hjob hstep
        (h.changeCalls fun _ => { x.calls with pending := x.calls.pending.register.2 }) rfl rfl)
      (by simp [rank]) ?_ ?_
    · exact { hu with
        calling := .sending rfl rfl hreports
        counts := ⟨(hcalls ▸ hu.counts.numbered).register,
          by simp [PendingCalls.register, put]⟩ }
    · simp only [callLoad, outLoad, backLoad, put, reduceCtorEq, if_false,
        if_true, hjob, rank, ahead, isSome_some]
      omega

/-- The request is sent on the connection of the client. -/
theorem caller_sends (hu : Underway x .sending pic) : Advances x .sending net pic .caller := by
  have hpeer := h.peer_client (a := .caller) rfl
    (.send (x.frame.numbered x.id) (.await x.id x.deadline x.purpose))
  cases hu.calling with
  | waiting hstage | late hstage => simp [isPending] at hstage
  | sending hjob hcalls hreports =>
    have hstep : net.step (pic.task .caller
        (.send (x.frame.numbered x.id) (.await x.id x.deadline x.purpose))) =
        some (net, .job (.push (.frame x.request) (.await x.id x.deadline x.purpose))) := by
      rw [step, hpeer]
      show some (net.stepSend 0 pic.clientPeer (x.frame.numbered x.id)
        (.await x.id x.deadline x.purpose)) = _
      have hopen : pic.clientPeer.connection.closed = false := by
        show pic.calls.closed = false
        rw [hcalls]
        exact hu.sound.isOpen
      rw [stepSend, if_neg (by simp [hopen])]
      show some (net.goOn (.push (.frame (pic.calls.stamp (x.frame.numbered x.id)))
        (.await x.id x.deadline x.purpose))) = _
      rw [hcalls]
      rfl
    refine .later .pushing (goes_job hjob hstep h rfl rfl) (by simp [rank]) ?_ ?_
    · exact { hu with
        calling := .pushing rfl hcalls hreports
        outGate := hu.outGate_of_nil rfl rfl }
    · simp only [callLoad, outLoad, backLoad, put, reduceCtorEq, if_false,
        if_true, hjob, rank, ahead, isSome_some]
      omega

/-- There is room for the request among what goes out. -/
theorem caller_pushes (hu : Underway x .pushing pic) : Advances x .pushing net pic .caller := by
  have hpeer := h.peer_client (a := .caller) rfl
    (.push (.frame x.request) (.await x.id x.deadline x.purpose))
  obtain ⟨writer, hwriter, hlane⟩ := hu.outLane
  obtain ⟨hempty, -⟩ := hlane.of_nil rfl
  have hgate := hu.outGate
  rw [hempty] at hgate
  obtain ⟨gate, henter, hpassable⟩ := Gate.Passable.enter hgate
  cases hu.calling with
  | waiting hstage | late hstage => simp [isPending] at hstage
  | pushing hjob hcalls hreports =>
    have hstep : net.step (pic.task .caller
        (.push (.frame x.request) (.await x.id x.deadline x.purpose))) =
        some (net.changePeer 0 fun p =>
          { p with outbound := Channel.push { pic.outbound with gate } (.frame x.request) },
          .job (.await x.id (net.now + x.deadline) x.deadline x.purpose)) := by
      rw [step, hpeer]
      show (pic.outbound.gate.enter (Actor.caller.id pic.call)).bind _ = _
      rw [show Actor.caller.id pic.call = pic.call from rfl, henter]
      rfl
    have hentry : pic.calls.pending.find? x.id = some { id := x.id } := by
      rw [hcalls]
      show x.calls.pending.register.2.find? x.id = _
      rw [PendingCalls.find?_register, hu.sound.fresh]
      simp [Exchange.id]
    have hopen : pic.calls.closed = false := by
      rw [hcalls]
      exact hu.sound.isOpen
    have htime : x.started + x.deadline ≤ net.now + x.deadline := by
      rw [h.now]
      exact Nat.add_le_add_right hu.since _
    refine .later .outward (goes_job hjob hstep
        (h.changeOutbound fun _ => Channel.push { pic.outbound with gate } (.frame x.request))
        rfl rfl)
      (by simp [rank]) ?_ ?_
    · exact { hu with
        calling := .waiting rfl rfl htime hentry hopen hreports
        outLane := ⟨writer, hwriter, hlane.push (hu.outLimit ▸ hu.sound.outSmall)⟩
        outGate := by
          show gate.Passable (!(pic.outbound.items ++ [_]).isEmpty) none
          rw [hempty]
          exact hpassable }
    · have hload := Lane.laneLoad_push (pic.link.direction pic.side) pic.outbound.items writer
        x.request
      simp only [callLoad, outLoad, backLoad, put, reduceCtorEq, if_false,
        if_true, hjob, hwriter, getD_some, isSome_some, rank, ahead,
        Outgoing.load, Channel.push, hload]
      omega

/-- A task that waits for its response goes on when the response is there or the time is over. -/
theorem caller_awaits (hu : Underway x stage pic)
    (hstage : stage.isPending = true ∨ ∃ r, stage = .arrived r) :
    (net.Stays pic .caller ∧ (pic.jobs .caller = none ∨ stage.isPending = true)) ∨
    Advances x stage net pic .caller := by
  cases hu.calling with
  | calling | sending | pushing => simp [isPending] at hstage
  | reported hjob | late _ hjob => exact .inl ⟨stays_of_none hjob, .inl hjob⟩
  | waiting hpending hjob hlimit hentry hopen hreports =>
    rename_i limit
    have hpeer := h.peer_client (a := .caller) rfl (.await x.id limit x.deadline x.purpose)
    have hreceive : pic.clientPeer.connection.pending.receive x.id =
        (.empty, pic.calls.pending) := by
      show pic.calls.pending.receive x.id = _
      simp [PendingCalls.receive, hentry]
    by_cases htime : limit ≤ net.now
    · -- the caller gives up, and the response will come too late
      have hstep : net.step (pic.task .caller (.await x.id limit x.deadline x.purpose)) =
          some (net.changeConnection 0 (·.cancel x.id),
            .ended (.fault (Connection.timeoutFault x.deadline))) := by
        rw [step, hpeer]
        show net.stepAwait 0 pic.clientPeer x.id limit x.deadline x.purpose = _
        simp only [stepAwait, hreceive, if_pos htime, hu.sound.concludes, hu.sound.fails]
        rfl
      refine .inr (.same (goes_ended hjob hstep (h.changeCalls (·.cancel x.id)) rfl rfl) ?_ ?_)
      · refine { hu with
          calling := .late (.inl hpending) rfl ?_ hopen ?_ ?_
          counts := hu.counts.of_continues (pic.calls.pending.continues_cancel x.id) }
        · exact pic.calls.pending.contains_cancel_self x.id
        · exact (hlimit.trans htime).trans h.now.le
        · show pic.reports ++ [(pic.ticket, _)] = _
          rw [hreports, hu.ticket]
      · simp only [callLoad, outLoad, backLoad, put, reduceCtorEq,
          if_false, if_true, hjob, isSome_some, isSome_none]
        omega
    · refine .inl ⟨stays_of_step hjob ?_, .inr hpending⟩
      rw [step, hpeer]
      show net.stepAwait 0 pic.clientPeer x.id limit x.deadline x.purpose = _
      simp only [stepAwait, hreceive, if_neg htime]
  | answered hjob hentry hopen hreports =>
    rename_i r limit
    have hpeer := h.peer_client (a := .caller) rfl (.await x.id limit x.deadline x.purpose)
    obtain ⟨pending, hreceive⟩ : ∃ pending, pic.clientPeer.connection.pending.receive x.id =
        (.response r, pending) := by
      show ∃ pending, pic.calls.pending.receive x.id = _
      simp [PendingCalls.receive, hentry]
    have hstep : net.step (pic.task .caller (.await x.id limit x.deadline x.purpose)) =
        some (net.changeConnection 0 fun c => { c with pending }, .ended (x.judge r)) := by
      rw [step, hpeer]
      show net.stepAwait 0 pic.clientPeer x.id limit x.deadline x.purpose = _
      simp only [stepAwait, hreceive, hu.sound.concludes]
      rfl
    refine .inr (.same (goes_ended hjob hstep (h.changeCalls fun c => { c with pending }) rfl rfl)
      ?_ ?_)
    · have hpending : (pic.calls.pending.receive x.id).2 = pending := congrArg Prod.snd hreceive
      refine { hu with
        calling := .reported rfl hopen ?_
        counts := hu.counts.of_continues (hpending ▸ pic.calls.pending.continues_receive x.id) }
      show pic.reports ++ [(pic.ticket, _)] = _
      rw [hreports, hu.ticket]
    · simp only [callLoad, outLoad, backLoad, put, reduceCtorEq, if_false,
        if_true, hjob, isSome_some, isSome_none]
      omega

/-! ## Waiting -/

/-- What keeps a task from going on. -/
def Waits (x : Exchange) (stage : Stage) (pic : Picture) : Actor → Prop
  | .clientWriter => OutWaits pic
  | .serverWriter => BackWaits pic
  | .clientReader => stage.clientReader = .read ∧ (stage.inbound x = [] ∨ ¬ BackWaits pic)
  | .serverReader => stage.serverReader x = .read ∧ (stage.outbound x = [] ∨ ¬ OutWaits pic)
  | .router => True
  | .listener => stage.queued x = [] ∧ stage.listener x = .serve 0
  | .worker => (∃ limit, stage = .sleeping limit ∧ pic.now < limit) ∨ pic.jobs .worker = none
  | .caller => stage.isPending = true ∨ (∃ r, stage = .arrived r) ∧ pic.jobs .caller = none

/-- Every task waits for something, or goes on. -/
theorem advances_or_waits (hu : Underway x stage pic) (a : Actor) :
    (net.Stays pic a ∧ Waits x stage pic a) ∨ Advances x stage net pic a := by
  cases a with
  | clientWriter => exact clientWriter_advances h hu
  | serverWriter => exact serverWriter_advances h hu
  | router => exact .inl ⟨router_waits h hu, trivial⟩
  | serverReader =>
    cases stage with
    | accepting => exact .inr (serverReader_accepts h hu)
    | delivering => exact .inr (serverReader_delivers h hu)
    | _ =>
      rcases serverReader_reads h hu rfl with ⟨hstays, hreason⟩ | hadvances
      · exact .inl ⟨hstays, rfl, hreason⟩
      · exact .inr hadvances
  | clientReader =>
    cases stage with
    | returning message => exact .inr (clientReader_accepts h hu)
    | _ =>
      rcases clientReader_reads h hu rfl with ⟨hstays, hreason⟩ | hadvances
      · exact .inl ⟨hstays, rfl, hreason⟩
      · exact .inr hadvances
  | listener =>
    cases stage with
    | delivered => exact .inr (listener_takes h hu)
    | entering => exact .inr (listener_enters h hu)
    | _ => exact .inl ⟨listener_waits h hu rfl rfl, rfl, rfl⟩
  | worker =>
    have hworker := hu.worker
    cases stage with
    | working => exact .inr (worker_works h hu)
    | sleeping limit =>
      exact (worker_sleeps h hu).imp_left fun hsleeps =>
        ⟨hsleeps.1, .inl ⟨limit, rfl, hsleeps.2⟩⟩
    | replying => exact .inr (worker_sends h hu)
    | pushingBack => exact .inr (worker_pushes h hu)
    | homeward | returning | arrived =>
      rcases hworker with hrelease | hleave | hnone
      · exact .inr (worker_releases h hu hrelease)
      · exact .inr (worker_leaves h hu hleave)
      · exact .inl ⟨stays_of_none hnone, .inr hnone⟩
    | _ => exact .inl ⟨stays_of_none hworker, .inr hworker⟩
  | caller =>
    cases stage with
    | calling => exact .inr (caller_calls h hu)
    | sending => exact .inr (caller_sends h hu)
    | pushing => exact .inr (caller_pushes h hu)
    | arrived r =>
      rcases caller_awaits h hu (.inr ⟨r, rfl⟩) with ⟨hstays, hnone | hpending⟩ | hadvances
      · exact .inl ⟨hstays, .inr ⟨⟨r, rfl⟩, hnone⟩⟩
      · contradiction
      · exact .inr hadvances
    | _ => exact (caller_awaits h hu (.inl rfl)).imp_left fun hwaits => ⟨hwaits.1, .inl rfl⟩

end Stages

/-- When every task waits, the task that works on the request sleeps, or all is done. -/
theorem settled_cases (hu : Underway x stage pic) (hwaits : ∀ a, Waits x stage pic a) :
    (∃ limit, stage = .sleeping limit ∧ pic.now < limit) ∨
    ∃ r, stage = .arrived r ∧ pic.jobs .caller = none ∧ pic.jobs .worker = none ∧
      pic.jobs .clientWriter = some .write ∧ pic.jobs .serverWriter = some .write := by
  have hworker := hu.worker
  have hout := hwaits .clientWriter
  have hback := hwaits .serverWriter
  cases stage with
  | calling | sending | pushing =>
    rcases hwaits .caller with hpending | ⟨⟨r, hr⟩, -⟩ <;> contradiction
  | outward =>
    obtain ⟨-, hnone | hnot⟩ := hwaits .serverReader
    · contradiction
    · exact absurd hout hnot
  | accepting | delivering =>
    obtain ⟨hread, -⟩ := hwaits .serverReader
    contradiction
  | delivered =>
    obtain ⟨hnone, -⟩ := hwaits .listener
    contradiction
  | entering =>
    obtain ⟨-, hserve⟩ := hwaits .listener
    contradiction
  | working | replying | pushingBack =>
    rcases hwaits .worker with ⟨limit, hsleeping, -⟩ | hnone
    · contradiction
    · rw [hnone] at hworker
      contradiction
  | sleeping limit =>
    rcases hwaits .worker with hsleeps | hnone
    · exact .inl hsleeps
    · rw [hnone] at hworker
      contradiction
  | homeward =>
    obtain ⟨-, hnone | hnot⟩ := hwaits .clientReader
    · contradiction
    · exact absurd hback hnot
  | returning message =>
    obtain ⟨hread, -⟩ := hwaits .clientReader
    contradiction
  | arrived r =>
    have hcaller : pic.jobs .caller = none := by
      rcases hwaits .caller with hpending | ⟨-, hnone⟩
      · contradiction
      · exact hnone
    have hnone : pic.jobs .worker = none := by
      rcases hwaits .worker with ⟨limit, hsleeping, -⟩ | hnone
      · contradiction
      · exact hnone
    -- with nothing on the way, there is room on the link
    have hroom : pic.link.canWrite pic.side = true := by
      obtain ⟨writer, -, hlane⟩ := hu.outLane
      exact Link.canWrite_of_conveys_nil (hlane.of_nil rfl).2.1
    have hroom' : pic.link.canWrite pic.side.other = true := by
      obtain ⟨writer, -, hlane⟩ := hu.backLane
      exact Link.canWrite_of_conveys_nil (hlane.of_nil rfl).2.1
    refine .inr ⟨r, rfl, hcaller, hnone, ?_, ?_⟩
    · rcases hout with ⟨hwrite, -⟩ | ⟨-, hfull⟩
      · exact hwrite
      · simp [hroom] at hfull
    · rcases hback with ⟨hwrite, -⟩ | ⟨-, hfull⟩
      · exact hwrite
      · simp [hroom'] at hfull

end Net

end Remoting
