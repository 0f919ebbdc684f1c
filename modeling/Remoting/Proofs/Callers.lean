import Remoting.Proofs.CallHistory
import Remoting.Net.Step

/-!
# Remoting.Proofs.Callers

The callers and the shut-downs of one connection, step by step. Any number of them go on in any
order (`Closing.run`):

* a caller registers its call, looks whether the connection is closed, hands its frame to the writer
  and waits, and it gives its call up when the connection is closed, the frame is not taken or the
  time is over (`Caller.step`);
* a shut-down marks the connection as closed, looks which calls are pending and fails them one after
  the other (`Closer.step`).

These are finer steps than the ones that a network takes. A shut-down to which nothing comes in
between is `Connection.shutDown` (`Closing.run_closer`), and each step of a task that makes a call
is one step of its caller or two (`Net.step_caller`).
-/

namespace Remoting

open List Option

/-! ## Callers -/

/-- Where a caller stands. -/
inductive Caller where
  /-- It has not begun. -/
  | idle (frame : Frame) (deadline : Nat)
  /-- Its call is registered, and it looks next whether the connection is closed. -/
  | registered (id : CallId) (frame : Frame) (deadline : Nat)
  /-- It has found the connection closed, and gives its call up next. -/
  | turnedAway (id : CallId)
  /-- It has found the connection open, and hands its frame to the writer next. -/
  | admitted (id : CallId) (frame : Frame) (deadline : Nat)
  /-- It waits for the response. -/
  | waiting (id : CallId) (deadline : Nat)
  /-- Its frame was not taken or its time is over, and it gives its call up next. -/
  | givingUp (id : CallId) (fault : Fault)
  /-- It has ended. A call that cannot have a response has no number. -/
  | ended (call : Option CallId) (response : Response)

namespace Caller

/-- The number of the call, once it is registered. -/
def id? : Caller → Option CallId
  | .idle _ _ => none
  | .registered id _ _ | .turnedAway id | .admitted id _ _ | .waiting id _ | .givingUp id _ =>
    some id
  | .ended call _ => call

/-- The number of the call of somebody who has found the connection open and has not ended. -/
def passed? : Caller → Option CallId
  | .admitted id _ _ | .waiting id _ | .givingUp id _ => some id
  | _ => none

/-- The number of the call of somebody who has not looked whether the connection is closed, or has
found it closed and not given its call up. -/
def undecided? : Caller → Option CallId
  | .registered id _ _ | .turnedAway id => some id
  | _ => none

def isIdle : Caller → Bool
  | .idle _ _ => true
  | _ => false

def isEnded : Caller → Bool
  | .ended _ _ => true
  | _ => false

/-- A caller goes on. It hands its frame to the writer with the outcome that is given. -/
def step (c : Connection) (entry : Entry) : Caller → Option (Caller × Connection)
  | .idle frame deadline =>
    match c.enroll frame with
    | .ok (id, frame, c) => some (.registered id frame deadline, c)
    | .error fault => some (.ended none (.error fault), c)
  | .registered id frame deadline =>
    some (if c.closed then .turnedAway id else .admitted id (c.stamp frame) deadline, c)
  | .turnedAway id => some (.ended (some id) (.error Connection.closedFault), c.cancel id)
  | .admitted id _ deadline =>
    match entry with
    | .entered => some (.waiting id deadline, c)
    | .queued => none
    | .refused => some (.givingUp id Connection.closedFault, c)
  | .waiting id _ =>
    let (received, pending) := c.pending.receive id
    match received with
    | .response response => some (.ended (some id) response, { c with pending })
    | .closed | .noReceiver => some (.ended (some id) (.error Connection.closedFault), c)
    | .empty => none
  | .givingUp id fault => some (.ended (some id) (.error fault), c.cancel id)
  | .ended _ _ => none

/-- The time of a caller that waits is over. -/
def expire : Caller → Option Caller
  | .waiting id deadline => some (.givingUp id (Connection.timeoutFault deadline))
  | _ => none

end Caller

/-! ## Shut-downs -/

/-- The numbers of the calls that are pending. -/
def PendingCalls.pendingIds (q : PendingCalls) : List CallId :=
  (q.calls.filter (·.state.isPending)).map (·.id)

/-- Where a shut-down stands. -/
inductive Closer where
  /-- It has not begun. -/
  | idle (reason : String)
  /-- The connection is marked as closed, and it looks next which calls are pending. -/
  | marked (reason : String)
  /-- It has to fail these calls. -/
  | failing (reason : String) (ids : List CallId)
  /-- It has finished. -/
  | finished

namespace Closer

/-- The fault of the calls that a shut-down fails. -/
def fault (reason : String) : Fault := ⟨.closed, reason, none⟩

def reason? : Closer → Option String
  | .idle reason | .marked reason | .failing reason _ => some reason
  | .finished => none

/-- Whether it has marked the connection. -/
def hasMarked : Closer → Bool
  | .idle _ => false
  | _ => true

/-- The calls that it has found pending and not failed yet, once it has looked. -/
def left? : Closer → Option (List CallId)
  | .idle _ | .marked _ => none
  | .failing _ ids => some ids
  | .finished => some []

/-- A shut-down goes on. -/
def step (c : Connection) : Closer → Option (Closer × Connection)
  | .idle reason => some (.marked reason, { c with closed := true })
  | .marked reason => some (.failing reason c.pending.pendingIds, c)
  | .failing reason (id :: ids) =>
    some (.failing reason ids, c.complete id (.error (fault reason)))
  | .failing _ [] => some (.finished, c)
  | .finished => none

end Closer

/-! ## Runs -/

/-- A connection with its callers and shut-downs. -/
structure Closing where
  connection : Connection
  callers : List Caller
  closers : List Closer

/-- Something that happens to a connection. -/
inductive Closing.Move where
  /-- A caller goes on. -/
  | caller (k : Nat) (entry : Entry)
  /-- The time of a caller is over. -/
  | expire (k : Nat)
  /-- A shut-down goes on. -/
  | closer (k : Nat)
  /-- The reader completes a call. -/
  | respond (id : CallId) (response : Response)

namespace Closing

/-- Whether a caller goes on. -/
def Move.isOf (k : Nat) : Move → Bool
  | .caller j _ => j = k
  | _ => false

/-- One thing happens, if it can. -/
def step (s : Closing) : Move → Option Closing
  | .caller k entry => do
    let (caller, connection) ← (← s.callers[k]?).step s.connection entry
    return { s with connection, callers := s.callers.set k caller }
  | .expire k => do
    let caller ← (← s.callers[k]?).expire
    return { s with callers := s.callers.set k caller }
  | .closer k => do
    let (closer, connection) ← (← s.closers[k]?).step s.connection
    return { s with connection, closers := s.closers.set k closer }
  | .respond id response => some { s with connection := s.connection.complete id response }

/-- Several things happen one after the other. -/
def run (s : Closing) : List Move → Option Closing
  | [] => some s
  | m :: moves => (s.step m).bind (·.run moves)

/-- Nobody has begun. -/
def start (id : ConnectionId) (calls : List (Frame × Nat)) (reasons : List String) : Closing where
  connection := { id }
  callers := calls.map fun call => .idle call.1 call.2
  closers := reasons.map .idle

end Closing

/-! ## Shut-downs at once -/

namespace PendingCalls

variable {q : PendingCalls} {id : CallId}

/-- Where numbers differ, completing a call changes only this call. -/
theorem complete_eq_map (h : (q.calls.map (·.id)).Nodup) (response : Response) :
    (q.complete id response).2 =
      { q with calls := q.calls.map (CallAction.complete id response).effect } := by
  have hfind (c : RegisteredCall) (hc : c ∈ q.calls) (hid : c.id = id) : q.find? id = some c := by
    obtain ⟨c', hc'⟩ : ∃ c', q.find? id = some c' := by
      rw [← isSome_iff_exists, find?, find?_isSome]
      exact ⟨c, hc, by simpa using hid⟩
    rw [hc', List.inj_on_of_nodup_map h (mem_of_find?_eq_some hc') hc
      ((id_of_find? hc').trans hid.symm)]
  have hsame (hnot : ∀ c, q.find? id = some c → c.state.isPending = false) :
      q.calls.map (CallAction.complete id response).effect = q.calls := by
    conv_rhs => rw [← List.map_id q.calls]
    refine map_congr_left fun c hc => ?_
    grind [CallAction.effect]
  unfold complete
  split
  · next hnone => rw [hsame (by simp [hnone])]
  · next call hcall =>
    split
    · next hpending =>
      simp only [update, mk.injEq, true_and]
      refine map_congr_left fun c hc => ?_
      grind [CallAction.effect]
    · next hpending => rw [hsame (by simpa [hcall] using hpending)]

/-- Completing calls one after the other. -/
theorem foldl_complete (h : (q.calls.map (·.id)).Nodup) (response : Response)
    (ids : List CallId) :
    ids.foldl (fun q id => (q.complete id response).2) q =
      { q with calls := q.calls.map fun c =>
          if c.state.isPending ∧ c.id ∈ ids then { c with state := .completed response }
          else c } := by
  induction ids generalizing q with
  | nil => simp
  | cons id ids ih =>
    rw [List.foldl_cons, complete_eq_map h, ih]
    · simp only [List.map_map]
      congr 2
      funext c
      grind [CallAction.effect, CallState.isPending]
    · have hids : (fun c => ((CallAction.complete id response).effect c).id) = (·.id) := by
        funext c
        grind [CallAction.effect]
      simpa [Function.comp_def, hids] using h

theorem foldl_complete_pendingIds (h : (q.calls.map (·.id)).Nodup) (fault : Fault) :
    q.pendingIds.foldl (fun q id => (q.complete id (.error fault)).2) q = (q.failAll fault).2 := by
  rw [foldl_complete h, failAll]
  congr 1
  refine map_congr_left fun c hc => ?_
  grind [pendingIds]

end PendingCalls

namespace Closing

variable {s : Closing} {k : Nat}

/-- A shut-down fails the calls that it has found. -/
theorem run_failing (reason : String) (ids : List CallId)
    (hk : s.closers[k]? = some (.failing reason ids)) :
    s.run (List.replicate (ids.length + 1) (.closer k)) = some { s with
      connection := { s.connection with
        pending := ids.foldl (fun q id => (q.complete id (.error (Closer.fault reason))).2)
          s.connection.pending }
      closers := s.closers.set k .finished } := by
  induction ids generalizing s with
  | nil => simp [run, step, hk, Closer.step]
  | cons id ids ih =>
    have hlt := (List.getElem?_eq_some_iff.mp hk).1
    have hstep : s.step (.closer k) = some { s with
        connection := s.connection.complete id (.error (Closer.fault reason))
        closers := s.closers.set k (.failing reason ids) } := by
      simp [step, hk, Closer.step]
    rw [length_cons, List.replicate_succ, run, hstep, bind_some, ih (by simp [hlt])]
    simp [Connection.complete]

/-- A shut-down to which nothing comes in between. -/
theorem run_closer (hids : (s.connection.pending.calls.map (·.id)).Nodup) {reason : String}
    (hk : s.closers[k]? = some (.idle reason)) :
    ∃ n, s.run (List.replicate n (.closer k)) = some { s with
      connection := s.connection.shutDown reason
      closers := s.closers.set k .finished } := by
  have hlt := (List.getElem?_eq_some_iff.mp hk).1
  refine ⟨s.connection.pending.pendingIds.length + 1 + 1 + 1, ?_⟩
  rw [List.replicate_succ, List.replicate_succ]
  simp only [run, step, hk, Closer.step, bind_eq_bind, bind_some, Option.pure_def,
    hlt, getElem?_set_self]
  rw [run_failing reason _ (by simp [hlt])]
  simp [Connection.shutDown, Closer.fault, PendingCalls.foldl_complete_pendingIds hids]

end Closing

/-! ## Calls of a network -/

/-- What a task does that makes a call, where its caller stands. -/
def Caller.job? (purpose : Purpose) (limit : Nat) : Caller → Option Job
  | .idle frame deadline => some (.call frame deadline purpose)
  | .registered id frame deadline => some (.send frame (.await id deadline purpose))
  | .admitted id frame deadline => some (.push (.frame frame) (.await id deadline purpose))
  | .waiting id deadline => some (.await id limit deadline purpose)
  | .turnedAway _ | .givingUp _ _ | .ended _ _ => none

namespace Net

/-- Where a task stands after a step, with the peer it is about: it does what its caller does next,
it waits for the writer, or it has ended with the response. -/
inductive Stands (peer : Nat) (purpose : Purpose) (p : Peer) : Caller → Stepped → Prop where
  | goes {net : Net} {c : Caller} {job : Job} (limit : Nat) (hp : net.peers[peer]? = some p)
      (hjob : c.job? purpose limit = some job) : Stands peer purpose p c (net.goOn job)
  | waits {net : Net} {id : CallId} {frame : Frame} {deadline : Nat}
      (hp : net.peers[peer]? = some p) :
      Stands peer purpose p (.admitted id frame deadline) net.wait
  | ends {net : Net} {call : Option CallId} {response : Response}
      (hp : net.peers[peer]? = some p) :
      Stands peer purpose p (.ended call response) (net.conclude response purpose)

variable {net : Net} {t : Task} {p : Peer} {c : Caller} {purpose : Purpose} {limit : Nat}
  {stepped : Stepped}

theorem run_caller {connection connection' : Connection} {c' : Caller} {entry : Entry}
    (hc : c.step connection entry = some (c', connection')) (moves : List Closing.Move) :
    (⟨connection, [c], []⟩ : Closing).run (.caller 0 entry :: moves) =
      (⟨connection', [c'], []⟩ : Closing).run moves := by
  simp [Closing.run, Closing.step, hc]

theorem getElem?_peers_changePeer {peer : Nat} (hp : net.peers[peer]? = some p)
    (change : Peer → Peer) : (net.changePeer peer change).peers[peer]? = some (change p) := by
  simp [changePeer, hp]

theorem stands_cancel {peer : Nat} (hp : net.peers[peer]? = some p) (id : CallId) (fault : Fault) :
    Stands peer purpose { p with connection := p.connection.cancel id }
      (.ended (some id) (.error fault))
      ((net.changeConnection peer (·.cancel id)).conclude (.error fault) purpose) :=
  .ends (getElem?_peers_changePeer hp _)

/-- A step of a task that makes a call is some steps of its caller. -/
theorem step_caller (hp : net.peers[t.peer]? = some p) (hjob : c.job? purpose limit = some t.job)
    (hstep : net.step t = some stepped) :
    ∃ moves c' p', (⟨p.connection, [c], []⟩ : Closing).run moves =
        some ⟨p'.connection, [c'], []⟩ ∧ Stands t.peer purpose p' c' stepped := by
  have hpeer := getElem?_peers_changePeer hp
  rw [step, hp] at hstep
  cases c with
  | idle frame deadline =>
    obtain hjob : Job.call frame deadline purpose = t.job := some.inj hjob
    rw [← hjob] at hstep
    cases hstep
    refine ⟨[.caller 0 .entered], ?_⟩
    rw [stepCall]
    cases henroll : p.connection.enroll frame with
    | error fault =>
      refine ⟨.ended none (.error fault), p, run_caller ?_ [], .ends hp⟩
      simp [Caller.step, henroll]
    | ok call =>
      refine ⟨.registered call.1 call.2.1 deadline, { p with connection := call.2.2 },
        run_caller ?_ [], .goes limit (hpeer _) rfl⟩
      simp [Caller.step, henroll]
  | registered id frame deadline =>
    obtain hjob : Job.send frame (.await id deadline purpose) = t.job := some.inj hjob
    rw [← hjob] at hstep
    cases hstep
    rw [stepSend]
    cases hclosed : p.connection.closed with
    | true =>
      -- one step of the task is two of the caller: it is turned away, and gives its call up
      have hturned : (Caller.registered id frame deadline).step p.connection .entered =
          some (.turnedAway id, p.connection) := by simp [Caller.step, hclosed]
      exact ⟨[.caller 0 .entered, .caller 0 .entered], _, _,
        (run_caller hturned _).trans (run_caller rfl []), stands_cancel hp id _⟩
    | false =>
      have hadmitted : (Caller.registered id frame deadline).step p.connection .entered =
          some (.admitted id (p.connection.stamp frame) deadline, p.connection) := by
        simp [Caller.step, hclosed]
      exact ⟨[.caller 0 .entered], _, p, run_caller hadmitted [], .goes limit hp rfl⟩
  | admitted id frame deadline =>
    obtain hjob : Job.push (.frame frame) (.await id deadline purpose) = t.job :=
      some.inj hjob
    rw [← hjob] at hstep
    simp only [bind_eq_bind, bind_some, stepPush] at hstep
    obtain ⟨⟨entry, gate⟩, henter, hstep⟩ := bind_eq_some_iff.mp hstep
    cases entry with
    | refused =>
      cases hstep
      exact ⟨[.caller 0 .refused, .caller 0 .refused], _, _,
        (run_caller rfl _).trans (run_caller rfl []), stands_cancel hp id _⟩
    | entered =>
      cases hstep
      exact ⟨[.caller 0 .entered], _, _, run_caller rfl [], .goes _ (hpeer _) rfl⟩
    | queued =>
      cases hstep
      exact ⟨[], _, { p with outbound := { p.outbound with gate } }, rfl, .waits (hpeer _)⟩
  | waiting id deadline =>
    obtain hjob : Job.await id limit deadline purpose = t.job := some.inj hjob
    rw [← hjob] at hstep
    simp only [bind_eq_bind, bind_some, stepAwait] at hstep
    cases hreceive : p.connection.pending.receive id with
    | mk received pending =>
      rw [hreceive] at hstep
      cases received with
      | response response =>
        cases hstep
        refine ⟨[.caller 0 .entered], .ended (some id) response, _, run_caller ?_ [],
          .ends (hpeer _)⟩
        simp [Caller.step, hreceive]
      | closed | noReceiver =>
        cases hstep
        refine ⟨[.caller 0 .entered], .ended (some id) _, _, run_caller ?_ [], .ends hp⟩
        simp [Caller.step, hreceive]
      | empty =>
        simp only [ite_none_right_eq_some, some.injEq] at hstep
        obtain ⟨-, rfl⟩ := hstep
        -- the limit is reached: the caller expires, and then gives its call up
        have hexpired : (⟨p.connection, [.waiting id deadline], []⟩ : Closing).run
              [.expire 0, .caller 0 .entered] =
            (⟨p.connection, [.givingUp id (Connection.timeoutFault deadline)], []⟩ :
              Closing).run [.caller 0 .entered] := rfl
        exact ⟨[.expire 0, .caller 0 .entered], _, _, hexpired.trans (run_caller rfl []),
          stands_cancel hp id _⟩
  | turnedAway id | givingUp id fault | ended call response => contradiction

end Net

end Remoting
