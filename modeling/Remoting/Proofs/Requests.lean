import Remoting.Proofs.Responses

/-!
# Remoting.Proofs.Requests

Requests that come in for a client, in whole runs of a network. While its connection is open, every
message whose sender waits for a response gets one and no other message does: those that reach no
subscription are turned away, and of each of the others a task keeps track that sends the answer
when its event is used up (`Net.Responding`).
-/

namespace Remoting

open List Option
open Switchboard

namespace Net

variable {net net' : Net} {a : Happening} {happenings : List Happening} {host : Host} {t u : Task}
  {next : Next} {c k id : Nat} {signals : List (Nat × SignalAction)}

/-! ## Tasks by number and place -/

theorem task?_place (net : Net) (t : Task) (next : Next) (id : Nat) :
    (net.place t next).task? id = if id = t.id then next.handed? some t else net.task? id := by
  cases next with
  | job job => exact task?_setJob net t job id
  | waiting => exact task?_setJob net t t.job id
  | ended report => exact task?_endTask net t report id

theorem Grows.task?_eq {P : Task → Prop} (h : net.Grows P net') (hid : id < net.nextTask) :
    net'.task? id = net.task? id := by
  obtain ⟨new, htasks, -, hids, -⟩ := h
  have hnone : new.find? (·.id == id) = none := by
    rw [find?_eq_none]
    intro u hu
    have hle := (id_of_mem_new hids hu).1
    simp only [beq_iff_eq]
    omega
  rw [task?, htasks, find?_append, hnone, or_none, task?]

theorem Grows.mem_tasks {P : Task → Prop} (h : net.Grows P net') (hu : u ∈ net'.tasks) :
    u ∈ net.tasks ∨ (net.nextTask ≤ u.id ∧ P u) := by
  obtain ⟨new, htasks, -, hids, hnew⟩ := h
  rw [htasks, mem_append] at hu
  exact hu.imp_right fun hu => ⟨(id_of_mem_new hids hu).1, hnew u hu⟩

/-- A task that is started by another is started at its peer, under a new number. -/
theorem mem_tasks_step_spawned (hstep : net.step t = some (net', next)) (hu : u ∈ net'.tasks) :
    u ∈ net.tasks ∨ (net.nextTask ≤ u.id ∧ Spawned t.origin? u) :=
  (step_does hstep).tasks.mem_tasks hu

/-- Only tasks that let a server work and those that route messages start others. -/
theorem of_origin? (h : t.origin? = some k) :
    t.peer = k ∧ t.job.duty ≠ .reader ∧ (t.job.duty = .router c → ∃ f, t.job = .dispatch c f) := by
  obtain ⟨id, peer, job, ticket⟩ := t
  cases job with
  | enter | work | dispatch => simpa [Task.origin?, Job.duty] using h
  | _ => contradiction

/-- A task that starts sends no responses, is at a peer that was started by itself, or has a post. -/
theorem Starts.mute_or (h : net.Starts u) :
    u.job.isMute = true ∨ u.peer ∈ net.ownPeers ∨ u.job.duty.post?.isSome = true := by
  cases h with
  | other hduty hmute => exact hmute.imp_right .inl
  | reader hjob | server n hjob | router c hjob =>
    exact .inr (.inr (by simp [hjob, Job.duty, Duty.post?]))
  | subscriber frame deadline s name hjob => exact .inl (by simp [hjob, Job.isMute])
  | discarder frame s hjob hmute => exact .inl (by simp [hjob, Job.isMute, After.isMute, hmute])

/-- At the peer of a client, it sends no responses, reads, or routes the messages of the client. -/
theorem Starts.voice (h : net.Starts u) (hposted : net.Posted) (hu : u ∈ net.tasks)
    (hc : net.peerOf c = some u.peer) :
    u.job.isMute = true ∨ u.job.duty = .reader ∨ u.job.duty = .router c := by
  obtain ⟨-, hown, htaking⟩ := hposted.clients c u.peer hc
  obtain hmute | hpeer | hpost := h.mute_or
  · exact .inl hmute
  · exact absurd hpeer hown
  · refine .inr ?_
    cases hduty : u.job.duty with
    | reader => exact .inl rfl
    | router c' | server n =>
      rw [← hduty]
      exact .inr (htaking u hu rfl (by rw [hduty, Duty.post?]))
    | _ => simp [hduty, Duty.post?] at hpost

/-- Who may send responses is at a peer that is there. -/
def Placed (net : Net) : Prop :=
  ∀ t ∈ net.tasks, t.job.isMute = true ∨ t.peer < net.peers.length

/-- After a step, who may respond is at a peer that is there. -/
theorem Placed.step (h : net.Placed) (ht : t ∈ net.tasks)
    (hstep : net.step t = some (net', next)) : (net'.place t next).Placed := by
  obtain ⟨p, hp, -⟩ := bind_eq_some_iff.mp hstep
  have hlt := (List.getElem?_eq_some_iff.mp hp).1
  have hlength : net'.peers.length = net.peers.length := (step_does hstep).peers
  intro u hu
  rw [peers_place, hlength]
  obtain ⟨hu, -⟩ | ⟨job, rfl, rfl⟩ | ⟨rfl, rfl⟩ := mem_tasks_place.mp hu
  · obtain hu | ⟨-, horigin, -⟩ := mem_tasks_step_spawned hstep hu
    · exact h u hu
    · exact .inr ((of_origin? (c := 0) horigin).1 ▸ hlt)
  · exact .inr hlt
  · exact h u ht

theorem Placed.change (h : net.Placed) (hchange : net.Change signals net') (hposted : net'.Posted) :
    net'.Placed := by
  intro u hu
  obtain hold | hstarts := hchange.starts hu
  · exact (h u hold).imp_right fun hlt => hlt.trans_le hchange.peers.1
  · obtain hmute | hpeer | hpost := hstarts.mute_or
    · exact .inl hmute
    · exact .inr (hposted.own _ hpeer).1
    · exact .inr (hposted.placed u hu hpost)

/-- Who may respond is at a peer that is there. -/
theorem placed_happens (hrun : ({ host } : Net).happens happenings = some net) : net.Placed := by
  refine happens_induction (P := fun _ net => net.Placed) (fun t ht => by contradiction)
    (fun {happenings a net₁ net₂} hbefore ih ha => ?_) hrun
  obtain ⟨t, net', next, -, ht, -, hstep, rfl, -⟩ | ⟨-, hchange⟩ := happen_cases ha
  · exact ih.step ht hstep
  · exact ih.change hchange ((kept_happens hbefore).posted.happen ha)

/-! ## Who sends responses -/

/-- Whether a task is one that routes the messages of a client. -/
def routesFor (c : Nat) (t : Task) : Bool := t.job.duty == .router c

/-- What a task that routes the messages of a client is to send. -/
def turnedBy? (c : Nat) (t : Task) : Option Outgoing :=
  if t.job.duty = .router c then t.job.departing? else none

/-- Who puts a response among what goes out at a peer with a happening. -/
def respondersAt (k : Nat) (net : Net) : Happening → List Task
  | .go task =>
    if (departures k net (.go task)).any (·.isResponse) then (net.task? task).toList else []
  | _ => []

/-- Who sent responses at a peer in a run. -/
def responders (net : Net) (happenings : List Happening) (k : Nat) : List Task :=
  net.trace (respondersAt k) happenings

/-- What goes on at the peer of a client, after what was done to its subscriptions and with what
tasks have sent: messages are turned away in order, and the tasks with these numbers send the
answers to the others. -/
structure Responding (c k : Nat) (actions : List SignalAction)
    (sent : (Task → Bool) → List Outgoing) (responders : List Task) (ids : List Nat) (net : Net) :
    Prop where
  refused : List.Forall₂ TurnsAway (turnedAway actions)
    (sent (routesFor c) ++ net.handed (turnedBy? c))
  length : ids.length = (awaited actions).length
  nodup : ids.Nodup
  known : ∀ id ∈ ids, id < net.nextTask
  unborn : ∀ id, net.nextTask ≤ id → sent (·.id == id) = []
  answering : ∀ s f id, (awaited actions)[s]? = some f → ids[s]? = some id →
    Answering c s f.header (Switchboard.replyTo (Switchboard.used actions) s)
      ((net.task? id).map (·.job)) (sent (·.id == id))
  places : ∀ t ∈ net.tasks, t.id ∈ ids → t.peer = k
  /-- Nobody else sends responses. -/
  voices : ∀ t ∈ net.tasks, t.peer = k → t.job.isMute = true ∨ t.job.duty = .reader ∨
    t.job.duty = .router c ∨ t.id ∈ ids
  responders : ∀ t ∈ responders, readsAt k t = true ∨ routesFor c t = true ∨ t.id ∈ ids

/-! ## One step -/

section Step

variable {came : Nat → List Frame} {history : Nat → List SignalAction} {actions : List SignalAction}
  {sent : (Task → Bool) → List Outgoing} {heard : List Task} {ids : List Nat} {f : Frame}

theorem reaching_cases (c : Nat) (actions : List SignalAction) (t : Task) :
    reaching c actions t = [] ∨ ∃ f, t.job = .dispatch c f ∧ reaching c actions t = [f] ∧
      awaitedBy actions (.route f) = [f] := by
  cases hroutes : t.job.routes? c with
  | none => simp [reaching, hroutes]
  | some f =>
    have hreaching : reaching c actions t = awaitedBy actions (.route f) := by
      simp [reaching, hroutes]
    by_cases hawaits : f.header.kind.expectsResponse = true ∧ ReachesAfter actions f
    · have hawaited : awaitedBy actions (.route f) = [f] := if_pos hawaits
      exact .inr ⟨f, Job.eq_dispatch_of_routes? hroutes, hreaching.trans hawaited, hawaited⟩
    · exact .inl (hreaching.trans (if_neg hawaits))

theorem turnedBy?_of_new (h : u.job.duty = .other ∨
    ∃ client slot request, u.job = .answer client slot request) : turnedBy? c u = none := by
  obtain hduty | ⟨client, slot, request, hjob⟩ := h
  · simp [turnedBy?, hduty]
  · simp [turnedBy?, hjob, Job.duty]

/-- The messages that are turned away, after a step of the task that routes messages. -/
theorem refused_router (hkept : net.Kept came history) (hopen : net.OpenAt k)
    (hc : net.peerOf c = some k) (hfew : subscribed (history c) < 2 ^ 64) (ht : t ∈ net.tasks)
    (htask : net.task? t.id = some t) (hstep : net.step t = some (net', next))
    (hduty : t.job.duty = .router c) {turned : List Frame} {before : List Outgoing}
    (h : List.Forall₂ TurnsAway turned (before ++ net.handed (turnedBy? c))) :
    List.Forall₂ TurnsAway (turned ++ turning c (history c) t)
      (before ++ departures k net (.go t.id) ++ (net'.place t next).handed (turnedBy? c)) := by
  have hpeer : t.peer = k := some.inj
    ((hkept.routed.routers t ht c hduty).symm.trans hc)
  subst hpeer
  obtain ⟨client, hclient, -⟩ := map_eq_some_iff.mp hc
  have honly (u : Task) (hu : u ∈ net.tasks) (hid : u.id ≠ t.id) : turnedBy? c u = none := by
    refine if_neg fun hduty' => hid ?_
    have hpeer := some.inj ((hkept.routed.routers u hu c hduty').symm.trans hc)
    exact hkept.posted.single u hu t ht hpeer (by rw [hduty, hduty'])
      (by simp [hduty', Duty.post?])
  have hnext : next.handed? (turnedBy? c) t = next.handed? (fun u => u.job.departing?) t := by
    cases next with
    | job job =>
      obtain heq | ⟨-, client, slot, request, heq⟩ := (step_does hstep).stays job rfl
      · exact if_pos (heq.trans hduty)
      · simp [hduty] at heq
    | waiting => exact if_pos hduty
    | ended report => rfl
  have hroutes := routes_of_router hduty hopen hclient (hkept.recorded.board c client hclient) hfew
    htask hstep
  rw [hkept.numbered.handed_eq ht honly, turnedBy?, if_pos hduty] at h
  rw [handed_step_of_only hstep (fun _ _ => turnedBy?_of_new) honly, hnext]
  exact hroutes.keeps h

/-- The messages that are turned away, after a step of another task. -/
theorem handed_turnedBy?_step (hkept : net.Kept came history) (ht : t ∈ net.tasks)
    (hstep : net.step t = some (net', next)) (hduty : t.job.duty ≠ .router c) :
    (net'.place t next).handed (turnedBy? c) = net.handed (turnedBy? c) := by
  refine hkept.numbered.handed_step_of_none hstep (fun _ _ => turnedBy?_of_new) ht
    (if_neg hduty) ?_
  cases next with
  | job job =>
    refine if_neg fun hduty' => ?_
    obtain heq | ⟨heq, -⟩ := (step_does hstep).stays job rfl
    · exact hduty (heq.symm.trans hduty')
    · exact absurd (heq.symm.trans hduty') (by simp)
  | waiting => exact if_neg hduty
  | ended report => rfl

theorem turning_of_not_router (hduty : t.job.duty ≠ .router c) : turning c actions t = [] := by
  cases hroutes : t.job.routes? c with
  | none => simp [turning, hroutes]
  | some f => exact absurd (Job.duty_of_routes? hroutes) hduty

theorem Responding.refused_step (h : net.Responding c k (history c) sent heard ids)
    (hkept : net.Kept came history) (hopen : net.OpenAt k) (hc : net.peerOf c = some k)
    (hfew : subscribed (history c) < 2 ^ 64) (ht : t ∈ net.tasks)
    (htask : net.task? t.id = some t) (hstep : net.step t = some (net', next)) :
    List.Forall₂ TurnsAway (turnedAway (history c) ++ turning c (history c) t)
      (sent (routesFor c) ++ departuresBy (routesFor c) k net (.go t.id) ++
        (net'.place t next).handed (turnedBy? c)) := by
  by_cases hduty : t.job.duty = .router c
  · rw [departuresBy_go htask (by simp [routesFor, hduty])]
    exact refused_router hkept hopen hc hfew ht htask hstep hduty h.refused
  · rw [departuresBy_go_of_not htask (by simpa [routesFor] using hduty),
      handed_turnedBy?_step hkept ht hstep hduty, turning_of_not_router hduty, append_nil,
      append_nil]
    exact h.refused

/-- Who is known by one of the numbers is on the way to sending its answer. -/
theorem Responding.answering_of_mem (h : net.Responding c k actions sent heard ids)
    (htask : net.task? t.id = some t) (hid : t.id ∈ ids) :
    ∃ s f, (awaited actions)[s]? = some f ∧ ids[s]? = some t.id ∧
      Answering c s f.header (replyTo (used actions) s) (some t.job)
        (sent (·.id == t.id)) := by
  obtain ⟨s, hs⟩ := mem_iff_getElem?.mp hid
  have hlt : s < (awaited actions).length := h.length ▸ (List.getElem?_eq_some_iff.mp hs).1
  refine ⟨s, _, getElem?_eq_getElem hlt, hs, ?_⟩
  simpa [htask] using h.answering s _ t.id (getElem?_eq_getElem hlt) hs

/-- The tasks that send answers start no others, so only the task that routes messages does. -/
theorem Responding.eq_dispatch_of_origin? (h : net.Responding c k actions sent heard ids)
    (ht : t ∈ net.tasks) (htask : net.task? t.id = some t) (horigin : t.origin? = some k) :
    ∃ f, t.job = .dispatch c f := by
  obtain ⟨hpeer, hreader, hrouter⟩ := of_origin? (c := c) horigin
  obtain hmute | hduty | hduty | hid := h.voices t ht hpeer
  · simp [origin?_of_isMute hmute] at horigin
  · exact absurd hduty hreader
  · exact hrouter hduty
  · obtain ⟨s, f, -, -, hanswering⟩ := h.answering_of_mem htask hid
    simp [hanswering.origin?_eq_none] at horigin

/-- The numbers of tasks that send answers after a step. -/
def nextIds (c : Nat) (actions : List SignalAction) (net : Net) (t : Task) (ids : List Nat) :
    List Nat := ids ++ (reaching c actions t).map fun _ => net.nextTask

theorem Responding.nodup_step (h : net.Responding c k actions sent heard ids) (t : Task) :
    (nextIds c actions net t ids).Nodup := by
  obtain hnone | ⟨f, -, hone, -⟩ := reaching_cases c actions t
  · simpa [nextIds, hnone] using h.nodup
  · have hnew : net.nextTask ∉ ids := fun hmem => (h.known _ hmem).false
    simpa [nextIds, hone, nodup_append] using ⟨h.nodup, fun id hid heq => hnew (heq ▸ hid)⟩

/-- A step that lets somebody send an answer starts the task that does. -/
theorem tasks_of_reaching (hkept : net.Kept came history) (hc : net.peerOf c = some k)
    (hfew : subscribed (history c) < 2 ^ 64) (hstep : net.step t = some (net', next))
    (hjob : t.job = .dispatch c f) :
    net'.tasks = net.tasks ++
      (reaching c (history c) t).map (net.answerer t.peer c (awaited (history c)).length) := by
  obtain ⟨client, hclient, -⟩ := map_eq_some_iff.mp hc
  have htasks := (step_dispatch hjob hclient (hkept.recorded.board c client hclient) hfew hstep).2
  simpa [reaching, hjob, Job.routes?] using htasks

theorem Responding.known_step (h : net.Responding c k (history c) sent heard ids)
    (hkept : net.Kept came history) (hc : net.peerOf c = some k)
    (hfew : subscribed (history c) < 2 ^ 64) (hstep : net.step t = some (net', next)) :
    ∀ id ∈ nextIds c (history c) net t ids, id < net'.nextTask := by
  obtain ⟨new, htasks, hnext, -⟩ := (step_does hstep).tasks
  replace htasks : net'.tasks = net.tasks ++ new := htasks
  replace hnext : net'.nextTask = net.nextTask + new.length := hnext
  intro id hid
  obtain hid | hid := mem_append.mp hid
  · have hlt := h.known id hid
    omega
  · obtain hnone | ⟨f, hjob, hone, -⟩ := reaching_cases c (history c) t
    · simp [hnone] at hid
    · rw [tasks_of_reaching hkept hc hfew hstep hjob, hone] at htasks
      have hlength := congrArg List.length (append_cancel_left htasks)
      rw [hone] at hid
      simp only [List.map_cons, map_nil, List.mem_singleton, length_singleton] at hid hlength
      omega

theorem departuresBy_id_of_ne (htask : net.task? t.id = some t) (hid : id ≠ t.id) (k : Nat) :
    departuresBy (·.id == id) k net (.go t.id) = [] :=
  departuresBy_go_of_not htask (by simpa using fun heq : t.id = id => hid heq.symm) k

section Responses

variable (h : net.Responding c k (history c) sent heard ids) (hkept : net.Kept came history)
  (hc : net.peerOf c = some k) (ht : t ∈ net.tasks) (hstep : net.step t = some (net', next))
include h hkept hc ht hstep

/-- A task that is on the way to sending an answer gets on, or stays where it is while others do. -/
theorem Responding.answering_old (hopen : net.OpenAt k) (hfew : subscribed (history c) < 2 ^ 64)
    (htaken : Switchboard.AnswersTaken (history c)) (htask : net.task? t.id = some t) {s : Nat}
    (hs : (awaited (history c))[s]? = some f) (hid : ids[s]? = some id) :
    Answering c s f.header (replyTo (used (history c)) s)
      (((net'.place t next).task? id).map (·.job))
      (sent (·.id == id) ++ departuresBy (·.id == id) k net (.go t.id)) := by
  have hanswering := h.answering s f id hs hid
  rw [task?_place]
  by_cases heq : id = t.id
  · subst heq
    have hpeer := h.places t ht (mem_of_getElem? hid)
    subst hpeer
    obtain ⟨client, hclient, -⟩ := map_eq_some_iff.mp hc
    have hreply := reply?_after hfew htaken s
    rw [← hkept.recorded.board c client hclient] at hreply
    rw [htask] at hanswering
    have hnext : (next.handed? some t).map (·.job) = next.handed? (fun u => some u.job) t := by
      cases next <;> rfl
    rw [if_pos rfl, hnext, departuresBy_go htask (by simp)]
    exact answering_step hanswering hopen hclient hreply htask hstep
  · have hlt := h.known id (mem_of_getElem? hid)
    have hsame : net'.task? id = net.task? id := (step_does hstep).tasks.task?_eq hlt
    rw [if_neg heq, hsame, departuresBy_id_of_ne htask heq, append_nil]
    exact hanswering

/-- A task that is started to send an answer waits for that. -/
theorem Responding.answering_new (hfew : subscribed (history c) < 2 ^ 64)
    (htask : net.task? t.id = some t) (hjob : t.job = .dispatch c f)
    (hone : reaching c (history c) t = [f]) (reply? : Option Reply) :
    Answering c (awaited (history c)).length f.header reply?
      (((net'.place t next).task? net.nextTask).map (·.job))
      (sent (·.id == net.nextTask) ++ departuresBy (·.id == net.nextTask) k net (.go t.id)) := by
  have hfresh := hkept.numbered.fresh t ht
  have hnone : net.tasks.find? (·.id == net.nextTask) = none := by
    rw [find?_eq_none]
    intro u hu
    have hlt := hkept.numbered.fresh u hu
    simp only [beq_iff_eq]
    omega
  have hfound : net'.task? net.nextTask =
      some (net.answerer t.peer c (awaited (history c)).length f) := by
    rw [task?, tasks_of_reaching hkept hc hfew hstep hjob, hone, find?_append, hnone]
    simp [answerer]
  rw [task?_place, if_neg (by omega), hfound, h.unborn _ le_rfl,
    departuresBy_id_of_ne htask (by omega)]
  exact .waits

theorem Responding.answering_step (hopen : net.OpenAt k) (hfew : subscribed (history c) < 2 ^ 64)
    (htaken : Switchboard.AnswersTaken (history c)) (htask : net.task? t.id = some t)
    (more : List SignalAction) {s : Nat}
    (hs : (awaited (history c) ++ reaching c (history c) t)[s]? = some f)
    (hid : (nextIds c (history c) net t ids)[s]? = some id) :
    Answering c s f.header (replyTo (used (history c ++ more)) s)
      (((net'.place t next).task? id).map (·.job))
      (sent (·.id == id) ++ departuresBy (·.id == id) k net (.go t.id)) := by
  obtain hlt | hle := Nat.lt_or_ge s (awaited (history c)).length
  · rw [getElem?_append_left hlt] at hs
    rw [nextIds, getElem?_append_left (by rwa [h.length])] at hid
    exact (h.answering_old hkept hc ht hstep hopen hfew htaken htask hs hid).mono
      fun reply => replyTo_append
  · rw [getElem?_append_right hle] at hs
    rw [nextIds, getElem?_append_right (by rwa [h.length]), h.length] at hid
    obtain hnone | ⟨g, hjob, hone, -⟩ := reaching_cases c (history c) t
    · simp [hnone] at hs
    · have hlt := (List.getElem?_eq_some_iff.mp hs).1
      rw [hone, length_singleton] at hlt
      obtain rfl : s = (awaited (history c)).length := by omega
      simp only [hone, Nat.sub_self, List.map_cons, getElem?_cons_zero,
        some.injEq] at hs hid
      subst hs hid
      exact h.answering_new hkept hc ht hstep hfew htask hjob hone _

theorem Responding.places_step :
    ∀ u ∈ (net'.place t next).tasks, u.id ∈ nextIds c (history c) net t ids → u.peer = k := by
  have hold (u : Task) (hu : u ∈ net.tasks) (hid : u.id ∈ nextIds c (history c) net t ids) :
      u.peer = k := by
    obtain hid | hid := mem_append.mp hid
    · exact h.places u hu hid
    · have hlt := hkept.numbered.fresh u hu
      simp only [List.mem_map, exists_and_right] at hid
      omega
  intro u hu hid
  obtain ⟨hu, -⟩ | ⟨job, rfl, rfl⟩ | ⟨rfl, rfl⟩ := mem_tasks_place.mp hu
  · obtain hu | ⟨hle, horigin, -⟩ := mem_tasks_step_spawned hstep hu
    · exact hold u hu hid
    · -- The task is new, so it was started by the one that routes messages.
      obtain hid | hid := mem_append.mp hid
      · have hlt := h.known _ hid
        omega
      · obtain hnone | ⟨f, hjob, -⟩ := reaching_cases c (history c) t
        · simp [hnone] at hid
        · have hrouter := hkept.routed.routers t ht c (by rw [hjob, Job.duty])
          rw [← (of_origin? (c := c) horigin).1]
          exact some.inj (hrouter.symm.trans hc)
  · exact hold t ht hid
  · exact hold u ht hid

theorem Responding.voices_step (hfew : subscribed (history c) < 2 ^ 64)
    (htask : net.task? t.id = some t) :
    ∀ u ∈ (net'.place t next).tasks, u.peer = k → u.job.isMute = true ∨ u.job.duty = .reader ∨
      u.job.duty = .router c ∨ u.id ∈ nextIds c (history c) net t ids := by
  have hmore {id : Nat} (hid : id ∈ ids) : id ∈ nextIds c (history c) net t ids :=
    mem_append_left _ hid
  intro u hu hpeer
  obtain ⟨hu, -⟩ | ⟨job, rfl, rfl⟩ | ⟨rfl, rfl⟩ := mem_tasks_place.mp hu
  · obtain hold | ⟨hle, horigin, -⟩ := mem_tasks_step_spawned hstep hu
    · exact (h.voices u hold hpeer).imp_right (.imp_right (.imp_right hmore))
    · rw [hpeer] at horigin
      obtain ⟨f, hjob⟩ := h.eq_dispatch_of_origin? ht htask horigin
      rw [tasks_of_reaching hkept hc hfew hstep hjob, mem_append, List.mem_map] at hu
      obtain hold | ⟨g, hg, rfl⟩ := hu
      · have hlt := hkept.numbered.fresh u hold
        omega
      · exact .inr (.inr (.inr (mem_append_right _ (List.mem_map.mpr ⟨g, hg, rfl⟩))))
  · have hstays := (step_does hstep).stays job rfl
    obtain hmute | hduty | hduty | hid := h.voices t ht hpeer
    · exact .inl (isMute_step hmute hstep)
    · obtain heq | ⟨-, client, slot, request, heq⟩ := hstays
      · exact .inr (.inl (heq.trans hduty))
      · simp [hduty] at heq
    · obtain heq | ⟨-, client, slot, request, heq⟩ := hstays
      · exact .inr (.inr (.inl (heq.trans hduty)))
      · simp [hduty] at heq
    · exact .inr (.inr (.inr (hmore hid)))
  · exact (h.voices u ht hpeer).imp_right (.imp_right (.imp_right hmore))

end Responses

theorem Responding.responders_step (h : net.Responding c k actions sent heard ids)
    (ht : t ∈ net.tasks) (htask : net.task? t.id = some t)
    (hstep : net.step t = some (net', next)) :
    ∀ u ∈ heard ++ respondersAt k net (.go t.id),
      readsAt k u = true ∨ routesFor c u = true ∨ u.id ∈ nextIds c actions net t ids := by
  have hmore {id : Nat} (hid : id ∈ ids) : id ∈ nextIds c actions net t ids :=
    mem_append_left _ hid
  intro u hu
  obtain hu | hu := mem_append.mp hu
  · exact (h.responders u hu).imp_right (.imp_right hmore)
  · rw [respondersAt, htask] at hu
    split at hu
    · next hresponse =>
      obtain rfl : u = t := by simpa using hu
      obtain hnone | ⟨hpeer, message, after, hjob, hone⟩ := departures_step htask hstep k
      · simp [hnone] at hresponse
      · -- Who puts a response there is not mute.
        have hloud : u.job.isMute ≠ true := by
          cases message <;> simp_all [Job.isMute, Outgoing.isResponse]
        obtain hmute | hduty | hduty | hid := h.voices u ht hpeer
        · exact absurd hmute hloud
        · exact .inl (by simp [readsAt, hpeer, hduty])
        · exact .inr (.inl (by simp [routesFor, hduty]))
        · exact .inr (.inr (hmore hid))
    · contradiction

theorem Responding.step (h : net.Responding c k (history c) sent heard ids)
    (hkept : net.Kept came history) (hopen : net.OpenAt k) (hc : net.peerOf c = some k)
    (hfew : subscribed (history c) < 2 ^ 64) (htaken : Switchboard.AnswersTaken (history c))
    (ht : t ∈ net.tasks) (htask : net.task? t.id = some t)
    (hstep : net.step t = some (net', next)) :
    (net'.place t next).Responding c k (history c ++ actionsAt c (stepSignals t next))
      (fun sort => sent sort ++ departuresBy sort k net (.go t.id))
      (heard ++ respondersAt k net (.go t.id)) (nextIds c (history c) net t ids) := by
  obtain ⟨hawaited, hturned⟩ := requests_step c (history c) t next
  obtain ⟨new, -, hnext, -⟩ := (step_does hstep).tasks
  have hnextTask : (net'.place t next).nextTask = net.nextTask + new.length := by
    rw [← hnext]
    cases next <;> rfl
  have hplaced : (net'.place t next).nextTask = net'.nextTask := by cases next <;> rfl
  constructor
  case refused =>
    rw [hturned]
    exact h.refused_step hkept hopen hc hfew ht htask hstep
  case length => rw [hawaited, nextIds, length_append, length_append, h.length,
    length_map]
  case nodup => exact h.nodup_step t
  case known =>
    rw [hplaced]
    exact h.known_step hkept hc hfew hstep
  case unborn =>
    intro id hle
    have hlt := hkept.numbered.fresh t ht
    rw [h.unborn id (by omega), departuresBy_id_of_ne htask (by omega), append_nil]
  case answering =>
    intro s f id hs hid
    rw [hawaited] at hs
    exact h.answering_step hkept hc ht hstep hopen hfew htaken htask _ hs hid
  case places => exact h.places_step hkept hc ht hstep
  case voices => exact h.voices_step hkept hc ht hstep hfew htask
  case responders => exact h.responders_step ht htask hstep

/-! ## Whatever else happens -/

theorem Starts.turnedBy?_eq_none (h : net.Starts u) (c : Nat) : turnedBy? c u = none := by
  cases h with
  | other hduty => simp [turnedBy?, hduty]
  | router c' hjob => simp [turnedBy?, hjob, Job.departing?]
  | reader hjob | server n hjob | subscriber frame deadline s name hjob | discarder frame s hjob =>
    simp [turnedBy?, hjob, Job.duty, Purpose.duty, After.duty]

theorem Responding.change (h : net.Responding c k actions sent heard ids) (hnumbered : net.Numbered)
    (hc : net.peerOf c = some k) (hchange : net.Change signals net') (hposted : net'.Posted)
    {more : List SignalAction} (hmore : ∀ action ∈ more, action.frame? = none) :
    net'.Responding c k (actions ++ more) sent heard ids := by
  obtain ⟨hawaited, hturned⟩ : awaited (actions ++ more) = awaited actions ∧
      turnedAway (actions ++ more) = turnedAway actions := requests_append hmore
  have hgrows := hchange.grows
  have hnext : net.nextTask ≤ net'.nextTask := by
    obtain ⟨new, -, hnext, -⟩ := hgrows
    omega
  constructor
  case refused =>
    rw [hturned, hchange.handed hnumbered fun u _ hstarts => hstarts.turnedBy?_eq_none c]
    exact h.refused
  case length => rw [hawaited, h.length]
  case nodup => exact h.nodup
  case known => exact fun id hid => (h.known id hid).trans_le hnext
  case unborn => exact fun id hle => h.unborn id (hnext.trans hle)
  case answering =>
    intro s f id hs hid
    rw [hawaited] at hs
    rw [hgrows.task?_eq (h.known id (mem_of_getElem? hid))]
    exact (h.answering s f id hs hid).mono fun reply => replyTo_append
  case places =>
    intro u hu hid
    have hlt := h.known _ hid
    obtain hu | ⟨hle, -⟩ := hgrows.mem_tasks hu
    · exact h.places u hu hid
    · omega
  case voices =>
    intro u hu hpeer
    obtain hold | hstarts := hchange.starts hu
    · exact h.voices u hold hpeer
    · have hc' := hchange.peerOf hc
      rw [← hpeer] at hc'
      exact (hstarts.voice hposted hu hc').imp_right (.imp_right .inl)
  case responders => exact h.responders

/-- A client that is new has got no messages yet. -/
theorem responding_new (hchange : net.Change signals net') (hrouted : net.Routed)
    (hplaced : net.Placed) (hposted : net'.Posted) (hc : net'.peerOf c = some k)
    (habsent : net.clients.length ≤ c) (hle : net.peers.length ≤ k) :
    net'.Responding c k [] (fun _ => []) [] [] := by
  have hhanded : net'.handed (turnedBy? c) = [] := by
    rw [Net.handed, filterMap_eq_nil_iff]
    intro u hu
    obtain hold | hstarts := hchange.starts hu
    · refine if_neg fun hduty => ?_
      have hlt := lt_of_peerOf (hrouted.routers u hold c hduty)
      omega
    · exact hstarts.turnedBy?_eq_none c
  constructor
  case refused =>
    rw [hhanded]
    exact .nil
  case voices =>
    intro u hu hpeer
    obtain hold | hstarts := hchange.starts hu
    · obtain hmute | hlt := hplaced u hold
      · exact .inl hmute
      · omega
    · rw [← hpeer] at hc
      exact (hstarts.voice hposted hu hc).imp_right (.imp_right .inl)
  case answering => simp [awaited]
  all_goals simp [awaited]

end Step

/-! ## Whole runs -/

/-- No peer goes away. -/
theorem length_peers_happen (ha : net.happen a = some net') :
    net.peers.length ≤ net'.peers.length := by
  obtain ⟨t, net₁, next, -, -, -, hstep, rfl, -⟩ | ⟨-, hchange⟩ := happen_cases ha
  · rw [peers_place]
    exact (step_does hstep).peers.ge
  · exact hchange.peers.1

/-- At a peer that is not there nothing was sent. -/
theorem silent_of_le (hrun : ({ host } : Net).happens happenings = some net)
    (hle : net.peers.length ≤ k) :
    (∀ sort, ({ host } : Net).sentBy sort happenings k = []) ∧
      ({ host } : Net).responders happenings k = [] := by
  refine happens_induction (P := fun happenings net => net.peers.length ≤ k →
    (∀ sort, ({ host } : Net).sentBy sort happenings k = []) ∧
      ({ host } : Net).responders happenings k = [])
    (fun _ => ⟨fun _ => rfl, rfl⟩) (fun {happenings a net₁ net₂} hbefore ih ha hle => ?_) hrun hle
  have hnone : departures k net₁ a = [] :=
    gained_of_suffix ha (by simp [outboundAt, List.getElem?_eq_none_iff.mpr hle])
  obtain ⟨hsent, hheard⟩ := ih ((length_peers_happen ha).trans hle)
  simp only [sentBy, responders, trace_concat _ hbefore] at hsent hheard ⊢
  refine ⟨fun sort => ?_, ?_⟩
  · rw [hsent]
    cases a with
    | go task => simp [departuresBy, hnone]
    | _ => rfl
  · rw [hheard]
    cases a with
    | go task => simp [respondersAt, hnone]
    | _ => rfl

/-- Responses are sent as they should be all along a run. -/
theorem responding_happens (hrun : ({ host } : Net).happens happenings = some net)
    (hfew : subscribed (({ host } : Net).historyOf happenings c) < 2 ^ 64)
    (hopen : ({ host } : Net).Throughout (OpenAt k) happenings) (hc : net.peerOf c = some k) :
    ∃ ids, net.Responding c k (({ host } : Net).historyOf happenings c)
      (({ host } : Net).sentBy · happenings k) (({ host } : Net).responders happenings k) ids := by
  refine happens_induction (P := fun happenings net =>
    subscribed (({ host } : Net).historyOf happenings c) < 2 ^ 64 →
      ({ host } : Net).Throughout (OpenAt k) happenings → net.peerOf c = some k →
        ∃ ids, net.Responding c k (({ host } : Net).historyOf happenings c)
          (({ host } : Net).sentBy · happenings k) (({ host } : Net).responders happenings k) ids)
    (fun _ _ hc => by simp [peerOf] at hc)
    (fun {happenings a net₁ net₂} hbefore ih ha hfew hopen hc => ?_) hrun hfew hopen hc
  have hkept := kept_happens hbefore
  have hopen' := hopen.concat
  rw [historyOf_concat hbefore] at hfew ⊢
  have hfew' : subscribed (({ host } : Net).historyOf happenings c) < 2 ^ 64 := by
    rw [subscribed_append] at hfew
    omega
  simp only [sentBy, responders, trace_concat _ hbefore]
  obtain ⟨t, net', next, rfl, ht, htask, hstep, rfl, hsignals⟩ | ⟨hgo, hchange⟩ := happen_cases ha
  · rw [peerOf_congr (clients_place net' t next), peerOf_step hstep] at hc
    obtain ⟨ids, hresponding⟩ := ih hfew' hopen' hc
    rw [actionsOf, if_pos (lt_of_peerOf hc), hsignals]
    exact ⟨_, hresponding.step hkept (hopen'.last hbefore) hc hfew'
      (accounts_happens hbefore c).answers ht htask hstep⟩
  · have hnone : respondersAt k net₁ a = [] := by
      cases a with
      | go task => exact absurd rfl (hgo task)
      | _ => rfl
    simp only [departuresBy_of_ne_go _ k hgo, hnone, append_nil]
    have hposted := hkept.posted.change hchange
    obtain hold | ⟨habsent, hle⟩ := hchange.peerOf_or (hkept.routed.change hchange) hc
    · obtain ⟨ids, hresponding⟩ := ih hfew' hopen' hold
      exact ⟨ids, hresponding.change hkept.numbered hold hchange hposted fun action haction =>
        hchange.frame?_eq_none (mem_of_mem_actionsOf haction)⟩
    · obtain ⟨hsilent, hunheard⟩ := silent_of_le hbefore hle
      simp only [sentBy, responders] at hsilent hunheard
      rw [hkept.recorded.absent c habsent, actionsOf, if_neg (by omega), append_nil, hunheard]
      simp only [hsilent]
      exact ⟨[], responding_new hchange hkept.routed (placed_happens hbefore) hposted hc habsent hle⟩

end Net

end Remoting
