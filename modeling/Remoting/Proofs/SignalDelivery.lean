import Remoting.Proofs.Arrivals

/-!
# Remoting.Proofs.SignalDelivery

Signals and the subscriptions that they reach, in whole runs of a network. A subscription yields the
payloads of the signals that were routed to its handler while it was connected, each once and in the
order of their arrival, and comes to an end when nothing is routed to it any more
(`Net.Delivers`). It does not matter in which order things are done, what else goes on, and how far
the other side has got with the request that connects the handler.
-/

namespace Remoting

open List Option Multiset
open Switchboard

namespace Net

variable {net net' net₀ : Net} {a : Happening} {happenings : List Happening} {host : Host}
  {came : Nat → List Frame} {history : Nat → List SignalAction} {c : Nat} {name : String}
  {s : Subscription} {client : Client}

/-! ## What is done to subscriptions from outside -/

theorem isOutside_of_mem_signals {task : Nat} {s : Nat × SignalAction}
    (h : s ∈ net.signals (.go task)) : s.2.isOutside = false := by
  simp only [signals] at h
  split at h
  · split at h
    · exact isOutside_of_mem_stepSignals h
    · contradiction
  · contradiction

/-- Subscriptions are asked for from outside. -/
theorem of_subscribe_mem_signals (h : (c, .subscribe) ∈ net.signals a) :
    ∃ handle connector args name, a = .subscribe handle connector args name ∧ handle.client = c := by
  cases a with
  | subscribe handle connector args name =>
    refine ⟨handle, connector, args, name, rfl, ?_⟩
    simpa [signals, eq_comm] using h
  | go task => exact absurd (isOutside_of_mem_signals h) (by simp [SignalAction.isOutside])
  | takeReports =>
    obtain ⟨old, heq⟩ := eq_discard_of_mem_recordSignals h
    simp at heq
  | _ => simp [signals] at h

/-- Events are looked for from outside. -/
theorem of_next_mem_signals {h : ObjectId} (hmem : (c, .next h) ∈ net.signals a) :
    ∃ name s, a = .nextEvent name ∧ net.subscription? name = some s ∧ s.place = (c, h) := by
  cases a with
  | nextEvent name =>
    simp only [signals, List.mem_map, Option.mem_toList] at hmem
    obtain ⟨s, hs, heq⟩ := hmem
    simp only [Prod.mk.injEq, SignalAction.next.injEq] at heq
    exact ⟨name, s, rfl, hs, Prod.ext heq.1 heq.2⟩
  | go task => exact absurd (isOutside_of_mem_signals hmem) (by simp [SignalAction.isOutside])
  | takeReports =>
    obtain ⟨old, heq⟩ := eq_discard_of_mem_recordSignals hmem
    simp at heq
  | _ => simp [signals] at hmem

/-- The handler number that a client gives with a happening. -/
def handlerOf (c : Nat) (net : Net) : Happening → List ObjectId
  | .subscribe handle _ _ _ =>
    if handle.client = c then net.clients[c]?.toList.map (·.board.subscribe.1) else []
  | _ => []

/-- The handler numbers that a client gives in a run. -/
def handlersOf (net : Net) (happenings : List Happening) (c : Nat) : List ObjectId :=
  net.trace (handlerOf c) happenings

/-- What a subscription yields with a happening. -/
def yieldOf (c : Nat) (h : ObjectId) (net : Net) : Happening → List (List Field)
  | .nextEvent name =>
    match net.subscription? name, net.nextEvent name with
    | some s, some (.event event, _) => if s.place = (c, h) then [event.args] else []
    | _, _ => []
  | _ => []

/-- What a subscription yields in a run. -/
def yieldedTo (net : Net) (happenings : List Happening) (c : Nat) (h : ObjectId) :
    List (List Field) := net.trace (yieldOf c h) happenings

/-- Handlers are numbered in the order in which their subscriptions are asked for. -/
theorem handlerOf_eq (hrecorded : net.Recorded history)
    (hfew : subscribed (history c ++ net.actionsOf c a) < 2 ^ 64) :
    (handlerOf c net a).map (·.val.toNat) =
      range' (subscribed (history c) + 1) (subscribed (net.actionsOf c a)) := by
  by_cases hasks : SignalAction.subscribe ∈ net.actionsOf c a
  · obtain ⟨handle, connector, args, name, rfl, rfl⟩ :=
      of_subscribe_mem_signals (mem_of_mem_actionsOf hasks)
    have hlt : handle.client < net.clients.length := by
      by_contra hle
      simp [actionsOf, hle] at hasks
    have hactions : net.actionsOf handle.client (.subscribe handle connector args name) =
        [.subscribe] := by
      simp [actionsOf, hlt, signals, actionsAt]
    rw [hactions, subscribed_concat, SignalAction.isSubscribe, if_pos rfl] at hfew
    have hboard := hrecorded.board _ _ (getElem?_eq_getElem hlt)
    have hnumber := (subscribe_after_eq_iff hfew).mp rfl
    rw [← hboard] at hnumber
    simp [handlerOf, hactions, hlt, hnumber, subscribed, SignalAction.isSubscribe]
  · have hnone : subscribed (net.actionsOf c a) = 0 := by
      rw [subscribed, List.countP_eq_zero]
      intro action haction
      cases action <;> simp_all [SignalAction.isSubscribe]
    rw [hnone, range'_zero, map_eq_nil_iff]
    cases a with
    | subscribe handle connector args name =>
      simp only [handlerOf]
      split
      · next hc =>
        by_cases hlt : c < net.clients.length
        · exact absurd (mem_actionsOf hlt (by simp [signals, hc])) hasks
        · simp [List.getElem?_eq_none_iff.mpr (not_lt.mp hlt)]
      · rfl
    | _ => rfl

/-- Looking for an event of a subscription is looking into its inbox. -/
theorem nextEvent_eq (hs : net.subscription? name = some s)
    (hclient : net.clients[s.client]? = some client) :
    ∃ net', net.nextEvent name = some ((client.board.next s.handler).1, net') := by
  simp only [nextEvent, hs, hclient, bind_eq_bind, bind_some]
  cases (client.board.next s.handler).1 with
  | event event => exact ⟨_, rfl⟩
  | pending | ended => exact ⟨_, rfl⟩

/-- What a subscription yields is what its inbox yields. -/
theorem yieldOf_eq (hrecorded : net.Recorded history) (ha : net.happen a = some net') (c : Nat)
    (h : ObjectId) : yielded h (history c ++ net.actionsOf c a) =
      yielded h (history c) ++ yieldOf c h net a := by
  by_cases hlooks : ∃ h', SignalAction.next h' ∈ net.actionsOf c a
  · obtain ⟨h', hlooks⟩ := hlooks
    obtain ⟨name, s, rfl, hs, hplace⟩ := of_next_mem_signals (mem_of_mem_actionsOf hlooks)
    cases hplace
    have hlt : s.client < net.clients.length := by
      by_contra hle
      simp [actionsOf, hle] at hlooks
    have hclient := getElem?_eq_getElem hlt
    have hactions : net.actionsOf s.client (.nextEvent name) = [.next s.handler] := by
      simp [actionsOf, hlt, signals, hs, actionsAt]
    obtain ⟨net₁, hnext⟩ := nextEvent_eq hs hclient
    rw [hactions, yielded_concat]
    simp only [yieldedBy, yieldOf, hs, hnext, ← hrecorded.board _ _ hclient]
    by_cases hh : s.handler = h
    · subst hh
      cases (net.clients[s.client].board.next s.handler).1 <;> simp [Subscription.place]
    · cases (net.clients[s.client].board.next s.handler).1 <;> simp [Subscription.place, hh]
  · rw [yielded_append fun action haction h' heq => hlooks ⟨h', heq ▸ haction⟩]
    have hnone : yieldOf c h net a = [] := by
      cases a with
      | nextEvent name =>
        obtain ⟨⟨event, net₁⟩, hnext, -⟩ := map_eq_some_iff.mp ha
        obtain ⟨s, hs, hrest⟩ := bind_eq_some_iff.mp hnext
        obtain ⟨client, hclient, -⟩ := bind_eq_some_iff.mp hrest
        have hplace : s.place ≠ (c, h) := by
          intro hplace
          cases hplace
          have hlt := (List.getElem?_eq_some_iff.mp hclient).1
          exact hlooks ⟨s.handler, mem_actionsOf hlt (by simp [signals, hs])⟩
        cases event <;> simp [yieldOf, hs, hnext, hplace]
      | _ => rfl
    rw [hnone, append_nil]

/-! ## Whole runs -/

/-- What is in somebody's hands is there, in a run with few enough subscriptions. -/
theorem holds_late_happens (hrun : ({ host } : Net).happens happenings = some net)
    (hfew : ∀ c, subscribed (({ host } : Net).historyOf happenings c) < 2 ^ 64) :
    net.Holds (({ host } : Net).historyOf happenings) ∧
      net.Late (({ host } : Net).historyOf happenings) := by
  refine happens_induction (P := fun happenings net =>
    (∀ c, subscribed (({ host } : Net).historyOf happenings c) < 2 ^ 64) →
      net.Holds (({ host } : Net).historyOf happenings) ∧
        net.Late (({ host } : Net).historyOf happenings))
    (fun _ => ⟨⟨?_, ?_⟩, ?_⟩) (fun {happenings a net₁ net₂} hbefore ih ha hfew => ?_) hrun hfew
  · simp [holdings, heldByTasks, heldByReports, heldByNames]
  · simp [holdings, heldByTasks, heldByReports, heldByNames]
  · intro c hnone h hrouted
    obtain ⟨before, action, since, heq, -⟩ := hrouted
    simp [historyOf, trace] at heq
  · have hhistory : ({ host } : Net).historyOf (happenings ++ [a]) =
        fun c => ({ host } : Net).historyOf happenings c ++ net₁.actionsOf c a :=
      funext fun c => historyOf_concat hbefore a c
    rw [hhistory] at hfew ⊢
    obtain ⟨hholds, hlate⟩ := ih fun c => by
      have hmore := hfew c
      rw [subscribed_append] at hmore
      omega
    have hkept := kept_happens hbefore
    exact ⟨hholds.happen hkept.numbered hkept.recorded ha hfew,
      hlate.happen hkept.numbered hkept.routed hkept.recorded ha hfew⟩

theorem handlersOf_happens (hrun : ({ host } : Net).happens happenings = some net)
    (hfew : subscribed (({ host } : Net).historyOf happenings c) < 2 ^ 64) :
    (({ host } : Net).handlersOf happenings c).map (·.val.toNat) =
      range' 1 (subscribed (({ host } : Net).historyOf happenings c)) := by
  refine happens_induction (P := fun happenings _ =>
    subscribed (({ host } : Net).historyOf happenings c) < 2 ^ 64 →
      (({ host } : Net).handlersOf happenings c).map (·.val.toNat) =
        range' 1 (subscribed (({ host } : Net).historyOf happenings c)))
    (fun _ => rfl) (fun {happenings a net₁ net₂} hbefore ih ha hfew => ?_) hrun hfew
  have hhandlers : ({ host } : Net).handlersOf (happenings ++ [a]) c =
      ({ host } : Net).handlersOf happenings c ++ handlerOf c net₁ a := trace_concat _ hbefore a
  rw [historyOf_concat hbefore] at hfew ⊢
  have hfew' := hfew
  rw [subscribed_append] at hfew'
  rw [hhandlers, map_append, ih (by omega), handlerOf_eq (kept_happens hbefore).recorded hfew,
    subscribed_append, ← range'_append_1, Nat.add_comm 1]

theorem yieldedTo_happens (hrun : ({ host } : Net).happens happenings = some net) (c : Nat)
    (h : ObjectId) : ({ host } : Net).yieldedTo happenings c h =
      yielded h (({ host } : Net).historyOf happenings c) := by
  refine happens_induction (P := fun happenings _ =>
    ({ host } : Net).yieldedTo happenings c h =
      yielded h (({ host } : Net).historyOf happenings c))
    rfl (fun {happenings a net₁ net₂} hbefore ih ha => ?_) hrun
  have hyielded : ({ host } : Net).yieldedTo (happenings ++ [a]) c h =
      ({ host } : Net).yieldedTo happenings c h ++ yieldOf c h net₁ a := trace_concat _ hbefore a
  rw [hyielded, ih, historyOf_concat hbefore, yieldOf_eq (kept_happens hbefore).recorded ha]

/-! ## Delivery -/

/-- Signals are routed to a handler of a client. -/
def RoutesAt (net : Net) (c : Nat) (h : ObjectId) : Prop :=
  ∃ client, net.clients[c]? = some client ∧ client.board.routes h = true

/-- What the subscriptions of a client get in a run from `net₀` to `net`, told from the messages
that came in for it and from what was done to its subscriptions. -/
structure Delivers (net₀ : Net) (happenings : List Happening) (net : Net) (c : Nat)
    (client : Client) : Prop where
  /-- The subscriptions are what was done to them. -/
  board : client.board = .after (net₀.historyOf happenings c)
  /-- What came in has been routed, is being routed or waits, in the order of arrival. -/
  arrived : net₀.arrived happenings client.peer =
    routedFrames (net₀.historyOf happenings c) ++ net.inHand c ++ net.inboundAt client.peer
  /-- Every subscription got the next handler number. -/
  numbers : (net₀.handlersOf happenings c).map (·.val.toNat) =
    List.range' 1 (subscribed (net₀.historyOf happenings c))
  /-- Subscriptions with different names have different handlers. -/
  single : ∀ name name' s s', net.subscription? name = some s → net.subscription? name' = some s' →
    s.place = s'.place → name = name'
  /-- Signals are routed to the handlers that were asked for and not ended since. -/
  routes : ∀ h, net.RoutesAt c h ↔ RoutedAfter (net₀.historyOf happenings c) h
  /-- A subscription has yielded the first events that were conveyed to it. -/
  yielded : ∀ h, net₀.yieldedTo happenings c h <+: conveyed h (net₀.historyOf happenings c)
  /-- It yields the next one when it is asked, and comes to an end when all have been yielded and
  none are routed to it any more. -/
  next : ∀ name s, net.subscription? name = some s → s.client = c →
    ∃ event net', net.nextEvent name = some (event, net') ∧
      Switchboard.NextIs (conveyed s.handler (net₀.historyOf happenings c))
        (net₀.yieldedTo happenings c s.handler) (net.RoutesAt c s.handler) event
  /-- The task that routes messages ends with them. -/
  ending : ∀ t ∈ net.tasks, t.job = .route c → ∀ p, net.peers[client.peer]? = some p →
    p.inbound.ended = true → p.inbound.items = [] →
      ∃ net', net.step t = some (net', .ended .done)
  /-- It ends only when the connection has been shut down, and then no signals are routed to any
  subscription. -/
  gone : (∀ t ∈ net.tasks, t.job.duty ≠ .router c) → net.ClosedAt client.peer ∧
    ∀ name s, net.subscription? name = some s → s.client = c → ¬ net.RoutesAt c s.handler
  /-- A new subscription has a handler to which no signals were routed, and changes nothing about
  others. -/
  asked : ∀ handle connector args name ticket net',
    net.subscribe handle connector args name = some (ticket, net') → handle.client = c →
    subscribed (net₀.historyOf happenings c) + 1 < 2 ^ 64 →
      ¬ net.RoutesAt c client.board.subscribe.1 ∧
        ∀ h, net'.RoutesAt c h ↔ net.RoutesAt c h ∨ h = client.board.subscribe.1
  /-- When a subscription is not granted, the routing to its handler ends, and nothing changes about
  others. -/
  refused : ∀ t ∈ net.tasks, ∀ s fault net', t.job.duty = .subscriber s → s.client = c →
    net.step t = some (net', .ended (.fault fault)) →
      ∀ h, (net'.place t (.ended (.fault fault))).RoutesAt c h ↔
        net.RoutesAt c h ∧ h ≠ s.handler

theorem routesAt_iff (hclient : net.clients[c]? = some client) (h : ObjectId) :
    net.RoutesAt c h ↔ client.board.routes h = true := by
  simp [RoutesAt, hclient]

theorem mem_holdings_of_subscription? (hs : net.subscription? name = some s) :
    s ∈ net.holdings := by
  obtain ⟨before, after, heq, -⟩ := lookup_eq_some_iff.mp hs
  rw [holdings, mem_add]
  exact .inr (by simp [heldByNames, heq])

theorem Holds.name_eq (h : net.Holds history) {name' : String} {s' : Subscription}
    (hs : net.subscription? name = some s) (hs' : net.subscription? name' = some s')
    (hplace : s.place = s'.place) : name = name' := by
  have hnodup : (net.subscriptions.map (·.2.place)).Nodup := by
    have hnames := h.single
    rw [holdings, Multiset.map_add, nodup_add] at hnames
    simpa [heldByNames, Function.comp_def] using hnames.2.1
  have hmem {name : String} {s : Subscription} (hs : net.subscription? name = some s) :
      (name, s) ∈ net.subscriptions := by
    obtain ⟨before, after, heq, -⟩ := lookup_eq_some_iff.mp hs
    simp [heq]
  exact congrArg Prod.fst (List.inj_on_of_nodup_map hnodup (hmem hs) (hmem hs') hplace)

/-- What a task asks for has no name. -/
theorem Holds.place_ne (h : net.Holds history) {t : Task} (ht : t ∈ net.tasks) {s' : Subscription}
    (hs : net.subscription? name = some s) (hs' : t.job.duty.subscription? = some s') :
    s'.place ≠ s.place := by
  have hsingle := h.single
  rw [holdings, Multiset.map_add, nodup_add] at hsingle
  have hnamed : s ∈ heldByNames net.subscriptions := by
    obtain ⟨before, after, heq, -⟩ := lookup_eq_some_iff.mp hs
    simp [heldByNames, heq]
  have hasked : s' ∈ heldByTasks net.tasks := by
    simp only [heldByTasks, mem_coe, List.mem_filterMap]
    exact ⟨t, ht, hs'⟩
  intro hplace
  exact Multiset.disjoint_left.mp hsingle.2.2
    (Multiset.mem_map_of_mem _ (mem_add.mpr (.inl hasked)))
    (hplace ▸ Multiset.mem_map_of_mem _ hnamed)

theorem routesAt_subscribe {handle : RemoteHandle} {connector : Digest} {args : List Field}
    {ticket : Nat} (hclient : net.clients[handle.client]? = some client)
    (hasked : net.subscribe handle connector args name = some (ticket, net')) (h : ObjectId) :
    net'.RoutesAt handle.client h ↔ client.board.subscribe.2.routes h = true := by
  have hclients : net'.clients =
      (net.changeBoard handle.client fun _ => client.board.subscribe.2).clients := by
    obtain ⟨client', hclient', hrest⟩ := bind_eq_some_iff.mp hasked
    obtain rfl : client = client' := some.inj (hclient.symm.trans hclient')
    obtain ⟨c, -, hrest⟩ := bind_eq_some_iff.mp hrest
    cases hrest
    rfl
  simp [RoutesAt, hclients, changeBoard, hclient]

/-- Who asks for a subscription in vain ends the routing to its handler. -/
theorem routesAt_refused {t : Task} {fault : Fault} (hduty : t.job.duty = .subscriber s)
    (hstep : net.step t = some (net', .ended (.fault fault))) (h : ObjectId) :
    (net'.place t (.ended (.fault fault))).RoutesAt s.client h ↔
      net.RoutesAt s.client h ∧ h ≠ s.handler := by
  have hother (client : Nat) (frame : Frame) : t.job ≠ .dispatch client frame := by
    intro hjob
    simp [hjob, Job.duty] at hduty
  have hclients : net'.clients = _ := (step_does hstep).clients
  simp only [stepSignals_eq hother, hduty, nextSignals, Duty.signals, Report.subscription?,
    isSome_none, Bool.false_eq_true, if_false] at hclients
  have hchanged := getElem?_changeBoards net
    [(s.client, .unroute s.handler), (s.client, .discard s.handler)] s.client
  rw [RoutesAt, clients_place, hclients, hchanged]
  cases hclient : net.clients[s.client]? with
  | none => simp [RoutesAt, hclient]
  | some client =>
    rw [routesAt_iff hclient, ← routes_unroute,
      ← routes_discard _ s.handler]
    simp [actionsAt, acts, Switchboard.act]

/-- The task that routes the messages of a client ends when they have ended. -/
theorem step_route_ended {t : Task} {p : Peer} (hjob : t.job = .route c)
    (hp : net.peers[t.peer]? = some p) (hended : p.inbound.ended = true)
    (hitems : p.inbound.items = []) : ∃ net', net.step t = some (net', .ended .done) := by
  have hpop : p.inbound.pop? = none := by simp [Channel.pop?, hitems]
  simp [step, hp, hjob, stepRoute, hpop, hended, stop]

/-- Signals get to the subscriptions that they are meant for, each once and in order, whatever
happens. -/
theorem signals_delivered (hrun : ({ host } : Net).happens happenings = some net)
    (hfew : ∀ c, subscribed (({ host } : Net).historyOf happenings c) < 2 ^ 64) {client : Client}
    (hclient : net.clients[c]? = some client) :
    ({ host } : Net).Delivers happenings net c client := by
  have hkept := kept_happens hrun
  obtain ⟨hholds, hlate⟩ := holds_late_happens hrun hfew
  have hboard := hkept.recorded.board c client hclient
  have hpeer : net.peerOf c = some client.peer := by simp [peerOf, hclient]
  have hroutes (h : ObjectId) : net.RoutesAt c h ↔
      RoutedAfter (({ host } : Net).historyOf happenings c) h := by
    rw [routesAt_iff hclient, hboard, Switchboard.routes_after (hfew c)]
  constructor
  case board => exact hboard
  case arrived => exact hkept.brings.brought c _ hpeer
  case numbers => exact handlersOf_happens hrun (hfew c)
  case single => exact fun name name' s s' hs hs' hplace => hholds.name_eq hs hs' hplace
  case routes => exact hroutes
  case yielded =>
    intro h
    rw [yieldedTo_happens hrun]
    exact Switchboard.yielded_prefix_conveyed (hfew c) h
  case next =>
    intro name s hs hc
    subst hc
    obtain ⟨net', hnext⟩ := nextEvent_eq hs hclient
    refine ⟨_, net', hnext, ?_⟩
    rw [yieldedTo_happens hrun, hboard, hroutes]
    exact Switchboard.nextIs_after (hfew _) (hholds.there s (mem_holdings_of_subscription? hs))
  case ending =>
    intro t ht hjob p hp hended hitems
    have hrouter := hkept.routed.routers t ht c (by rw [hjob, Job.duty])
    obtain heq : t.peer = client.peer := Option.some.inj (hrouter.symm.trans hpeer)
    exact step_route_ended hjob (heq ▸ hp) hended hitems
  case gone =>
    intro hnone
    refine ⟨(hkept.routed.tended c _ hpeer).resolve_left fun hrouter => ?_, fun name s hs hc h => ?_⟩
    · obtain ⟨t, ht, hduty⟩ := hrouter
      exact hnone t ht hduty
    · -- Only what tasks are about to ask for is still routed, and that has no name.
      subst hc
      obtain ⟨t, ht, s', hasks, hplace, -⟩ := hlate _ hnone _ ((hroutes _).mp h)
      have hduty := (duty_of_asks? hasks).1
      exact hholds.place_ne ht hs (by rw [hduty, Duty.subscription?]) hplace
  case asked =>
    intro handle connector args name ticket net' hasked hc hroom
    subst hc
    have hnew := Switchboard.inbox?_subscribe_after hroom
    rw [← hboard] at hnew
    refine ⟨?_, fun h => ?_⟩
    · rw [routesAt_iff hclient]
      simp [Switchboard.routes, hnew]
    · rw [routesAt_subscribe hclient hasked, Switchboard.routes_subscribe hnew, routesAt_iff hclient]
  case refused =>
    intro t ht s fault net' hduty hc hstep h
    subst hc
    exact routesAt_refused hduty hstep h

/-- A client asks for at most as many subscriptions as things happen. -/
theorem subscribed_historyOf_le (net : Net) (happenings : List Happening) (c : Nat) :
    subscribed (net.historyOf happenings c) ≤ happenings.length := by
  have hone (net : Net) (a : Happening) : subscribed (net.actionsOf c a) ≤ 1 := by
    by_cases hasks : SignalAction.subscribe ∈ net.actionsOf c a
    · obtain ⟨handle, connector, args, name, rfl, rfl⟩ :=
        of_subscribe_mem_signals (mem_of_mem_actionsOf hasks)
      refine (countP_le_length ..).trans ?_
      by_cases hlt : handle.client < net.clients.length <;>
        simp [actionsOf, hlt, signals, actionsAt]
    · rw [subscribed, List.countP_eq_zero.mpr]
      · exact Nat.zero_le 1
      · intro action haction
        cases action <;> simp_all [SignalAction.isSubscribe]
  induction happenings generalizing net with
  | nil => exact Nat.zero_le 0
  | cons a happenings ih =>
    have hfirst := hone net a
    rw [historyOf, trace, subscribed_append, length_cons]
    cases net.happen a with
    | none =>
      simp only [subscribed, countP_nil] at hfirst ⊢
      omega
    | some net' =>
      have hrest := ih net'
      simp only [historyOf] at hrest
      dsimp only
      omega

/-- A link on which frames are on their way to the left side. -/
def bearing (frames : List Frame) : Link :=
  { fromLeft := .mailbox {}, fromRight := .mailbox { messages := frames.map (·.encode) } }

/-- A signal to a handler. -/
def ring (handler : UInt64) (n : Int64) : Frame :=
  ⟨{ kind := .signalEmit, target := ⟨handler⟩ }, [.int n]⟩

/-- A client asks for two subscriptions, and signals to both of them overtake the first answer. Then
the first subscription gets its name and yields one event. -/
def overtaking : List Happening :=
  [.links [bearing [ring 1 1, ring 2 2, ⟨{ kind := .callResult, callId := ⟨1⟩ }, []⟩, ring 1 3]],
    .addClient 0 {}, .subscribe ⟨0, ⟨9⟩, none⟩ ⟨0, 5⟩ [] "first",
    .subscribe ⟨0, ⟨9⟩, none⟩ ⟨0, 5⟩ [] "second", .go 3, .go 3, .go 3, .go 1, .go 1, .go 1, .go 2,
    .go 2, .go 1, .go 1, .go 1, .go 2, .go 2, .go 1, .go 1, .go 3, .takeReports,
    .nextEvent "first", .go 1, .go 1, .go 1, .go 2, .go 2]

theorem signals_delivered_overtaking :
    ∃ net client, ({} : Net).happens overtaking = some net ∧ net.clients[0]? = some client ∧
      ({} : Net).yieldedTo overtaking 0 ⟨1⟩ = [[.int 1]] ∧
      conveyed ⟨1⟩ (({} : Net).historyOf overtaking 0) = [[.int 1], [.int 3]] ∧
      ({} : Net).Delivers overtaking net 0 client := by
  have hlength : (({} : Net).happens overtaking).map (·.clients.length) = some 1 := by
    decide +kernel
  obtain ⟨net, hrun, hclients⟩ := Option.map_eq_some_iff.mp hlength
  have hfew (c : Nat) : subscribed (({} : Net).historyOf overtaking c) < 2 ^ 64 :=
    (subscribed_historyOf_le _ _ c).trans_lt (by decide)
  have hclient : net.clients[0]? = some net.clients[0] := List.getElem?_eq_getElem (by omega)
  exact ⟨net, _, hrun, hclient, by decide +kernel, by decide +kernel,
    signals_delivered hrun hfew hclient⟩

end Net

end Remoting
