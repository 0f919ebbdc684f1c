import Remoting.Proofs.Isolation
import Remoting.Proofs.Requests
import Remoting.Proofs.SignalDelivery

/-!
# Remoting.Proofs.AnsweredRequests

Every request to a client is answered once. In whatever order messages come in and subscribers
take, answer and give up events, each message whose sender waits for a response gets one, with what
its event was answered, and no other message does (`Net.AnswersOnce`).
-/

namespace Remoting

namespace Net

variable {net : Net} {happenings : List Happening} {host : Host} {c : Nat} {client : Client}
  {actions : List SignalAction}

/-- The answer to an event is there, if its sender waits for one. -/
def Gets (net : Net) (c : Nat) (event : SignalEvent) (reply : Reply) : Prop :=
  ∀ s, event.slot = some s →
    ∃ client, net.clients[c]? = some client ∧ client.board.reply? s = some reply

/-- A task waits for room for a message to go out at a peer. -/
def AwaitsRoom (net : Net) (k task : Nat) : Prop :=
  ∃ p, net.peers[k]? = some p ∧ task ∈ p.outbound.gate.waiting

/-- What becomes of the requests that come in for a client in a run from `net₀` to `net`. The tasks
with the given numbers send the answers to signals. -/
structure AnswersOnce (net₀ : Net) (happenings : List Happening) (net : Net) (c : Nat)
    (client : Client) (ids : List Nat) : Prop where
  /-- What came in has been routed, is being routed or waits, in the order of arrival. -/
  arrived : net₀.arrived happenings client.peer =
    routedFrames (net₀.historyOf happenings c) ++ net.inHand c ++ net.inboundAt client.peer
  /-- Of the messages that were routed, those whose senders wait for a response have each either
  reached a subscription or been turned away. -/
  requests : (awaited (net₀.historyOf happenings c) ++
      turnedAway (net₀.historyOf happenings c)).Perm
    ((routedFrames (net₀.historyOf happenings c)).filter (·.header.kind.expectsResponse))
  /-- Each that was turned away gets an error, once and in order; one of the errors may have to wait
  for room. -/
  refused : List.Forall₂ TurnsAway (turnedAway (net₀.historyOf happenings c))
    (net₀.sentBy (routesFor c) happenings client.peer ++ net.handed (turnedBy? c))
  /-- Each that reached a subscription became an event with a reply slot of its own. -/
  events : ∀ s f, (awaited (net₀.historyOf happenings c))[s]? = some f →
    (⟨f.payload, some s⟩ : SignalEvent) ∈ arisen (net₀.historyOf happenings c)
  slots : (arisen (net₀.historyOf happenings c)).filterMap (·.slot) =
    List.range (awaited (net₀.historyOf happenings c)).length
  /-- Every event waits, is held or is used up, and is in one of these places only. -/
  conserved : (↑(arisen (net₀.historyOf happenings c)) : Multiset SignalEvent) =
    client.board.queued + ↑(net.heldAt c) +
      ↑((Switchboard.used (net₀.historyOf happenings c)).map (·.1))
  /-- A reply slot is empty while its event waits or is held. -/
  unused : ∀ s, s < (awaited (net₀.historyOf happenings c)).length →
    (client.board.reply? s = none ↔
      ∃ event ∈ client.board.queued + ↑(net.heldAt c), event.slot = some s)
  /-- It holds what its event was answered when that is used up. -/
  used : ∀ s reply, client.board.reply? s = some reply ↔
    ∃ event, (event, reply) ∈ Switchboard.used (net₀.historyOf happenings c) ∧
      event.slot = some s
  /-- Who holds an event can answer it, or give it up for its arguments, which counts as an empty
  answer. -/
  replies : ∀ n held, net.events[n]?.join = some held → held.client = c →
    (∀ reply, ∃ net', net.reply n reply = some net' ∧ net'.Gets c held.event reply) ∧
      ∃ net', net.takeArgs n = some (held.event.args, net') ∧ net'.Gets c held.event (.ok [])
  /-- So does giving up a subscription for the events that wait there. -/
  drops : ∀ name s, net.subscription? name = some s → s.client = c →
    ∃ net', net.dropSubscription name = some net' ∧
      ∀ event ∈ client.board.waitingFor s.handler, net'.Gets c event (.ok [])
  /-- For each message that reached a subscription there is one task, -/
  tasks : ids.Nodup ∧ ids.length = (awaited (net₀.historyOf happenings c)).length
  /-- which sends nothing while the event waits or is held, -/
  silent : ∀ s id event, ids[s]? = some id → event ∈ client.board.queued + ↑(net.heldAt c) →
    event.slot = some s → net₀.sentBy (·.id == id) happenings client.peer = []
  /-- and sends the answer when there is one, once. -/
  answered : ∀ s f id, (awaited (net₀.historyOf happenings c))[s]? = some f → ids[s]? = some id →
    Answering c s f.header (client.board.reply? s) ((net.task? id).map (·.job))
      (net₀.sentBy (·.id == id) happenings client.peer)
  /-- Nobody else sends responses, except for the task that reads. -/
  responders : ∀ t ∈ net₀.responders happenings client.peer,
    readsAt client.peer t = true ∨ routesFor c t = true ∨ t.id ∈ ids
  /-- That one refuses damaged messages whose senders wait for a response. -/
  damaged : List.Forall₂ Refuses ((net₀.sorted happenings client.peer).filterMap refused?)
    (net₀.sentBy (readsAt client.peer) happenings client.peer ++
      net.handed (atPeer client.peer Job.unsent?))
  /-- Messages are routed, unless there are none or there is no room for an error. -/
  routing : ∃ t ∈ net.tasks, t.job.duty = .router c ∧ (net.happen (.go t.id) = none →
    (t.job = .route c ∧ net.inboundAt client.peer = []) ∨ net.AwaitsRoom client.peer t.id)
  /-- Answers are sent, unless they have not been given or there is no room. -/
  sending : ∀ s id t, ids[s]? = some id → net.task? id = some t → net.happen (.go id) = none →
    client.board.reply? s = none ∨ net.AwaitsRoom client.peer id

theorem mem_heldAt {n : Nat} {held : HeldEvent} (h : net.events[n]?.join = some held) :
    held.event ∈ net.heldAt held.client := by
  have hn := Option.join_eq_some_iff.mp h
  exact List.mem_filterMap.mpr ⟨some held, List.mem_of_getElem? hn, by simp⟩

/-- The answer to an event that is held gets into its slot. -/
theorem gets_reply (hclient : net.clients[c]? = some client) (hboard : client.board = .after actions)
    (hfew : subscribed actions < 2 ^ 64) (haccounts : Switchboard.Accounts actions (net.heldAt c))
    {n : Nat} {held : HeldEvent} (hheld : net.events[n]?.join = some held) (hc : held.client = c) :
    (∀ reply, ∃ net', net.reply n reply = some net' ∧ net'.Gets c held.event reply) ∧
      ∃ net', net.takeArgs n = some (held.event.args, net') ∧ net'.Gets c held.event (.ok []) := by
  subst hc
  have hgets (reply : Reply) : ({ net with events := net.events.set n none }.changeBoard held.client
      (·.answer held.event reply)).Gets held.client held.event reply := by
    intro s hs
    refine ⟨{ client with board := client.board.answer held.event reply }, ?_, ?_⟩
    · simp [changeBoard, hclient]
    · rw [hboard]
      exact haccounts.reply?_answer hfew (mem_heldAt hheld) reply hs
  refine ⟨fun r => ⟨_, ?_, hgets r⟩, _, ?_, hgets (.ok [])⟩
  · simp [reply, takeEvent, hheld]
  · simp [takeArgs, takeEvent, hheld, Switchboard.dismiss]

/-- So does the empty answer to an event that is given up with its subscription. -/
theorem gets_discard (hclient : net.clients[c]? = some client)
    (hboard : client.board = .after actions) (hfew : subscribed actions < 2 ^ 64)
    (haccounts : Switchboard.Accounts actions (net.heldAt c)) {s : Subscription}
    (hs : s.client = c) {event : SignalEvent} (hevent : event ∈ client.board.waitingFor s.handler)
    (name : String) : ((net.forget name).discard s).Gets c event (.ok []) := by
  subst hs
  intro slot hslot
  refine ⟨{ client with board := client.board.discard s.handler }, ?_, ?_⟩
  · simp [Net.discard, changeBoard, forget, hclient]
  · rw [hboard] at hevent ⊢
    exact haccounts.reply?_discard hfew hevent hslot

/-- Every request that comes in for a client on an open connection is answered once. -/
theorem requests_answered (hrun : ({ host } : Net).happens happenings = some net)
    (hfew : subscribed (({ host } : Net).historyOf happenings c) < 2 ^ 64)
    (hclient : net.clients[c]? = some client)
    (hopen : ({ host } : Net).Throughout (OpenAt client.peer) happenings) :
    ∃ ids, ({ host } : Net).AnswersOnce happenings net c client ids := by
  have hc : net.peerOf c = some client.peer := by simp [peerOf, hclient]
  have hkept := kept_happens hrun
  have hboard := hkept.recorded.board c client hclient
  have haccounts := accounts_happens hrun c
  have hreply (s : Nat) := Switchboard.reply?_after hfew haccounts.answers s
  have hattended : ({ host } : Net).Throughout (Attended client.peer) happenings :=
    fun before hbefore net' hrun' => (hopen before hbefore net' hrun').1
  have hopen' := hopen.last hrun
  obtain ⟨p, hp⟩ : ∃ p, net.peers[client.peer]? = some p :=
    ⟨_, List.getElem?_eq_getElem (hkept.posted.clients c _ hc).1⟩
  obtain ⟨ids, hresponding⟩ := responding_happens hrun hfew hopen hc
  rw [← hboard] at hreply
  have hunused (s : Nat) (hs : s < (awaited (({ host } : Net).historyOf happenings c)).length) :
      client.board.reply? s = none ↔
        ∃ event ∈ client.board.queued + ↑(net.heldAt c), event.slot = some s := by
    rw [hboard]
    exact haccounts.reply?_eq_none_iff hfew hs
  have hanswered (s : Nat) (f : Frame) (id : Nat)
      (hs : (awaited (({ host } : Net).historyOf happenings c))[s]? = some f)
      (hid : ids[s]? = some id) :
      Answering c s f.header (client.board.reply? s) ((net.task? id).map (·.job))
        (({ host } : Net).sentBy (·.id == id) happenings client.peer) := by
    rw [hreply]
    exact hresponding.answering s f id hs hid
  have hlength (s id : Nat) (hid : ids[s]? = some id) :
      s < (awaited (({ host } : Net).historyOf happenings c)).length :=
    hresponding.length ▸ (List.getElem?_eq_some_iff.mp hid).1
  refine ⟨ids, ?_⟩
  constructor
  case arrived => exact hkept.brings.brought c _ hc
  case requests => exact perm_requests _
  case refused => exact hresponding.refused
  case events => exact fun s f hs => mem_arisen_of_awaited hs
  case slots => exact filterMap_slot_arisen _
  case conserved =>
    rw [hboard]
    exact haccounts.conserved hfew
  case unused => exact hunused
  case used =>
    intro s reply
    rw [hboard]
    exact haccounts.reply?_eq_some_iff hfew
  case replies =>
    exact fun n held hheld heq => gets_reply hclient hboard hfew haccounts hheld heq
  case drops =>
    intro name s hs heq
    exact ⟨_, by simp [dropSubscription, hs], fun event hevent =>
      gets_discard hclient hboard hfew haccounts heq hevent name⟩
  case tasks => exact ⟨hresponding.nodup, hresponding.length⟩
  case silent =>
    intro s id event hid hevent hslot
    have hlt := hlength s id hid
    have hanswering := hanswered s _ id (List.getElem?_eq_getElem hlt) hid
    rw [(hunused s hlt).mpr ⟨event, hevent, hslot⟩] at hanswering
    exact hanswering.silent.2
  case answered => exact hanswered
  case responders => exact hresponding.responders
  case damaged => exact (sorting_happens hrun hattended).refused
  case routing =>
    obtain ⟨t, ht, hduty⟩ := (hkept.routed.tended c _ hc).resolve_right fun hclosed => by
      obtain ⟨p, hp, hclosed⟩ := hclosed
      simp [hopen'.2 p hp] at hclosed
    have hpeer : t.peer = client.peer :=
      Option.some.inj ((hkept.routed.routers t ht c hduty).symm.trans hc)
    refine ⟨t, ht, hduty, fun hnone => ?_⟩
    have hwaits := routing_waits hduty (hpeer ▸ hp) (hpeer ▸ hopen') hclient
      (step_eq_none_of_happen (hkept.numbered.task?_eq ht) hnone)
    rw [inboundAt_eq hp]
    exact hwaits.imp_right fun hroom => ⟨p, hp, hroom⟩
  case sending =>
    intro s id t hid htask hnone
    obtain ⟨ht, rfl⟩ := mem_tasks_of_task? htask
    have hpeer := hresponding.places t ht (List.mem_of_getElem? hid)
    have hanswering := hanswered s _ t.id (List.getElem?_eq_getElem (hlength s t.id hid)) hid
    rw [htask] at hanswering
    have hwaits := answering_waits hanswering (hpeer ▸ hp) (hpeer ▸ hopen') hclient rfl
      (step_eq_none_of_happen htask hnone)
    exact hwaits.imp_right fun hroom => ⟨p, hp, hroom⟩

/-- A message to an object, with a call number. -/
def ask (kind : MessageKind) (target call : UInt64) (n : Int64) : Frame :=
  ⟨{ kind, target := ⟨target⟩, digest := ⟨0, 7⟩, callId := ⟨call⟩ }, [.int n]⟩

/-- A client with one subscription gets three signals whose senders wait for an answer, a call that
it cannot take, and a signal whose sender does not wait. The second signal is answered first, with
an error, then the third one is given up with the subscription, and then the first one is
answered. -/
def inquiring : List Happening :=
  [.links [bearing [⟨{ kind := .callResult, callId := ⟨1⟩ }, []⟩, ask .signalEmitTwoWay 1 11 1,
      ask .signalEmitTwoWay 1 12 2, ask .twoWayCall 9 13 3, ask .signalEmitTwoWay 1 14 4,
      ask .signalEmit 1 0 5]],
    .addClient 0 {}, .subscribe ⟨0, ⟨9⟩, none⟩ ⟨0, 5⟩ [] "doorbell", .go 3, .go 3, .go 3, .go 1, .go 1,
    .go 3, .takeReports, .go 1, .go 1, .go 1, .go 2, .go 2, .go 1, .go 1, .go 1, .go 2, .go 2, .go 1,
    .go 1, .go 1, .go 2, .go 2, .go 2, .go 2, .go 1, .go 1, .go 1, .go 2, .go 2, .go 1, .go 1, .go 1,
    .go 2, .go 2, .nextEvent "doorbell", .nextEvent "doorbell",
    .reply 1 (.error ⟨.internal, "nobody in", none⟩), .go 5, .go 5, .go 5,
    .dropSubscription "doorbell", .go 6, .go 6, .reply 0 (.ok [.int 6]), .go 4, .go 4, .go 4]

theorem requests_answered_inquiring :
    ∃ net client ids, ({} : Net).happens inquiring = some net ∧ net.clients[0]? = some client ∧
      ({} : Net).Throughout (OpenAt client.peer) inquiring ∧
      awaited (({} : Net).historyOf inquiring 0) =
        [ask .signalEmitTwoWay 1 11 1, ask .signalEmitTwoWay 1 12 2, ask .signalEmitTwoWay 1 14 4] ∧
      turnedAway (({} : Net).historyOf inquiring 0) = [ask .twoWayCall 9 13 3] ∧
      (({} : Net).responders inquiring client.peer).map (·.id) = [2, 5, 4] ∧
      ({} : Net).AnswersOnce inquiring net 0 client ids := by
  have hpeers : (({} : Net).happens inquiring).bind (·.peerOf 0) = some 0 := by decide +kernel
  obtain ⟨net, hrun, hpeer⟩ := Option.bind_eq_some_iff.mp hpeers
  obtain ⟨client, hclient, hpeer⟩ := Option.map_eq_some_iff.mp hpeer
  have hopen : ({} : Net).Throughout (OpenAt client.peer) inquiring := by
    rw [hpeer]
    decide +kernel
  have hfew : subscribed (({} : Net).historyOf inquiring 0) < 2 ^ 64 :=
    (subscribed_historyOf_le _ _ 0).trans_lt (by decide)
  obtain ⟨ids, hanswers⟩ := requests_answered hrun hfew hclient hopen
  refine ⟨net, client, ids, hrun, hclient, hopen, by decide +kernel, by decide +kernel, ?_, hanswers⟩
  rw [hpeer]
  decide +kernel

end Net

end Remoting
