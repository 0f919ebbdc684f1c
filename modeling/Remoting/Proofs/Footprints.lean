import Remoting.Proofs.PeerSteps

/-!
# Remoting.Proofs.Footprints

What can be done from outside, and what it changes (`Net.Change`, `Net.happen_changes`). Together
with the steps of tasks (`Net.step_proceeds`) that is all that can happen (`Net.happen_cases`).
-/

namespace Remoting

open List Option

/-- Whether a task that has sent something sends no responses from then on. -/
def After.isMute : After → Bool
  | .post frames => frames.all fun frame => !frame.header.kind.isResponse
  | .release _ | .route _ | .read => false
  | _ => true

/-- Whether a task sends no responses from here on. -/
def Job.isMute : Job → Bool
  | .write | .transmit _ | .flush | .close | .stopWriting | .leaveWriting | .leave => true
  | .call _ _ _ | .await _ _ _ _ => true
  | .send frame after | .push (.frame frame) after =>
    !frame.header.kind.isResponse && after.isMute
  | .push .close after => after.isMute
  | _ => false

namespace Net

/-! ## What is done from outside -/

/-- What giving a name to what was reported does to subscriptions: one that had the name before is
given up. -/
def reportSignals (net : Net) : Report → List (Nat × SignalAction)
  | .subscribed _ name =>
    (net.subscription? name).toList.map fun old => (old.client, .discard old.handler)
  | _ => []

/-- What giving names to what was reported does to subscriptions. -/
def recordSignals (net : Net) : List (Nat × Report) → List (Nat × SignalAction)
  | [] => []
  | r :: reports => net.reportSignals r.2 ++ recordSignals (net.record r.2) reports

/-- The reports in the order in which names are given. -/
def sortedReports (net : Net) : List (Nat × Report) :=
  net.reports.mergeSort fun r r' => r.1 ≤ r'.1

/-- What a happening does to the subscriptions of clients. -/
def signals (net : Net) : Happening → List (Nat × SignalAction)
  | .closeClient client => [(client, .unrouteAll)]
  | .subscribe handle _ _ _ => [(handle.client, .subscribe)]
  | .unsubscribe client name =>
    (net.subscription? name).toList.map fun s => (client, .unroute s.handler)
  | .dropSubscription name =>
    (net.subscription? name).toList.map fun s => (s.client, .discard s.handler)
  | .nextEvent name => (net.subscription? name).toList.map fun s => (s.client, .next s.handler)
  | .reply n reply =>
    net.events[n]?.join.toList.map fun held => (held.client, .answer held.event reply)
  | .takeArgs n =>
    net.events[n]?.join.toList.map fun held => (held.client, .answer held.event (.ok []))
  | .takeReports => recordSignals { net with reports := [] } net.sortedReports
  | .go task =>
    match net.task? task with
    | some t =>
      match net.step t with
      | some out => stepSignals t out.2
      | none => []
    | none => []
  | _ => []

end Net

theorem Gate.closed_keepPlace (g : Gate) (task : Nat) : (g.keepPlace task).closed = g.closed := by
  unfold Gate.keepPlace
  split <;> rfl

/-- What can be done with a peer from outside. Messages that have come in may be taken or lost if
the peer was started by itself. -/
structure Peer.Handled (own : Prop) (p p' : Peer) : Prop where
  connection : p'.connection = p.connection
  endpoint : p'.endpoint = p.endpoint
  outbound : p'.outbound.items = p.outbound.items
  accepting : p'.outbound.gate.closed = p.outbound.gate.closed
  inbound : p'.inbound.items <:+ p.inbound.items
  kept : ¬ own → p'.inbound.items = p.inbound.items
  ended : p'.inbound.ended = p.inbound.ended

theorem Peer.Handled.refl (own : Prop) (p : Peer) : p.Handled own p :=
  ⟨rfl, rfl, rfl, rfl, suffix_rfl, fun _ => rfl, rfl⟩

/-- Whether a happening brings a server, or gives one a connection. -/
def Happening.serves : Happening → Bool
  | .addServer _ | .serve _ => true
  | _ => false

namespace Net

variable {net net' : Net} {a : Happening}

/-- Names are given to what was reported, and nothing else changes but subscriptions. -/
theorem foldl_record_eq (reports : List (Nat × Report)) (net : Net) :
    reports.foldl (fun net r => net.record r.2) net =
      { net with
        clients := (reports.foldl (fun net r => net.record r.2) net).clients
        handles := (reports.foldl (fun net r => net.record r.2) net).handles
        subscriptions := (reports.foldl (fun net r => net.record r.2) net).subscriptions } := by
  induction reports generalizing net with
  | nil => rfl
  | cons r reports ih =>
    have hrecord : net.record r.2 =
        { net with
          clients := (net.record r.2).clients
          handles := (net.record r.2).handles
          subscriptions := (net.record r.2).subscriptions } := by
      cases r.2 with
      | subscribed s name =>
        simp only [record, putSubscription]
        cases net.subscription? name <;> rfl
      | _ => rfl
    rw [List.foldl_cons, ih, hrecord]

theorem takeReports_eq (net : Net) :
    net.takeReports.2 =
      { net with
        reports := []
        clients := net.takeReports.2.clients
        handles := net.takeReports.2.handles
        subscriptions := net.takeReports.2.subscriptions
        agenda := net.takeReports.2.agenda } := by
  have heq := foldl_record_eq net.sortedReports { net with reports := [] }
  unfold takeReports
  dsimp only [sortedReports] at heq ⊢
  rw [heq]
  rfl

/-- What can be done from outside, with what it does to the subscriptions of clients. -/
inductive Change : Net → List (Nat × SignalAction) → Net → Prop
  /-- Nothing changes but peers, and what neither tasks nor clients keep. -/
  | aside {net net' : Net} (halike : net.Alike net')
      (hpeers : ∀ (k : Nat) (p' : Peer), net'.peers[k]? = some p' →
        ∃ p, net.peers[k]? = some p ∧ p.Handled (k ∈ net.ownPeers) p') :
      Change net [] net'
  /-- A task is started, which sends responses only if its peer was started by itself. -/
  | spawn {net : Net} (peer : Nat) (job : Job) (ticket : Option Nat) (hduty : job.duty = .other)
      (hmute : job.isMute = true ∨ peer ∈ net.ownPeers) :
      Change net [] (net.spawn peer job ticket)
  | report {net : Net} (report : Report) (hreport : report.subscription? = none) :
      Change net [] (net.startEnded report).2
  | join {net : Net} (endpoint : Nat) (settings : PeerSettings) :
      Change net []
        { (net.startPeer endpoint settings true).2 with
          ownPeers := net.ownPeers ++ [net.peers.length] }
  | serve {net : Net} (endpoint : Nat) (settings : PeerSettings) (server : Nat) :
      Change net []
        ((net.startPeer endpoint settings false).2.spawn net.peers.length (.serve server) none)
  | client {net : Net} (endpoint : Nat) (settings : ClientSettings) :
      Change net []
        ({ (net.startPeer endpoint {} true).2 with
            clients := net.clients ++ [({ settings, peer := net.peers.length } : Client)] }.spawn
          net.peers.length (.route net.clients.length) none)
  | trans {net₁ net₂ net₃ : Net} (hfirst : Change net₁ [] net₂) (hsecond : Change net₂ [] net₃) :
      Change net₁ [] net₃
  | close {net : Net} {c : Nat} {client : Client} (hclient : net.clients[c]? = some client) :
      Change net [(c, .unrouteAll)]
        ((net.changeBoard c (·.unrouteAll)).start client.peer (.push .close .shutDown)).2
  | subscribe {net : Net} {c : Nat} {client : Client} (hclient : net.clients[c]? = some client)
      (frame : Frame) (deadline : Nat) (target : ObjectId) (connector : Digest) (name : String) :
      Change net [(c, .subscribe)]
        ((net.changeBoard c fun _ => client.board.subscribe.2).start client.peer
          (.call frame deadline
            (.subscribe ⟨c, client.board.subscribe.1, target, connector⟩ name))).2
  | unsubscribe {net : Net} {name : String} {s : Subscription}
      (hs : net.subscription? name = some s) (c peer : Nat) (frame : Frame)
      (hmute : frame.header.kind.isResponse = false) :
      Change net [(c, .unroute s.handler)]
        (((net.forget name).changeBoard c (·.unroute s.handler)).start peer
          (.send frame (.discard s))).2
  | drop {net : Net} {name : String} {s : Subscription} (hs : net.subscription? name = some s) :
      Change net [(s.client, .discard s.handler)] ((net.forget name).discard s)
  | next {net : Net} {name : String} {s : Subscription} {client : Client}
      (hs : net.subscription? name = some s) (hclient : net.clients[s.client]? = some client) :
      Change net [(s.client, .next s.handler)]
        { net.changeBoard s.client fun _ => (client.board.next s.handler).2 with
          events := net.events ++
            match (client.board.next s.handler).1 with
            | .event event => [some ⟨s.client, event⟩]
            | _ => [] }
  | use {net : Net} {n : Nat} {held : HeldEvent} (hheld : net.events[n]?.join = some held)
      (reply : Reply) :
      Change net [(held.client, .answer held.event reply)]
        ({ net with events := net.events.set n none }.changeBoard held.client
          (·.answer held.event reply))
  | record {net : Net} :
      Change net (recordSignals { net with reports := [] } net.sortedReports) net.takeReports.2

/-- Peers keep their connections, with what has been said about their end, and those that are new
come behind them. -/
theorem Change.peers {signals : List (Nat × SignalAction)} (h : net.Change signals net') :
    net.peers.length ≤ net'.peers.length ∧ ∀ (k : Nat) (p' : Peer), net'.peers[k]? = some p' →
      (∃ p, net.peers[k]? = some p ∧ p'.connection = p.connection ∧
        p'.inbound.ended = p.inbound.ended) ∨
      (net.peers.length ≤ k ∧ p'.connection.closed = false ∧ p'.inbound.ended = false) := by
  induction h with
  | aside halike hpeers =>
    refine ⟨halike.peers.ge, fun k p' hp' => ?_⟩
    obtain ⟨p, hp, hhandled⟩ := hpeers k p' hp'
    exact .inl ⟨p, hp, hhandled.connection, hhandled.ended⟩
  | @join net endpoint settings | @serve net endpoint settings server
  | @client net endpoint settings =>
    refine ⟨by simp [startPeer, Net.spawn], fun k p' hp' => ?_⟩
    obtain hlt | hle := Nat.lt_or_ge k net.peers.length
    · exact .inl ⟨p', (getElem?_append_left hlt).symm.trans hp', rfl, rfl⟩
    · have hnew := (getElem?_append_right hle).symm.trans hp'
      obtain rfl := List.mem_singleton.mp (mem_of_getElem? hnew)
      exact .inr ⟨hle, rfl, rfl⟩
  | trans hfirst hsecond ihfirst ihsecond =>
    refine ⟨ihfirst.1.trans ihsecond.1, fun k p'' hp'' => ?_⟩
    obtain ⟨p', hp', hsame', hended'⟩ | ⟨hk, hnew⟩ := ihsecond.2 k p'' hp''
    · rw [hsame', hended']
      exact ihfirst.2 k p' hp'
    · exact .inr ⟨ihfirst.1.trans hk, hnew⟩
  | @record net =>
    rw [takeReports_eq]
    exact ⟨le_rfl, fun _ p' hp' => .inl ⟨p', hp', rfl, rfl⟩⟩
  | spawn | report | close | subscribe | unsubscribe | drop | next | use =>
    exact ⟨le_rfl, fun _ p' hp' => .inl ⟨p', hp', rfl, rfl⟩⟩

/-- Nothing changes that peers, tasks or clients keep. -/
theorem Change.apart (halike : net.Alike net') (hpeers : net'.peers = net.peers) :
    net.Change [] net' :=
  .aside halike fun _ p' hp' => ⟨p', hpeers ▸ hp', .refl _ p'⟩

/-- A task without a duty is started. -/
theorem Change.start (peer : Nat) (job : Job) (hduty : job.duty = .other)
    (hmute : job.isMute = true ∨ peer ∈ net.ownPeers) : net.Change [] (net.start peer job).2 :=
  .trans (.spawn peer job (some net.nextTicket) hduty hmute)
    (.apart ⟨rfl, rfl, rfl, rfl, rfl, rfl, rfl, rfl⟩ rfl)

/-- A peer is handled by its user. -/
theorem Change.handle (peer : Nat) {change : Peer → Peer}
    (h : ∀ p, net.peers[peer]? = some p → p.Handled (peer ∈ net.ownPeers) (change p)) :
    net.Change [] (net.changePeer peer change) := by
  refine .aside (alike_changePeer net peer change) fun k p' hp' => ?_
  simp only [changePeer, getElem?_modify, Option.map_eq_map, map_eq_some_iff] at hp'
  obtain ⟨p, hp, rfl⟩ := hp'
  refine ⟨p, hp, ?_⟩
  split
  · next heq =>
      subst heq
      exact h p hp
  · exact .refl _ p

/-- A client calls, and no subscription is concerned. -/
theorem Change.call {client : Nat} {frame : Frame} {purpose : Purpose} {ticket : Nat}
    (hduty : purpose.duty = .other) (h : net.call client frame purpose = some (ticket, net')) :
    net.Change [] net' := by
  obtain ⟨c, -, h⟩ := bind_eq_some_iff.mp h
  cases h
  exact .start c.peer _ hduty (.inl rfl)

theorem Change.askTypes {handle : RemoteHandle} {purpose : Purpose} {ticket : Nat}
    (hduty : purpose.duty = .other) (h : net.askTypes handle purpose = some (ticket, net')) :
    net.Change [] net' := by
  unfold Net.askTypes at h
  split at h
  · exact .call hduty h
  · cases h
    exact .report _ rfl

theorem mem_ownPeers_of_ownPeer? {n peer : Nat} (h : net.ownPeer? n = some peer) :
    peer ∈ net.ownPeers := by
  obtain ⟨k, hk, h⟩ := bind_eq_some_iff.mp h
  obtain ⟨p, -, h⟩ := bind_eq_some_iff.mp h
  split at h <;> cases h
  exact mem_of_getElem? hk

theorem nextNumbers_call {client : Nat} {frame : Frame} {purpose : Purpose} {ticket : Nat}
    (h : net.call client frame purpose = some (ticket, net')) :
    net'.nextNumbers = net.nextNumbers := by
  obtain ⟨c, -, h⟩ := bind_eq_some_iff.mp h
  cases h
  rfl

theorem nextNumbers_askTypes {handle : RemoteHandle} {purpose : Purpose} {ticket : Nat}
    (h : net.askTypes handle purpose = some (ticket, net')) :
    net'.nextNumbers = net.nextNumbers := by
  unfold Net.askTypes at h
  split at h
  · exact nextNumbers_call h
  · cases h
    rfl

theorem alters_takeInbound {n : Nat} (h : net.happen (.takeInbound n) = some net') :
    net.Change (net.signals (.takeInbound n)) net' ∧ net'.nextNumbers = net.nextNumbers := by
  obtain ⟨⟨taken, net₁⟩, hop, rfl⟩ := map_eq_some_iff.mp h
  obtain ⟨peer, hpeer, hop⟩ := bind_eq_some_iff.mp hop
  obtain ⟨p, hp, hop⟩ := bind_eq_some_iff.mp hop
  have hown : peer ∈ net.ownPeers := mem_of_getElem? hpeer
  split at hop
  · split at hop <;> cases hop
    · next frame inbound hpop _ =>
      refine ⟨.handle peer fun p' hp' => ?_, rfl⟩
      obtain rfl : p = p' := some.inj (hp.symm.trans hp')
      exact ⟨rfl, rfl, rfl, rfl, ⟨[frame], (items_of_pop? hpop).symm⟩, absurd hown,
        Channel.ended_of_pop? hpop⟩
    · exact ⟨.apart (.refl net) rfl, rfl⟩
  · cases hop
    exact ⟨.apart (.refl net) rfl, rfl⟩

/-- Whoever posts a request waits for nothing, and the request is no response. -/
theorem alters_post {client : Nat} {kind : MessageKind} {target : ObjectId} {digest : Digest}
    {args : List Field} (h : net.happen (.post client kind target digest args) = some net') :
    net.Change (net.signals (.post client kind target digest args)) net' ∧
      net'.nextNumbers = net.nextNumbers := by
  obtain ⟨⟨ticket, net₁⟩, hop, rfl⟩ := map_eq_some_iff.mp h
  obtain ⟨c, -, hop⟩ := bind_eq_some_iff.mp hop
  split at hop <;> cases hop
  · next frame hframe =>
    have hmute : frame.header.kind.isResponse = false := by
      unfold Request.oneWay at hframe
      split at hframe
      · contradiction
      · cases hframe
        simp_all [Request.frame]
    exact ⟨.start c.peer _ rfl (.inl (by simp [Job.isMute, After.isMute, hmute])), rfl⟩
  · exact ⟨.report _ rfl, rfl⟩

theorem alters_subscribe {handle : RemoteHandle} {connector : Digest} {args : List Field}
    {name : String} (h : net.happen (.subscribe handle connector args name) = some net') :
    net.Change (net.signals (.subscribe handle connector args name)) net' ∧
      net'.nextNumbers = net.nextNumbers := by
  obtain ⟨⟨ticket, net₁⟩, hop, rfl⟩ := map_eq_some_iff.mp h
  obtain ⟨c, hc, hop⟩ := bind_eq_some_iff.mp hop
  obtain ⟨c', hc', hop⟩ := bind_eq_some_iff.mp hop
  cases hop
  simp only [changeBoard, getElem?_modify_eq, hc, map_some, Option.map_eq_map,
    some.injEq] at hc'
  subst hc'
  exact ⟨.subscribe hc _ _ _ _ _, rfl⟩

theorem alters_nextEvent {name : String} (h : net.happen (.nextEvent name) = some net') :
    net.Change (net.signals (.nextEvent name)) net' ∧ net'.nextNumbers = net.nextNumbers := by
  obtain ⟨⟨event, net₁⟩, hop, rfl⟩ := map_eq_some_iff.mp h
  obtain ⟨s, hs, hop⟩ := bind_eq_some_iff.mp hop
  obtain ⟨c, hc, hop⟩ := bind_eq_some_iff.mp hop
  have hnext := Change.next hs hc
  simp only [signals, hs]
  cases hfound : (c.board.next s.handler).1 with
  | event event =>
    simp only [hfound] at hop hnext
    cases hop
    exact ⟨hnext, rfl⟩
  | pending | ended =>
    simp only [hfound, append_nil] at hop hnext
    cases hop
    exact ⟨hnext, rfl⟩

/-- A task that is held keeps the place that it has in a channel or at a server. -/
theorem alters_hold {task : Nat} (h : net.happen (.hold task) = some net') :
    net.Change (net.signals (.hold task)) net' ∧ net'.nextNumbers = net.nextNumbers := by
  obtain ⟨t, -, rfl⟩ := map_eq_some_iff.mp h
  unfold keepPlace
  split
  · exact ⟨.handle t.peer fun p _ =>
      ⟨rfl, rfl, rfl, Gate.closed_keepPlace _ _, suffix_rfl, fun _ => rfl, rfl⟩, rfl⟩
  · exact ⟨.handle t.peer fun p _ =>
      ⟨rfl, rfl, rfl, rfl, suffix_rfl, fun _ => rfl, rfl⟩, rfl⟩
  · exact ⟨.apart ⟨rfl, rfl, rfl, rfl, rfl, rfl, rfl, rfl⟩ rfl,
      map_modify_of_eq fun _ => rfl⟩
  · exact ⟨.apart (.refl net) rfl, rfl⟩

/-- What happens apart from the steps of tasks. Servers go on counting from where they were, unless
there is a new one or one is given a connection. -/
theorem happen_alters (h : net.happen a = some net') (hgo : ∀ task, a ≠ .go task) :
    net.Change (net.signals a) net' ∧ (a.serves = false → net'.nextNumbers = net.nextNumbers) := by
  cases a with
  | links links | host host | putHandle name handle | tick | order agenda =>
    cases h
    exact ⟨.apart ⟨rfl, rfl, rfl, rfl, rfl, rfl, rfl, rfl⟩ rfl, fun _ => rfl⟩
  | addPeer endpoint settings =>
    simp only [happen, Net.addPeer] at h
    split at h
    · contradiction
    · split at h
      · contradiction
      · cases h
        exact ⟨.join endpoint settings, fun _ => rfl⟩
  | callPeer n frame deadline | sendPeer n frame | closePeer n =>
    obtain ⟨⟨ticket, net₁⟩, hop, rfl⟩ := map_eq_some_iff.mp h
    obtain ⟨peer, hpeer, hop⟩ := bind_eq_some_iff.mp hop
    cases hop
    exact ⟨.start peer _ rfl (.inr (mem_ownPeers_of_ownPeer? hpeer)), fun _ => rfl⟩
  | dropPeer n =>
    obtain ⟨peer, -, h⟩ := bind_eq_some_iff.mp h
    cases h
    exact ⟨.handle peer fun p _ =>
      ⟨rfl, rfl, rfl, rfl, suffix_rfl, fun _ => rfl, rfl⟩, fun _ => rfl⟩
  | takeInbound n => exact (alters_takeInbound h).imp_right fun hsame _ => hsame
  | dropInbound n =>
    obtain ⟨peer, hpeer, h⟩ := bind_eq_some_iff.mp h
    cases h
    exact ⟨.handle peer fun p _ =>
      ⟨rfl, rfl, rfl, rfl, nil_suffix, absurd (mem_of_getElem? hpeer), rfl⟩,
      fun _ => rfl⟩
  | addServer maxInFlight =>
    cases hadded : net.addServer maxInFlight with
    | error error => simp [happen, hadded, Except.toOption] at h
    | ok net₁ =>
      obtain rfl : net₁ = net' := by simpa [happen, hadded, Except.toOption] using h
      cases eq_of_addServer hadded
      exact ⟨.apart ⟨rfl, rfl, rfl, rfl, rfl, rfl, rfl, rfl⟩ rfl, by simp [Happening.serves]⟩
  | serve endpoint =>
    simp only [happen, Net.serve] at h
    split at h
    · contradiction
    · split at h
      · cases h
        next s hs _ =>
        have hservers : net.Change []
            { net with servers := net.servers.set (net.servers.length - 1) s.connect.2 } :=
          .apart ⟨rfl, rfl, rfl, rfl, rfl, rfl, rfl, rfl⟩ rfl
        refine ⟨hservers.trans
          (.trans (.serve endpoint { connection := s.connect.1 } (net.servers.length - 1)) ?_),
          by simp [Happening.serves]⟩
        exact .apart ⟨rfl, rfl, rfl, rfl, rfl, rfl, rfl, rfl⟩ rfl
      · contradiction
  | addClient endpoint settings =>
    simp only [happen, Net.addClient] at h
    split at h
    · cases h
      exact ⟨.client endpoint settings, fun _ => rfl⟩
    · contradiction
  | hello client name | request client kind target digest args =>
    obtain ⟨⟨ticket, net₁⟩, hop, rfl⟩ := map_eq_some_iff.mp h
    exact ⟨.call rfl hop, fun _ => nextNumbers_call hop⟩
  | post client kind target digest args => exact (alters_post h).imp_right fun hsame _ => hsame
  | closeClient client =>
    obtain ⟨⟨ticket, net₁⟩, hop, rfl⟩ := map_eq_some_iff.mp h
    obtain ⟨c, hc, hop⟩ := bind_eq_some_iff.mp hop
    cases hop
    exact ⟨.close hc, fun _ => rfl⟩
  | typeList handle | narrow handle target name =>
    obtain ⟨⟨ticket, net₁⟩, hop, rfl⟩ := map_eq_some_iff.mp h
    exact ⟨.askTypes rfl hop, fun _ => nextNumbers_askTypes hop⟩
  | subscribe handle connector args name =>
    exact (alters_subscribe h).imp_right fun hsame _ => hsame
  | unsubscribe client name =>
    obtain ⟨⟨ticket, net₁⟩, hop, rfl⟩ := map_eq_some_iff.mp h
    obtain ⟨s, hs, hop⟩ := bind_eq_some_iff.mp hop
    obtain ⟨c, hc, hop⟩ := bind_eq_some_iff.mp hop
    cases hop
    simp only [signals, hs]
    exact ⟨.unsubscribe hs client c.peer _ rfl, fun _ => rfl⟩
  | dropSubscription name =>
    obtain ⟨s, hs, h⟩ := bind_eq_some_iff.mp h
    cases h
    simp only [signals, hs]
    exact ⟨.drop hs, fun _ => rfl⟩
  | nextEvent name => exact (alters_nextEvent h).imp_right fun hsame _ => hsame
  | reply n reply =>
    obtain ⟨⟨held, net₁⟩, h, h'⟩ := bind_eq_some_iff.mp h
    obtain ⟨held', hheld, h⟩ := bind_eq_some_iff.mp h
    cases h
    cases h'
    simp only [signals, hheld]
    exact ⟨.use hheld reply, fun _ => rfl⟩
  | takeArgs n =>
    obtain ⟨⟨args, net₂⟩, hop, rfl⟩ := map_eq_some_iff.mp h
    obtain ⟨⟨held, net₁⟩, hop, h'⟩ := bind_eq_some_iff.mp hop
    obtain ⟨held', hheld, hop⟩ := bind_eq_some_iff.mp hop
    cases hop
    cases h'
    simp only [signals, hheld]
    exact ⟨.use hheld (.ok []), fun _ => rfl⟩
  | takeReports =>
    cases h
    exact ⟨.record, fun _ => by rw [takeReports_eq]; rfl⟩
  | go task => exact absurd rfl (hgo task)
  | hold task => exact (alters_hold h).imp_right fun hsame _ => hsame

/-- Whatever happens but steps is one of these changes. -/
theorem happen_changes (h : net.happen a = some net') (hgo : ∀ task, a ≠ .go task) :
    net.Change (net.signals a) net' := (happen_alters h hgo).1

theorem mem_tasks_of_task? {id : Nat} {t : Task} (h : net.task? id = some t) :
    t ∈ net.tasks ∧ t.id = id :=
  ⟨mem_of_find?_eq_some h, by simpa using List.find?_some h⟩

/-- What happens is a step of a task, or something apart from that. -/
theorem happen_cases (h : net.happen a = some net') :
    (∃ t net₁ next, a = .go t.id ∧ t ∈ net.tasks ∧ net.task? t.id = some t ∧
        net.step t = some (net₁, next) ∧ net' = net₁.place t next ∧
        net.signals a = stepSignals t next) ∨
      ((∀ task, a ≠ .go task) ∧ net.Change (net.signals a) net') := by
  by_cases hgo : ∃ task, a = .go task
  · obtain ⟨task, rfl⟩ := hgo
    obtain ⟨t, htask, hgo⟩ := bind_eq_some_iff.mp h
    obtain ⟨⟨net₁, next⟩, hstep, hplace⟩ := bind_eq_some_iff.mp hgo
    cases hplace
    obtain ⟨ht, rfl⟩ := mem_tasks_of_task? htask
    exact .inl ⟨t, net₁, next, rfl, ht, htask, hstep, rfl, by simp only [signals, htask, hstep]⟩
  · have hgo : ∀ task, a ≠ .go task := fun task heq => hgo ⟨task, heq⟩
    exact .inr ⟨hgo, happen_changes h hgo⟩

end Net

end Remoting
