import Remoting.Proofs.Exchange
import Remoting.Proofs.PendingTable

/-!
# Remoting.Proofs.Traffic

What may be on its way between a caller and a server, wherever it is: with a task, in a queue, or on
the link. From the caller come requests of calls, and messages that expect no response; from the
server come responses that are owed to a call, and messages that are no responses (`May`).

A network may lead to a later state of it (`Net.Leads`) in which nothing else is on its way, no call
was added to the table of a connection, and no call that was settled there is pending again.
-/

namespace Remoting

variable {side : Side} {w : Wiring} {h h' : History} {p : Peer}

/-! ## Requests and responses -/

/-- The number of the peer at a side of the link. -/
def Side.index : Side → Nat
  | .left => 0
  | .right => 1

theorem Side.index_inj {side' : Side} (heq : side.index = side'.index) : side = side' := by
  cases side <;> cases side' <;> simp_all [Side.index]

/-- The numbers of a connection at its two ends. -/
structure Wiring where
  caller : ConnectionId
  server : ConnectionId

/-- The number of the connection at a side of the link. -/
def Wiring.id (w : Wiring) : Side → ConnectionId
  | .left => w.caller
  | .right => w.server

/-- A message as it goes out on a connection. -/
def Frame.sentOn (f : Frame) (connection : ConnectionId) : Frame :=
  { f with header := { f.header with connection } }

/-- A message with the number of a call. -/
def Frame.numbered (f : Frame) (id : CallId) : Frame :=
  { f with header := { f.header with callId := id } }

/-- A handler that sends no responses beside the one that it returns. -/
def Discreet (handler : Handler) : Prop :=
  ∀ i frames, .post frames ∈ (handler i).followUps → ∀ f ∈ frames, f.header.kind.isResponse = false

/-- A host all of whose handlers are discreet. -/
def Host.Discreet (host : Host) : Prop :=
  ∀ digest handler, host.registry.lookup digest = .ok (some handler) → Remoting.Discreet handler

/-- No script sends responses beside the one that it returns. -/
theorem Script.discreet_run (script : Script) : Discreet script.run := by
  intro i frames hpost f hf
  have hreading {α : Type} {x : Reading α} {react : α → Reaction}
      (hreact : ∀ a, .post frames ∈ (react a).followUps → f.header.kind.isResponse = false)
      (hmem : .post frames ∈ (Reaction.reading i.payload x react).followUps) :
      f.header.kind.isResponse = false := by
    unfold Reaction.reading at hmem
    split at hmem
    · exact hreact _ hmem
    · contradiction
  cases script with
  | double => exact hreading (fun _ hmem => by contradiction) hpost
  | one => exact hreading (fun _ hmem => by contradiction) hpost
  | get =>
    simp only [Script.run] at hpost
    split at hpost <;> contradiction
  | set =>
    simp only [Script.run] at hpost
    split at hpost <;> contradiction
  | emit count =>
    refine hreading (fun handler hmem => ?_) hpost
    split at hmem
    · obtain rfl : frames = _ := by simpa using hmem
      obtain ⟨n, -, rfl⟩ := List.mem_map.mp hf
      rfl
    · contradiction
  | emitTwoWay =>
    refine hreading (fun handler hmem => ?_) hpost
    split at hmem
    · split at hmem
      · contradiction
      · exact absurd hmem (by simp)
    · contradiction
  | typeList model =>
    simp only [Script.run] at hpost
    split at hpost <;> contradiction
  | _ => contradiction

/-- Hosts that run scripts only are discreet. -/
theorem Host.discreet_of_scripts {host : Host}
    (hscripts : ∀ e ∈ host.registry.entries, ∃ script : Script, e.handler = script.run) :
    host.Discreet := by
  intro digest handler hlookup
  unfold Registry.lookup at hlookup
  split at hlookup
  · obtain ⟨e, he, rfl⟩ := Option.map_eq_some_iff.mp (Except.ok.inj hlookup)
    obtain ⟨script, hscript⟩ := hscripts e (List.mem_of_find?_eq_some he)
    rw [hscript]
    exact script.discreet_run
  · contradiction

/-- All that later states of a history keep. -/
structure History.Extends (h h' : History) : Prop where
  calls : h.calls ⊆ h'.calls
  numbers : h.numbers ⊆ h'.numbers
  answers : h.answers ⊆ h'.answers

/-- The request of a call. -/
def Asked (w : Wiring) (h : History) (request : Frame) : Prop :=
  ∃ k frame id, (k, frame) ∈ h.calls ∧ (k, id) ∈ h.numbers ∧
    request = (frame.numbered id).sentOn w.caller

/-- How a response comes about: the host has made it for the request, or the request does not fit
the format. Such a request is refused by the peer of the server as it comes in, and is never
dispatched. -/
def Answers (w : Wiring) (h : History) (request r : Frame) : Prop :=
  (Field.Fits request.toFields ∧
    ∃ response, (request, response) ∈ h.answers ∧ r = response.sentOn w.server) ∨
  (¬ Field.Fits request.toFields ∧
    ∃ error : FramingError, r = (Frame.errorFor request.header error.toFault).sentOn w.server)

/-- A response that is owed to a call. -/
def Owed (w : Wiring) (h : History) (r : Frame) : Prop :=
  ∃ request, Asked w h request ∧ r.header.callId = request.header.callId ∧ Answers w h request r

/-- What may be sent from a side. -/
def May (w : Wiring) (h : History) : Side → Frame → Prop
  | .left, f => f.header.kind.expectsResponse = true → Asked w h f
  | .right, f => f.header.kind.isResponse = true → Owed w h f

/-- What may have come to a side. -/
structure Came (w : Wiring) (h : History) (side : Side) (f : Frame) : Prop where
  may : May w h side.other f
  fits : Field.Fits f.toFields

/-- What may be delivered to a caller as the response to a call. -/
structure Delivers (w : Wiring) (h : History) (side : Side) (id : CallId) (r : Frame) : Prop where
  may : May w h side.other r
  response : r.header.kind.isResponse = true
  callId : r.header.callId = id

section Mono

variable (hle : h.Extends h')
include hle

/-- What was asked stays asked. -/
theorem Asked.mono {request : Frame} (ha : Asked w h request) : Asked w h' request := by
  obtain ⟨k, frame, id, hcall, hnumber, heq⟩ := ha
  exact ⟨k, frame, id, hle.calls hcall, hle.numbers hnumber, heq⟩

/-- An answer stays an answer. -/
theorem Answers.mono {request r : Frame} (ha : Answers w h request r) : Answers w h' request r := by
  rcases ha with ⟨hfits, response, hmem, heq⟩ | hrefused
  · exact .inl ⟨hfits, response, hle.answers hmem, heq⟩
  · exact .inr hrefused

/-- What may be sent may be sent later. -/
theorem May.mono {f : Frame} (hmay : May w h side f) : May w h' side f := by
  cases side with
  | left => exact fun hexpects => (hmay hexpects).mono hle
  | right =>
    intro hresponse
    obtain ⟨request, hasked, hid, hanswers⟩ := hmay hresponse
    exact ⟨request, hasked.mono hle, hid, hanswers.mono hle⟩

/-- What may have come may have come later. -/
theorem Came.mono {f : Frame} (hcame : Came w h side f) : Came w h' side f :=
  ⟨hcame.may.mono hle, hcame.fits⟩

/-- A response is still the one to its call later. -/
theorem Delivers.mono {id : CallId} {r : Frame} (hd : Delivers w h side id r) :
    Delivers w h' side id r := ⟨hd.may.mono hle, hd.response, hd.callId⟩

end Mono

/-! ## Tasks -/

/-- The call whose response a task waits for afterwards. -/
def After.awaits? : After → Option CallId
  | .await id _ _ => some id
  | _ => none

/-- The call whose response a task waits for, or will wait for when its request is sent. -/
def Job.awaits? : Job → Option CallId
  | .send _ after | .push _ after => after.awaits?
  | .await id _ _ _ => some id
  | _ => none

/-- What a task may have left to do afterwards. -/
def After.Proper (w : Wiring) (h : History) (side : Side) : After → Prop
  | .post frames => ∀ f ∈ frames, May w h side (f.sentOn (w.id side))
  | .route _ => False
  | _ => True

/-- Where a task of a side may stand. -/
def Job.Proper (w : Wiring) (h : History) (side : Side) (ticket : Option Nat) : Job → Prop
  | .transmit f => May w h side f
  | .accept (.ok f) => Came w h side f
  | .accept (.error damaged) =>
    ∃ f, May w h side.other f ∧ ¬ Field.Fits f.toFields ∧ damaged.header = f.header
  | .deliver f => Came w h side f
  | .call f _ _ => side = .left → ∃ k, ticket = some k ∧ (k, f) ∈ h.calls
  | .send f after => May w h side (f.sentOn (w.id side)) ∧ after.Proper w h side
  | .push (.frame f) after => May w h side f ∧ after.Proper w h side
  | .push .close after => after.Proper w h side
  | .serve _ => side = .right
  | .enter _ f | .work _ f => side = .right ∧ Came w h side f
  | .sleep _ _ response => ∀ r ∈ response, May w h side (r.sentOn (w.id side))
  | .route _ | .dispatch _ _ | .answer _ _ _ => False
  | _ => True

/-- A task of a side. Only what the caller asks for is reported. -/
structure Task.Proper (w : Wiring) (h : History) (side : Side) (t : Task) : Prop where
  peer : t.peer = side.index
  ticket : side = .right → t.ticket = none
  job : t.job.Proper w h side t.ticket

theorem After.Proper.mono (hle : h.Extends h') {after : After} (ha : after.Proper w h side) :
    after.Proper w h' side := by
  cases after with
  | post frames => exact fun f hf => (ha f hf).mono hle
  | route client => exact ha
  | _ => trivial

/-- A job stays proper while the history grows. -/
theorem Job.Proper.mono (hle : h.Extends h') {ticket : Option Nat} {job : Job}
    (hj : job.Proper w h side ticket) :
    job.Proper w h' side ticket := by
  cases job with
  | transmit f => exact May.mono hle hj
  | accept message =>
    cases message with
    | ok f => exact Came.mono hle hj
    | error damaged =>
      obtain ⟨f, hmay, hfits, hheader⟩ := hj
      exact ⟨f, hmay.mono hle, hfits, hheader⟩
  | deliver f => exact Came.mono hle hj
  | call f deadline purpose =>
    intro hside
    obtain ⟨k, hticket, hmem⟩ := hj hside
    exact ⟨k, hticket, hle.calls hmem⟩
  | send f after => exact ⟨hj.1.mono hle, hj.2.mono hle⟩
  | push message after =>
    cases message with
    | frame f => exact ⟨hj.1.mono hle, hj.2.mono hle⟩
    | close => exact After.Proper.mono hle hj
  | enter server f => exact ⟨hj.1, hj.2.mono hle⟩
  | work server f => exact ⟨hj.1, hj.2.mono hle⟩
  | sleep server limit response => exact fun r hr => (hj r hr).mono hle
  | _ => exact hj

theorem Task.Proper.mono (hle : h.Extends h') {t : Task} (ht : t.Proper w h side) :
    t.Proper w h' side :=
  ⟨ht.peer, ht.ticket, ht.job.mono hle⟩

/-! ## Peers -/

/-- The peer of a side: what is in its queues, and its table of calls. -/
structure Peer.Proper (w : Wiring) (h : History) (side : Side) (p : Peer) : Prop where
  id : p.connection.id = w.id side
  endpoint : p.endpoint = side.index
  outbound : ∀ f, .frame f ∈ p.outbound.items → May w h side f
  inbound : ∀ f ∈ p.inbound.items, Came w h side f
  sound : p.connection.pending.Sound (Delivers w h side)
  numbered : p.connection.pending.Numbered

/-- A peer stays proper while the history grows. -/
theorem Peer.Proper.mono (hle : h.Extends h') (hp : p.Proper w h side) : p.Proper w h' side where
  id := hp.id
  endpoint := hp.endpoint
  outbound f hf := (hp.outbound f hf).mono hle
  inbound f hf := (hp.inbound f hf).mono hle
  sound id c hc :=
    ⟨(hp.sound id c hc).heard, fun r hr => ((hp.sound id c hc).delivered r hr).mono hle⟩
  numbered := hp.numbered

/-- A later state of a peer, through which no call was made. -/
structure Peer.Leads (w : Wiring) (h : History) (side : Side) (p p' : Peer) : Prop where
  proper : p.Proper w h side → p'.Proper w h side
  calls : p'.connection.pending.calls.map (·.id) = p.connection.pending.calls.map (·.id)
  settled : ∀ id, p.connection.pending.contains id = false →
    p'.connection.pending.contains id = false

theorem Peer.Leads.refl (p : Peer) :
    p.Leads w h side p := ⟨fun hp => hp, rfl, fun _ hid => hid⟩

theorem Peer.Leads.trans {p' p'' : Peer} (hl : p.Leads w h side p') (hl' : p'.Leads w h side p'') :
    p.Leads w h side p'' :=
  ⟨fun hp => hl'.proper (hl.proper hp), hl'.calls.trans hl.calls,
    fun id hid => hl'.settled id (hl.settled id hid)⟩

/-- The connection of a peer goes on without a new call. -/
theorem Peer.leads_connection (p : Peer) {c : Connection}
    (hc : p.connection.Continues (Delivers w h side) c) :
    p.Leads w h side { p with connection := c } where
  proper hp := {
    hp with
    id := hc.id.trans hp.id
    sound := hc.pending.sound hp.sound
    numbered := hc.pending.numbered hp.numbered }
  calls := hc.pending.calls
  settled := hc.pending.settled

/-- The queue of what goes out gets what may be sent. -/
theorem Peer.leads_outbound (p : Peer) {c : Channel Outgoing}
    (hc : ∀ f, .frame f ∈ c.items → .frame f ∈ p.outbound.items ∨ May w h side f) :
    p.Leads w h side { p with outbound := c } where
  proper hp := {
    hp with
    outbound := fun f hf => (hc f hf).elim (hp.outbound f) id }
  calls := rfl
  settled _ hid := hid

/-- The queue of what has come in gets what may have come. -/
theorem Peer.leads_inbound (p : Peer) {c : Channel Frame}
    (hc : ∀ f ∈ c.items, f ∈ p.inbound.items ∨ Came w h side f) :
    p.Leads w h side { p with inbound := c } where
  proper hp := {
    hp with
    inbound := fun f hf => (hc f hf).elim (hp.inbound f) id }
  calls := rfl
  settled _ hid := hid

/-! ## Networks -/

namespace Net

variable {net net' : Net} {change : Peer → Peer}

@[simp] theorem linkOf_index (side : Side) : linkOf side.index = 0 := by cases side <;> rfl

@[simp] theorem sideOf_index (side : Side) : sideOf side.index = side := by cases side <;> rfl

/-- A network of a caller and a server: its peers, its link and its handlers. -/
structure Proper (w : Wiring) (h : History) (net : Net) : Prop where
  peers : ∀ (side : Side) (p : Peer), net.peers[side.index]? = some p → p.Proper w h side
  links : ∀ l, net.links[0]? = some l → l.Safe (May w h)
  host : net.host.Discreet

/-- A later state of a network, in which no call was made. Tasks may have been added that report
nothing. -/
structure Leads (w : Wiring) (h : History) (net net' : Net) : Prop where
  peers : ∀ (side : Side) (p' : Peer), net'.peers[side.index]? = some p' →
    ∃ p : Peer, net.peers[side.index]? = some p ∧ p.Leads w h side p'
  size : net'.peers.length = net.peers.length
  links : (∀ l, net.links[0]? = some l → l.Safe (May w h)) →
    ∀ l, net'.links[0]? = some l → l.Safe (May w h)
  registry : net'.host.registry = net.host.registry
  ownPeers : net'.ownPeers = net.ownPeers
  nextTicket : net'.nextTicket = net.nextTicket
  reports : net'.reports = net.reports
  tasks : ∃ new, net'.tasks = net.tasks ++ new ∧
    ∀ t ∈ new, t.ticket = none ∧ ∃ side, t.Proper w h side

/-- What a proper network leads to is proper. -/
theorem Leads.proper (hl : net.Leads w h net') (hnet : net.Proper w h) :
    net'.Proper w h where
  peers side p' hp' := by
    obtain ⟨p, hp, hlp⟩ := hl.peers side p' hp'
    exact hlp.proper (hnet.peers side p hp)
  links := hl.links hnet.links
  host digest handler := by
    rw [hl.registry]
    exact hnet.host digest handler

/-- Two networks that differ only in what has nothing to do with the traffic. -/
structure Same (net net' : Net) : Prop where
  peers : net'.peers = net.peers
  links : net'.links = net.links
  registry : net'.host.registry = net.host.registry
  ownPeers : net'.ownPeers = net.ownPeers
  nextTicket : net'.nextTicket = net.nextTicket
  reports : net'.reports = net.reports
  tasks : net'.tasks = net.tasks

/-- A network leads to one that differs in nothing that matters here. -/
theorem Same.leads (hs : net.Same net') : net.Leads w h net' where
  peers side p' hp' := ⟨p', by rw [← hs.peers]; exact hp', .refl p'⟩
  size := by rw [hs.peers]
  links hlinks := by rw [hs.links]; exact hlinks
  registry := hs.registry
  ownPeers := hs.ownPeers
  nextTicket := hs.nextTicket
  reports := hs.reports
  tasks := ⟨[], by rw [hs.tasks, List.append_nil], by simp⟩

theorem Leads.refl (net : Net) : net.Leads w h net := Same.leads ⟨rfl, rfl, rfl, rfl, rfl, rfl, rfl⟩

/-- What leads to a later state leads on from there. -/
theorem Leads.trans {net'' : Net} (hl : net.Leads w h net') (hl' : net'.Leads w h net'') :
    net.Leads w h net'' where
  peers side p'' hp'' := by
    obtain ⟨p', hp', hlp'⟩ := hl'.peers side p'' hp''
    obtain ⟨p, hp, hlp⟩ := hl.peers side p' hp'
    exact ⟨p, hp, hlp.trans hlp'⟩
  size := hl'.size.trans hl.size
  links hlinks := hl'.links (hl.links hlinks)
  registry := hl'.registry.trans hl.registry
  ownPeers := hl'.ownPeers.trans hl.ownPeers
  nextTicket := hl'.nextTicket.trans hl.nextTicket
  reports := hl'.reports.trans hl.reports
  tasks := by
    obtain ⟨new, htasks, hnew⟩ := hl.tasks
    obtain ⟨new', htasks', hnew'⟩ := hl'.tasks
    refine ⟨new ++ new', by rw [htasks', htasks, List.append_assoc], fun t ht => ?_⟩
    rcases List.mem_append.mp ht with hmem | hmem
    · exact hnew t hmem
    · exact hnew' t hmem

/-- A change of one peer leaves the other one alone. -/
theorem of_getElem?_changePeer {side' : Side} {p' : Peer}
    (hp' : (net.changePeer side.index change).peers[side'.index]? = some p') :
    (side' = side ∧ ∃ p, net.peers[side.index]? = some p ∧ p' = change p) ∨
      net.peers[side'.index]? = some p' := by
  rw [changePeer, List.getElem?_modify] at hp'
  by_cases hside : side = side'
  · subst hside
    obtain ⟨p, hp, heq⟩ := Option.map_eq_some_iff.mp hp'
    exact .inl ⟨rfl, p, hp, by simpa using heq.symm⟩
  · have hindex : side.index ≠ side'.index := fun heq => hside (Side.index_inj heq)
    exact .inr (by simpa [hindex] using hp')

/-- One peer changes as it may. -/
theorem leads_changePeer_of
    (hl : ∀ p, net.peers[side.index]? = some p → p.Leads w h side (change p)) :
    net.Leads w h (net.changePeer side.index change) where
  peers side' p' hp' := by
    rcases of_getElem?_changePeer hp' with ⟨rfl, p, hp, rfl⟩ | hother
    · exact ⟨p, hp, hl p hp⟩
    · exact ⟨p', hother, .refl p'⟩
  size := List.length_modify _ _ _
  links hlinks := hlinks
  registry := rfl
  ownPeers := rfl
  nextTicket := rfl
  reports := rfl
  tasks := ⟨[], (List.append_nil _).symm, by simp⟩

theorem leads_changePeer (hp : net.peers[side.index]? = some p) (hl : p.Leads w h side (change p)) :
    net.Leads w h (net.changePeer side.index change) := by
  refine leads_changePeer_of fun p' hp' => ?_
  rwa [← Option.some.inj (hp.symm.trans hp')]

/-- The connection of a peer of the network does. -/
theorem leads_changeConnection {change : Connection → Connection}
    (hp : net.peers[side.index]? = some p)
    (hc : p.connection.Continues (Delivers w h side) (change p.connection)) :
    net.Leads w h (net.changeConnection side.index change) :=
  leads_changePeer hp (p.leads_connection hc)

/-- A connection is shut down. -/
theorem leads_shutDown (hp : net.peers[side.index]? = some p) (reason : String) :
    net.Leads w h (net.shutDown side.index reason) :=
  leads_changeConnection hp (p.connection.continues_shutDown reason)

/-- The link is used as it may be. -/
theorem leads_onLink {use : Link → Side → α × Link} {a : α}
    (huse : ∀ l, l.Safe (May w h) → (use l side).2.Safe (May w h))
    (hon : net.onLink side.index use = some (a, net')) : net.Leads w h net' := by
  simp only [onLink, linkOf_index, sideOf_index] at hon
  obtain ⟨l, hl, hrest⟩ := Option.bind_eq_some_iff.mp hon
  cases hrest
  refine ⟨fun side' p' hp' => ⟨p', hp', .refl p'⟩, rfl, fun hlinks l' hl' => ?_, rfl, rfl,
    rfl, rfl, [], (List.append_nil _).symm, by simp⟩
  have hlen : 0 < net.links.length := (List.getElem?_eq_some_iff.mp hl).1
  have hset : (use l side).2 = l' := by simpa [hlen] using hl'
  rw [← hset]
  exact huse l (hlinks l hl)

/-- The link changes as it may. -/
theorem leads_changeLink {change : Link → Side → Link}
    (hchange : ∀ l, l.Safe (May w h) → (change l side).Safe (May w h)) :
    net.Leads w h (net.changeLink side.index change) := by
  refine ⟨fun side' p' hp' => ⟨p', hp', .refl p'⟩, rfl, fun hlinks l' hl' => ?_, rfl, rfl,
    rfl, rfl, [], (List.append_nil _).symm, by simp⟩
  simp only [changeLink, linkOf_index, sideOf_index, List.getElem?_modify] at hl'
  obtain ⟨l, hl, rfl⟩ := Option.map_eq_some_iff.mp hl'
  exact hchange l (hlinks l hl)

/-- A new task that reports nothing is started. -/
theorem leads_spawn (net : Net) {job : Job} (hjob : job.Proper w h side none) :
    net.Leads w h (net.spawn side.index job none) := by
  refine ⟨fun side' p' hp' => ⟨p', hp', .refl p'⟩, rfl, fun hlinks => hlinks, rfl, rfl, rfl,
    rfl, _, rfl, ?_⟩
  intro t ht
  obtain rfl := List.mem_singleton.mp ht
  exact ⟨rfl, side, rfl, fun _ => rfl, hjob⟩

end Net

end Remoting
