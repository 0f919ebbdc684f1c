import Remoting.Proofs.Footprints
import Remoting.Proofs.RemoteCall

/-!
# Remoting.Proofs.ConnectionNumbers

The numbers that servers give to their connections. A server counts its connections in a word of
two bytes, starting with one, and keeps no record of the numbers in use. So the number of a
connection tells its place in the order of all connections up to a multiple of `2 ^ 16`, whatever
else happens and whichever connections are closed (`Net.connections_numbered`). The first
`2 ^ 16 - 1` connections of a server have different numbers other than zero; the next one has the
number zero, and the one after that the number of the first, even if that one is still open
(`Net.number_taken_twice`).

What tasks do never touches the numbers (`Net.numbers_step`), and `Net.happen_counts` says once what
anything that happens does to them.
-/

namespace Remoting

open List Option

/-- A connection that a server was given to serve: the peer at its end, and its number. -/
structure Served where
  server : Nat
  peer : Nat
  id : ConnectionId
  deriving DecidableEq, Repr

/-- The numbers of connections: those of the peers, and those that the servers give next. -/
structure Numbers where
  peers : List ConnectionId
  next : List UInt16
  deriving DecidableEq, Repr

namespace Net

variable {net net' : Net} {t : Task} {p : Peer} {out : Stepped} {a : Happening}
  {happenings : List Happening} {host : Host}

def numbers (net : Net) : Numbers where
  peers := net.peers.map (·.connection.id)
  next := net.servers.map (·.nextConnection)

/-! ## Steps -/

theorem getElem?_of_prefix {α : Type} {l l' : List α} {k : Nat} {x : α} (h : l <+: l')
    (hx : l[k]? = some x) : l'[k]? = some x := by
  obtain ⟨hlt, rfl⟩ := List.getElem?_eq_some_iff.mp hx
  exact prefix_iff_getElem?.mp h k hlt

/-- Steps of tasks change no number. -/
theorem numbers_step (h : net.step t = some out) : out.1.numbers = net.numbers := by
  obtain ⟨p, hp, -⟩ := bind_eq_some_iff.mp h
  obtain ⟨p', ⟨hpeers, -⟩, hid, hnext⟩ := (step_proceeds hp h).2
  have hids : out.1.peers.map (·.connection.id) = net.peers.map (·.connection.id) := by
    rw [hpeers]
    exact map_set_of_eq hp hid
  exact congrArg₂ Numbers.mk hids hnext

theorem numbers_place (net : Net) (t : Task) (next : Next) :
    (net.place t next).numbers = net.numbers := by
  cases next <;> rfl

/-! ## Happenings -/

/-- The connection that a server is given with a happening. -/
def served (net : Net) : Happening → List Served
  | .serve endpoint =>
    match net.serve endpoint with
    | .ok (id, _) => [⟨net.servers.length - 1, net.peers.length, id⟩]
    | .error _ => []
  | _ => []

/-- What a happening does to the numbers of connections. -/
inductive Counts (net : Net) (a : Happening) (net' : Net) : Prop where
  /-- No server has to do with it, but there may be a peer more. -/
  | aside (hserved : net.served a = []) (hpeers : net.numbers.peers <+: net'.numbers.peers)
      (hnext : net'.numbers.next = net.numbers.next)
  /-- There is a server more, which counts from one. -/
  | server (hserved : net.served a = []) (hpeers : net'.numbers.peers = net.numbers.peers)
      (hnext : net'.numbers.next = net.numbers.next ++ [1])
  /-- The newest server gives its next number to a connection. -/
  | serve (id : UInt16) (hid : net.numbers.next[net.servers.length - 1]? = some id)
      (hserved : net.served a = [⟨net.servers.length - 1, net.peers.length, ⟨id⟩⟩])
      (hpeers : net'.numbers.peers = net.numbers.peers ++ [⟨id⟩])
      (hnext : net'.numbers.next = net.numbers.next.set (net.servers.length - 1) (id + 1))

theorem Counts.of_eq (hserved : net.served a = []) (h : net'.numbers = net.numbers) :
    net.Counts a net' := .aside hserved (by rw [h]) (by rw [h])

/-- Peers keep their numbers. -/
theorem numbers_of_change {signals : List (Nat × SignalAction)} (h : net.Change signals net') :
    net.numbers.peers <+: net'.numbers.peers := by
  obtain ⟨hle, hpeers⟩ := h.peers
  simp only [numbers, prefix_iff_getElem?, length_map]
  intro k hk
  have hk' := getElem?_eq_getElem (hk.trans_le hle)
  obtain ⟨p, hp, hsame, -⟩ | ⟨hge, -⟩ := hpeers k _ hk'
  · simp [hk', hsame, (List.getElem?_eq_some_iff.mp hp).2]
  · omega

/-- Serving a connection uses the next number of the newest server. -/
theorem counts_serve {endpoint : Nat} (h : net.happen (.serve endpoint) = some net') :
    net.Counts (.serve endpoint) net' := by
  simp only [happen, Net.serve] at h
  split at h
  · contradiction
  · next s hs =>
    split at h
    · next hfree =>
      cases h
      have hid : net.numbers.next[net.servers.length - 1]? = some s.nextConnection := by
        simp [numbers, hs]
      refine .serve s.nextConnection hid ?_ ?_ ?_
      · simp only [served, Net.serve, hs, hfree, if_true]
        rfl
      · simp [numbers, startPeer, spawn, changeLink, Server.connect]
      · simp [numbers, startPeer, spawn, changeLink, Server.connect, map_set]
    · contradiction

/-- A new server counts from one. -/
theorem counts_addServer {maxInFlight : Nat} (h : net.happen (.addServer maxInFlight) = some net') :
    net.Counts (.addServer maxInFlight) net' := by
  cases hadded : net.addServer maxInFlight with
  | error error => simp [happen, hadded, Except.toOption] at h
  | ok net₁ =>
    obtain rfl : net₁ = net' := by simpa [happen, hadded, Except.toOption] using h
    cases eq_of_addServer hadded
    exact .server rfl rfl (by simp [numbers, Server.ofLimit])

/-- What anything that happens does to the numbers of connections. -/
theorem happen_counts (h : net.happen a = some net') : net.Counts a net' := by
  cases hserves : a.serves with
  | true =>
    cases a with
    | addServer maxInFlight => exact counts_addServer h
    | serve endpoint => exact counts_serve h
    | _ => contradiction
  | false =>
    have hserved : net.served a = [] := by
      cases a with
      | serve endpoint => contradiction
      | _ => rfl
    obtain ⟨t, net₁, next, rfl, -, -, hstep, rfl, -⟩ | ⟨hgo, hchange⟩ := happen_cases h
    · exact .of_eq hserved ((numbers_place net₁ t next).trans (numbers_step hstep))
    · exact .aside hserved (numbers_of_change hchange) ((happen_alters h hgo).2 hserves)

/-! ## Runs -/

/-- The number of the connection that a server is given after `n` others. -/
def numberAfter (n : Nat) : ConnectionId := ⟨UInt16.ofNat (n + 1)⟩

theorem val_toNat_inj {c d : ConnectionId} : c.val.toNat = d.val.toNat ↔ c = d := by
  cases c
  cases d
  rw [UInt16.toNat_inj, ConnectionId.mk.injEq]

/-- Numbers count up by one, and wrap around. -/
theorem numberAfter_succ (n : Nat) : numberAfter (n + 1) = ⟨(numberAfter n).val + 1⟩ := by
  simp [numberAfter]

/-- The number after `n` connections is `n + 1`, modulo 65536. -/
theorem toNat_numberAfter (n : Nat) : (numberAfter n).val.toNat = (n + 1) % 2 ^ 16 :=
  UInt16.toNat_ofNat'

/-- Numbers come again after 65536 connections, and not before. -/
theorem numberAfter_eq_iff {m n : Nat} (h : m ≤ n) :
    numberAfter m = numberAfter n ↔ 2 ^ 16 ∣ n - m := by
  rw [← val_toNat_inj, toNat_numberAfter, toNat_numberAfter]
  omega

theorem numberAfter_eq_zero_iff (n : Nat) : numberAfter n = ⟨0⟩ ↔ 2 ^ 16 ∣ n + 1 := by
  rw [← val_toNat_inj, toNat_numberAfter, Nat.dvd_iff_mod_eq_zero]
  rfl

/-- The first 65536 numbers differ. -/
theorem nodup_numberAfter {n : Nat} (h : n ≤ 2 ^ 16) :
    ((List.range n).map numberAfter).Nodup := by
  rw [List.nodup_map_iff_inj_on List.nodup_range]
  intro i hi j hj heq
  rw [← val_toNat_inj, toNat_numberAfter, toNat_numberAfter] at heq
  rw [List.mem_range] at hi hj
  omega

/-- The connections that a server was given in a run, in their order. -/
def servedBy (net : Net) (server : Nat) (happenings : List Happening) : List Served :=
  (net.trace served happenings).filter (·.server == server)

/-- What a server has served after one more happening. -/
theorem servedBy_concat {server : Nat} (hrun : net.happens happenings = some net') :
    net.servedBy server (happenings ++ [a]) =
      net.servedBy server happenings ++ (net'.served a).filter (·.server == server) := by
  rw [servedBy, trace_concat served hrun, filter_append]
  rfl

/-- How the connections that a server was given are numbered. -/
structure Tallied (server : Nat) (log : List Served) (net : Net) : Prop where
  /-- There is no connection without the server. -/
  fresh : net.numbers.next.length ≤ server → log = []
  /-- The server goes on counting. -/
  next : ∀ id, net.numbers.next[server]? = some id → (⟨id⟩ : ConnectionId) = numberAfter log.length
  ids : log.map (·.id) = (List.range log.length).map numberAfter
  /-- The peers of the connections still have their numbers. -/
  kept : ∀ c ∈ log, net.numbers.peers[c.peer]? = some c.id
  /-- Every connection has a peer of its own. -/
  peers : (log.map (·.peer)).Nodup

/-- At the beginning nothing is served. -/
theorem tallied_empty (host : Host) (server : Nat) : ({ host } : Net).Tallied server [] where
  fresh _ := rfl
  next := by simp [numbers]
  ids := rfl
  kept := by simp
  peers := .nil

variable {server : Nat} {log : List Served}

/-- Whatever else happens, the numbers of peers and servers only get more. -/
theorem Tallied.mono (h : net.Tallied server log)
    (hpeers : net.numbers.peers <+: net'.numbers.peers)
    (hlength : net.numbers.next.length ≤ net'.numbers.next.length)
    (hnext : ∀ id, net'.numbers.next[server]? = some id →
      (⟨id⟩ : ConnectionId) = numberAfter log.length) :
    net'.Tallied server log where
  fresh hserver := h.fresh (hlength.trans hserver)
  next := hnext
  ids := h.ids
  kept c hc := getElem?_of_prefix hpeers (h.kept c hc)
  peers := h.peers

theorem length_peers (net : Net) : net.numbers.peers.length = net.peers.length := by
  simp [numbers]

/-- The server is given a connection. -/
theorem Tallied.concat {id : UInt16} (h : net.Tallied server log)
    (hid : net.numbers.next[server]? = some id)
    (hpeers : net'.numbers.peers = net.numbers.peers ++ [⟨id⟩])
    (hnext : net'.numbers.next = net.numbers.next.set server (id + 1)) :
    net'.Tallied server (log ++ [⟨server, net.peers.length, ⟨id⟩⟩]) := by
  have hlt : server < net.numbers.next.length := (List.getElem?_eq_some_iff.mp hid).1
  have hnumber := h.next id hid
  exact {
    fresh := by
      rw [hnext, length_set]
      omega
    next := by
      intro id' hid'
      rw [hnext, getElem?_set_self hlt] at hid'
      cases hid'
      rw [length_append, length_singleton, numberAfter_succ, ← hnumber]
    ids := by
      simp [h.ids, hnumber, List.range_succ]
    kept := by
      rw [hpeers]
      simp only [mem_append, List.mem_singleton]
      rintro c (hc | rfl)
      · exact getElem?_of_prefix (prefix_append _ _) (h.kept c hc)
      · rw [← length_peers, getElem?_concat_length]
    peers := by
      rw [← concat_eq_append, map_concat]
      refine List.Nodup.concat ?_ h.peers
      simp only [List.mem_map, not_exists, not_and]
      intro c hc heq
      have hlt := (List.getElem?_eq_some_iff.mp (h.kept c hc)).1
      rw [length_peers] at hlt
      omega }

/-- The connections of a server stay numbered in their order, whatever happens. -/
theorem Tallied.happen (h : net.Tallied server log) (ha : net.happen a = some net') :
    net'.Tallied server (log ++ (net.served a).filter (·.server == server)) := by
  cases happen_counts ha with
  | aside hserved hpeers hnext =>
    rw [hserved, filter_nil, append_nil]
    exact h.mono hpeers (by rw [hnext]) fun id hid => h.next id (hnext ▸ hid)
  | server hserved hpeers hnext =>
    rw [hserved, filter_nil, append_nil]
    refine h.mono (by rw [hpeers]) (by simp [hnext]) fun id hid => ?_
    rw [hnext] at hid
    rcases Nat.lt_trichotomy server net.numbers.next.length with hlt | rfl | hgt
    · rw [getElem?_append_left hlt] at hid
      exact h.next id hid
    · -- The new server was given nothing yet.
      rw [getElem?_concat_length] at hid
      cases hid
      rw [h.fresh le_rfl]
      rfl
    · rw [getElem?_eq_none (by simpa using hgt)] at hid
      contradiction
  | serve id hid hserved hpeers hnext =>
    rw [hserved]
    by_cases hserver : net.servers.length - 1 = server
    · rw [hserver] at hid hnext ⊢
      rw [List.filter_cons_of_pos (by simp), filter_nil]
      exact h.concat hid hpeers hnext
    · rw [List.filter_cons_of_neg (by simpa using hserver), filter_nil, append_nil]
      have hmore : net.numbers.peers <+: net'.numbers.peers := hpeers ▸ prefix_append _ _
      refine h.mono hmore (by rw [hnext, length_set]) fun id' hid' => ?_
      rw [hnext, getElem?_set_ne hserver] at hid'
      exact h.next id' hid'

/-- The tally is right after every run. -/
theorem tallied_of_happens (server : Nat)
    (hrun : ({ host } : Net).happens happenings = some net) :
    net.Tallied server (({ host } : Net).servedBy server happenings) := by
  refine happens_induction (P := fun happenings net =>
    net.Tallied server (({ host } : Net).servedBy server happenings))
    (tallied_empty host server) ?_ hrun
  intro happenings a net₁ net₂ hrun h ha
  rw [servedBy_concat hrun]
  exact h.happen ha

/-- The numbers of the connections that a server was given, in their order, in a net where any
number of them are closed by now. -/
structure NumberedInOrder (log : List Served) (net : Net) : Prop where
  /-- The number of a connection is its place in the order of all, counted in two bytes. -/
  place : ∀ i c, log[i]? = some c → c.id.val.toNat = (i + 1) % 2 ^ 16
  /-- Every connection has a peer of its own, which has the number from then on. -/
  peers : (log.map (·.peer)).Nodup
  kept : ∀ c ∈ log, ∃ p, net.peers[c.peer]? = some p ∧ p.connection.id = c.id
  /-- Two connections have one number exactly if their places differ by a multiple of `2 ^ 16`. -/
  same : ∀ i j c d, log[i]? = some c → log[j]? = some d → i ≤ j →
    (c.id = d.id ↔ 2 ^ 16 ∣ j - i)
  /-- The number of clients is given exactly to those whose place is a multiple of `2 ^ 16`. -/
  zero : ∀ i c, log[i]? = some c → (c.id = ⟨0⟩ ↔ 2 ^ 16 ∣ i + 1)
  /-- So the first connections have numbers of their own, and no number of clients. -/
  early : log.length < 2 ^ 16 → (log.map (·.id)).Nodup ∧ ∀ c ∈ log, c.id ≠ ⟨0⟩

/-- A connection has the number of its place. -/
theorem Tallied.id_eq (h : net.Tallied server log) {i : Nat} {c : Served}
    (hc : log[i]? = some c) : c.id = numberAfter i := by
  obtain ⟨hlt, rfl⟩ := List.getElem?_eq_some_iff.mp hc
  have hids : (log.map (·.id))[i]? = some log[i].id := by
    rw [getElem?_map, hc]
    rfl
  rw [h.ids] at hids
  simpa [hlt, eq_comm] using hids

/-- So connections are numbered in order. -/
theorem Tallied.inOrder (h : net.Tallied server log) : net.NumberedInOrder log where
  place i c hc := by rw [h.id_eq hc, toNat_numberAfter]
  peers := h.peers
  kept c hc := by simpa [numbers] using h.kept c hc
  same i j c d hc hd hij := by rw [h.id_eq hc, h.id_eq hd, numberAfter_eq_iff hij]
  zero i c hc := by rw [h.id_eq hc, numberAfter_eq_zero_iff]
  early hlength := by
    refine ⟨h.ids ▸ nodup_numberAfter hlength.le, fun c hc hzero => ?_⟩
    obtain ⟨i, hi⟩ := mem_iff_getElem?.mp hc
    have hlt := (List.getElem?_eq_some_iff.mp hi).1
    rw [h.id_eq hi, numberAfter_eq_zero_iff] at hzero
    have := Nat.le_of_dvd (by omega) hzero
    omega

/-- In every run from the start, the connections of a server are numbered in their order, whichever
of them are closed in between and whatever else happens. -/
theorem connections_numbered (server : Nat)
    (hrun : ({ host } : Net).happens happenings = some net) :
    net.NumberedInOrder (({ host } : Net).servedBy server happenings) :=
  (tallied_of_happens server hrun).inOrder

/-- A host without methods. -/
def bareHost : Host where
  registry := { serving := true }

/-- A server is given a connection, which is closed from the other side, and then another one. -/
def comeAndGo : List Happening :=
  [.addServer 1, .links [.memory, .memory], .serve 0,
    .links [Link.memory.dropSending .right, .memory], .go 1, .serve 2]

/-- The numbers of two connections, of which the first is closed by then. -/
theorem connections_numbered_comeAndGo :
    ∃ net : Net, ({ host := bareHost } : Net).happens comeAndGo = some net ∧
      net.peers.map (·.connection.closed) = [true, false] ∧
      ({ host := bareHost } : Net).servedBy 0 comeAndGo = [⟨0, 0, ⟨1⟩⟩, ⟨0, 1, ⟨2⟩⟩] ∧
      net.NumberedInOrder (({ host := bareHost } : Net).servedBy 0 comeAndGo) := by
  have hclosed : (({ host := bareHost } : Net).happens comeAndGo).map
      (·.peers.map (·.connection.closed)) = some [true, false] := by decide +kernel
  obtain ⟨net, hrun, hpeers⟩ := Option.map_eq_some_iff.mp hclosed
  exact ⟨net, hrun, hpeers, by decide +kernel, connections_numbered 0 hrun⟩

/-! ## A crowd of connections -/

/-- A server is given the connections at the left ends of `n` out of `room` links. -/
def crowd (room n : Nat) : List Happening :=
  [.addServer 1, .links (List.replicate room .memory)] ++
    (List.range n).map fun k => .serve (2 * k)

/-- The peer of a connection that the server of a crowd was given. -/
def crowdPeer (k : Nat) : Peer where
  connection := { id := numberAfter k }
  endpoint := 2 * k
  outbound := .ofCapacity 256
  inbound := .ofCapacity 256
  held := false

theorem id_crowdPeer (k : Nat) : (crowdPeer k).connection.id = numberAfter k := rfl

/-- A crowd, with the links that are still free. -/
structure Crowded (room n : Nat) (net : Net) : Prop where
  next : net.numbers.next = [(numberAfter n).val]
  peers : net.peers = (List.range n).map crowdPeer
  links : ∀ k, n ≤ k → k < room → net.links[k]? = some .memory

/-- There is a free end for the next connection. -/
theorem Crowded.isFree {room n : Nat} (h : net.Crowded room n) (hroom : n < room) :
    net.isFree (2 * n) = true := by
  have hlink : linkOf (2 * n) = n := by simp [linkOf]
  have hpeers : net.peers.any (·.endpoint == 2 * n) = false := by
    rw [h.peers, List.any_map, List.any_eq_false]
    intro k hk
    have hne : 2 * k ≠ 2 * n := by
      have := List.mem_range.mp hk
      omega
    simpa [crowdPeer] using hne
  simp only [Net.isFree, hlink, h.links n le_rfl hroom, hpeers, Bool.not_false, Bool.and_true]
  cases sideOf (2 * n) <;> rfl

theorem Crowded.one_server {room n : Nat} (h : net.Crowded room n) :
    ∃ s, net.servers = [s] ∧ s.nextConnection = (numberAfter n).val :=
  map_eq_singleton_iff.mp h.next

/-- One more connection is served. -/
theorem Crowded.serve {room n : Nat} (h : net.Crowded room n) (hroom : n < room) :
    ∃ net', net.serve (2 * n) = .ok (numberAfter n, net') ∧ net'.Crowded room (n + 1) := by
  obtain ⟨s, hservers, hs⟩ := h.one_server
  simp only [Net.serve, hservers, length_singleton, Nat.sub_self, getElem?_cons_zero,
    h.isFree hroom, if_true]
  refine ⟨_, by rw [Server.connect, hs], ?_⟩
  exact {
    next := by
      simp [numbers, startPeer, spawn, changeLink, numberAfter_succ]
    peers := by
      simp [startPeer, spawn, changeLink, h.peers, List.range_succ, crowdPeer]
    links := by
      intro k hk hkroom
      have hlink : linkOf (2 * n) ≠ k := by
        rw [linkOf]
        omega
      simp only [startPeer, spawn, changeLink, getElem?_modify_ne _ _ hlink]
      exact h.links k (Nat.le_of_succ_le hk) hkroom }

/-- It is noted with its place and number. -/
theorem Crowded.served {room n : Nat} (h : net.Crowded room n)
    (hserve : net.serve (2 * n) = .ok (numberAfter n, net')) :
    net.served (.serve (2 * n)) = [⟨0, n, numberAfter n⟩] := by
  obtain ⟨s, hservers, -⟩ := h.one_server
  have hpeers : net.peers.length = n := by rw [h.peers, length_map, length_range]
  simp only [Net.served, hserve, hservers, hpeers, length_singleton, Nat.sub_self]

theorem crowd_succ (room n : Nat) : crowd room (n + 1) = crowd room n ++ [.serve (2 * n)] := by
  simp [crowd, List.range_succ]

/-- A server can be given any number of connections. -/
theorem exists_crowded {room n : Nat} (hroom : n ≤ room) :
    ∃ net, ({ host := bareHost } : Net).happens (crowd room n) = some net ∧ net.Crowded room n ∧
      ({ host := bareHost } : Net).servedBy 0 (crowd room n) =
        (List.range n).map fun k => ⟨0, k, numberAfter k⟩ := by
  induction n with
  | zero =>
    refine ⟨{ host := bareHost, servers := [.ofLimit 1], links := List.replicate room .memory },
      rfl, ⟨rfl, rfl, fun k _ hk => ?_⟩, rfl⟩
    rw [getElem?_replicate, if_pos hk]
  | succ n ih =>
    obtain ⟨net, hrun, h, hlog⟩ := ih (Nat.le_of_succ_le hroom)
    obtain ⟨net', hserve, h'⟩ := h.serve hroom
    have ha : net.happen (.serve (2 * n)) = some net' := by rw [happen, hserve]; rfl
    refine ⟨net', ?_, h', ?_⟩
    · rw [crowd_succ, happens_concat, hrun]
      exact ha
    · rw [crowd_succ, servedBy_concat hrun, hlog, h.served hserve, List.range_succ,
        map_append]
      rfl

/-- A server can be given any number of connections that are all open. -/
theorem exists_crowd (n : Nat) :
    ∃ net, ({ host := bareHost } : Net).happens (crowd n n) = some net ∧
      (({ host := bareHost } : Net).servedBy 0 (crowd n n)).map (·.peer) = List.range n ∧
      ∀ k < n, net.peers[k]? = some (crowdPeer k) := by
  obtain ⟨net, hrun, h, hlog⟩ := exists_crowded (le_refl n)
  refine ⟨net, hrun, ?_, fun k hk => ?_⟩
  · rw [hlog, List.map_map]
    exact List.map_id _
  · rw [h.peers, getElem?_map, getElem?_range hk]
    rfl

/-- After `2 ^ 16` more connections, a server gives the number of a connection that is still open
once more. One of the connections in between has the number of clients. -/
theorem number_taken_twice :
    ∃ (net : Net) (first zeroth again : Peer),
      ({ host := bareHost } : Net).happens (crowd (2 ^ 16 + 1) (2 ^ 16 + 1)) = some net ∧
      (({ host := bareHost } : Net).servedBy 0 (crowd (2 ^ 16 + 1) (2 ^ 16 + 1))).map (·.peer) =
        List.range (2 ^ 16 + 1) ∧
      net.peers[0]? = some first ∧ net.peers[2 ^ 16 - 1]? = some zeroth ∧
      net.peers[2 ^ 16]? = some again ∧
      first.connection.closed = false ∧ again.connection.closed = false ∧
      first.connection.id = again.connection.id ∧ zeroth.connection.id = ⟨0⟩ := by
  obtain ⟨net, hrun, hserved, hpeer⟩ := exists_crowd (2 ^ 16 + 1)
  refine ⟨net, crowdPeer 0, crowdPeer (2 ^ 16 - 1), crowdPeer (2 ^ 16), hrun, hserved,
    hpeer 0 (by omega), hpeer _ (by omega), hpeer _ (by omega), rfl, rfl, ?_, ?_⟩
  · rw [id_crowdPeer, id_crowdPeer, numberAfter_eq_iff (Nat.zero_le _), Nat.sub_zero]
  · rw [id_crowdPeer, numberAfter_eq_zero_iff]
    decide

end Net

end Remoting
