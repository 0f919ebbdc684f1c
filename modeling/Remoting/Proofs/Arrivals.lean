import Remoting.Proofs.Endings

/-!
# Remoting.Proofs.Arrivals

What comes in at a peer. One task reads there and at most one takes what has come in
(`Net.Posted`); nobody else touches it, unless the peer was started by itself. So the messages that
came in for a client are those that have been routed, the one that is being routed, and those that
wait, in this order (`Net.Brings`).
-/

namespace Remoting

open List Option

variable {c : Nat} {frame : Frame} {job : Job}

/-- What one task at a peer has to itself. -/
inductive Post where
  /-- Reading what comes in. -/
  | reading
  /-- Taking what has come in. -/
  | taking
  deriving DecidableEq, Repr

def Duty.post? : Duty → Option Post
  | .reader => some .reading
  | .router _ | .server _ => some .taking
  | _ => none

/-- A duty with a post is kept. -/
theorem Duty.Becomes.eq_of_post? {duty duty' : Duty} (h : duty.Becomes duty')
    (hpost : duty'.post?.isSome = true) : duty' = duty := by
  obtain heq | ⟨rfl, -⟩ := h
  · exact heq
  · contradiction

/-- The message that a task is about to route to a client. -/
def Job.routes? (c : Nat) : Job → Option Frame
  | .dispatch client frame => if client = c then some frame else none
  | _ => none

theorem Job.eq_dispatch_of_routes? (h : job.routes? c = some frame) : job = .dispatch c frame := by
  unfold Job.routes? at h
  split at h
  · simpa using h
  · contradiction

/-- Who has a message of a client to route is the one that routes for it. -/
theorem Job.duty_of_routes? (h : job.routes? c = some frame) : job.duty = .router c := by
  rw [eq_dispatch_of_routes? h, Job.duty]

/-- What a task has in hand after a step, if it can be told from the task. -/
def Next.handed? {β : Type} (f : Task → Option β) (t : Task) : Next → Option β
  | .job next => f { t with job := next }
  | .waiting => f t
  | .ended _ => none

/-- The messages that were routed. -/
def routedFrames (actions : List SignalAction) : List Frame := actions.filterMap (·.frame?)

theorem routedFrames_append (actions more : List SignalAction) :
    routedFrames (actions ++ more) = routedFrames actions ++ routedFrames more :=
  filterMap_append

namespace Net

variable {net net' : Net} {a : Happening} {happenings : List Happening} {host : Host} {t u : Task}
  {signals : List (Nat × SignalAction)} {next : Next} {k : Nat}

/-! ## Posts -/

/-- Who has a post has it at a peer that is there, and nobody else has it. What has come in at a
peer that was started by itself is not taken by tasks, and what has come in for a client is taken by
the task that routes it. -/
structure Posted (net : Net) : Prop where
  placed : ∀ t ∈ net.tasks, t.job.duty.post?.isSome = true → t.peer < net.peers.length
  single : ∀ t ∈ net.tasks, ∀ u ∈ net.tasks, t.peer = u.peer →
    t.job.duty.post? = u.job.duty.post? → t.job.duty.post?.isSome = true → t.id = u.id
  own : ∀ k ∈ net.ownPeers, k < net.peers.length ∧
    ∀ t ∈ net.tasks, t.peer = k → t.job.duty.post? ≠ some .taking
  clients : ∀ c k, net.peerOf c = some k → k < net.peers.length ∧ k ∉ net.ownPeers ∧
    ∀ t ∈ net.tasks, t.peer = k → t.job.duty.post? = some .taking → t.job.duty = .router c

/-- Tasks keep their posts, and new posts are those at a new peer. -/
theorem Posted.extend (h : net.Posted) (new : List Task)
    (hlength : net.peers.length ≤ net'.peers.length)
    (htasks : ∀ u ∈ net'.tasks, u.job.duty.post?.isSome = true →
      (∃ t ∈ net.tasks, t.id = u.id ∧ t.peer = u.peer ∧ t.job.duty = u.job.duty) ∨ u ∈ new)
    (hnew : ∀ u ∈ new, u.peer = net.peers.length ∧ net.peers.length < net'.peers.length)
    (hsingle : ∀ t ∈ new, ∀ u ∈ new, t.job.duty.post? = u.job.duty.post? → t.id = u.id)
    (hown : ∀ k ∈ net'.ownPeers, k ∈ net.ownPeers ∨
      (k = net.peers.length ∧ k < net'.peers.length ∧
        ∀ u ∈ new, u.job.duty.post? ≠ some .taking))
    (hclients : ∀ c k, net'.peerOf c = some k → net.peerOf c = some k ∨
      (k = net.peers.length ∧ k < net'.peers.length ∧ k ∉ net'.ownPeers ∧
        ∀ u ∈ new, u.job.duty.post? = some .taking → u.job.duty = .router c)) :
    net'.Posted := by
  have hold {t u : Task} (ht : t ∈ net.tasks) (hpeer : t.peer = u.peer)
      (hduty : t.job.duty = u.job.duty) (hpost : u.job.duty.post?.isSome = true) :
      u.peer < net.peers.length := hpeer ▸ h.placed t ht (hduty ▸ hpost)
  constructor
  · intro u hu hpost
    obtain ⟨t, ht, -, hpeer, hduty⟩ | hu := htasks u hu hpost
    · exact (hold ht hpeer hduty hpost).trans_le hlength
    · have hlt := hnew u hu
      omega
  · intro u hu v hv hpeers hposts hpost
    have hpost' := hposts ▸ hpost
    obtain ⟨t, ht, htid, htpeer, htduty⟩ | hunew := htasks u hu hpost
    · obtain ⟨w, hw, hwid, hwpeer, hwduty⟩ | hvnew := htasks v hv hpost'
      · rw [← htid, ← hwid]
        exact h.single t ht w hw (by rw [htpeer, hwpeer, hpeers]) (by rw [htduty, hwduty, hposts])
          (htduty ▸ hpost)
      · have hlt := hold ht htpeer htduty hpost
        have heq := (hnew v hvnew).1
        omega
    · obtain ⟨w, hw, -, hwpeer, hwduty⟩ | hvnew := htasks v hv hpost'
      · have hlt := hold hw hwpeer hwduty hpost'
        have heq := (hnew u hunew).1
        omega
      · exact hsingle u hunew v hvnew hposts
  · intro k hk
    obtain hk | ⟨hk, hlt, hnone⟩ := hown k hk
    · obtain ⟨hlt, hnone⟩ := h.own k hk
      refine ⟨hlt.trans_le hlength, fun u hu hpeer htaking => ?_⟩
      obtain ⟨t, ht, -, htpeer, htduty⟩ | hunew := htasks u hu (by simp [htaking])
      · exact hnone t ht (htpeer.trans hpeer) (by rw [htduty, htaking])
      · have heq := (hnew u hunew).1
        omega
    · refine ⟨hlt, fun u hu hpeer htaking => ?_⟩
      obtain ⟨t, ht, -, htpeer, htduty⟩ | hunew := htasks u hu (by simp [htaking])
      · have hlt := hold ht htpeer htduty (by simp [htaking])
        omega
      · exact hnone u hunew htaking
  · intro c k hc
    obtain hc | ⟨hk, hlt, hnone, hrouter⟩ := hclients c k hc
    · obtain ⟨hlt, hnone, hrouter⟩ := h.clients c k hc
      refine ⟨hlt.trans_le hlength, fun hk => ?_, fun u hu hpeer htaking => ?_⟩
      · obtain hk | ⟨hk, -⟩ := hown k hk
        · exact hnone hk
        · omega
      · obtain ⟨t, ht, -, htpeer, htduty⟩ | hunew := htasks u hu (by simp [htaking])
        · exact htduty ▸ hrouter t ht (htpeer.trans hpeer) (by rw [htduty, htaking])
        · have heq := (hnew u hunew).1
          omega
    · refine ⟨hlt, hnone, fun u hu hpeer htaking => ?_⟩
      obtain ⟨t, ht, -, htpeer, htduty⟩ | hunew := htasks u hu (by simp [htaking])
      · have hlt := hold ht htpeer htduty (by simp [htaking])
        omega
      · exact hrouter u hunew htaking

/-- Posts stay taken where no new task has one. -/
theorem Posted.keep (h : net.Posted) (hlength : net'.peers.length = net.peers.length)
    (htasks : ∀ u ∈ net'.tasks, u.job.duty.post?.isSome = true →
      ∃ t ∈ net.tasks, t.id = u.id ∧ t.peer = u.peer ∧ t.job.duty = u.job.duty)
    (hown : net'.ownPeers = net.ownPeers) (hpeerOf : ∀ c, net'.peerOf c = net.peerOf c) :
    net'.Posted :=
  h.extend [] hlength.ge (fun u hu hpost => .inl (htasks u hu hpost)) (by simp) (by simp)
    (fun k hk => .inl (hown ▸ hk)) (fun c k hc => .inl (hpeerOf c ▸ hc))

/-- Tasks are started without posts, and clients only change their subscriptions. -/
theorem Posted.grow (h : net.Posted) (signals : List (Nat × SignalAction))
    (hclients : net'.clients = (net.changeBoards signals).clients)
    (hlength : net'.peers.length = net.peers.length) (hown : net'.ownPeers = net.ownPeers)
    (htasks : ∀ u ∈ net'.tasks, u ∈ net.tasks ∨ u.job.duty.post? = none) : net'.Posted := by
  refine h.keep hlength (fun u hu hpost => ?_) hown fun c => ?_
  · obtain hu | hnone := htasks u hu
    · exact ⟨u, hu, rfl, rfl, rfl⟩
    · simp [hnone] at hpost
  · rw [peerOf_congr hclients, peerOf_changeBoards]

/-- The task that reads at a new peer. -/
def newReader (net : Net) : Task := ⟨net.nextTask + 1, net.peers.length, .read, none⟩

/-- Of the tasks of a new peer, only the reader has a post. -/
theorem eq_newReader_of_post? {endpoint : Nat} {settings : PeerSettings} {held : Bool}
    (hu : u ∈ (net.startPeer endpoint settings held).2.tasks)
    (hpost : u.job.duty.post?.isSome = true) : u ∈ net.tasks ∨ u = net.newReader := by
  obtain hu | rfl := mem_tasks_spawn.mp hu
  · obtain hu | rfl := mem_tasks_spawn.mp hu
    · exact .inl hu
    · contradiction
  · exact .inr rfl

theorem length_peers_startPeer (net : Net) (endpoint : Nat) (settings : PeerSettings)
    (held : Bool) :
    (net.startPeer endpoint settings held).2.peers.length = net.peers.length + 1 := by
  simp [startPeer, Net.spawn]

/-- Posts stay taken by one task each when something happens from outside. -/
theorem Posted.change (h : net.Posted) (hchange : net.Change signals net') : net'.Posted := by
  induction hchange with
  | aside halike hpeers =>
    exact h.grow [] halike.clients halike.peers halike.ownPeers fun u hu => .inl (halike.tasks ▸ hu)
  | @spawn net peer job ticket hduty =>
    refine h.grow [] rfl rfl rfl fun u hu => (mem_tasks_spawn.mp hu).imp_right ?_
    rintro rfl
    simp [hduty, Duty.post?]
  | report report hreport => exact h.grow [] rfl rfl rfl fun u hu => .inl hu
  | @join net endpoint settings =>
    -- The reader of a new peer has a post, its writer has none.
    have hlength := net.length_peers_startPeer endpoint settings true
    refine h.extend [net.newReader] (hlength ▸ Nat.le_succ _) (fun u hu hpost => ?_)
      (by simp [newReader, hlength]) (by simp) (fun k hk => ?_) fun c k hc => .inl hc
    · obtain hu | rfl := eq_newReader_of_post? hu hpost
      · exact .inl ⟨u, hu, rfl, rfl, rfl⟩
      · exact .inr (List.mem_singleton_self _)
    · obtain hk | hk := mem_append.mp hk
      · exact .inl hk
      · obtain rfl := List.mem_singleton.mp hk
        exact .inr ⟨rfl, by simp [hlength], by simp [newReader, Job.duty, Duty.post?]⟩
  | @serve net endpoint settings server =>
    have hlength := net.length_peers_startPeer endpoint settings false
    refine h.extend
      [net.newReader, ⟨net.nextTask + 2, net.peers.length, .serve server, none⟩]
      (hlength ▸ Nat.le_succ _) (fun u hu hpost => ?_) (by simp [newReader, Net.spawn, hlength])
      (by simp [newReader, Job.duty, Duty.post?]) (fun k hk => .inl hk) fun c k hc => .inl hc
    obtain hu | rfl := mem_tasks_spawn.mp hu
    · obtain hu | rfl := eq_newReader_of_post? hu hpost
      · exact .inl ⟨u, hu, rfl, rfl, rfl⟩
      · exact .inr List.mem_cons_self
    · exact .inr (List.mem_cons_of_mem _ (List.mem_singleton_self _))
  | @client net endpoint settings =>
    have hlength := net.length_peers_startPeer endpoint {} true
    refine h.extend
      [net.newReader, ⟨net.nextTask + 2, net.peers.length, .route net.clients.length, none⟩]
      (hlength ▸ Nat.le_succ _) (fun u hu hpost => ?_) (by simp [newReader, Net.spawn, hlength])
      (by simp [newReader, Job.duty, Duty.post?]) (fun k hk => .inl hk) (fun c k hc => ?_)
    · obtain hu | rfl := mem_tasks_spawn.mp hu
      · obtain hu | rfl := eq_newReader_of_post? hu hpost
        · exact .inl ⟨u, hu, rfl, rfl, rfl⟩
        · exact .inr List.mem_cons_self
      · exact .inr (List.mem_cons_of_mem _ (List.mem_singleton_self _))
    · obtain ⟨client, hclient, rfl⟩ := map_eq_some_iff.mp hc
      obtain hlt | hle := Nat.lt_or_ge c net.clients.length
      · rw [Net.spawn, getElem?_append_left hlt] at hclient
        exact .inl (by rw [peerOf, hclient, map_some])
      · -- The client is new, and so is its peer.
        have hc : c = net.clients.length := by
          have hlt := (List.getElem?_eq_some_iff.mp hclient).1
          simp only [Net.spawn, length_append, length_singleton] at hlt
          omega
        subst hc
        obtain rfl : _ = client := by simpa [Net.spawn] using hclient
        refine .inr ⟨rfl, by simp [Net.spawn, hlength], fun hk => ?_, ?_⟩
        · have hlt := (h.own _ hk).1
          simp at hlt
        · simp [newReader, Job.duty, Duty.post?]
  | trans hfirst hsecond ihfirst ihsecond => exact ihsecond (ihfirst h)
  | @close net c client hclient =>
    refine h.grow [(c, .unrouteAll)] rfl rfl rfl fun u hu => (mem_tasks_spawn.mp hu).imp_right ?_
    rintro rfl
    rfl
  | @unsubscribe net name s hs c peer frame =>
    refine h.grow [(c, .unroute s.handler)] rfl rfl rfl fun u hu =>
      (mem_tasks_spawn.mp hu).imp_right ?_
    rintro rfl
    rfl
  | @drop net name s hs =>
    exact h.grow [(s.client, .discard s.handler)] rfl rfl rfl fun u hu => .inl hu
  | @use net n held hheld reply =>
    exact h.grow [(held.client, .answer held.event reply)] rfl rfl rfl fun u hu => .inl hu
  | subscribe hclient =>
    have hclients := clients_changeBoard_of_getElem? hclient fun board => board.subscribe.2
    refine h.grow [(_, .subscribe)] hclients rfl rfl fun u hu =>
      (mem_tasks_spawn.mp hu).imp_right ?_
    rintro rfl
    rfl
  | @next net name s client hs hclient =>
    have hclients := clients_changeBoard_of_getElem? hclient fun board => (board.next s.handler).2
    exact h.grow [(_, .next _)] hclients rfl rfl fun u hu => .inl hu
  | @record net =>
    have hclients := clients_foldl_record net.sortedReports { net with reports := [] }
    have hcleared : ({ net with reports := [] } : Net).clients = net.clients := rfl
    refine h.grow _ (hclients.trans (clients_changeBoards_congr hcleared _)) ?_ ?_ fun u hu => ?_
    · rw [takeReports_eq]
    · rw [takeReports_eq]
    · rw [takeReports_eq] at hu
      exact .inl hu

/-- A step hands no post on. -/
theorem Posted.step (h : net.Posted) (ht : t ∈ net.tasks) (hstep : net.step t = some (net', next)) :
    (net'.place t next).Posted := by
  have hdoes := step_does hstep
  refine h.keep ?_ (fun u hu hpost => ?_) ?_ fun c => ?_
  · rw [peers_place]
    exact hdoes.peers
  · obtain ⟨hu, -⟩ | ⟨job, rfl, rfl⟩ | ⟨rfl, rfl⟩ := mem_tasks_place.mp hu
    · obtain hu | hduty | ⟨client, slot, request, hjob⟩ := mem_tasks_step hstep hu
      · exact ⟨u, hu, rfl, rfl, rfl⟩
      · simp [hduty, Duty.post?] at hpost
      · simp [hjob, Job.duty, Duty.post?] at hpost
    · exact ⟨t, ht, rfl, rfl, ((hdoes.stays job rfl).eq_of_post? hpost).symm⟩
    · exact ⟨u, ht, rfl, rfl, rfl⟩
  · have hplace : (net'.place t next).ownPeers = net'.ownPeers := by cases next <;> rfl
    rw [hplace]
    exact hdoes.ownPeers
  · rw [peerOf_congr (clients_place net' t next), peerOf_step hstep]

/-- Whatever happens, posts are taken by one task each. -/
theorem Posted.happen (h : net.Posted) (ha : net.happen a = some net') : net'.Posted := by
  obtain ⟨t, net₁, next, -, ht, -, hstep, rfl, -⟩ | ⟨-, hchange⟩ := happen_cases ha
  · exact h.step ht hstep
  · exact h.change hchange

/-! ## What comes in -/

/-- What has come in at a peer and has not been taken. -/
def inboundAt (net : Net) (k : Nat) : List Frame :=
  match net.peers[k]? with
  | some p => p.inbound.items
  | none => []

/-- What comes in at a peer with a happening. -/
def arrivals (k : Nat) : Net → Happening → List Frame := gained (·.inboundAt k)

/-- Everything that came in at a peer in a run. -/
def arrived (net : Net) (happenings : List Happening) (k : Nat) : List Frame :=
  net.trace (arrivals k) happenings

theorem inboundAt_eq {p : Peer} (hp : net.peers[k]? = some p) :
    net.inboundAt k = p.inbound.items := by
  rw [inboundAt, hp]

theorem inboundAt_of_le (h : net.peers.length ≤ k) : net.inboundAt k = [] := by
  rw [inboundAt, List.getElem?_eq_none_iff.mpr h]

/-- What arrives is what is new behind what had come in. -/
theorem arrivals_eq (ha : net.happen a = some net') (k : Nat) :
    arrivals k net a = (net'.inboundAt k).drop (net.inboundAt k).length := gained_eq _ ha

/-- Nothing comes in when what has come in only gets less. -/
theorem arrivals_of_suffix (ha : net.happen a = some net')
    (h : net'.inboundAt k <:+ net.inboundAt k) : arrivals k net a = [] := gained_of_suffix ha h

/-- Nothing comes in from outside, and only what has come in at a peer that was started by itself is
taken from there. -/
theorem Change.inboundAt (h : net.Change signals net') (k : Nat) :
    net'.inboundAt k <:+ net.inboundAt k ∧
      (k ∉ net'.ownPeers → net'.inboundAt k = net.inboundAt k) := by
  have hsame {net₁ net₂ : Net} (heq : net₂.peers = net₁.peers) :
      net₂.inboundAt k <:+ net₁.inboundAt k ∧
        (k ∉ net₂.ownPeers → net₂.inboundAt k = net₁.inboundAt k) := by
    simp [Net.inboundAt, heq]
  have hjoin {net₁ net₂ : Net} {p : Peer} (heq : net₂.peers = net₁.peers ++ [p])
      (hp : p.inbound.items = []) : net₂.inboundAt k <:+ net₁.inboundAt k ∧
        (k ∉ net₂.ownPeers → net₂.inboundAt k = net₁.inboundAt k) := by
    have hk : net₂.inboundAt k = net₁.inboundAt k := by
      obtain hlt | hle := Nat.lt_or_ge k net₁.peers.length
      · simp [Net.inboundAt, heq, getElem?_append_left hlt]
      · rw [inboundAt_of_le hle, Net.inboundAt, heq, getElem?_append_right hle]
        cases k - net₁.peers.length <;> simp [hp]
    simp [hk]
  induction h with
  | @aside net net' halike hpeers =>
    obtain hlt | hle := Nat.lt_or_ge k net'.peers.length
    · obtain ⟨p, hp, hhandled⟩ := hpeers k _ (getElem?_eq_getElem hlt)
      rw [inboundAt_eq hp, inboundAt_eq (getElem?_eq_getElem hlt), halike.ownPeers]
      exact ⟨hhandled.inbound, hhandled.kept⟩
    · simp [inboundAt_of_le hle, inboundAt_of_le (halike.peers ▸ hle)]
  | join | serve | client => exact hjoin rfl rfl
  | trans hfirst hsecond ihfirst ihsecond =>
    exact ⟨ihsecond.1.trans ihfirst.1, fun hk =>
      (ihsecond.2 hk).trans (ihfirst.2 fun hk' => hk (hsecond.mem_ownPeers hk'))⟩
  | @record net => exact hsame (by rw [takeReports_eq])
  | spawn | report | close | subscribe | unsubscribe | drop | next | use => exact hsame rfl

/-- What a step does to what has come in at a peer. -/
theorem inboundAt_step (hstep : net.step t = some (net', next)) (k : Nat) :
    (net'.place t next).inboundAt k = net.inboundAt k ∨
      (t.peer = k ∧ ∃ frame, t.job = .deliver frame ∧
        (net'.place t next).inboundAt k = net.inboundAt k ++ [frame]) ∨
      (t.peer = k ∧ ∃ frame, t.job.Takes frame next ∧
        net.inboundAt k = frame :: (net'.place t next).inboundAt k) := by
  obtain ⟨p, p', hp, hstepped, hp', hothers⟩ := step_peer hstep
  have hplace : (net'.place t next).inboundAt k = net'.inboundAt k := by
    rw [inboundAt, inboundAt, peers_place]
  rw [hplace]
  by_cases hk : t.peer = k
  · subst hk
    rw [inboundAt_eq hp, inboundAt_eq hp']
    simpa using hstepped.inbound
  · exact .inl (by rw [inboundAt, inboundAt, hothers k hk])

/-! ## What tasks have in hand -/

section Handed

variable {β : Type} {f : Task → Option β} {t : Task} {next : Next}

/-- What tasks have in hand, if it can be told from each of them. -/
def handed (f : Task → Option β) (net : Net) : List β := net.tasks.filterMap f

/-- The others have nothing in hand. -/
theorem filterMap_others (honly : ∀ u ∈ net.tasks, u.id ≠ t.id → f u = none) :
    (net.tasks.filter (·.id != t.id)).filterMap f = [] := by
  rw [filterMap_eq_nil_iff]
  intro u hu
  rw [List.mem_filter] at hu
  exact honly u hu.1 (by simpa using hu.2)

/-- Where only one task has anything in hand, that is what it has. -/
theorem Numbered.handed_eq (h : net.Numbered) (ht : t ∈ net.tasks)
    (honly : ∀ u ∈ net.tasks, u.id ≠ t.id → f u = none) : net.handed f = (f t).toList := by
  have hperm := (perm_cons_filter h.nodup ht).filterMap f
  rw [List.filterMap_cons, filterMap_others honly] at hperm
  cases hf : f t <;> simpa [hf, handed] using hperm

section Stepping

variable (hstep : net.step t = some (net', next))
  (hnew : ∀ u : Task, net.nextTask ≤ u.id → (u.job.duty = .other ∨
    ∃ client slot request, u.job = .answer client slot request) → f u = none)
include hstep hnew

/-- After a step, others have in hand what they had before. -/
theorem handed_step :
    (net'.place t next).handed f =
      (net.tasks.filter (·.id != t.id)).filterMap f ++ (next.handed? f t).toList := by
  obtain ⟨new, htasks, -, hids, hduties⟩ := (step_does hstep).tasks
  have hnone : (new.filter (·.id != t.id)).filterMap f = [] := by
    rw [filterMap_eq_nil_iff]
    intro u hu
    have hmem := List.mem_of_mem_filter hu
    exact hnew u (id_of_mem_new hids hmem).1 (hduties u hmem).2
  have hrest : (net'.tasks.filter (·.id != t.id)).filterMap f =
      (net.tasks.filter (·.id != t.id)).filterMap f := by
    rw [htasks, filter_append, filterMap_append, hnone, append_nil]
  rw [← hrest]
  cases next with
  | job job => cases hf : f { t with job } <;> simp [handed, place, setJob, Next.handed?, hf]
  | waiting => cases hf : f t <;> simp [handed, place, setJob, Next.handed?, hf]
  | ended report => simp [handed, place, endTask, Next.handed?]

/-- Where only one task has anything in hand, its step decides what there is then. -/
theorem handed_step_of_only (honly : ∀ u ∈ net.tasks, u.id ≠ t.id → f u = none) :
    (net'.place t next).handed f = (next.handed? f t).toList := by
  rw [handed_step hstep hnew, filterMap_others honly, nil_append]

/-- A task that has nothing in hand changes nothing about what others have. -/
theorem Numbered.handed_step_of_none (h : net.Numbered) (ht : t ∈ net.tasks) (hnone : f t = none)
    (hnext : next.handed? f t = none) : (net'.place t next).handed f = net.handed f := by
  rw [handed_step hstep hnew, hnext, toList_none, append_nil, List.filterMap_filter, handed]
  refine filterMap_congr fun u hu => ?_
  by_cases hid : u.id = t.id
  · simp [h.eq_of_id ht hu hid, hnone]
  · simp [hid]

end Stepping

/-- What tasks have in hand is not changed from outside. -/
theorem Change.handed (h : net.Change signals net') (hnumbered : net.Numbered)
    (hnew : ∀ u : Task, net.nextTask ≤ u.id → net'.Starts u → f u = none) :
    net'.handed f = net.handed f := by
  obtain ⟨new, htasks, -, hids, -⟩ := h.grows
  have hnone : new.filterMap f = [] := by
    rw [filterMap_eq_nil_iff]
    intro u hu
    have hid := id_of_mem_new hids hu
    obtain hold | hstarts := h.starts (htasks ▸ mem_append_right _ hu)
    · have hlt := hnumbered.fresh u hold
      omega
    · exact hnew u hid.1 hstarts
  rw [Net.handed, htasks, filterMap_append, hnone, append_nil, Net.handed]

end Handed

/-! ## What comes in for a client -/

/-- The message to a client that is being routed. -/
def inHand (net : Net) (c : Nat) : List Frame := net.handed (·.job.routes? c)

/-- A step from routing a message is the one that routes it. -/
theorem routedFrames_stepSignals (c : Nat) (t : Task) (next : Next) :
    routedFrames (actionsAt c (stepSignals t next)) = (t.job.routes? c).toList := by
  have hended (report : Report) (duty : Duty) :
      routedFrames (actionsAt c (duty.signals report)) = [] := by
    rw [routedFrames, filterMap_eq_nil_iff]
    intro action haction
    obtain ⟨s, hs, heq⟩ := List.mem_filterMap.mp haction
    rw [ite_none_right_eq_some] at heq
    obtain rfl := some.inj heq.2
    exact (Duty.of_mem_signals hs).2
  by_cases hdispatch : ∃ client frame, t.job = .dispatch client frame
  · obtain ⟨client, frame, hjob⟩ := hdispatch
    by_cases hc : client = c <;>
      simp [stepSignals, hjob, Job.routes?, routedFrames, actionsAt, hc, SignalAction.frame?]
  · rw [stepSignals_eq fun client frame heq => hdispatch ⟨client, frame, heq⟩]
    have hroutes : t.job.routes? c = none := by
      cases hjob : t.job <;> simp_all [Job.routes?]
    rw [hroutes]
    cases next with
    | ended report => exact hended report _
    | job job | waiting => rfl

/-- Who comes to route a message has taken it from what has come in. -/
theorem step_to_dispatch (hstep : net.step t = some (net', .job (.dispatch c frame))) :
    t.job = .route c ∧ net.inboundAt t.peer = frame :: net'.inboundAt t.peer := by
  have hduty : t.job.duty = .router c := by
    obtain heq | ⟨heq, -⟩ := (step_does hstep).stays _ rfl
    · exact heq.symm
    · contradiction
  have hjob := eq_route_of_router hduty hstep (.inr ⟨frame, rfl⟩)
  obtain ⟨p, hp, hstep⟩ := bind_eq_some_iff.mp hstep
  simp only [hjob, stepRoute] at hstep
  split at hstep
  · next frame' inbound hpop =>
    obtain ⟨rfl, hnext⟩ := Prod.mk.inj (some.inj hstep)
    cases hnext
    have hp' := peers_changePeer hp fun p => { p with inbound }
    have hlt := (List.getElem?_eq_some_iff.mp hp).1
    refine ⟨hjob, ?_⟩
    rw [inboundAt_eq hp, inboundAt, hp', getElem?_set_self hlt, items_of_pop? hpop]
  · split at hstep <;> simp [stop] at hstep

/-- Who comes to have a message to route dispatches it next. -/
theorem eq_dispatch_of_next_routes? (hstep : net.step t = some (net', next))
    (h : next.handed? (·.job.routes? c) t = some frame) : next = .job (.dispatch c frame) := by
  cases next with
  | job job => exact congrArg Next.job (Job.eq_dispatch_of_routes? h)
  | waiting =>
    -- Routing a message does not wait for anything.
    obtain ⟨p, -, hstep⟩ := bind_eq_some_iff.mp hstep
    rw [Job.eq_dispatch_of_routes? h] at hstep
    obtain ⟨client, -, hstep⟩ := bind_eq_some_iff.mp hstep
    dsimp only at hstep
    split at hstep <;> simp [goOn] at hstep
  | ended report => contradiction

/-- Who takes a message that has come in has the post for that. -/
theorem post?_of_takes (h : job.Takes frame next) :
    job.duty.post? = some .taking := by
  obtain ⟨c, rfl, -⟩ | ⟨n, rfl, -⟩ := h <;> rfl

/-- What came in for a client is what has been routed, what is being routed, and what waits; at a
peer that is not there nothing came in. -/
structure Brings (arrived : Nat → List Frame) (history : Nat → List SignalAction) (net : Net) :
    Prop where
  absent : ∀ k, net.peers.length ≤ k → arrived k = []
  brought : ∀ c k, net.peerOf c = some k →
    arrived k = routedFrames (history c) ++ net.inHand c ++ net.inboundAt k

variable {came : Nat → List Frame} {history : Nat → List SignalAction}

/-- Two tasks that route the messages of one client are one. -/
theorem routes?_eq_none_of_ne (hrouted : net.Routed) (hposted : net.Posted) (ht : t ∈ net.tasks)
    (hduty : t.job.duty = .router c) (hu : u ∈ net.tasks) (hid : u.id ≠ t.id) :
    u.job.routes? c = none := by
  cases hroutes : u.job.routes? c with
  | none => rfl
  | some frame =>
    have hduty' := Job.duty_of_routes? hroutes
    have hpeer : u.peer = t.peer := some.inj
      ((hrouted.routers u hu c hduty').symm.trans (hrouted.routers t ht c hduty))
    exact absurd (hposted.single u hu t ht hpeer (by rw [hduty, hduty'])
      (by simp [hduty', Duty.post?])) hid

/-- Nobody who is started by a step has a message to route. -/
theorem routes?_eq_none_of_new
    (h : u.job.duty = .other ∨ ∃ client slot request, u.job = .answer client slot request) :
    u.job.routes? c = none := by
  obtain hduty | ⟨client, slot, request, hjob⟩ := h
  · cases hroutes : u.job.routes? c with
    | none => rfl
    | some frame => simp [Job.duty_of_routes? hroutes] at hduty
  · simp [hjob, Job.routes?]

/-- A step moves at most one message on: in, to the router, or out of its hands. -/
theorem Brings.step (h : net.Brings came history) (hnumbered : net.Numbered) (hrouted : net.Routed)
    (hposted : net.Posted) (ha : net.happen a = some (net'.place t next)) (ht : t ∈ net.tasks)
    (hstep : net.step t = some (net', next)) (hsignals : net.signals a = stepSignals t next) :
    (net'.place t next).Brings (fun k => came k ++ arrivals k net a)
      fun c => history c ++ net.actionsOf c a := by
  have hdoes := step_does hstep
  have hlength : (net'.place t next).peers.length = net.peers.length := by
    rw [peers_place]
    exact hdoes.peers
  constructor
  · intro k hle
    rw [h.absent k (by omega), nil_append, arrivals_of_suffix ha]
    simp [inboundAt_of_le hle]
  · intro c k hc
    rw [peerOf_congr (clients_place net' t next), peerOf_step hstep] at hc
    have hlaw := h.brought c k hc
    have hactions : routedFrames (net.actionsOf c a) = (t.job.routes? c).toList := by
      rw [actionsOf, if_pos (lt_of_peerOf hc), hsignals, routedFrames_stepSignals]
    have hinbound := inboundAt_step hstep k
    rw [routedFrames_append, hactions]
    by_cases hduty : t.job.duty = .router c
    · -- The task that routes the messages of the client goes on.
      have hpeer : t.peer = k := some.inj ((hrouted.routers t ht c hduty).symm.trans hc)
      have honly (u : Task) (hu : u ∈ net.tasks) (hid : u.id ≠ t.id) :=
        routes?_eq_none_of_ne hrouted hposted ht hduty hu hid
      have hbefore : net.inHand c = (t.job.routes? c).toList := hnumbered.handed_eq ht honly
      rw [inHand, handed_step_of_only hstep (fun _ _ => routes?_eq_none_of_new) honly]
      cases hroutes : next.handed? (·.job.routes? c) t with
      | some frame =>
        obtain rfl := eq_dispatch_of_next_routes? hstep hroutes
        obtain ⟨hjob, htaken⟩ := step_to_dispatch hstep
        have hplace : (net'.place t (.job (.dispatch c frame))).inboundAt k = net'.inboundAt k := rfl
        rw [hpeer] at htaken
        rw [arrivals_of_suffix ha ⟨[frame], by rw [hplace, htaken]; rfl⟩, hlaw, hbefore, hjob,
          hplace, htaken]
        simp [Job.routes?]
      | none =>
        have hsame : (net'.place t next).inboundAt k = net.inboundAt k := by
          obtain hsame | ⟨-, frame, hjob, -⟩ | ⟨-, frame, htakes, -⟩ := hinbound
          · exact hsame
          · simp [hjob, Job.duty] at hduty
          · obtain ⟨c', hjob, rfl⟩ | ⟨n, hjob, -⟩ := htakes
            · obtain rfl : c' = c := by simpa [hjob, Job.duty] using hduty
              simp [Next.handed?, Job.routes?] at hroutes
            · simp [hjob, Job.duty] at hduty
        rw [arrivals_of_suffix ha (by rw [hsame]), hlaw, hbefore, hsame]
        simp
    · -- Another task goes on, which can bring a message in but not take one out.
      have hnone : t.job.routes? c = none := by
        cases hroutes : t.job.routes? c with
        | none => rfl
        | some frame => exact absurd (Job.duty_of_routes? hroutes) hduty
      have hnext : next.handed? (·.job.routes? c) t = none := by
        cases hroutes : next.handed? (·.job.routes? c) t with
        | none => rfl
        | some frame =>
          obtain rfl := eq_dispatch_of_next_routes? hstep hroutes
          exact absurd (by rw [(step_to_dispatch hstep).1, Job.duty]) hduty
      have hhand : (net'.place t next).inHand c = net.inHand c :=
        hnumbered.handed_step_of_none hstep (fun _ _ => routes?_eq_none_of_new) ht hnone hnext
      rw [hnone, hhand, hlaw]
      obtain hsame | ⟨-, frame, -, hmore⟩ | ⟨hpeer, frame, htakes, -⟩ := hinbound
      · rw [arrivals_of_suffix ha (by rw [hsame]), hsame]
        simp
      · rw [arrivals_eq ha, hmore, drop_left]
        simp
      · exact absurd ((hposted.clients c k hc).2.2 t ht hpeer (post?_of_takes htakes)) hduty

/-- Messages are routed by tasks only. -/
theorem Change.frame?_eq_none (h : net.Change signals net') {s : Nat × SignalAction}
    (hs : s ∈ signals) : s.2.frame? = none := by
  cases h with
  | record =>
    obtain ⟨old, rfl⟩ := eq_discard_of_mem_recordSignals hs
    rfl
  | close | subscribe | unsubscribe | drop | next | use =>
    obtain rfl := List.mem_singleton.mp hs
    rfl
  | aside | spawn | report | join | serve | client | trans => contradiction

/-- A client that is new has a peer that is new. -/
theorem Change.peerOf_or (h : net.Change signals net') (hrouted : net'.Routed)
    (hc : net'.peerOf c = some k) :
    net.peerOf c = some k ∨ (net.clients.length ≤ c ∧ net.peers.length ≤ k) := by
  obtain hlt | hle := Nat.lt_or_ge c net.clients.length
  · have hold : net.peerOf c = some net.clients[c].peer := by simp [Net.peerOf, hlt]
    exact .inl (hold.trans ((h.peerOf hold).symm.trans hc))
  · obtain ⟨t, ht, hduty, hpeer⟩ := h.router_of_new hle (lt_of_peerOf hc)
    obtain rfl : t.peer = k := some.inj ((hrouted.routers t ht c hduty).symm.trans hc)
    exact .inr ⟨hle, hpeer⟩

/-- Nobody starts with a message to route. -/
theorem Starts.routes?_eq_none (h : net.Starts u) (c : Nat) : u.job.routes? c = none := by
  cases hroutes : u.job.routes? c with
  | none => rfl
  | some frame =>
    have hjob := Job.eq_dispatch_of_routes? hroutes
    cases h with
    | other hduty => simp [hjob, Job.duty] at hduty
    | _ => simp_all

/-- From outside nothing is moved for a client. -/
theorem Brings.change (h : net.Brings came history) (hnumbered : net.Numbered)
    (hrecorded : net.Recorded history) (hrouted : net.Routed) (hposted : net.Posted)
    (ha : net.happen a = some net') (hchange : net.Change (net.signals a) net') :
    net'.Brings (fun k => came k ++ arrivals k net a) fun c => history c ++ net.actionsOf c a := by
  have hlength := hchange.peers.1
  have harrivals (k : Nat) : arrivals k net a = [] :=
    arrivals_of_suffix ha (hchange.inboundAt k).1
  have hposted' := hposted.change hchange
  constructor
  · intro k hle
    rw [h.absent k (by omega), harrivals, nil_append]
  · intro c k hc
    have hactions : routedFrames (net.actionsOf c a) = [] := by
      rw [routedFrames, filterMap_eq_nil_iff]
      intro action haction
      exact hchange.frame?_eq_none (mem_of_mem_actionsOf haction)
    rw [harrivals, append_nil, routedFrames_append, hactions, append_nil]
    obtain hold | ⟨habsent, hle⟩ := hchange.peerOf_or (hrouted.change hchange) hc
    · have hhand : net'.inHand c = net.inHand c :=
        hchange.handed hnumbered fun u _ hstarts => hstarts.routes?_eq_none c
      rw [h.brought c k hold, hhand, (hchange.inboundAt k).2 (hposted'.clients c k hc).2.1]
    · -- The client is new: nothing has come in for it.
      have hhand : net'.inHand c = [] := by
        rw [inHand, Net.handed, filterMap_eq_nil_iff]
        intro u hu
        obtain hu | hstarts := hchange.starts hu
        · cases hroutes : u.job.routes? c with
          | none => rfl
          | some frame =>
            have hlt := lt_of_peerOf (hrouted.routers u hu c (Job.duty_of_routes? hroutes))
            omega
        · exact hstarts.routes?_eq_none c
      have hinbound : net'.inboundAt k = [] := by
        have hsuffix := (hchange.inboundAt k).1
        rwa [inboundAt_of_le hle, suffix_nil] at hsuffix
      rw [h.absent k hle, hrecorded.absent c habsent, hhand, hinbound]
      rfl

/-- Whatever happens, nothing that came in for a client is lost or overtaken. -/
theorem Brings.happen (h : net.Brings came history) (hnumbered : net.Numbered)
    (hrecorded : net.Recorded history) (hrouted : net.Routed) (hposted : net.Posted)
    (ha : net.happen a = some net') :
    net'.Brings (fun k => came k ++ arrivals k net a) fun c => history c ++ net.actionsOf c a := by
  obtain ⟨t, net₁, next, -, ht, -, hstep, rfl, hsignals⟩ | ⟨-, hchange⟩ := happen_cases ha
  · exact h.step hnumbered hrouted hposted ha ht hstep hsignals
  · exact h.change hnumbered hrecorded hrouted hposted ha hchange

/-! ## Whole runs -/

/-- What is so all along a run, whatever happens. -/
structure Kept (came : Nat → List Frame) (history : Nat → List SignalAction) (net : Net) :
    Prop where
  numbered : net.Numbered
  recorded : net.Recorded history
  stops : net.Stops
  routed : net.Routed
  posted : net.Posted
  brings : net.Brings came history

/-- All of these invariants are kept together. -/
theorem Kept.happen (h : net.Kept came history) (ha : net.happen a = some net') :
    net'.Kept (fun k => came k ++ arrivals k net a) fun c => history c ++ net.actionsOf c a where
  numbered := h.numbered.happen ha
  recorded := h.recorded.happen ha
  stops := h.stops.happen ha
  routed := h.routed.happen h.numbered h.stops ha
  posted := h.posted.happen ha
  brings := h.brings.happen h.numbered h.recorded h.routed h.posted ha

/-- They hold at the beginning. -/
theorem kept_begin (host : Host) : ({ host } : Net).Kept (fun _ => []) fun _ => [] where
  numbered := ⟨nodup_nil, by simp⟩
  recorded := ⟨by simp, by simp⟩
  stops := ⟨by simp, by simp⟩
  routed := ⟨by simp, by simp [peerOf]⟩
  posted := ⟨by simp, by simp, by simp, by simp [peerOf]⟩
  brings := ⟨by simp, by simp [peerOf]⟩

/-- They hold after every run. -/
theorem kept_happens (hrun : ({ host } : Net).happens happenings = some net) :
    net.Kept (({ host } : Net).arrived happenings) (({ host } : Net).historyOf happenings) := by
  refine happens_induction (P := fun happenings net =>
    net.Kept (({ host } : Net).arrived happenings) (({ host } : Net).historyOf happenings))
    (kept_begin host) (fun {happenings a net₁ net₂} hbefore ih ha => ?_) hrun
  have harrived : ({ host } : Net).arrived (happenings ++ [a]) =
      fun k => ({ host } : Net).arrived happenings k ++ arrivals k net₁ a :=
    funext fun k => trace_concat _ hbefore a
  have hhistory : ({ host } : Net).historyOf (happenings ++ [a]) =
      fun c => ({ host } : Net).historyOf happenings c ++ net₁.actionsOf c a :=
    funext fun c => historyOf_concat hbefore a c
  rw [harrived, hhistory]
  exact ih.happen ha

end Net

end Remoting
