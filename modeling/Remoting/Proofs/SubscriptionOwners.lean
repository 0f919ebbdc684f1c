import Remoting.Proofs.Subscriptions

/-!
# Remoting.Proofs.SubscriptionOwners

Whose hands a subscription is in. A subscription that was asked for belongs to the task that asks
for it, then to the report that it was granted, then to its name; one that is ended belongs to the
task that tells the other side. It is in the hands of one of them at a time, and is given up when
the last of them lets it go (`Net.Holds`). So whatever has a name is there to yield events.
-/

namespace Remoting

open List Option Multiset

/-- The subscription in the hands of a task. -/
def Duty.subscription? : Duty → Option Subscription
  | .subscriber s | .discarder s => some s
  | _ => none

/-- Where a subscription is: at which client, under which number. -/
def Subscription.place (s : Subscription) : Nat × ObjectId := (s.client, s.handler)

/-- A duty is about the same subscription as before. -/
theorem Duty.Becomes.subscription?_eq {duty duty' : Duty} (h : duty.Becomes duty') :
    duty'.subscription? = duty.subscription? := by
  obtain rfl | ⟨rfl, client, slot, request, rfl⟩ := h <;> rfl

namespace Net

variable {net net' : Net} {a : Happening} {happenings : List Happening} {host : Host} {t : Task}
  {signals : List (Nat × SignalAction)}

/-- The subscriptions in the hands of tasks. -/
def heldByTasks (tasks : List Task) : Multiset Subscription :=
  ↑(tasks.filterMap (·.job.duty.subscription?))

/-- The subscriptions that have been granted and have no name yet. -/
def heldByReports (reports : List (Nat × Report)) : Multiset Subscription :=
  ↑(reports.filterMap (·.2.subscription?))

/-- The subscriptions with names. -/
def heldByNames (names : List (String × Subscription)) : Multiset Subscription :=
  ↑(names.map (·.2))

/-- The subscriptions in somebody's hands. -/
def holdings (net : Net) : Multiset Subscription :=
  heldByTasks net.tasks + heldByReports net.reports + heldByNames net.subscriptions

/-- Tasks are known by different numbers, and the next number is new. -/
structure Numbered (net : Net) : Prop where
  nodup : (net.tasks.map (·.id)).Nodup
  fresh : ∀ t ∈ net.tasks, t.id < net.nextTask

/-- New tasks have new numbers. -/
theorem Numbered.grows {P : Task → Prop} (h : net.Numbered) (hgrows : net.Grows P net') :
    net'.Numbered := by
  obtain ⟨new, htasks, hnext, hids, -⟩ := hgrows
  have hnew (t : Task) (ht : t ∈ new) : net.nextTask ≤ t.id ∧ t.id < net'.nextTask :=
    hnext ▸ id_of_mem_new hids ht
  constructor
  · rw [htasks, map_append, hids]
    refine h.nodup.append nodup_range' ?_
    intro id hold hlater
    obtain ⟨t, ht, rfl⟩ := List.mem_map.mp hold
    have hlt := h.fresh t ht
    rw [mem_range'_1] at hlater
    omega
  · intro t ht
    rw [htasks, mem_append] at ht
    cases ht with
    | inl hold =>
      have hlt := h.fresh t hold
      omega
    | inr ht => exact (hnew t ht).2

/-- What becomes of a task keeps the numbers apart. -/
theorem Numbered.place (h : net.Numbered) (ht : t ∈ net.tasks) (next : Next) :
    (net.place t next).Numbered := by
  have hsub : ((net.tasks.filter (·.id != t.id)).map (·.id)).Sublist (net.tasks.map (·.id)) :=
    filter_sublist.map _
  have hset (job : Job) : (net.setJob t job).Numbered := by
    constructor
    · simp only [setJob, map_append]
      refine (h.nodup.sublist hsub).append (by simp) ?_
      simp
    · intro u hu
      simp only [setJob, mem_append, List.mem_filter, List.mem_singleton] at hu
      obtain ⟨hu, -⟩ | rfl := hu
      · exact h.fresh u hu
      · exact h.fresh t ht
  cases next with
  | job job => exact hset job
  | waiting => exact hset t.job
  | ended report =>
    exact ⟨h.nodup.sublist hsub, fun u hu => h.fresh u (List.mem_of_mem_filter hu)⟩

/-- Tasks are told apart by their numbers. -/
theorem Numbered.eq_of_id (h : net.Numbered) {u : Task} (ht : t ∈ net.tasks) (hu : u ∈ net.tasks)
    (hid : u.id = t.id) : u = t := List.inj_on_of_nodup_map h.nodup hu ht hid

/-- A task and the others are all tasks. -/
theorem perm_cons_filter {tasks : List Task} (hnodup : (tasks.map (·.id)).Nodup) (ht : t ∈ tasks) :
    tasks.Perm (t :: tasks.filter (·.id != t.id)) := by
  induction tasks with
  | nil => contradiction
  | cons u tasks ih =>
    rw [List.map_cons, List.nodup_cons] at hnodup
    by_cases hid : u.id = t.id
    · -- No other task has this number.
      have hother : ∀ v ∈ tasks, v.id ≠ t.id := fun v hv heq =>
        hnodup.1 (hid ▸ heq ▸ List.mem_map_of_mem hv)
      obtain rfl : t = u := by
        obtain heq | ht := List.mem_cons.mp ht
        · exact heq
        · exact absurd rfl (hother t ht)
      simp only [List.filter_cons, bne_self_eq_false, Bool.false_eq_true, if_false]
      rw [List.filter_eq_self.mpr fun v hv => by simpa using hother v hv]
    · have ht : t ∈ tasks := by
        obtain rfl | ht := List.mem_cons.mp ht
        · exact absurd rfl hid
        · exact ht
      rw [List.filter_cons_of_pos (by simpa using hid)]
      exact ((ih hnodup.2 ht).cons u).trans (.swap t u _)

/-- What tasks hold: what one of them holds, and what the others do. -/
theorem Numbered.heldByTasks_eq (h : net.Numbered) (ht : t ∈ net.tasks) :
    heldByTasks net.tasks =
      ↑t.job.duty.subscription?.toList + heldByTasks (net.tasks.filter (·.id != t.id)) := by
  have hperm := (perm_cons_filter h.nodup ht).filterMap (·.job.duty.subscription?)
  rw [heldByTasks, coe_eq_coe.mpr hperm]
  cases hs : t.job.duty.subscription? <;> simp [hs, heldByTasks]

theorem heldByTasks_append (tasks more : List Task) :
    heldByTasks (tasks ++ more) = heldByTasks tasks + heldByTasks more := by
  simp [heldByTasks]

theorem heldByTasks_singleton (t : Task) :
    heldByTasks [t] = ↑t.job.duty.subscription?.toList := by
  cases hs : t.job.duty.subscription? <;> simp [hs, heldByTasks]

theorem Grows.trans {P : Task → Prop} {net'' : Net} (h : net.Grows P net')
    (h' : net'.Grows P net'') : net.Grows P net'' := by
  obtain ⟨new, htasks, hnext, hids, hnew⟩ := h
  obtain ⟨new', htasks', hnext', hids', hnew'⟩ := h'
  refine ⟨new ++ new', by rw [htasks', htasks, append_assoc], ?_, ?_, ?_⟩
  · rw [hnext', hnext, length_append, Nat.add_assoc]
  · rw [map_append, hids, hids', hnext, length_append, range'_append_1]
  · simpa [or_imp, forall_and] using ⟨hnew, hnew'⟩

theorem grows_startPeer (net : Net) (endpoint : Nat) (settings : PeerSettings) (held : Bool) :
    net.Grows (fun _ => True) (net.startPeer endpoint settings held).2 := by
  have hsame : net.Grows (fun _ => True) { net.changeLink endpoint Link.split with
      peers := (net.startPeer endpoint settings held).2.peers } := grows_of_eq rfl rfl
  exact (hsame.spawn _ _ _ trivial).spawn _ _ _ trivial

/-- From outside, tasks are only added. -/
theorem Change.grows (h : net.Change signals net') :
    net.Grows (fun _ => True) net' := by
  have hsame {net₁ net₂ : Net} (htasks : net₂.tasks = net₁.tasks)
      (hnext : net₂.nextTask = net₁.nextTask) : net₁.Grows (fun _ => True) net₂ :=
    grows_of_eq htasks hnext
  induction h with
  | aside halike hpeers => exact hsame halike.tasks halike.nextTask
  | report | drop | next | use => exact hsame rfl rfl
  | spawn peer job ticket => exact (hsame rfl rfl).spawn peer job ticket trivial
  | close | subscribe | unsubscribe => exact (hsame rfl rfl).spawn _ _ _ trivial
  | @join net endpoint settings =>
    obtain ⟨new, htasks, hrest⟩ := net.grows_startPeer endpoint settings true
    exact ⟨new, htasks, hrest⟩
  | @serve net endpoint settings server =>
    exact (net.grows_startPeer endpoint settings false).spawn _ _ _ trivial
  | @client net endpoint settings =>
    obtain ⟨new, htasks, hrest⟩ := net.grows_startPeer endpoint {} true
    have hpeer : net.Grows (fun _ => True) { (net.startPeer endpoint {} true).2 with
        clients := net.clients ++ [({ settings, peer := net.peers.length } : Client)] } :=
      ⟨new, htasks, hrest⟩
    exact hpeer.spawn _ _ _ trivial
  | trans hfirst hsecond ihfirst ihsecond => exact ihfirst.trans ihsecond
  | @record net =>
    rw [takeReports_eq]
    exact hsame rfl rfl

/-- Whatever happens, numbers differ. -/
theorem Numbered.happen (h : net.Numbered) (ha : net.happen a = some net') : net'.Numbered := by
  obtain ⟨t, net₁, next, -, ht, -, hstep, rfl, -⟩ | ⟨-, hchange⟩ := happen_cases ha
  · have hgrows := (step_does hstep).tasks
    refine (h.grows hgrows).place ?_ next
    obtain ⟨new, htasks, -⟩ := hgrows
    rw [htasks]
    exact mem_append_left _ ht
  · exact h.grows hchange.grows

/-! ## From hand to hand -/

/-- Subscriptions are handed on or let go; those that are given up have been let go. -/
def LetsGo (net : Net) (signals : List (Nat × SignalAction)) (net' : Net) : Prop :=
  ∃ released : Multiset Subscription, released + net'.holdings ≤ net.holdings ∧
    ∀ c h, (c, SignalAction.discard h) ∈ signals → ∃ s ∈ released, s.place = (c, h)

/-- A subscription is asked for. -/
def TakesUp (net : Net) (signals : List (Nat × SignalAction)) (net' : Net) : Prop :=
  ∃ s client, net.clients[s.client]? = some client ∧ s.handler = client.board.subscribe.1 ∧
    signals = [(s.client, .subscribe)] ∧ net'.holdings = s ::ₘ net.holdings

/-- Nothing changes hands. -/
theorem letsGo_of_eq (h : net'.holdings = net.holdings)
    (hsignals : ∀ c h, (c, SignalAction.discard h) ∉ signals) : net.LetsGo signals net' :=
  ⟨0, by simp [h], fun c h hmem => absurd hmem (hsignals c h)⟩

/-- What is let go in two steps. -/
theorem LetsGo.trans {net'' : Net} {more : List (Nat × SignalAction)} (h : net.LetsGo signals net')
    (h' : net'.LetsGo more net'') :
    net.LetsGo (signals ++ more) net'' := by
  obtain ⟨released, hle, hsignals⟩ := h
  obtain ⟨released', hle', hmore⟩ := h'
  refine ⟨released + released', ?_, fun c h hmem => ?_⟩
  · calc released + released' + net''.holdings
        = released + (released' + net''.holdings) := add_assoc _ _ _
      _ ≤ released + net'.holdings := add_le_add_right hle' _
      _ ≤ net.holdings := hle
  · obtain hmem | hmem := mem_append.mp hmem
    · obtain ⟨s, hs, hplace⟩ := hsignals c h hmem
      exact ⟨s, mem_add.mpr (.inl hs), hplace⟩
    · obtain ⟨s, hs, hplace⟩ := hmore c h hmem
      exact ⟨s, mem_add.mpr (.inr hs), hplace⟩

/-- A new task holds what its duty is about. -/
theorem holdings_spawn (net : Net) (peer : Nat) (job : Job) (ticket : Option Nat) :
    (net.spawn peer job ticket).holdings = ↑job.duty.subscription?.toList + net.holdings := by
  simp only [holdings, Net.spawn, heldByTasks_append, heldByTasks_singleton]
  abel

theorem holdings_startPeer (net : Net) (endpoint : Nat) (settings : PeerSettings) (held : Bool) :
    (net.startPeer endpoint settings held).2.holdings = net.holdings := by
  simp only [startPeer, holdings_spawn, Job.duty, Duty.subscription?, toList_none,
    coe_nil, zero_add]
  rfl

/-- Who loses its name is no longer among the names. -/
theorem heldByNames_forget {name : String} {s : Subscription}
    (h : net.subscription? name = some s) :
    s ::ₘ heldByNames (net.forget name).subscriptions ≤ heldByNames net.subscriptions := by
  obtain ⟨names, later, heq, -⟩ := lookup_eq_some_iff.mp h
  have hfewer (names : List (String × Subscription)) :
      heldByNames (names.filter (·.1 != name)) ≤ heldByNames names :=
    coe_le.mpr (filter_sublist.map _).subperm
  have hnames : heldByNames net.subscriptions = heldByNames names + s ::ₘ heldByNames later := by
    simp [heldByNames, heq]
  have hforget : heldByNames (net.forget name).subscriptions =
      heldByNames (names.filter (·.1 != name)) + heldByNames (later.filter (·.1 != name)) := by
    simp [heldByNames, forget, heq]
  rw [hnames, hforget, ← add_cons]
  exact add_le_add (hfewer names) (Multiset.cons_le_cons s (hfewer later))

/-- A name that is forgotten lets its subscription go. -/
theorem holdings_forget {name : String} {s : Subscription} (h : net.subscription? name = some s) :
    s ::ₘ (net.forget name).holdings ≤ net.holdings := by
  simp only [holdings, ← add_cons]
  exact add_le_add_right (heldByNames_forget h) _

theorem heldByReports_cons (r : Nat × Report) (reports : List (Nat × Report)) :
    heldByReports (r :: reports) = ↑r.2.subscription?.toList + heldByReports reports := by
  cases hs : r.2.subscription? <;> simp [heldByReports, hs]

/-- What a report names gets its name; a subscription that had the name is let go. -/
theorem letsGo_record (net : Net) (r : Nat × Report) (reports : List (Nat × Report)) :
    LetsGo { net with reports := r :: reports } (net.reportSignals r.2)
      { net.record r.2 with reports } := by
  cases hr : r.2 with
  | subscribed s name =>
    have hbefore : holdings { net with reports := r :: reports } =
        s ::ₘ (heldByTasks net.tasks + heldByReports reports) + heldByNames net.subscriptions := by
      simp [holdings, heldByReports_cons, hr, Report.subscription?]
    have hafter : holdings { net.record (.subscribed s name) with reports } =
        s ::ₘ (heldByTasks net.tasks + heldByReports reports) +
          heldByNames (net.forget name).subscriptions := by
      rw [cons_add, ← add_cons]
      simp only [record, putSubscription]
      cases net.subscription? name <;> rfl
    cases hold : net.subscription? name with
    | none =>
      refine ⟨0, ?_, by simp [reportSignals, hold]⟩
      rw [hbefore, hafter, zero_add]
      exact add_le_add_right (coe_le.mpr (filter_sublist.map _).subperm) _
    | some old =>
      refine ⟨{old}, ?_, by simp [reportSignals, hold, Subscription.place]⟩
      rw [hbefore, hafter, singleton_add, ← add_cons]
      exact add_le_add_right (heldByNames_forget hold) _
  | _ =>
    refine letsGo_of_eq ?_ (by simp [reportSignals])
    simp [holdings, heldByReports_cons, hr, Report.subscription?, record, putHandle]

/-- Taking the reports up hands subscriptions on or lets them go. -/
theorem letsGo_foldl_record (reports : List (Nat × Report)) (net : Net) :
    LetsGo { net with reports } (recordSignals net reports)
      { reports.foldl (fun net r => net.record r.2) net with reports := [] } := by
  induction reports generalizing net with
  | nil => exact letsGo_of_eq rfl (by simp [recordSignals])
  | cons r reports ih =>
    rw [recordSignals, List.foldl_cons]
    exact (letsGo_record net r reports).trans (ih (net.record r.2))

/-- From outside, subscriptions are let go or taken up. -/
theorem Change.hands (h : net.Change signals net') :
    net.LetsGo signals net' ∨ net.TakesUp signals net' := by
  induction h with
  | aside halike hpeers =>
    refine .inl (letsGo_of_eq ?_ (by simp))
    simp only [holdings, halike.tasks, halike.reports, halike.subscriptions]
  | spawn peer job ticket hduty =>
    refine .inl (letsGo_of_eq ?_ (by simp))
    simp [holdings_spawn, hduty, Duty.subscription?]
  | report report hreport =>
    refine .inl (letsGo_of_eq ?_ (by simp))
    simp [holdings, heldByReports, startEnded, hreport]
  | @join net endpoint settings =>
    exact .inl (letsGo_of_eq (net.holdings_startPeer endpoint settings true) (by simp))
  | @serve net endpoint settings server =>
    refine .inl (letsGo_of_eq ?_ (by simp))
    exact (holdings_spawn _ _ _ _).trans
      ((zero_add _).trans (net.holdings_startPeer endpoint settings false))
  | @client net endpoint settings =>
    refine .inl (letsGo_of_eq ?_ (by simp))
    exact (holdings_spawn _ _ _ _).trans
      ((zero_add _).trans (net.holdings_startPeer endpoint {} true))
  | trans hfirst hsecond ihfirst ihsecond =>
    obtain hfirst | ⟨s, client, -, -, hsignals, -⟩ := ihfirst
    · obtain hsecond | ⟨s, client, -, -, hsignals, -⟩ := ihsecond
      · exact .inl (hfirst.trans hsecond)
      · contradiction
    · contradiction
  | close hclient =>
    refine .inl (letsGo_of_eq ?_ (by simp))
    exact (holdings_spawn _ _ _ _).trans (zero_add _)
  | @subscribe net c client hclient frame deadline target connector name =>
    refine .inr ⟨⟨c, client.board.subscribe.1, target, connector⟩, client, hclient, rfl, rfl, ?_⟩
    exact (holdings_spawn _ _ _ _).trans (singleton_add _ _)
  | @unsubscribe net name s hs c peer frame =>
    refine .inl ⟨0, ?_, by simp⟩
    have hspawn := holdings_spawn ((net.forget name).changeBoard c (·.unroute s.handler)) peer
      (.send frame (.discard s)) (some net.nextTicket)
    rw [zero_add]
    exact (hspawn.trans (singleton_add _ _)).trans_le (holdings_forget hs)
  | @drop net name s hs =>
    refine .inl ⟨{s}, ?_, by simp [Subscription.place]⟩
    rw [singleton_add]
    exact holdings_forget hs
  | next hs hclient => exact .inl (letsGo_of_eq rfl (by simp))
  | use hheld reply => exact .inl (letsGo_of_eq rfl (by simp))
  | @record net =>
    have hfold := letsGo_foldl_record net.sortedReports { net with reports := [] }
    have hbefore : holdings { net with reports := net.sortedReports } = net.holdings := by
      have hsorted : heldByReports net.sortedReports = heldByReports net.reports :=
        coe_eq_coe.mpr ((mergeSort_perm _ _).filterMap _)
      simp [holdings, hsorted]
    have hafter : holdings { net.sortedReports.foldl (fun net r => net.record r.2)
        { net with reports := [] } with reports := [] } = net.takeReports.2.holdings := by
      have hnone : net.takeReports.2.reports = [] := by rw [takeReports_eq]
      rw [holdings, holdings, hnone]
      rfl
    obtain ⟨released, hle, hsignals⟩ := hfold
    exact .inl ⟨released, by rwa [hbefore, hafter] at hle, hsignals⟩

/-- What is in other hands than those of a task. -/
def holdingsBut (net : Net) (t : Task) : Multiset Subscription :=
  heldByTasks (net.tasks.filter (·.id != t.id)) + heldByReports net.reports +
    heldByNames net.subscriptions

/-- All that is held: by one task, and by all others. -/
theorem Numbered.holdings_eq (h : net.Numbered) (ht : t ∈ net.tasks) :
    net.holdings = ↑t.job.duty.subscription?.toList + net.holdingsBut t := by
  rw [holdings, h.heldByTasks_eq ht, holdingsBut]
  abel

theorem holdings_setJob (net : Net) (t : Task) (job : Job) :
    (net.setJob t job).holdings = ↑job.duty.subscription?.toList + net.holdingsBut t := by
  simp only [holdings, setJob, heldByTasks_append, heldByTasks_singleton, holdingsBut]
  abel

/-- What a task has at its end is in its report, if the report is asked for. -/
theorem holdings_endTask_le (net : Net) (t : Task) (report : Report) :
    (net.endTask t report).holdings ≤ ↑report.subscription?.toList + net.holdingsBut t := by
  simp only [holdings, endTask, holdingsBut]
  cases t.ticket with
  | none => exact Multiset.le_add_left _ _
  | some ticket =>
    have hreports : heldByReports (net.reports ++ [(ticket, report)]) =
        heldByReports net.reports + ↑report.subscription?.toList := by
      rw [heldByReports, filterMap_append, ← coe_add]
      rfl
    rw [hreports]
    apply le_of_eq
    abel

/-- A task gives up only what it has in its hands and does not hand over in its report. -/
theorem of_discard_mem_stepSignals {next : Next} {c : Nat} {h : ObjectId}
    (hmem : (c, SignalAction.discard h) ∈ stepSignals t next) :
    ∃ s report, t.job.duty.subscription? = some s ∧ s.place = (c, h) ∧ next = .ended report ∧
      (t.job.duty = .subscriber s → report.subscription? = none) := by
  have hended (report : Report) (hmem : (c, SignalAction.discard h) ∈ t.job.duty.signals report) :
      ∃ s, t.job.duty.subscription? = some s ∧ s.place = (c, h) ∧
        (t.job.duty = .subscriber s → report.subscription? = none) := by
    cases hduty : t.job.duty with
    | subscriber s =>
      cases hs : report.subscription? with
      | none =>
        refine ⟨s, rfl, ?_, fun _ => rfl⟩
        simpa [hduty, Duty.signals, hs, Subscription.place, eq_comm] using hmem
      | some s' => simp [hduty, Duty.signals, hs] at hmem
    | discarder s =>
      refine ⟨s, rfl, ?_, by simp⟩
      simpa [hduty, Duty.signals, Subscription.place, eq_comm] using hmem
    | reader | router client | server server | answerer client slot request | other =>
      simp [hduty, Duty.signals] at hmem
  cases next with
  | ended report =>
    by_cases hdispatch : ∃ client frame, t.job = .dispatch client frame
    · obtain ⟨client, frame, hjob⟩ := hdispatch
      simp [stepSignals, hjob] at hmem
    · rw [stepSignals_eq fun client frame heq => hdispatch ⟨client, frame, heq⟩] at hmem
      obtain ⟨s, hs, hplace, hreport⟩ := hended report hmem
      exact ⟨s, report, hs, hplace, rfl, hreport⟩
  | job job | waiting =>
    obtain ⟨id, peer, job', ticket⟩ := t
    cases job' <;> simp [stepSignals] at hmem

/-- A step of a task hands on or lets go what the task has in its hands. -/
theorem letsGo_step (h : net.Numbered) {next : Next} (ht : t ∈ net.tasks)
    (hstep : net.step t = some (net', next)) :
    net.LetsGo (stepSignals t next) (net'.place t next) := by
  have hdoes := step_does hstep
  have hnumbered := h.grows hdoes.tasks
  obtain ⟨new, htasks, -, -, hnew⟩ := hdoes.tasks
  have hsame : net'.holdings = net.holdings := by
    have hnone : heldByTasks new = 0 := by
      have hfilter : new.filterMap (·.job.duty.subscription?) = [] := by
        rw [filterMap_eq_nil_iff]
        intro u hu
        obtain hduty | ⟨client, slot, request, hjob⟩ := (hnew u hu).2
        · simp [hduty, Duty.subscription?]
        · simp [hjob, Job.duty, Duty.subscription?]
      rw [heldByTasks, hfilter, coe_nil]
    have htasks' : heldByTasks net'.tasks = heldByTasks net.tasks := by
      rw [htasks, heldByTasks_append, hnone, add_zero]
    rw [holdings, holdings, htasks', hdoes.reports, hdoes.subscriptions]
  have hparts := hnumbered.holdings_eq (htasks ▸ mem_append_left new ht)
  rw [hsame] at hparts
  cases next with
  | job job =>
    refine letsGo_of_eq ?_ fun c h hmem => ?_
    · rw [place, holdings_setJob, (hdoes.stays job rfl).subscription?_eq, ← hparts]
    · obtain ⟨s, report, -, -, heq, -⟩ := of_discard_mem_stepSignals hmem
      contradiction
  | waiting =>
    refine letsGo_of_eq ?_ fun c h hmem => ?_
    · rw [place, holdings_setJob, ← hparts]
    · obtain ⟨s, report, -, -, heq, -⟩ := of_discard_mem_stepSignals hmem
      contradiction
  | ended report =>
    have hend := holdings_endTask_le net' t report
    cases hs : report.subscription? with
    | some s =>
      -- The subscription was granted and goes into the report.
      have hduty := hdoes.handsOver report s rfl hs
      refine ⟨0, ?_, fun c h hmem => ?_⟩
      · rw [zero_add, hparts, hduty, Duty.subscription?]
        rwa [hs] at hend
      · obtain ⟨s', report', hs', -, heq, hreport⟩ := of_discard_mem_stepSignals hmem
        cases heq
        rw [hduty, Duty.subscription?] at hs'
        cases hs'
        simp [hreport hduty] at hs
    | none =>
      refine ⟨↑t.job.duty.subscription?.toList, ?_, fun c h hmem => ?_⟩
      · rw [hparts]
        rw [hs, toList_none, coe_nil, zero_add] at hend
        exact add_le_add_right hend _
      · obtain ⟨s, -, hs, hplace, -⟩ := of_discard_mem_stepSignals hmem
        exact ⟨s, by simp [hs], hplace⟩

/-- Whatever happens, subscriptions are let go or taken up. -/
theorem hands_happen (h : net.Numbered) (ha : net.happen a = some net') :
    net.LetsGo (net.signals a) net' ∨ net.TakesUp (net.signals a) net' := by
  obtain ⟨t, net₁, next, -, ht, -, hstep, rfl, hsignals⟩ | ⟨-, hchange⟩ := happen_cases ha
  · rw [hsignals]
    exact .inl (letsGo_step h ht hstep)
  · exact hchange.hands

/-! ## What is in somebody's hands is there -/

/-- Every subscription is in one place of its own, and none that is in somebody's hands has been
given up. -/
structure Holds (history : Nat → List SignalAction) (net : Net) : Prop where
  single : (net.holdings.map Subscription.place).Nodup
  there : ∀ s ∈ net.holdings, ListeningAfter (history s.client) s.handler

variable {history : Nat → List SignalAction}

theorem mem_of_mem_actionsOf {c : Nat} {action : SignalAction} (h : action ∈ net.actionsOf c a) :
    (c, action) ∈ net.signals a := by
  unfold actionsOf actionsAt at h
  split at h
  · rw [List.mem_filterMap] at h
    obtain ⟨s, hs, heq⟩ := h
    rw [ite_none_right_eq_some] at heq
    obtain ⟨rfl, heq⟩ := heq
    exact some.inj heq ▸ hs
  · contradiction

/-- Handing on and letting go keep every subscription in one place. -/
theorem Holds.letsGo (h : net.Holds history) (hgo : net.LetsGo (net.signals a) net') :
    net'.Holds fun c => history c ++ net.actionsOf c a := by
  obtain ⟨released, hle, hreleased⟩ := hgo
  have hsingle := nodup_of_le (map_le_map hle) h.single
  rw [Multiset.map_add, nodup_add] at hsingle
  refine ⟨hsingle.2.1, fun s hs => ?_⟩
  refine (h.there s (mem_of_le hle (mem_add.mpr (.inr hs)))).append ?_
  intro action haction
  by_contra hdiscards
  -- Who was let go is in another place.
  obtain rfl : action = .discard s.handler := by
    cases action <;> simp_all [SignalAction.discards]
  obtain ⟨s', hs', hplace⟩ := hreleased _ _ (mem_of_mem_actionsOf haction)
  exact Multiset.disjoint_left.mp hsingle.2.2 (Multiset.mem_map_of_mem _ hs')
    (hplace ▸ Multiset.mem_map_of_mem _ hs)

/-- A subscription that is asked for gets a place of its own. -/
theorem Holds.takesUp (h : net.Holds history) (hrecorded : net.Recorded history)
    (htakes : net.TakesUp (net.signals a) net')
    (hfew : ∀ c, subscribed (history c ++ net.actionsOf c a) < 2 ^ 64) :
    net'.Holds fun c => history c ++ net.actionsOf c a := by
  obtain ⟨s, client, hclient, hhandler, hsignals, hholdings⟩ := htakes
  have hlt : s.client < net.clients.length := (List.getElem?_eq_some_iff.mp hclient).1
  have hactions (c : Nat) : net.actionsOf c a = if s.client = c then [.subscribe] else [] := by
    unfold actionsOf
    by_cases hc : s.client = c
    · simp [hsignals, actionsAt, ← hc, hlt]
    · simp [hsignals, actionsAt, hc]
  simp only [hactions] at hfew ⊢
  have hfew' := hfew s.client
  rw [if_pos rfl, subscribed_concat, SignalAction.isSubscribe, if_pos rfl] at hfew'
  have hopens : Opens s.handler (history s.client) .subscribe := by
    refine ⟨rfl, ?_⟩
    rw [← Switchboard.subscribe_after_eq_iff hfew', ← hrecorded.board _ _ hclient, hhandler]
  refine ⟨?_, fun s' hs' => ?_⟩
  · rw [hholdings, Multiset.map_cons, Multiset.nodup_cons]
    refine ⟨fun hmem => ?_, h.single⟩
    obtain ⟨s', hs', hplace⟩ := Multiset.mem_map.mp hmem
    obtain ⟨hsame, hsame'⟩ := Prod.mk.inj hplace
    exact not_openedAfter_of_opens hopens (hsame ▸ hsame' ▸ (h.there s' hs').opened)
  · rw [hholdings, Multiset.mem_cons] at hs'
    obtain rfl | hs' := hs'
    · rw [if_pos rfl, listeningAfter_concat]
      exact .inl hopens
    · refine (h.there s' hs').append fun action haction => ?_
      split at haction
      · rw [List.mem_singleton.mp haction]
        rfl
      · contradiction

/-- Whatever happens, every subscription stays in one place. -/
theorem Holds.happen (h : net.Holds history) (hnumbered : net.Numbered)
    (hrecorded : net.Recorded history) (ha : net.happen a = some net')
    (hfew : ∀ c, subscribed (history c ++ net.actionsOf c a) < 2 ^ 64) :
    net'.Holds fun c => history c ++ net.actionsOf c a := by
  obtain hgo | htakes := hands_happen hnumbered ha
  · exact h.letsGo hgo
  · exact h.takesUp hrecorded htakes hfew

end Net

end Remoting
