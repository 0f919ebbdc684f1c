import Remoting.Proofs.Arrivals
import Remoting.Proofs.ReplySlots

/-!
# Remoting.Proofs.HeldEvents

Events in the hands of those who took them. What was taken out of the inboxes of a client is held,
or has been answered (`Net.accounts_happens`). So nothing is answered that is not held, and every
event waits, is held or is used up (`Switchboard.Accounts.conserved`).
-/

namespace Remoting

open List Option Multiset

/-- Whether an action takes an event or answers one that was taken. -/
def SignalAction.moves : SignalAction → Bool
  | .next _ | .answer _ _ => true
  | _ => false

theorem SignalAction.moves_of_not_outside {a : SignalAction} (h : a.isOutside = false) :
    a.moves = false := by
  cases a <;> simp_all [SignalAction.isOutside, SignalAction.moves]

namespace Switchboard

variable {actions more : List SignalAction}

/-- Other actions change nothing about what was taken and answered. -/
theorem taken_append (hmore : ∀ a ∈ more, a.moves = false) :
    taken (actions ++ more) = taken actions ∧ answered (actions ++ more) = answered actions ∧
      (AnswersTaken actions → AnswersTaken (actions ++ more)) := by
  induction more using reverseRecOn with
  | nil => simp
  | append_singleton more a ih =>
    rw [forall_mem_append, forall_mem_singleton] at hmore
    obtain ⟨htaken, hanswered, hanswers⟩ := ih hmore.1
    rw [← append_assoc, taken_concat, answered_concat, answersTaken_concat, htaken, hanswered]
    cases a with
    | next h | answer event reply => simp [SignalAction.moves] at hmore
    | _ => simpa [takenBy, answeredBy] using hanswers

/-- What was taken is held or has been answered. -/
structure Accounts (actions : List SignalAction) (held : List SignalEvent) : Prop where
  answers : AnswersTaken actions
  taken : (↑(taken actions) : Multiset SignalEvent) = ↑held + ↑(answered actions)

variable {held held' : List SignalEvent}

theorem Accounts.keep (h : Accounts actions held) (hmore : ∀ a ∈ more, a.moves = false) :
    Accounts (actions ++ more) held := by
  obtain ⟨htaken, hanswered, hanswers⟩ := taken_append hmore
  exact ⟨hanswers h.answers, by rw [htaken, hanswered, h.taken]⟩

/-- An event is looked for; the one that is found is held from then on. -/
theorem Accounts.next (h : Accounts actions held) (handler : ObjectId) :
    Accounts (actions ++ [.next handler]) (held ++ ((after actions).next handler).1.given) := by
  constructor
  · exact answersTaken_concat.mpr ⟨h.answers, by simp⟩
  · simp only [taken_concat, answered_concat, takenBy, answeredBy, append_nil,
      ← coe_add]
    rw [h.taken, add_right_comm]

/-- An event that was held is answered. -/
theorem Accounts.answer (h : Accounts actions held) {event : SignalEvent}
    (hheld : (↑held : Multiset SignalEvent) = ↑held' + {event}) (reply : Reply) :
    Accounts (actions ++ [.answer event reply]) held' := by
  have htaken := h.taken
  rw [hheld] at htaken
  constructor
  · refine answersTaken_concat.mpr ⟨h.answers, fun event' reply' heq => ?_⟩
    obtain ⟨rfl, -⟩ := SignalAction.answer.inj heq
    rw [htaken, add_assoc, add_comm (ofList _) {event}]
    exact Multiset.le_add_left _ _
  · simp only [taken_concat, answered_concat, takenBy, answeredBy, append_nil,
      ← coe_add, coe_singleton]
    rw [htaken, add_assoc, add_comm {event} (ofList _)]

/-- Every event waits, is held or is used up, and is in one of these places only. -/
theorem Accounts.conserved (h : Accounts actions held) (hfew : subscribed actions < 2 ^ 64) :
    (↑(arisen actions) : Multiset SignalEvent) =
      (after actions).queued + ↑held + ↑((used actions).map (·.1)) := by
  have hconserved := conserved_after hfew
  rw [h.taken] at hconserved
  refine add_right_cancel (hconserved.trans ?_)
  abel

/-- Events in different places have different slots. -/
theorem Accounts.nodup_slots (h : Accounts actions held) (hfew : subscribed actions < 2 ^ 64) :
    (((after actions).inboxes.flatMap (·.events) ++ held ++ (used actions).map (·.1)).filterMap
      (·.slot)).Nodup := by
  have hle : (↑((after actions).inboxes.flatMap (·.events) ++ held ++ (used actions).map (·.1)) :
      Multiset SignalEvent) ≤ ↑(arisen actions) := by
    rw [h.conserved hfew, ← coe_add, ← coe_add]
    exact le_rfl
  exact (slots_of_le_arisen hle).1

theorem replyTo_of_mem {used : List (SignalEvent × Reply)} {event : SignalEvent} {reply : Reply}
    {s : Nat} (hnodup : ((used.map (·.1)).filterMap (·.slot)).Nodup) (hmem : (event, reply) ∈ used)
    (hslot : event.slot = some s) : replyTo used s = some reply := by
  induction used with
  | nil => contradiction
  | cons u used ih =>
    by_cases hu : u.1.slot = some s
    · rw [List.map_cons, List.filterMap_cons_some hu, List.nodup_cons] at hnodup
      obtain rfl | hmem := List.mem_cons.mp hmem
      · simp [replyTo, hslot]
      · exact absurd (List.mem_filterMap.mpr ⟨event, List.mem_map_of_mem hmem, hslot⟩) hnodup.1
    · have hrest : replyTo (u :: used) s = replyTo used s := by simp [replyTo, hu]
      rw [hrest]
      obtain rfl | hmem := List.mem_cons.mp hmem
      · exact absurd hslot hu
      · refine ih ?_ hmem
        rw [List.map_cons, List.filterMap_cons] at hnodup
        split at hnodup
        · exact hnodup
        · exact (List.nodup_cons.mp hnodup).2

section Few

variable (h : Accounts actions held) (hfew : subscribed actions < 2 ^ 64)
include h hfew

/-- A slot holds what the event that has it was answered. -/
theorem Accounts.reply?_eq_some_iff {s : Nat} {reply : Reply} :
    (after actions).reply? s = some reply ↔
      ∃ event, (event, reply) ∈ used actions ∧ event.slot = some s := by
  rw [reply?_after hfew h.answers]
  constructor
  · intro hreply
    obtain ⟨u, hu, rfl⟩ := map_eq_some_iff.mp hreply
    exact ⟨u.1, mem_of_find?_eq_some hu, by simpa using List.find?_some hu⟩
  · rintro ⟨event, hmem, hslot⟩
    have hnodup := h.nodup_slots hfew
    rw [filterMap_append, nodup_append] at hnodup
    exact replyTo_of_mem hnodup.2.1 hmem hslot

/-- A slot is empty while the event that has it waits or is held. -/
theorem Accounts.reply?_eq_none_iff {s : Nat} (hs : s < (awaited actions).length) :
    (after actions).reply? s = none ↔
      ∃ event ∈ (after actions).queued + ↑held, event.slot = some s := by
  constructor
  · intro hnone
    have hmem : s ∈ (arisen actions).filterMap (·.slot) := by
      rwa [filterMap_slot_arisen, List.mem_range]
    obtain ⟨event, hevent, hslot⟩ := List.mem_filterMap.mp hmem
    have hplaces : event ∈ (after actions).queued + ↑held + ↑((used actions).map (·.1)) := by
      rwa [← h.conserved hfew, mem_coe]
    obtain hevent | hused := mem_add.mp hplaces
    · exact ⟨event, hevent, hslot⟩
    · obtain ⟨u, hu, rfl⟩ := List.mem_map.mp (mem_coe.mp hused)
      have hreply := (h.reply?_eq_some_iff hfew).mpr ⟨u.1, hu, hslot⟩
      rw [hnone] at hreply
      contradiction
  · rintro ⟨event, hevent, hslot⟩
    rw [queued, coe_add, mem_coe] at hevent
    rw [eq_none_iff_forall_ne_some]
    intro reply hreply
    obtain ⟨event', hused, hslot'⟩ := (h.reply?_eq_some_iff hfew).mp hreply
    have hnodup := h.nodup_slots hfew
    rw [filterMap_append, nodup_append] at hnodup
    refine hnodup.2.2 s (List.mem_filterMap.mpr ⟨event, hevent, hslot⟩) s ?_ rfl
    exact List.mem_filterMap.mpr ⟨event', List.mem_map.mpr ⟨_, hused, rfl⟩, hslot'⟩

/-- Whoever holds an event can answer it. -/
theorem Accounts.reply?_answer {event : SignalEvent} (hmem : event ∈ held) (reply : Reply) {s : Nat}
    (hs : event.slot = some s) : ((after actions).answer event reply).reply? s = some reply := by
  have hheld : (↑held : Multiset SignalEvent) = ↑(held.erase event) + {event} := by
    rw [← coe_singleton, coe_add, coe_eq_coe]
    exact (perm_cons_erase hmem).trans (perm_append_singleton _ _).symm
  have hafter : (after actions).answer event reply = after (actions ++ [.answer event reply]) :=
    (after_concat actions (.answer event reply)).symm
  rw [hafter, (h.answer hheld reply).reply?_eq_some_iff
    (by simpa [subscribed_concat, SignalAction.isSubscribe] using hfew)]
  exact ⟨event, by simp [used_concat, usedBy], hs⟩

/-- An event that is given up with its subscription gets an empty answer. -/
theorem Accounts.reply?_discard {handler : ObjectId} {event : SignalEvent}
    (hmem : event ∈ (after actions).waitingFor handler) {s : Nat} (hs : event.slot = some s) :
    ((after actions).discard handler).reply? s = some (.ok []) := by
  have haccounts : Accounts (actions ++ [.discard handler]) held :=
    h.keep (by simp [SignalAction.moves])
  have hafter : (after actions).discard handler = after (actions ++ [.discard handler]) :=
    (after_concat actions (.discard handler)).symm
  rw [hafter, haccounts.reply?_eq_some_iff
    (by simpa [subscribed_concat, SignalAction.isSubscribe] using hfew)]
  exact ⟨event, by simpa [used_concat, usedBy] using .inr hmem, hs⟩

end Few

end Switchboard

namespace Net

variable {net net' : Net} {a : Happening} {happenings : List Happening} {host : Host} {c : Nat}
  {history : Nat → List SignalAction}

/-- The events of a client that somebody has taken and not used up. -/
def heldAt (net : Net) (c : Nat) : List SignalEvent :=
  net.events.filterMap fun held => held.bind fun h => if h.client = c then some h.event else none

/-- What is done from outside with events that were taken. -/
theorem Change.events_cases {signals : List (Nat × SignalAction)} (h : net.Change signals net') :
    (net'.events = net.events ∧ ∀ s ∈ signals, s.2.moves = false) ∨
      (∃ (s : Subscription) (client : Client), net.clients[s.client]? = some client ∧
        signals = [(s.client, .next s.handler)] ∧
        net'.events = net.events ++
          (client.board.next s.handler).1.given.map fun event => some ⟨s.client, event⟩) ∨
      ∃ (n : Nat) (held : HeldEvent) (reply : Reply), net.events[n]?.join = some held ∧
        signals = [(held.client, .answer held.event reply)] ∧
        net'.events = net.events.set n none := by
  induction h with
  | aside halike hpeers => exact .inl ⟨halike.events, by simp⟩
  | spawn | report | join | serve | client => exact .inl ⟨rfl, by simp⟩
  | close | subscribe | unsubscribe | drop => exact .inl ⟨rfl, by simp [SignalAction.moves]⟩
  | trans hfirst hsecond ihfirst ihsecond =>
    obtain ⟨hfirst, -⟩ | ⟨s, client, -, hsignals, -⟩ | ⟨n, held, reply, -, hsignals, -⟩ := ihfirst
    · obtain ⟨hsecond, -⟩ | ⟨s, client, -, hsignals, -⟩ | ⟨n, held, reply, -, hsignals, -⟩ :=
        ihsecond
      · exact .inl ⟨hsecond.trans hfirst, by simp⟩
      · contradiction
      · contradiction
    · contradiction
    · contradiction
  | @next net name s client hs hclient =>
    refine .inr (.inl ⟨s, client, hclient, rfl, ?_⟩)
    cases hfound : (client.board.next s.handler).1 <;> simp [NextEvent.given]
  | @use net n held hheld reply => exact .inr (.inr ⟨n, held, reply, hheld, rfl, rfl⟩)
  | @record net =>
    refine .inl ⟨by rw [takeReports_eq], fun s hs => ?_⟩
    obtain ⟨old, rfl⟩ := eq_discard_of_mem_recordSignals hs
    rfl

theorem actionsAt_of_ne {k : Nat} (hk : k ≠ c) (action : SignalAction) :
    actionsAt c [(k, action)] = [] := by
  simp [actionsAt, hk]

/-- Who is rid of an event holds the others. -/
theorem heldAt_set {n : Nat} {held : HeldEvent} (hheld : net.events[n]?.join = some held)
    (hevents : net'.events = net.events.set n none) (c : Nat) :
    (↑(net.heldAt c) : Multiset SignalEvent) =
      ↑(net'.heldAt c) + ↑(if held.client = c then [held.event] else []) := by
  obtain ⟨o, hn, rfl⟩ : ∃ o, net.events[n]? = some o ∧ o = some held := by
    cases hn : net.events[n]? with
    | none => simp [hn] at hheld
    | some o => exact ⟨o, rfl, by simpa [hn] using hheld⟩
  obtain ⟨hlt, hget⟩ := List.getElem?_eq_some_iff.mp hn
  have hsplit : net.events = net.events.take n ++ some held :: net.events.drop (n + 1) := by
    rw [← hget, getElem_cons_drop, take_append_drop]
  rw [heldAt, heldAt, hevents, set_eq_take_append_cons_drop, if_pos hlt]
  conv_lhs => rw [hsplit]
  by_cases hc : held.client = c
  · simp only [filterMap_append, List.filterMap_cons, bind_none, bind_some, hc,
      if_true, ← coe_add, ← cons_coe, ← singleton_add, coe_nil,
      add_zero]
    abel
  · simp [filterMap_append, hc]

/-- Whatever happens, what was taken is held or has been answered. -/
theorem accounts_happen (h : ∀ c, Switchboard.Accounts (history c) (net.heldAt c))
    (hrecorded : net.Recorded history) (ha : net.happen a = some net') (c : Nat) :
    Switchboard.Accounts (history c ++ net.actionsOf c a) (net'.heldAt c) := by
  have hkeep (hheld : net'.heldAt c = net.heldAt c)
      (hmoves : ∀ action ∈ net.actionsOf c a, action.moves = false) :
      Switchboard.Accounts (history c ++ net.actionsOf c a) (net'.heldAt c) := by
    rw [hheld]
    exact (h c).keep hmoves
  have hsame (hevents : net'.events = net.events)
      (hsignals : ∀ s ∈ net.signals a, s.2.moves = false) :
      Switchboard.Accounts (history c ++ net.actionsOf c a) (net'.heldAt c) :=
    hkeep (by rw [heldAt, heldAt, hevents]) fun action haction =>
      hsignals _ (mem_of_mem_actionsOf haction)
  obtain ⟨t, net₁, next, -, -, -, hstep, rfl, hsignals⟩ | ⟨-, hchange⟩ := happen_cases ha
  · refine hsame ?_ fun s hs => ?_
    · have hplace : (net₁.place t next).events = net₁.events := by cases next <;> rfl
      rw [hplace]
      exact (step_does hstep).events
    · rw [hsignals] at hs
      exact SignalAction.moves_of_not_outside (isOutside_of_mem_stepSignals hs)
  · obtain ⟨hevents, hsignals⟩ | ⟨s, client, hclient, hsignals, hevents⟩ |
      ⟨n, held, reply, hheld, hsignals, hevents⟩ := hchange.events_cases
    · exact hsame hevents hsignals
    · have hlt := (List.getElem?_eq_some_iff.mp hclient).1
      have hmore : net'.heldAt c = net.heldAt c ++
          if s.client = c then (client.board.next s.handler).1.given else [] := by
        rw [heldAt, hevents, filterMap_append, ← heldAt, List.filterMap_map]
        split <;> simp_all
      by_cases hc : s.client = c
      · subst hc
        have hactions : net.actionsOf s.client a = [.next s.handler] := by
          simp [actionsOf, hlt, hsignals, actionsAt]
        rw [hactions, hmore, if_pos rfl, hrecorded.board _ _ hclient]
        exact (h _).next s.handler
      · refine hkeep (by rw [hmore, if_neg hc, append_nil]) ?_
        simp [actionsOf, hsignals, actionsAt_of_ne hc]
    · have hless := heldAt_set hheld hevents
      by_cases hc : held.client = c
      · subst hc
        have hlt : held.client < net.clients.length := by
          -- A client that is not there has no history, so nothing was taken from it.
          by_contra hle
          have htaken := (h held.client).taken
          rw [hrecorded.absent _ (not_lt.mp hle), hless, if_pos rfl] at htaken
          have hcard := congrArg card htaken
          simp [Switchboard.taken, Switchboard.answered] at hcard
        have hactions : net.actionsOf held.client a = [.answer held.event reply] := by
          simp [actionsOf, hlt, hsignals, actionsAt]
        rw [hactions]
        exact (h _).answer (by rw [hless, if_pos rfl, coe_singleton]) reply
      · have heq := hless c
        rw [if_neg hc, coe_nil, add_zero] at heq
        rw [actionsOf, hsignals, actionsAt_of_ne hc, ite_self, append_nil]
        exact ⟨(h c).answers, by rw [← heq, (h c).taken]⟩

theorem accounts_happens (hrun : ({ host } : Net).happens happenings = some net) (c : Nat) :
    Switchboard.Accounts (({ host } : Net).historyOf happenings c) (net.heldAt c) := by
  refine happens_induction (P := fun happenings net =>
    ∀ c, Switchboard.Accounts (({ host } : Net).historyOf happenings c) (net.heldAt c))
    (fun c => ⟨Switchboard.answersTaken_nil, rfl⟩) (fun {happenings a net₁ net₂} hbefore ih ha c => ?_)
    hrun c
  rw [historyOf_concat hbefore]
  exact accounts_happen ih (kept_happens hbefore).recorded ha c

end Net

end Remoting
