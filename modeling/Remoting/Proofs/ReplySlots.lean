import Remoting.Proofs.Signals

/-!
# Remoting.Proofs.ReplySlots

Events and their answers, against the history of a client. A message that waits for a response either
reaches a subscription (`awaited`) or is turned away (`turnedAway`). One that reaches a subscription
becomes an event with a reply slot of its own. Every event is in one place at a time: it waits in an
inbox, somebody has taken it, or it has been used up (`Switchboard.conserved_after`). The reply slot of
an event is filled when it is used up, with what it was answered (`Switchboard.reply?_after`).
-/

namespace Remoting

open List Multiset

/-! ## Requests -/

section Requests

variable {actions : List SignalAction} {a : SignalAction}

/-- A message is a signal, and the subscription that it is for is there. -/
def ReachesAfter (before : List SignalAction) (f : Frame) : Prop :=
  Switchboard.isSignal f.header.kind = true ∧ LiveAfter before f.header.target

instance (f : Frame) : Decidable (ReachesAfter actions f) := inferInstanceAs (Decidable (_ ∧ _))

def awaitedBy (before : List SignalAction) : SignalAction → List Frame
  | .route f =>
    if f.header.kind.expectsResponse = true ∧ ReachesAfter before f then [f] else []
  | _ => []

/-- The messages that wait for a response and reached a subscription. -/
def awaited (actions : List SignalAction) : List Frame := gathered awaitedBy actions

def turnedAwayBy (before : List SignalAction) : SignalAction → List Frame
  | .route f =>
    if f.header.kind.expectsResponse = true ∧ ¬ ReachesAfter before f then [f] else []
  | _ => []

/-- The messages that wait for a response and reached no subscription. -/
def turnedAway (actions : List SignalAction) : List Frame := gathered turnedAwayBy actions

def arisenBy (before : List SignalAction) : SignalAction → List SignalEvent
  | .route f =>
    if ReachesAfter before f then
      [⟨f.payload, if f.header.kind.expectsResponse then some (awaited before).length else none⟩]
    else []
  | _ => []

/-- The events that signals became. Those of messages that wait for a response are numbered. -/
def arisen (actions : List SignalAction) : List SignalEvent := gathered arisenBy actions

theorem awaited_concat (actions : List SignalAction) (a : SignalAction) :
    awaited (actions ++ [a]) = awaited actions ++ awaitedBy actions a := gathered_concat _ _ _

theorem turnedAway_concat (actions : List SignalAction) (a : SignalAction) :
    turnedAway (actions ++ [a]) = turnedAway actions ++ turnedAwayBy actions a :=
  gathered_concat _ _ _

theorem arisen_concat (actions : List SignalAction) (a : SignalAction) :
    arisen (actions ++ [a]) = arisen actions ++ arisenBy actions a := gathered_concat _ _ _

/-- Every event of a message that waits for a response has a slot of its own. -/
theorem filterMap_slot_arisen (actions : List SignalAction) :
    (arisen actions).filterMap (·.slot) = List.range (awaited actions).length := by
  induction actions using reverseRecOn with
  | nil => rfl
  | append_singleton actions a ih =>
    rw [arisen_concat, awaited_concat, filterMap_append, ih]
    cases a with
    | route f =>
      by_cases hreaches : ReachesAfter actions f <;>
        cases hexpects : f.header.kind.expectsResponse <;>
          simp [arisenBy, awaitedBy, hreaches, hexpects, List.range_succ]
    | _ => simp [arisenBy, awaitedBy]

/-- A message that waits for a response became the event that has its slot. -/
theorem mem_arisen_of_awaited {s : Nat} {f : Frame} (hs : (awaited actions)[s]? = some f) :
    (⟨f.payload, some s⟩ : SignalEvent) ∈ arisen actions := by
  induction actions using reverseRecOn with
  | nil => simp [awaited] at hs
  | append_singleton actions a ih =>
    rw [awaited_concat] at hs
    rw [arisen_concat, mem_append]
    obtain hlt | hle := Nat.lt_or_ge s (awaited actions).length
    · rw [getElem?_append_left hlt] at hs
      exact .inl (ih hs)
    · rw [getElem?_append_right hle] at hs
      have hmem := mem_of_getElem? hs
      have hlt := (List.getElem?_eq_some_iff.mp hs).1
      cases a with
      | route g =>
        simp only [awaitedBy] at hmem hlt
        split at hmem
        · next hreaches =>
          obtain rfl := List.mem_singleton.mp hmem
          rw [if_pos hreaches, length_singleton] at hlt
          obtain rfl : s = (awaited actions).length := by omega
          exact .inr (by simp [arisenBy, hreaches])
        · contradiction
      | _ => contradiction

end Requests

/-- The event that looking for one gives. -/
def NextEvent.given : NextEvent → List SignalEvent
  | .event found => [found]
  | _ => []

namespace Switchboard

variable {b : Switchboard} {actions : List SignalAction} {a : SignalAction} {h : ObjectId}
  {i : Inbox}

/-! ## Where messages go -/

/-- Who is reached can be told from the history. -/
theorem reaches_after (hfew : subscribed actions < 2 ^ 64) (f : Frame) :
    (after actions).reaches f.header = true ↔ ReachesAfter actions f := by
  have htells := tells_after hfew f.header.target
  cases hi : (after actions).inbox? f.header.target with
  | none =>
    rw [hi] at htells
    have hdead : ¬ LiveAfter actions f.header.target := fun hlive => htells.1 hlive.1.opened
    simp [reaches, hi, ReachesAfter, hdead]
  | some i =>
    rw [hi] at htells
    rw [reaches_iff hi rfl, htells.2.1, htells.2.2.1, ReachesAfter, LiveAfter]

/-- Answers make no new slots. -/
theorem slots_answer (b : Switchboard) (event : SignalEvent) (reply : Reply) :
    (b.answer event reply).slots.length = b.slots.length := by
  unfold answer
  cases event.slot <;> simp [settle]

theorem slots_foldl_dismiss (events : List SignalEvent) (b : Switchboard) :
    (events.foldl dismiss b).slots.length = b.slots.length := by
  induction events generalizing b with
  | nil => rfl
  | cons event events ih => rw [List.foldl_cons, ih, dismiss, slots_answer]

theorem slots_next (b : Switchboard) (h : ObjectId) : (b.next h).2.slots = b.slots := by
  unfold next
  split
  · rfl
  · split <;> rfl

/-- There is one slot for each request that awaits an answer. -/
theorem length_slots_after (hfew : subscribed actions < 2 ^ 64) :
    (after actions).slots.length = (awaited actions).length := by
  induction actions using reverseRecOn with
  | nil => rfl
  | append_singleton actions a ih =>
    rw [subscribed_concat] at hfew
    replace ih := ih (by omega)
    rw [after_concat, awaited_concat, length_append, ← ih]
    cases a with
    | route f =>
      have hreaches := reaches_after (by omega : subscribed actions < 2 ^ 64) f
      rw [act, route_snd]
      by_cases hr : ReachesAfter actions f <;>
        cases hexpects : f.header.kind.expectsResponse <;>
          simp [hreaches, awaitedBy, hr, hexpects, deposit, update]
    | answer event reply => simp [act, awaitedBy, slots_answer]
    | next h => simp [act, awaitedBy, slots_next]
    | discard h =>
      simp only [act, discard]
      split <;> simp [awaitedBy, slots_foldl_dismiss, update]
    | subscribe | unroute h | unrouteAll =>
      simp [act, awaitedBy, subscribe, unroute, unrouteAll, update]

/-- What becomes of a message can be told from the history. -/
theorem route_after (hfew : subscribed actions < 2 ^ 64) (f : Frame) :
    ((after actions).route f).1 =
      if f.header.kind.expectsResponse then
        if ReachesAfter actions f then .awaiting (awaited actions).length
        else .refused (.errorFor f.header ⟨.dispatch, "no such handler", none⟩)
      else .done := by
  have hreaches := reaches_after hfew f
  by_cases hr : ReachesAfter actions f <;>
    cases hexpects : f.header.kind.expectsResponse <;>
      simp [route, hreaches, hr, hexpects, length_slots_after hfew]

/-! ## Where events are -/

/-- The events that wait in inboxes. -/
def queued (b : Switchboard) : Multiset SignalEvent := ↑(b.inboxes.flatMap (·.events))

def takenBy (before : List SignalAction) : SignalAction → List SignalEvent
  | .next h => ((after before).next h).1.given
  | _ => []

/-- The events that were taken out of inboxes. -/
def taken (actions : List SignalAction) : List SignalEvent := gathered takenBy actions

def answeredBy (_ : List SignalAction) : SignalAction → List SignalEvent
  | .answer event _ => [event]
  | _ => []

/-- The events that were answered after they were taken. -/
def answered (actions : List SignalAction) : List SignalEvent := gathered answeredBy actions

/-- The events that wait for a subscriber. -/
def waitingFor (b : Switchboard) (h : ObjectId) : List SignalEvent :=
  match b.inbox? h with
  | some i => i.events
  | none => []

def usedBy (before : List SignalAction) : SignalAction → List (SignalEvent × Reply)
  | .answer event reply => [(event, reply)]
  | .discard h => ((after before).waitingFor h).map fun event => (event, .ok [])
  | _ => []

/-- The events that are used up, with their answers: those that were answered, and those that were
given up with their subscriptions, which counts as an empty answer. -/
def used (actions : List SignalAction) : List (SignalEvent × Reply) := gathered usedBy actions

theorem taken_concat (actions : List SignalAction) (a : SignalAction) :
    taken (actions ++ [a]) = taken actions ++ takenBy actions a := gathered_concat _ _ _

theorem answered_concat (actions : List SignalAction) (a : SignalAction) :
    answered (actions ++ [a]) = answered actions ++ answeredBy actions a := gathered_concat _ _ _

theorem used_concat (actions : List SignalAction) (a : SignalAction) :
    used (actions ++ [a]) = used actions ++ usedBy actions a := gathered_concat _ _ _

/-- Handlers stay the same when an inbox changes. -/
theorem handlers_update (b : Switchboard) (h : ObjectId) (change : Inbox → Inbox)
    (hhandler : ∀ i, (change i).handler = i.handler) :
    (b.update h change).inboxes.map (·.handler) = b.inboxes.map (·.handler) := by
  rw [update, List.map_map]
  refine map_congr_left fun i _ => ?_
  simp only [Function.comp_apply]
  split <;> simp [hhandler]

/-- An action that asks for no subscription leaves the handlers as they are. -/
theorem handlers_act (ha : a.isSubscribe = false) :
    (b.act a).inboxes.map (·.handler) = b.inboxes.map (·.handler) := by
  cases a with
  | subscribe => contradiction
  | unroute h => exact handlers_update b h _ fun _ => rfl
  | unrouteAll => simp [act, unrouteAll, Function.comp_def]
  | discard h =>
    simp only [act, discard]
    split
    · rfl
    · rw [foldl_dismiss_eq]
      exact handlers_update b h _ fun _ => rfl
  | next h =>
    simp only [act, next]
    split
    · rfl
    · split
      · exact handlers_update b h _ fun _ => rfl
      · rfl
  | route f =>
    rw [act, route_snd]
    split
    · exact handlers_update _ _ _ fun _ => rfl
    · rfl
  | answer event reply => rw [act, answer_eq]

/-- No handler has two inboxes. -/
theorem nodup_handlers_after (hfew : subscribed actions < 2 ^ 64) :
    ((after actions).inboxes.map (·.handler)).Nodup := by
  induction actions using reverseRecOn with
  | nil => exact nodup_nil
  | append_singleton actions a ih =>
    rw [subscribed_concat] at hfew
    replace ih := ih (by omega)
    rw [after_concat]
    cases ha : a.isSubscribe with
    | false => rwa [handlers_act ha]
    | true =>
      obtain rfl : a = .subscribe := by cases a <;> simp_all [SignalAction.isSubscribe]
      rw [if_pos ha] at hfew
      have hnone (i : Inbox) (hi : i ∈ (after actions).inboxes) :
          i.handler ≠ (after actions).subscribe.1 := by
        simpa using find?_eq_none.mp (inbox?_subscribe_after hfew) i hi
      simp only [act, subscribe, map_append, List.map_cons, map_nil]
      refine ih.append (List.nodup_singleton _) ?_
      simpa [List.disjoint_right, subscribe] using hnone

/-- The inbox of a handler among the others. -/
theorem exists_inboxes_eq (hdistinct : (b.inboxes.map (·.handler)).Nodup)
    (hi : b.inbox? h = some i) :
    ∃ before later, b.inboxes = before ++ i :: later ∧
      (∀ j ∈ before, j.handler ≠ h) ∧ ∀ j ∈ later, j.handler ≠ h := by
  have hhandler := handler_of_inbox? hi
  obtain ⟨before, later, heq⟩ := append_of_mem (mem_of_find?_eq_some hi)
  rw [heq, map_append, List.map_cons, nodup_append, List.nodup_cons, hhandler] at hdistinct
  refine ⟨before, later, heq, fun j hj hsame => ?_, fun j hj hsame => ?_⟩
  · exact hdistinct.2.2 _ (List.mem_map_of_mem hj) h List.mem_cons_self hsame
  · exact hdistinct.2.1.1 (hsame ▸ List.mem_map_of_mem hj)

/-- A change of one inbox changes the events of no other. -/
theorem queued_update (hdistinct : (b.inboxes.map (·.handler)).Nodup) (hi : b.inbox? h = some i)
    (change : Inbox → Inbox) :
    (b.update h change).queued + ↑i.events = b.queued + ↑(change i).events := by
  have hhandler := handler_of_inbox? hi
  obtain ⟨before, later, heq, hbefore, hlater⟩ := exists_inboxes_eq hdistinct hi
  have hsame {inboxes : List Inbox} (hne : ∀ j ∈ inboxes, j.handler ≠ h) :
      (inboxes.map fun j => if j.handler = h then change j else j) = inboxes := by
    rw [map_congr_left fun j hj => if_neg (hne j hj), List.map_id']
  rw [queued, queued, update, heq, map_append, List.map_cons, hsame hbefore, hsame hlater,
    if_pos hhandler]
  simp only [flatMap_append, flatMap_cons, ← coe_add]
  abel

/-- Subscribing queues no event. -/
theorem queued_subscribe (b : Switchboard) : b.subscribe.2.queued = b.queued := by
  simp [queued, subscribe]

/-- Ending the routing drops no event. -/
theorem queued_unroute (b : Switchboard) (h : ObjectId) : (b.unroute h).queued = b.queued := by
  simp [queued, unroute, update, flatMap_map, apply_ite Inbox.events]

theorem queued_unrouteAll (b : Switchboard) : b.unrouteAll.queued = b.queued := by
  simp [queued, unrouteAll, flatMap_map]

/-- Looking for an event takes the one that it gives out of the inbox. -/
theorem queued_next (hdistinct : (b.inboxes.map (·.handler)).Nodup) (h : ObjectId) :
    b.queued = (b.next h).2.queued + ↑(b.next h).1.given := by
  cases hi : b.inbox? h with
  | none => simp [next, hi, NextEvent.given]
  | some i =>
    cases hevents : i.events with
    | nil => cases hrouted : i.routed <;> simp [next, hi, hevents, hrouted, NextEvent.given]
    | cons event events =>
      have hupdate := queued_update hdistinct hi fun i => { i with events }
      simp only [next, hi, hevents, NextEvent.given] at hupdate ⊢
      rw [← cons_coe, ← singleton_add, ← coe_singleton,
        ← add_assoc] at hupdate
      exact (add_right_cancel hupdate).symm

theorem queued_foldl_dismiss (events : List SignalEvent) (b : Switchboard) :
    (events.foldl dismiss b).queued = b.queued := by
  rw [foldl_dismiss_eq]
  rfl

/-- Giving up a subscription uses up the events that wait for it. -/
theorem queued_discard (hdistinct : (b.inboxes.map (·.handler)).Nodup) (h : ObjectId) :
    b.queued = (b.discard h).queued + ↑(b.waitingFor h) := by
  cases hi : b.inbox? h with
  | none => simp [discard, waitingFor, hi]
  | some i =>
    have hupdate := queued_update hdistinct hi fun i => { i with events := [], listening := false }
    simp only [discard, waitingFor, hi, queued_foldl_dismiss]
    simpa using hupdate.symm

/-- A signal that reaches a subscription becomes an event that waits there. -/
theorem queued_route (hdistinct : (b.inboxes.map (·.handler)).Nodup) (f : Frame) :
    (b.route f).2.queued = b.queued +
      ↑(if b.reaches f.header then
          [(⟨f.payload, if f.header.kind.expectsResponse then some b.slots.length else none⟩ :
            SignalEvent)]
        else []) := by
  rw [route_snd]
  split
  · next hreaches =>
    simp only [reaches, Bool.and_eq_true] at hreaches
    cases hi : b.inbox? f.header.target with
    | none => simp [hi] at hreaches
    | some i =>
      have hupdate := queued_update hdistinct hi fun i =>
        { i with
          events := i.events ++
            [⟨f.payload, if f.header.kind.expectsResponse then some b.slots.length else none⟩] }
      rw [← coe_add, add_left_comm, add_comm] at hupdate
      exact add_left_cancel hupdate
  · simp

/-- Every event waits in an inbox, was taken, or is used up, and is in one of these places only. -/
theorem conserved_after (hfew : subscribed actions < 2 ^ 64) :
    (↑(arisen actions) : Multiset SignalEvent) + ↑(answered actions) =
      (after actions).queued + ↑(taken actions) + ↑((used actions).map (·.1)) := by
  induction actions using reverseRecOn with
  | nil => rfl
  | append_singleton actions a ih =>
    rw [subscribed_concat] at hfew
    replace hfew : subscribed actions < 2 ^ 64 := by omega
    have hdistinct := nodup_handlers_after hfew
    replace ih := ih hfew
    rw [arisen_concat, answered_concat, taken_concat, used_concat, after_concat]
    simp only [map_append, ← coe_add]
    cases a with
    | route f =>
      have hroute := queued_route hdistinct f
      simp only [reaches_after hfew, length_slots_after hfew] at hroute
      simp only [act, hroute, arisenBy, answeredBy, takenBy, usedBy, map_nil,
        coe_nil, add_zero]
      rw [add_right_comm, ih]
      abel
    | next h =>
      have hnext := queued_next hdistinct h
      rw [hnext] at ih
      simp only [act, arisenBy, answeredBy, takenBy, usedBy, map_nil, coe_nil,
        add_zero]
      rw [ih]
      abel
    | discard h =>
      have hdiscard := queued_discard hdistinct h
      rw [hdiscard] at ih
      simp only [act, arisenBy, answeredBy, takenBy, usedBy, List.map_map, Function.comp_def,
        List.map_id', coe_nil, add_zero]
      rw [ih]
      abel
    | answer event reply =>
      have hanswer : ((after actions).answer event reply).queued = (after actions).queued := by
        rw [answer_eq]
        rfl
      simp only [act, hanswer, arisenBy, answeredBy, takenBy, usedBy, List.map_cons,
        map_nil, coe_nil, add_zero]
      rw [← add_assoc, ih]
      abel
    | subscribe | unroute h | unrouteAll =>
      simpa [act, queued_subscribe, queued_unroute, queued_unrouteAll, arisenBy, answeredBy,
        takenBy, usedBy] using ih

/-! ## Answers -/

/-- Only events are answered that were taken and have not been answered. -/
def AnswersTaken (actions : List SignalAction) : Prop :=
  ∀ before event reply, before ++ [.answer event reply] <+: actions →
    (↑(answered before) : Multiset SignalEvent) + {event} ≤ ↑(taken before)

theorem answersTaken_nil : AnswersTaken [] := by
  simp [AnswersTaken]

/-- One more answer must be to an event that was taken and not answered. -/
theorem answersTaken_concat :
    AnswersTaken (actions ++ [a]) ↔ AnswersTaken actions ∧ ∀ event reply, a = .answer event reply →
      (↑(answered actions) : Multiset SignalEvent) + {event} ≤ ↑(taken actions) := by
  constructor
  · intro h
    refine ⟨fun before event reply hbefore =>
      h before event reply (hbefore.trans (prefix_append _ _)), ?_⟩
    rintro event reply rfl
    exact h actions event reply prefix_rfl
  · rintro ⟨hbefore, hlast⟩ before event reply hprefix
    obtain heq | hprefix := prefix_concat_iff.mp hprefix
    · obtain ⟨rfl, hsame⟩ := append_inj' heq rfl
      exact hlast event reply (by simpa using hsame.symm)
    · exact hbefore before event reply hprefix

/-- What was answered had been taken. -/
theorem AnswersTaken.answered_le (h : AnswersTaken actions) :
    (↑(answered actions) : Multiset SignalEvent) ≤ ↑(taken actions) := by
  induction actions using reverseRecOn with
  | nil => exact le_rfl
  | append_singleton actions a ih =>
    obtain ⟨hbefore, hlast⟩ := answersTaken_concat.mp h
    rw [answered_concat, taken_concat, ← coe_add, ← coe_add]
    cases a with
    | answer event reply =>
      simpa [answeredBy, takenBy] using hlast event reply rfl
    | _ =>
      simp only [answeredBy, coe_nil, add_zero]
      exact (ih hbefore).trans (Multiset.le_add_right _ _)

/-- What has been filled into a reply slot when some events are used up. -/
def replyTo (used : List (SignalEvent × Reply)) (slot : Nat) : Option Reply :=
  (used.find? (·.1.slot == some slot)).map (·.2)

/-- Answering an event fills its slot. -/
theorem reply?_answer {used : List (SignalEvent × Reply)} {event : SignalEvent}
    (hreply : ∀ s, b.reply? s = replyTo used s) (hslot : ∀ s ∈ event.slot, s < b.slots.length)
    (hunused : ∀ s ∈ event.slot, ∀ u ∈ used, u.1.slot ≠ some s) (reply : Reply) (s : Nat) :
    (b.answer event reply).reply? s = replyTo (used ++ [(event, reply)]) s := by
  have hbefore := hreply s
  cases hevent : event.slot with
  | none => simpa [answer, hevent, replyTo, find?_append] using hbefore
  | some s' =>
    have hlt := hslot s' hevent
    by_cases hs : s' = s
    · subst hs
      have hnone : used.find? (·.1.slot == some s') = none := by
        simpa using hunused s' hevent
      simp [answer, hevent, settle, reply?, replyTo, find?_append, hnone, hlt]
    · have hsame : (b.settle s' reply).reply? s = b.reply? s := by
        simp [settle, reply?, getElem?_set_ne hs]
      simp [answer, hevent, hsame, hbefore, replyTo, find?_append, hs]

/-- Answers to events with slots of their own are found there. -/
theorem reply?_foldl_answer {used : List (SignalEvent × Reply)} {events : List SignalEvent}
    (hreply : ∀ s, b.reply? s = replyTo used s)
    (hslots : ∀ event ∈ events, ∀ s ∈ event.slot, s < b.slots.length)
    (hdistinct : ((used.map (·.1) ++ events).filterMap (·.slot)).Nodup) (reply : Reply) (s : Nat) :
    (events.foldl (fun b event => b.answer event reply) b).reply? s =
      replyTo (used ++ events.map fun event => (event, reply)) s := by
  induction events generalizing b used with
  | nil => simpa using hreply s
  | cons event events ih =>
    have hunused (s : Nat) (hs : s ∈ event.slot) (u : SignalEvent × Reply) (hu : u ∈ used) :
        u.1.slot ≠ some s := by
      intro hsame
      rw [filterMap_append, nodup_append] at hdistinct
      refine hdistinct.2.2 s ?_ s ?_ rfl
      · exact List.mem_filterMap.mpr ⟨u.1, List.mem_map_of_mem hu, hsame⟩
      · exact List.mem_filterMap.mpr ⟨event, List.mem_cons_self, hs⟩
    have hfirst := reply?_answer hreply (hslots event List.mem_cons_self) hunused reply
    rw [List.foldl_cons, ih hfirst, List.map_cons, append_assoc, singleton_append]
    · intro event' hevent' s hs
      rw [slots_answer]
      exact hslots event' (List.mem_cons_of_mem _ hevent') s hs
    · simpa [append_assoc] using hdistinct

/-- Events that are not the same have different slots, and these are there. -/
theorem slots_of_le_arisen {more : List SignalEvent}
    (h : (↑more : Multiset SignalEvent) ≤ ↑(arisen actions)) :
    (more.filterMap (·.slot)).Nodup ∧
      ∀ event ∈ more, ∀ s ∈ event.slot, s < (awaited actions).length := by
  have hle := filterMap_le_filterMap (fun event : SignalEvent => event.slot) h
  rw [filterMap_coe, filterMap_coe, filterMap_slot_arisen] at hle
  refine ⟨coe_nodup.mp (nodup_of_le hle ?_), fun event hevent s hs => ?_⟩
  · exact coe_nodup.mpr List.nodup_range
  · have hmem : s ∈ more.filterMap (·.slot) := List.mem_filterMap.mpr ⟨event, hevent, hs⟩
    exact List.mem_range.mp (mem_coe.mp (mem_of_le hle hmem))

/-- Events that wait or were taken, and have not been used up, are used up now. -/
theorem reply?_use (hfew : subscribed actions < 2 ^ 64) {more : List SignalEvent}
    (hreply : ∀ s, b.reply? s = replyTo (used actions) s)
    (hslots : b.slots.length = (awaited actions).length)
    (hmore : (↑(answered actions) : Multiset SignalEvent) + ↑more ≤
      (after actions).queued + ↑(taken actions)) (reply : Reply) (s : Nat) :
    (more.foldl (fun b event => b.answer event reply) b).reply? s =
      replyTo (used actions ++ more.map fun event => (event, reply)) s := by
  have hle : (↑((used actions).map (·.1) ++ more) : Multiset SignalEvent) ≤ ↑(arisen actions) := by
    have hconserved := conserved_after hfew
    obtain ⟨rest, hrest⟩ := Multiset.le_iff_exists_add.mp hmore
    refine Multiset.le_iff_exists_add.mpr ⟨rest, ?_⟩
    rw [hrest, add_comm, add_assoc, add_assoc] at hconserved
    rw [add_left_cancel hconserved, ← coe_add]
    abel
  obtain ⟨hdistinct, hlt⟩ := slots_of_le_arisen hle
  refine reply?_foldl_answer hreply (fun event hevent s hs => ?_) hdistinct reply s
  rw [hslots]
  exact hlt event (mem_append_right _ hevent) s hs

theorem reply?_congr {b' : Switchboard} (h : b'.slots = b.slots) (s : Nat) :
    b'.reply? s = b.reply? s := by
  rw [reply?, reply?, h]

/-- A new request changes no answer. -/
theorem reply?_route (b : Switchboard) (f : Frame) (s : Nat) :
    (b.route f).2.reply? s = b.reply? s := by
  rw [route_snd]
  split
  · cases hexpects : f.header.kind.expectsResponse with
    | false => simp [reply?, deposit, update]
    | true =>
      -- The new slot is empty.
      obtain hlt | hle := Nat.lt_or_ge s b.slots.length
      · simp [reply?, deposit, update, getElem?_append_left hlt]
      · have hnone : ([none] : List (Option Reply))[s - b.slots.length]?.join = none := by
          cases s - b.slots.length <;> rfl
        simp [reply?, deposit, update, getElem?_append_right hle, hnone, hle]
  · rfl

/-- A reply slot holds what its event was answered when it was used up. -/
theorem reply?_after (hfew : subscribed actions < 2 ^ 64) (htaken : AnswersTaken actions)
    (s : Nat) :
    (after actions).reply? s = replyTo (used actions) s := by
  induction actions using reverseRecOn generalizing s with
  | nil => simp [after, acts, reply?, replyTo, used]
  | append_singleton actions a ih =>
    rw [subscribed_concat] at hfew
    replace hfew : subscribed actions < 2 ^ 64 := by omega
    obtain ⟨hbefore, hlast⟩ := answersTaken_concat.mp htaken
    replace ih := ih hfew hbefore
    have hslots := length_slots_after hfew
    rw [after_concat, used_concat]
    cases a with
    | answer event reply =>
      have hmore := (hlast event reply rfl).trans
        (Multiset.le_add_left _ (after actions).queued)
      exact reply?_use hfew ih hslots hmore reply s
    | discard h =>
      simp only [act, discard, usedBy, waitingFor]
      cases hi : (after actions).inbox? h with
      | none => simpa using ih s
      | some i =>
        have hqueued := queued_discard (nodup_handlers_after hfew) h
        simp only [waitingFor, hi] at hqueued
        refine reply?_use hfew (b := (after actions).update h _) ih hslots ?_ (.ok []) s
        rw [hqueued, add_right_comm]
        refine add_le_add ?_ le_rfl
        exact hbefore.answered_le.trans (Multiset.le_add_left _ _)
    | route f => simpa [act, usedBy, reply?_route] using ih s
    | next h => simpa [act, usedBy, reply?_congr (slots_next _ h)] using ih s
    | subscribe | unroute h | unrouteAll =>
      simp only [usedBy, append_nil]
      exact ih s

end Switchboard

end Remoting
