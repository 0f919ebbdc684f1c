import Remoting.Client.Switchboard
import Remoting.Proofs.History

/-!
# Remoting.Proofs.Signals

The subscriptions of a client against their history. Everything that can be done with them is a
`SignalAction`, and `Switchboard.after` is what a list of actions makes of a new client.

From the actions alone it can be told whether signals are routed to a handler (`RoutedAfter`) and
whether its subscription is still there (`ListeningAfter`), and so which signals were conveyed to it
(`conveyed`). What a subscription has yielded, followed by what waits in its inbox, is what was
conveyed to it (`Switchboard.tells_after`): nothing is lost, doubled or put elsewhere. So the next
event of a subscription can be told as well (`Switchboard.nextIs_after`).
-/

namespace Remoting

open List Option

/-- Something that is done with the subscriptions of a client. -/
inductive SignalAction where
  /-- A subscription is asked for; it gets the next handler number. -/
  | subscribe
  /-- No more signals go to a handler. -/
  | unroute (handler : ObjectId)
  /-- No more signals go to any handler. -/
  | unrouteAll
  /-- A subscription is given up. -/
  | discard (handler : ObjectId)
  /-- The subscriber looks for the next event. -/
  | next (handler : ObjectId)
  /-- A message comes in. -/
  | route (frame : Frame)
  /-- An event that was taken is used up. -/
  | answer (event : SignalEvent) (reply : Reply)

namespace SignalAction

def isSubscribe : SignalAction → Bool
  | .subscribe => true
  | _ => false

/-- Whether an action is something that only users of subscriptions do. -/
def isOutside : SignalAction → Bool
  | .subscribe | .next _ | .answer _ _ => true
  | _ => false

/-- Whether an action ends the routing to a handler. -/
def unroutes (handler : ObjectId) : SignalAction → Bool
  | .unroute h => h = handler
  | .unrouteAll => true
  | _ => false

/-- Whether an action gives up the subscription of a handler. -/
def discards (handler : ObjectId) : SignalAction → Bool
  | .discard h => h = handler
  | _ => false

end SignalAction

/-! ## What a history tells -/

section History

variable {actions : List SignalAction} {a : SignalAction} {h : ObjectId}

/-- How many subscriptions were asked for. -/
def subscribed (actions : List SignalAction) : Nat := actions.countP (·.isSubscribe)

/-- An action asks for the subscription of a handler. -/
def Opens (h : ObjectId) (before : List SignalAction) (a : SignalAction) : Prop :=
  a.isSubscribe = true ∧ h.val.toNat = subscribed before + 1

instance (before : List SignalAction) : Decidable (Opens h before a) :=
  inferInstanceAs (Decidable (_ ∧ _))

/-- The subscription was asked for. -/
def OpenedAfter (actions : List SignalAction) (h : ObjectId) : Prop := Happened (Opens h) actions

/-- The subscription was asked for, and signals have been routed to its handler since. -/
def RoutedAfter (actions : List SignalAction) (h : ObjectId) : Prop :=
  Since (Opens h) (·.unroutes h = false) actions

/-- The subscription was asked for and has not been given up since. -/
def ListeningAfter (actions : List SignalAction) (h : ObjectId) : Prop :=
  Since (Opens h) (·.discards h = false) actions

/-- Signals get to the handler, and its subscription is there. -/
def LiveAfter (actions : List SignalAction) (h : ObjectId) : Prop :=
  RoutedAfter actions h ∧ ListeningAfter actions h

instance : Decidable (RoutedAfter actions h) := inferInstanceAs (Decidable (Since _ _ _))

instance : Decidable (ListeningAfter actions h) := inferInstanceAs (Decidable (Since _ _ _))

instance : Decidable (LiveAfter actions h) := inferInstanceAs (Decidable (_ ∧ _))

/-- What an action conveys to a handler: the payload of a signal that names the handler while it is
live. -/
def conveyedBy (h : ObjectId) (before : List SignalAction) : SignalAction → List (List Field)
  | .route f =>
    if Switchboard.isSignal f.header.kind = true ∧ f.header.target = h ∧ LiveAfter before h then
      [f.payload]
    else []
  | _ => []

/-- The payloads of the signals that were conveyed to a handler, in the order of their arrival. -/
def conveyed (h : ObjectId) (actions : List SignalAction) : List (List Field) :=
  gathered (conveyedBy h) actions

theorem subscribed_concat (actions : List SignalAction) (a : SignalAction) :
    subscribed (actions ++ [a]) = subscribed actions + if a.isSubscribe then 1 else 0 := by
  simp [subscribed, countP_append, countP_singleton]

theorem subscribed_append (actions more : List SignalAction) :
    subscribed (actions ++ more) = subscribed actions + subscribed more := countP_append

/-- A handler is opened by one more action or was before. -/
theorem openedAfter_concat :
    OpenedAfter (actions ++ [a]) h ↔ OpenedAfter actions h ∨ Opens h actions a := happened_concat

/-- Signals are routed from a subscription on, until the routing ends. -/
theorem routedAfter_concat :
    RoutedAfter (actions ++ [a]) h ↔
      Opens h actions a ∨ (RoutedAfter actions h ∧ a.unroutes h = false) := since_concat

/-- A handler is listened to from its subscription on, until it is given up. -/
theorem listeningAfter_concat :
    ListeningAfter (actions ++ [a]) h ↔
      Opens h actions a ∨ (ListeningAfter actions h ∧ a.discards h = false) := since_concat

theorem conveyed_concat (h : ObjectId) (actions : List SignalAction) (a : SignalAction) :
    conveyed h (actions ++ [a]) = conveyed h actions ++ conveyedBy h actions a :=
  gathered_concat _ _ _

/-- Handlers are numbered in the order in which their subscriptions were asked for. -/
theorem toNat_le_of_openedAfter (hopened : OpenedAfter actions h) :
    h.val.toNat ≤ subscribed actions := by
  obtain ⟨before, a, since, rfl, ha, hnumber⟩ := hopened
  have hlater : subscribed (a :: since) = subscribed since + 1 := List.countP_cons_of_pos ha
  rw [subscribed_append]
  omega

/-- No handler is opened twice. -/
theorem not_openedAfter_of_opens (hopens : Opens h actions a) : ¬ OpenedAfter actions h := by
  intro hopened
  have hle := toNat_le_of_openedAfter hopened
  have hnumber := hopens.2
  omega

/-- Only what was subscribed to is routed. -/
theorem RoutedAfter.opened (hrouted : RoutedAfter actions h) : OpenedAfter actions h := by
  obtain ⟨before, a, since, heq, hopens, -⟩ := hrouted
  exact ⟨before, a, since, heq, hopens⟩

theorem ListeningAfter.opened (hlistening : ListeningAfter actions h) : OpenedAfter actions h := by
  obtain ⟨before, a, since, heq, hopens, -⟩ := hlistening
  exact ⟨before, a, since, heq, hopens⟩

/-- A handler is listened to as long as nobody gives it up. -/
theorem ListeningAfter.append (hlistening : ListeningAfter actions h) {more : List SignalAction}
    (hmore : ∀ a ∈ more, a.discards h = false) : ListeningAfter (actions ++ more) h := by
  obtain ⟨before, a, since, rfl, hopens, hsince⟩ := hlistening
  refine ⟨before, a, since ++ more, by simp, hopens, ?_⟩
  rw [forall_mem_append]
  exact ⟨hsince, hmore⟩

/-- Without new subscriptions, what is routed was routed before and has not been unrouted. -/
theorem routedAfter_append_iff {more : List SignalAction}
    (hmore : ∀ a ∈ more, a.isSubscribe = false) :
    RoutedAfter (actions ++ more) h ↔
      RoutedAfter actions h ∧ ∀ a ∈ more, a.unroutes h = false := by
  induction more using reverseRecOn with
  | nil => simp
  | append_singleton more a ih =>
    rw [forall_mem_append, forall_mem_singleton] at hmore
    have hnot : ¬ Opens h (actions ++ more) a := by simp [Opens, hmore.2]
    rw [← append_assoc, routedAfter_concat, ih hmore.1, forall_mem_append,
      forall_mem_singleton]
    simp [hnot, and_assoc]

end History

/-! ## Inboxes -/

/-- What an action makes of an inbox that is there, when so many reply slots have been made. -/
def SignalAction.effect (slots : Nat) (i : Inbox) : SignalAction → Inbox
  | .subscribe | .answer _ _ => i
  | .unroute h => if i.handler = h then { i with routed := false } else i
  | .unrouteAll => { i with routed := false }
  | .discard h => if i.handler = h then { i with events := [], listening := false } else i
  | .next h => if i.handler = h then { i with events := i.events.tail } else i
  | .route f =>
    if Switchboard.isSignal f.header.kind ∧ f.header.target = i.handler ∧
        i.routed ∧ i.listening then
      { i with
        events := i.events ++
          [⟨f.payload, if f.header.kind.expectsResponse then some slots else none⟩] }
    else i

namespace Switchboard

open SignalAction (effect unroutes discards)

variable {b : Switchboard} {actions : List SignalAction} {a : SignalAction} {h : ObjectId}
  {i : Inbox}

/-- The subscriptions after one action. -/
def act (b : Switchboard) : SignalAction → Switchboard
  | .subscribe => b.subscribe.2
  | .unroute h => b.unroute h
  | .unrouteAll => b.unrouteAll
  | .discard h => b.discard h
  | .next h => (b.next h).2
  | .route f => (b.route f).2
  | .answer event reply => b.answer event reply

/-- The subscriptions after some actions. -/
def acts (b : Switchboard) (actions : List SignalAction) : Switchboard := actions.foldl act b

/-- The subscriptions after some actions, from the beginning. -/
def after (actions : List SignalAction) : Switchboard := acts {} actions

theorem after_append (actions more : List SignalAction) :
    after (actions ++ more) = (after actions).acts more := foldl_append

theorem after_concat (actions : List SignalAction) (a : SignalAction) :
    after (actions ++ [a]) = (after actions).act a := after_append actions [a]

theorem handler_of_inbox? (hi : b.inbox? h = some i) : i.handler = h := by
  simpa using List.find?_some hi

/-- A change of all inboxes, seen in one of them. -/
theorem inbox?_map (b : Switchboard) (change : Inbox → Inbox)
    (hhandler : ∀ i, (change i).handler = i.handler) (h : ObjectId) :
    inbox? { b with inboxes := b.inboxes.map change } h = (b.inbox? h).map change := by
  simp only [inbox?, find?_map]
  congr 2
  funext i
  simp [hhandler]

/-- A change of one inbox is seen in no other. -/
theorem inbox?_update (b : Switchboard) (h' : ObjectId) (change : Inbox → Inbox)
    (hhandler : ∀ i, (change i).handler = i.handler) (h : ObjectId) :
    (b.update h' change).inbox? h =
      (b.inbox? h).map fun i => if i.handler = h' then change i else i :=
  inbox?_map b _ (fun i => by split <;> simp [hhandler]) h

/-- Answers concern reply slots only. -/
theorem answer_eq (b : Switchboard) (event : SignalEvent) (reply : Reply) :
    b.answer event reply = { b with slots := (b.answer event reply).slots } := by
  unfold answer
  cases event.slot <;> rfl

/-- So does dismissing events. -/
theorem foldl_dismiss_eq (events : List SignalEvent) (b : Switchboard) :
    events.foldl dismiss b = { b with slots := (events.foldl dismiss b).slots } := by
  induction events generalizing b with
  | nil => rfl
  | cons event events ih =>
    rw [List.foldl_cons, ih, dismiss, answer_eq]

/-- Giving a handler up empties its inbox. -/
theorem inbox?_discard (b : Switchboard) (h' h : ObjectId) :
    (b.discard h').inbox? h =
      (b.inbox? h).map fun i =>
        if i.handler = h' then { i with events := [], listening := false } else i := by
  cases hi : b.inbox? h' with
  | none =>
    cases hi' : b.inbox? h <;> grind [discard, handler_of_inbox?]
  | some inbox =>
    simp only [discard, hi]
    rw [foldl_dismiss_eq]
    exact inbox?_update b h' (fun i => { i with events := [], listening := false })
      (fun _ => rfl) h

/-- The next event comes off its own inbox. -/
theorem inbox?_next (b : Switchboard) (h' h : ObjectId) :
    (b.next h').2.inbox? h =
      (b.inbox? h).map fun i =>
        if i.handler = h' then { i with events := i.events.tail } else i := by
  cases hi : b.inbox? h' with
  | none =>
    cases hi' : b.inbox? h <;> grind [next, handler_of_inbox?]
  | some inbox =>
    have hhandler := handler_of_inbox? hi
    obtain ⟨handler, events, routed, listening⟩ := inbox
    cases events with
    | nil => cases hi' : b.inbox? h <;> grind [next, handler_of_inbox?]
    | cons event events =>
      have hupdate := inbox?_update b h' (fun i => { i with events }) (fun _ => rfl) h
      cases hi' : b.inbox? h <;> grind [next, handler_of_inbox?]

/-- A signal that reaches a subscription becomes an event there, with a reply slot if its sender
waits for an answer; anything else leaves the subscriptions as they are. -/
theorem route_snd (b : Switchboard) (f : Frame) :
    (b.route f).2 =
      if b.reaches f.header then
        { b with slots := b.slots ++ if f.header.kind.expectsResponse then [none] else [] }.deposit
          f.header.target
          ⟨f.payload, if f.header.kind.expectsResponse then some b.slots.length else none⟩
      else b := by
  unfold route
  by_cases hreaches : b.reaches f.header = true <;>
    by_cases hexpects : f.header.kind.expectsResponse = true <;> simp [hreaches, hexpects]

/-- Who is reached is routed to and listens. -/
theorem reaches_iff (hi : b.inbox? h = some i) {header : Header} (htarget : header.target = h) :
    b.reaches header = true ↔
      isSignal header.kind = true ∧ i.routed = true ∧ i.listening = true := by
  simp [reaches, htarget, hi]

/-- A frame that is routed gets into the inbox of its target. -/
theorem inbox?_route (b : Switchboard) (f : Frame) (h : ObjectId) :
    (b.route f).2.inbox? h =
      (b.inbox? h).map fun i => effect b.slots.length i (.route f) := by
  have hdeposit (b : Switchboard) (event : SignalEvent) :
      (b.deposit f.header.target event).inbox? h =
        (b.inbox? h).map fun i =>
          if i.handler = f.header.target then { i with events := i.events ++ [event] } else i :=
    inbox?_update b _ (fun i => { i with events := i.events ++ [event] }) (fun _ => rfl) h
  have hslots (slots : List (Option Reply)) : inbox? { b with slots } h = b.inbox? h := rfl
  rw [route_snd]
  cases hi : b.inbox? h with
  | none => split <;> simp [hdeposit, hslots, hi]
  | some i =>
    have hhandler := handler_of_inbox? hi
    by_cases htarget : f.header.target = h
    · have hreaches := reaches_iff hi htarget
      split <;> simp_all [effect]
    · have hne : i.handler ≠ f.header.target := by simp [hhandler, Ne.symm htarget]
      have hsame : effect b.slots.length i (.route f) = i := by
        simp [effect, hhandler, htarget]
      split <;> simp [hdeposit, hslots, hi, hne, hsame]

/-- An action that asks for no subscription changes each inbox on its own. -/
theorem inbox?_act (ha : a.isSubscribe = false) (h : ObjectId) :
    (b.act a).inbox? h = (b.inbox? h).map fun i => a.effect b.slots.length i := by
  cases a with
  | subscribe => contradiction
  | unroute h' =>
    exact inbox?_update b h' (fun i => { i with routed := false }) (fun _ => rfl) h
  | unrouteAll => exact inbox?_map b (fun i => { i with routed := false }) (fun _ => rfl) h
  | discard h' => exact inbox?_discard b h' h
  | next h' => exact inbox?_next b h' h
  | route f => exact inbox?_route b f h
  | answer event reply =>
    rw [act, answer_eq]
    simp [inbox?, effect]

/-- A new subscription has a handler of its own; the others are as they were. -/
theorem inbox?_subscribe (b : Switchboard) (h : ObjectId) :
    b.subscribe.2.inbox? h =
      (b.inbox? h).or (if b.subscribe.1 = h then some { handler := h } else none) := by
  simp only [subscribe, inbox?, find?_append, List.find?_singleton]
  congr 1
  by_cases hh : (⟨b.ids.take.1⟩ : ObjectId) = h <;> simp [hh]

/-! ## Inboxes and history -/

/-- Only subscriptions use numbers up. -/
theorem ids_act (ha : a.isSubscribe = false) : (b.act a).ids = b.ids := by
  cases a with
  | subscribe => contradiction
  | unroute h' => rfl
  | unrouteAll => rfl
  | discard h' =>
    simp only [act, discard]
    cases b.inbox? h' with
    | none => rfl
    | some i =>
      dsimp only
      rw [foldl_dismiss_eq]
      rfl
  | next h' =>
    simp only [act, next]
    cases b.inbox? h' with
    | none => rfl
    | some i =>
      dsimp only
      split <;> rfl
  | route f =>
    rw [act, route_snd]
    split <;> rfl
  | answer event reply => rw [act, answer_eq]

/-- The next number counts the subscriptions so far. -/
theorem next_ids_after (actions : List SignalAction) :
    (after actions).ids.next = UInt64.ofNat (subscribed actions + 1) := by
  induction actions using reverseRecOn with
  | nil => rfl
  | append_singleton actions a ih =>
    rw [after_concat, subscribed_concat]
    cases ha : a.isSubscribe with
    | false => simpa [ids_act ha] using ih
    | true =>
      cases a with
      | subscribe =>
        show (after actions).ids.next + 1 = _
        rw [ih]
        simp
      | _ => contradiction

/-- The next subscription gets the number after those that were handed out. -/
theorem subscribe_after_eq_iff (hfew : subscribed actions + 1 < 2 ^ 64) :
    (after actions).subscribe.1 = h ↔ h.val.toNat = subscribed actions + 1 := by
  have hnext : (after actions).subscribe.1 = ⟨UInt64.ofNat (subscribed actions + 1)⟩ :=
    congrArg ObjectId.mk (next_ids_after actions)
  have hnumber : (UInt64.ofNat (subscribed actions + 1)).toNat = subscribed actions + 1 := by
    rw [UInt64.toNat_ofNat', Nat.mod_eq_of_lt hfew]
  rw [hnext]
  constructor
  · rintro rfl
    exact hnumber
  · intro heq
    have hval : h.val = UInt64.ofNat (subscribed actions + 1) :=
      UInt64.toNat_inj.mp (heq.trans hnumber.symm)
    exact congrArg ObjectId.mk hval.symm

/-- What an action yields to a subscriber. -/
def yieldedBy (h : ObjectId) (before : List SignalAction) : SignalAction → List (List Field)
  | .next h' =>
    if h' = h then
      match ((after before).next h).1 with
      | .event event => [event.args]
      | _ => []
    else []
  | _ => []

/-- The events that a subscription has yielded. -/
def yielded (h : ObjectId) (actions : List SignalAction) : List (List Field) :=
  gathered (yieldedBy h) actions

theorem yielded_concat (h : ObjectId) (actions : List SignalAction) (a : SignalAction) :
    yielded h (actions ++ [a]) = yielded h actions ++ yieldedBy h actions a :=
  gathered_concat _ _ _

/-- A subscription yields nothing with actions that do not look for an event. -/
theorem yielded_append {more : List SignalAction} (hmore : ∀ a ∈ more, ∀ h', a ≠ .next h') :
    yielded h (actions ++ more) = yielded h actions := by
  induction more using reverseRecOn with
  | nil => rw [append_nil]
  | append_singleton more a ih =>
    rw [forall_mem_append, forall_mem_singleton] at hmore
    rw [← append_assoc, yielded_concat, ih hmore.1]
    cases a with
    | next h' => exact absurd rfl (hmore.2 h')
    | _ => exact append_nil _

/-- What the history of a handler tells about its inbox. -/
def Tells (actions : List SignalAction) (h : ObjectId) : Option Inbox → Prop
  | none => ¬ OpenedAfter actions h ∧ conveyed h actions = [] ∧ yielded h actions = []
  | some i =>
    OpenedAfter actions h ∧
      (i.routed = true ↔ RoutedAfter actions h) ∧
      (i.listening = true ↔ ListeningAfter actions h) ∧
      (i.listening = false → i.events = []) ∧
      yielded h actions ++ i.events.map (·.args) <+: conveyed h actions ∧
      (i.listening = true →
        yielded h actions ++ i.events.map (·.args) = conveyed h actions)

/-- What is told of the next event: the first one, or whether more can come. -/
theorem next_fst (hi : b.inbox? h = some i) :
    (b.next h).1 =
      match i.events with
      | event :: _ => .event event
      | [] => if i.routed then .pending else .ended := by
  cases hevents : i.events <;> simp [next, hi, hevents]

/-- A handler gets no inbox but by a subscription. -/
theorem tells_concat_of_none (ha : a.isSubscribe = false)
    (htells : Tells actions h none) (hnone : (after actions).inbox? h = none) :
    Tells (actions ++ [a]) h none := by
  obtain ⟨hunopened, hconveyed, hyielded⟩ := htells
  have hnot : ¬ Opens h actions a := by simp [Opens, ha]
  have hdead : ¬ LiveAfter actions h := fun hlive => hunopened hlive.1.opened
  refine ⟨by simp [openedAfter_concat, hunopened, hnot], ?_, ?_⟩
  · rw [conveyed_concat, hconveyed]
    cases a <;> simp [conveyedBy, hdead]
  · rw [yielded_concat, hyielded]
    cases a with
    | next h' =>
      by_cases heq : h' = h
      · simp [yieldedBy, heq, next, hnone]
      · simp [yieldedBy, heq]
    | _ => rfl

/-- An inbox tells its history after one more action. -/
theorem tells_concat_of_some (ha : a.isSubscribe = false) (slots : Nat)
    (htells : Tells actions h (some i)) (hi : (after actions).inbox? h = some i) :
    Tells (actions ++ [a]) h (some (a.effect slots i)) := by
  obtain ⟨hopened, hrouted, hlistening, hgone, hinit, hexact⟩ := htells
  have hnot : ¬ Opens h actions a := by simp [Opens, ha]
  have hhandler := handler_of_inbox? hi
  simp only [Tells, openedAfter_concat, routedAfter_concat, listeningAfter_concat, hnot,
    conveyed_concat, yielded_concat, hopened, ← hrouted, ← hlistening, true_or, false_or, true_and]
  cases a with
  | subscribe => contradiction
  | unroute h' | unrouteAll | discard h' =>
    grind [effect, unroutes, discards, conveyedBy,
      yieldedBy]
  | answer event reply =>
    simpa [effect, unroutes, discards, conveyedBy,
      yieldedBy] using ⟨hgone, hinit, hexact⟩
  | next h' =>
    by_cases heq : h' = h
    · -- The first event that waits is the one that is yielded.
      subst heq
      have hnext := next_fst hi
      cases hevents : i.events with
      | nil =>
        rw [hevents] at hnext
        simp only [hevents, map_nil, append_nil] at hinit hexact
        have hnothing : yieldedBy h' actions (.next h') = [] := by
          cases hi' : i.routed <;> simp [yieldedBy, hnext, hi']
        simpa [effect, unroutes, discards, conveyedBy,
          hhandler, hevents, hnothing] using ⟨hinit, hexact⟩
      | cons event events =>
        rw [hevents] at hnext hinit hexact hgone
        have hevent : yieldedBy h' actions (.next h') = [event.args] := by
          simp [yieldedBy, hnext]
        simpa [effect, unroutes, discards, conveyedBy,
          hhandler, hevents, hevent] using ⟨fun hno => by simp_all, hinit, hexact⟩
    · grind [effect, unroutes, discards, conveyedBy,
        yieldedBy]
  | route f =>
    have hlive : LiveAfter actions h ↔ i.routed = true ∧ i.listening = true := by
      rw [LiveAfter, hrouted, hlistening]
    simp only [effect, unroutes, discards, conveyedBy,
      yieldedBy, hhandler, hlive]
    by_cases hreaches : isSignal f.header.kind = true ∧ f.header.target = h ∧
      i.routed = true ∧ i.listening = true
    · rw [if_pos hreaches, if_pos hreaches]
      simp [hreaches, ← hexact hreaches.2.2.2]
    · rw [if_neg hreaches, if_neg hreaches]
      simpa using ⟨hgone, hinit, hexact⟩

/-- Every inbox is as its history tells. -/
theorem tells_after (hfew : subscribed actions < 2 ^ 64) (h : ObjectId) :
    Tells actions h ((after actions).inbox? h) := by
  induction actions using reverseRecOn with
  | nil => exact ⟨happened_nil, rfl, rfl⟩
  | append_singleton actions a ih =>
    rw [subscribed_concat] at hfew
    replace ih := ih (by omega)
    cases ha : a.isSubscribe with
    | false =>
      rw [after_concat, inbox?_act ha]
      cases hi : (after actions).inbox? h with
      | none => exact tells_concat_of_none ha (hi ▸ ih) hi
      | some i => exact tells_concat_of_some ha _ (hi ▸ ih) hi
    | true =>
      obtain rfl : a = .subscribe := by cases a <;> simp_all [SignalAction.isSubscribe]
      rw [if_pos ha] at hfew
      rw [after_concat, act, inbox?_subscribe]
      by_cases hnew : (after actions).subscribe.1 = h
      · -- The inbox of the new handler: no such handler was there before.
        have hopens : Opens h actions .subscribe := ⟨rfl, (subscribe_after_eq_iff hfew).mp hnew⟩
        have hunopened := not_openedAfter_of_opens hopens
        cases hi : (after actions).inbox? h with
        | some i => exact absurd (hi ▸ ih).1 hunopened
        | none =>
          rw [hi] at ih
          obtain ⟨-, hconveyed, hyielded⟩ := ih
          simp [Tells, hnew, openedAfter_concat, routedAfter_concat, listeningAfter_concat,
            hopens, conveyed_concat, yielded_concat, conveyedBy, yieldedBy, hconveyed,
            hyielded]
      · have hnot : ¬ Opens h actions .subscribe :=
          fun hopens => hnew ((subscribe_after_eq_iff hfew).mpr hopens.2)
        rw [if_neg hnew, or_none]
        cases hi : (after actions).inbox? h with
        | none =>
          rw [hi] at ih
          simpa [Tells, openedAfter_concat, hnot, conveyed_concat, yielded_concat, conveyedBy,
            yieldedBy] using ih
        | some i =>
          rw [hi] at ih
          simpa [Tells, openedAfter_concat, routedAfter_concat, listeningAfter_concat, hnot,
            unroutes, discards, conveyed_concat, yielded_concat,
            conveyedBy, yieldedBy] using ih

/-- What looking for the next event has to give: the first event that was conveyed and has not been
yielded; without one, whether signals are still routed. -/
def NextIs (conveyed yielded : List (List Field)) (routed : Prop) : NextEvent → Prop
  | .event event => conveyed[yielded.length]? = some event.args
  | .pending => yielded = conveyed ∧ routed
  | .ended => yielded = conveyed ∧ ¬ routed

/-- The next event is the first that was conveyed and not yielded. -/
theorem nextIs_after (hfew : subscribed actions < 2 ^ 64) (hlistening : ListeningAfter actions h) :
    NextIs (conveyed h actions) (yielded h actions) (RoutedAfter actions h)
      ((after actions).next h).1 := by
  have htells := tells_after hfew h
  cases hi : (after actions).inbox? h with
  | none =>
    rw [hi] at htells
    exact absurd hlistening.opened htells.1
  | some i =>
    rw [hi] at htells
    obtain ⟨-, hrouted, hlistens, -, -, hexact⟩ := htells
    replace hexact := hexact (hlistens.mpr hlistening)
    rw [next_fst hi]
    cases hevents : i.events with
    | nil =>
      simp only [hevents, map_nil, append_nil] at hexact
      cases hi' : i.routed <;> simp_all [NextIs]
    | cons event events => simp [NextIs, ← hexact, hevents]

/-- A subscription yields nothing but what was conveyed to it, in order. -/
theorem yielded_prefix_conveyed (hfew : subscribed actions < 2 ^ 64) (h : ObjectId) :
    yielded h actions <+: conveyed h actions := by
  have htells := tells_after hfew h
  cases hi : (after actions).inbox? h with
  | none =>
    rw [hi] at htells
    simp [htells.2.1, htells.2.2]
  | some i =>
    rw [hi] at htells
    obtain ⟨-, -, -, -, hinit, -⟩ := htells
    exact (prefix_append _ _).trans hinit

/-- Whether signals are routed to a handler. -/
def routes (b : Switchboard) (h : ObjectId) : Bool :=
  match b.inbox? h with
  | some i => i.routed
  | none => false

/-- The handler that gets the next number is new. -/
theorem inbox?_subscribe_after (hfew : subscribed actions + 1 < 2 ^ 64) :
    (after actions).inbox? (after actions).subscribe.1 = none := by
  have hopens : Opens (after actions).subscribe.1 actions .subscribe :=
    ⟨rfl, (subscribe_after_eq_iff hfew).mp rfl⟩
  have htells := tells_after (by omega : subscribed actions < 2 ^ 64) (after actions).subscribe.1
  cases hi : (after actions).inbox? (after actions).subscribe.1 with
  | none => rfl
  | some i =>
    rw [hi] at htells
    exact absurd htells.1 (not_openedAfter_of_opens hopens)

/-- The board routes to a handler exactly if its history says so. -/
theorem routes_after (hfew : subscribed actions < 2 ^ 64) (h : ObjectId) :
    (after actions).routes h = true ↔ RoutedAfter actions h := by
  have htells := tells_after hfew h
  cases hi : (after actions).inbox? h with
  | none =>
    rw [hi] at htells
    have hunrouted : ¬ RoutedAfter actions h := fun hrouted => htells.1 hrouted.opened
    simp [routes, hi, hunrouted]
  | some i =>
    rw [hi] at htells
    simp [routes, hi, htells.2.1]

/-- A new subscription adds its handler to those that signals are routed to. -/
theorem routes_subscribe (hnew : b.inbox? b.subscribe.1 = none) (h : ObjectId) :
    b.subscribe.2.routes h = true ↔ b.routes h = true ∨ h = b.subscribe.1 := by
  rw [routes, routes, inbox?_subscribe]
  cases hi : b.inbox? h with
  | none =>
    rw [eq_comm (a := h)]
    by_cases hh : b.subscribe.1 = h <;> simp [hh]
  | some i =>
    have hne : h ≠ b.subscribe.1 := by
      rintro rfl
      simp [hnew] at hi
    simp [hne]

theorem routes_unroute (b : Switchboard) (h' h : ObjectId) :
    (b.unroute h').routes h = true ↔ b.routes h = true ∧ h ≠ h' := by
  have hi' := inbox?_update b h' (fun i => { i with routed := false }) (fun _ => rfl) h
  rw [routes, routes, unroute, hi']
  cases hi : b.inbox? h with
  | none => simp
  | some i =>
    have hhandler := handler_of_inbox? hi
    by_cases hh : h = h' <;> simp [hhandler, hh]

theorem routes_discard (b : Switchboard) (h' h : ObjectId) :
    (b.discard h').routes h = b.routes h := by
  rw [routes, routes, inbox?_discard]
  cases b.inbox? h with
  | none => rfl
  | some i => by_cases hh : i.handler = h' <;> simp [hh]

end Switchboard

end Remoting
