import Remoting.Message.Frame

/-!
# Remoting.Client.Switchboard

Signals that reach a client. Every subscription has a handler number of its own, which is never
given again. A signal names a handler; it becomes an event in the inbox of that handler's
subscription, if there is one.

The sender of a two-way signal waits for an answer. Its event carries a reply slot; the slot is
filled once, with what the subscriber answers or, when the event is given up, with nothing.
-/

namespace Remoting

/-- What is answered to a two-way signal. -/
abbrev Reply := Except Fault (List Field)

/-- A signal that has arrived. -/
structure SignalEvent where
  args : List Field
  /-- The reply slot, if the sender waits for an answer. -/
  slot : Option Nat := none
  deriving DecidableEq, Repr, Inhabited

/-- Where the signals to one handler are kept. -/
structure Inbox where
  handler : ObjectId
  events : List SignalEvent := []
  /-- Whether signals are still put in. -/
  routed : Bool := true
  /-- Whether the subscription is still there. -/
  listening : Bool := true
  deriving DecidableEq, Repr, Inhabited

/-- The subscriptions of a client. -/
structure Switchboard where
  ids : IdSource := {}
  inboxes : List Inbox := []
  /-- The reply slots by number. -/
  slots : List (Option Reply) := []

/-- What becomes of an incoming message. -/
inductive Delivery where
  /-- Nothing more. -/
  | done
  /-- Nobody can answer it; this is sent back. -/
  | refused (response : Frame)
  /-- The answer comes out of a reply slot. -/
  | awaiting (slot : Nat)
  deriving DecidableEq, Repr

/-- What looking for the next event gives. -/
inductive NextEvent where
  | event (event : SignalEvent)
  /-- None has arrived yet. -/
  | pending
  /-- None will arrive any more. -/
  | ended
  deriving DecidableEq, Repr

namespace Switchboard

/-- The inbox of a handler. -/
def inbox? (b : Switchboard) (handler : ObjectId) : Option Inbox :=
  b.inboxes.find? (·.handler == handler)

/-- Change the inbox of a handler. -/
def update (b : Switchboard) (handler : ObjectId) (f : Inbox → Inbox) : Switchboard :=
  { b with inboxes := b.inboxes.map fun i => if i.handler = handler then f i else i }

/-! ## Reply slots -/

/-- Fill a reply slot. -/
def settle (b : Switchboard) (slot : Nat) (reply : Reply) : Switchboard :=
  { b with slots := b.slots.set slot (some reply) }

/-- What a reply slot holds. -/
def reply? (b : Switchboard) (slot : Nat) : Option Reply := b.slots[slot]?.join

/-- Answer an event. A one-way signal gets no answer. -/
def answer (b : Switchboard) (event : SignalEvent) (reply : Reply) : Switchboard :=
  match event.slot with
  | some slot => b.settle slot reply
  | none => b

/-- Give an event up. -/
def dismiss (b : Switchboard) (event : SignalEvent) : Switchboard := b.answer event (.ok [])

/-- The response to a two-way signal. -/
def responseFor (request : Header) : Reply → Frame
  | .ok fields => .resultFor request fields
  | .error fault => .errorFor request fault

/-! ## Subscriptions -/

/-- Open an inbox under the next handler number. -/
def subscribe (b : Switchboard) : ObjectId × Switchboard :=
  let (n, ids) := b.ids.take
  (⟨n⟩, { b with ids, inboxes := b.inboxes ++ [{ handler := ⟨n⟩ }] })

/-- Put no more signals into the inbox of a handler. -/
def unroute (b : Switchboard) (handler : ObjectId) : Switchboard :=
  b.update handler fun i => { i with routed := false }

/-- Put no more signals into any inbox. -/
def unrouteAll (b : Switchboard) : Switchboard :=
  { b with inboxes := b.inboxes.map fun i => { i with routed := false } }

/-- Give up the subscription of a handler and the events that it holds. -/
def discard (b : Switchboard) (handler : ObjectId) : Switchboard :=
  match b.inbox? handler with
  | none => b
  | some inbox =>
    inbox.events.foldl dismiss
      (b.update handler fun i => { i with events := [], listening := false })

/-- The next event of a handler. -/
def next (b : Switchboard) (handler : ObjectId) : NextEvent × Switchboard :=
  match b.inbox? handler with
  | none => (.ended, b)
  | some inbox =>
    match inbox.events with
    | event :: events => (.event event, b.update handler fun i => { i with events })
    | [] => (if inbox.routed then .pending else .ended, b)

/-! ## Incoming messages -/

/-- Whether a kind of message is a signal. -/
def isSignal : MessageKind → Bool
  | .signalEmit | .signalEmitTwoWay => true
  | _ => false

/-- Whether a message has a subscription to go to. -/
def reaches (b : Switchboard) (header : Header) : Bool :=
  isSignal header.kind &&
    match b.inbox? header.target with
    | some inbox => inbox.routed && inbox.listening
    | none => false

/-- Put an event into the inbox of a handler. -/
def deposit (b : Switchboard) (handler : ObjectId) (event : SignalEvent) : Switchboard :=
  b.update handler fun i => { i with events := i.events ++ [event] }

/-- Route an incoming message. -/
def route (b : Switchboard) (frame : Frame) : Delivery × Switchboard :=
  let header := frame.header
  if b.reaches header then
    if header.kind.expectsResponse then
      let slot := b.slots.length
      (.awaiting slot,
        { b with slots := b.slots ++ [none] }.deposit header.target ⟨frame.payload, some slot⟩)
    else (.done, b.deposit header.target ⟨frame.payload, none⟩)
  else if header.kind.expectsResponse then
    (.refused (.errorFor header ⟨.dispatch, "no such handler", none⟩), b)
  else (.done, b)

end Switchboard

end Remoting
