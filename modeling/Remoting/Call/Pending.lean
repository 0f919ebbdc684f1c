import Remoting.Message.Frame

/-!
# Remoting.Call.Pending

The calls of one connection. Every call gets the next number; it is pending until a response for
its number arrives or it is cancelled, and neither is ever undone. A response reaches the one
caller that listens for that number, once.
-/

namespace Remoting

/-- What a caller gets: a frame, or the fault that took its place. -/
abbrev Response := Except Fault Frame

/-- What has become of a call. -/
inductive CallState where
  /-- No response yet. -/
  | pending
  /-- A response has arrived. -/
  | completed (response : Response)
  /-- No response is awaited any more. -/
  | cancelled
  deriving Repr, Inhabited

/-- Whether no response has arrived yet and one is awaited. -/
def CallState.isPending : CallState → Bool
  | .pending => true
  | _ => false

/-- A call that was registered. -/
structure RegisteredCall where
  id : CallId
  state : CallState := .pending
  /-- Whether the caller still listens for a response and has not got one. -/
  listening : Bool := true
  deriving Repr, Inhabited

/-- The calls of one connection, in the order of their registration. -/
structure PendingCalls where
  ids : IdSource := {}
  calls : List RegisteredCall := []
  deriving Repr, Inhabited

/-- What listening for a response gives. -/
inductive Received where
  /-- The response. -/
  | response (response : Response)
  /-- Nothing yet. -/
  | empty
  /-- No response will come. -/
  | closed
  /-- Nobody listens for that call. -/
  | noReceiver
  deriving Repr, Inhabited

namespace PendingCalls

/-- The call of a number. -/
def find? (p : PendingCalls) (id : CallId) : Option RegisteredCall := p.calls.find? (·.id == id)

/-- Change the call of a number. -/
def update (p : PendingCalls) (id : CallId) (f : RegisteredCall → RegisteredCall) : PendingCalls :=
  { p with calls := p.calls.map fun c => if c.id = id then f c else c }

/-- Whether a call is pending. -/
def contains (p : PendingCalls) (id : CallId) : Bool :=
  match p.find? id with
  | some c => c.state.isPending
  | none => false

/-- How many calls are pending. -/
def size (p : PendingCalls) : Nat := p.calls.countP (·.state.isPending)

/-- Register a call under the next number. -/
def register (p : PendingCalls) : CallId × PendingCalls :=
  let (n, ids) := p.ids.take
  (⟨n⟩, { ids, calls := p.calls ++ [{ id := ⟨n⟩ }] })

/-- Deliver the response to a call. The answer is whether somebody was there to get it. -/
def complete (p : PendingCalls) (id : CallId) (response : Response) : Bool × PendingCalls :=
  match p.find? id with
  | none => (false, p)
  | some c =>
    if c.state.isPending then
      (c.listening, p.update id fun c => { c with state := .completed response })
    else (false, p)

/-- Await no response to a call any more. The answer is whether one was awaited. -/
def cancel (p : PendingCalls) (id : CallId) : Bool × PendingCalls :=
  if p.contains id then (true, p.update id fun c => { c with state := .cancelled }) else (false, p)

/-- Complete every pending call with a fault. The answer is how many there were. -/
def failAll (p : PendingCalls) (fault : Fault) : Nat × PendingCalls :=
  (p.size, { p with
    calls := p.calls.map fun c =>
      if c.state.isPending then { c with state := .completed (.error fault) } else c })

/-- Stop listening for a call. The answer is whether somebody listened. -/
def drop (p : PendingCalls) (id : CallId) : Bool × PendingCalls :=
  match p.find? id with
  | none => (false, p)
  | some c => (c.listening, p.update id fun c => { c with listening := false })

/-- Look for the response to a call; a response is given once. -/
def receive (p : PendingCalls) (id : CallId) : Received × PendingCalls :=
  match p.find? id with
  | none => (.noReceiver, p)
  | some c =>
    if c.listening then
      match c.state with
      | .pending => (.empty, p)
      | .cancelled => (.closed, p)
      | .completed response =>
        (.response response, p.update id fun c => { c with listening := false })
    else (.noReceiver, p)

end PendingCalls

end Remoting
