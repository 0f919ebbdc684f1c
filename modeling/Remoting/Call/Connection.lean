import Remoting.Call.Pending

/-!
# Remoting.Call.Connection

What one side of a connection keeps about it: its number, the calls that wait for a response, and
whether it has been shut down.

A call is enrolled before its request is sent, so that no response can come too early. Incoming
messages are sorted by `accept`: responses complete their calls, everything else is handed on, and
a damaged message affects only the call that it belongs to.
-/

namespace Remoting

/-- One side of a connection. -/
structure Connection where
  id : ConnectionId := ⟨0⟩
  pending : PendingCalls := {}
  closed : Bool := false
  deriving Repr, Inhabited

/-- What is to be done with an incoming message. -/
inductive Intake where
  /-- Nothing more. -/
  | done
  /-- Hand it on. -/
  | deliver (frame : Frame)
  /-- Send this back. -/
  | reply (frame : Frame)
  deriving DecidableEq, Repr

namespace Connection

/-- The fault of using a connection that is closed. -/
def closedFault : Fault := ⟨.closed, "connection closed", none⟩

/-- The fault of a call that got no response in time. -/
def timeoutFault (deadline : Nat) : Fault :=
  ⟨.timeout, "no response within " ++ toString deadline ++ " ms", none⟩

/-- Shut the connection down: every call that waits fails with the reason. -/
def shutDown (c : Connection) (reason : String) : Connection :=
  { c with closed := true, pending := (c.pending.failAll ⟨.closed, reason, none⟩).2 }

/-- A message as it goes out on the connection. -/
def stamp (c : Connection) (frame : Frame) : Frame :=
  { frame with header := { frame.header with connection := c.id } }

/-- Register a call and put its number into the request. -/
def enroll (c : Connection) (frame : Frame) : Except Fault (CallId × Frame × Connection) :=
  if frame.header.kind.expectsResponse then
    let (id, pending) := c.pending.register
    .ok (id, { frame with header := { frame.header with callId := id } }, { c with pending })
  else
    .error ⟨.internal, frame.header.kind.name ++ " does not expect a response", none⟩

/-- Deliver the response to a call. -/
def complete (c : Connection) (id : CallId) (response : Response) : Connection :=
  { c with pending := (c.pending.complete id response).2 }

/-- Await no response to a call any more. -/
def cancel (c : Connection) (id : CallId) : Connection :=
  { c with pending := (c.pending.cancel id).2 }

/-- Sort an incoming message, damaged or not. -/
def accept (c : Connection) : Except MalformedFrame Frame → Intake × Connection
  | .ok frame =>
    if frame.header.kind.isResponse then (.done, c.complete frame.header.callId (.ok frame))
    else (.deliver frame, c)
  | .error damaged =>
    let header := damaged.header
    if header.kind.isResponse then
      (.done, c.complete header.callId (.error damaged.error.toFault))
    else if header.kind.expectsResponse then
      (.reply (c.stamp (.errorFor header damaged.error.toFault)), c)
    else (.done, c)

end Connection

end Remoting
