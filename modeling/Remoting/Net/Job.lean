import Remoting.Client.Switchboard
import Remoting.Client.Request

/-!
# Remoting.Net.Job

What the tasks of a network do. A job says where a task stands: what it waits for or does next, and
what it needs to know to go on from there. Each job changes one thing, so that the order in which
other tasks notice the changes is the order of the jobs. Peers, servers, clients and links are known
by number.
-/

namespace Remoting

/-- A subscription: the inbox at a client, and the signal it is connected to. -/
structure Subscription where
  client : Nat
  handler : ObjectId
  target : ObjectId
  connector : Digest
  deriving DecidableEq, Repr, Inhabited

/-- How a task ends. Handles and subscriptions are reported with the names that they are to get. -/
inductive Report where
  | done
  | fault (fault : Fault)
  | frame (frame : Frame)
  | root (handle : RemoteHandle) (name : String)
  | fields (fields : List Field)
  | types (digests : List Digest)
  | narrowed (handle : RemoteHandle) (name : String)
  /-- The object does not have the interface. -/
  | refused
  | subscribed (subscription : Subscription) (name : String)
  deriving DecidableEq, Repr, Inhabited

/-- A report about something that gives nothing. -/
def Report.ofResult : Except Fault Unit → Report
  | .ok _ => .done
  | .error e => .fault e

/-- What the response to a call is for. -/
inductive Purpose where
  /-- The response itself is asked for. -/
  | frame
  /-- The root object becomes a handle with a name. -/
  | hello (client : Nat) (name : String)
  /-- The fields of the result are asked for. -/
  | fields
  /-- The types of an object are asked for. -/
  | types
  /-- The handle that is narrowed gets a name. -/
  | narrow (handle : RemoteHandle) (target : Digest) (name : String)
  /-- The subscription that was asked for gets a name. -/
  | subscribe (subscription : Subscription) (name : String)
  /-- An object of this side keeps the result. -/
  | keep (object : ObjectId)
  deriving DecidableEq, Repr, Inhabited

/-- What goes out to the writer of a peer. -/
inductive Outgoing where
  | frame (frame : Frame)
  /-- Close the connection after what was sent before. -/
  | close
  deriving DecidableEq, Repr, Inhabited

/-- What a task does after something was sent, or could not be. -/
inductive After where
  /-- It ends and reports. -/
  | report
  /-- It sends more. -/
  | post (frames : List Frame)
  /-- It waits for the response to a call. -/
  | await (call : CallId) (deadline : Nat) (purpose : Purpose)
  /-- It ends its work on a request. -/
  | release (server : Nat)
  /-- It routes the next message to a client. -/
  | route (client : Nat)
  /-- It reads the next message. -/
  | read
  /-- It shuts the connection down. -/
  | shutDown
  /-- It gives up a subscription. -/
  | discard (subscription : Subscription)
  deriving DecidableEq, Repr, Inhabited

/-- Where a task stands. Each concerns a peer. -/
inductive Job where
  /-- Take the next message to go out. -/
  | write
  /-- Put a message among what goes out. -/
  | transmit (frame : Frame)
  /-- Let what is to go out do so. -/
  | flush
  /-- Close the link for writing. -/
  | close
  /-- Let nothing more go out. -/
  | stopWriting
  /-- Give up the sending half of the endpoint. -/
  | leaveWriting
  /-- Wait for a message. -/
  | read
  /-- Sort a message that has come in, damaged or not. -/
  | accept (message : Except MalformedFrame Frame)
  /-- Wait for room for a message that has come in. -/
  | deliver (frame : Frame)
  /-- Hand nothing more on. -/
  | stopReading
  /-- Give up the receiving half of the endpoint. -/
  | leaveReading
  /-- Start a call. -/
  | call (frame : Frame) (deadline : Nat) (purpose : Purpose)
  /-- Send a message, unless the connection is closed. -/
  | send (frame : Frame) (after : After)
  /-- Wait for room for a message to go out. -/
  | push (message : Outgoing) (after : After)
  /-- Wait for the response to a call, until a certain time. -/
  | await (call : CallId) (limit : Nat) (deadline : Nat) (purpose : Purpose)
  /-- Wait for a request. -/
  | serve (server : Nat)
  /-- Wait until a request may be worked on. -/
  | enter (server : Nat) (frame : Frame)
  /-- Work on a request. -/
  | work (server : Nat) (frame : Frame)
  /-- Wait until a certain time with the response to a request. -/
  | sleep (server : Nat) (limit : Nat) (response : Option Frame)
  /-- Let another request be worked on. -/
  | release (server : Nat)
  /-- Wait for a message to a client. -/
  | route (client : Nat)
  /-- Route a message to a client. -/
  | dispatch (client : Nat) (frame : Frame)
  /-- Wait for the answer to a signal. -/
  | answer (client : Nat) (slot : Nat) (request : Header)
  /-- End. -/
  | leave
  deriving Repr, Inhabited

/-- Whether a task holds its peer for sending. The reader and the writer do not, except that the
reader holds it while it has something to send back. -/
def Job.holdsPeer : Job → Bool
  | .write | .transmit _ | .flush | .close | .stopWriting | .leaveWriting => false
  | .read | .accept _ | .deliver _ | .stopReading | .leaveReading => false
  | _ => true

/-- Whether a task waits for a message on a link. -/
def Job.reads : Job → Bool
  | .read => true
  | _ => false

/-- A task of a network. -/
structure Task where
  id : Nat
  /-- The peer that it is about. -/
  peer : Nat
  job : Job
  /-- The number under which its end is reported, if it is. -/
  ticket : Option Nat := none
  deriving Repr, Inhabited

end Remoting
