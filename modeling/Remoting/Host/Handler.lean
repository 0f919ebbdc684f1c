import Remoting.Host.Objects
import Remoting.Message.Frame
import Remoting.Message.TypeList
import Remoting.Schema.Lineage

/-!
# Remoting.Host.Handler

Handlers of operations. A handler sees an invocation and answers with a reaction: how long it
takes, what it leaves in the object, what it returns, and what it does on the connection afterwards.

`Script` names some handlers that need no code of their own: they return their arguments, keep and
give fields, fail, or send messages back.
-/

namespace Remoting

/-- What a handler sees of a request. -/
structure Invocation where
  header : Header
  payload : List Field
  target : Servant
  /-- Whether the request came on a connection that the handler may use. -/
  connected : Bool
  deriving Repr, Inhabited

/-- How a handler ends. -/
inductive Outcome where
  /-- It returns fields. -/
  | result (payload : List Field)
  /-- It fails. -/
  | fault (fault : Fault)
  /-- It breaks down, perhaps with a message. -/
  | crash (message : Option String)
  deriving DecidableEq, Repr, Inhabited

/-- What a handler does on the connection of its request, beside returning. -/
inductive FollowUp where
  /-- Send messages that expect no response. -/
  | post (frames : List Frame)
  /-- Call back, wait so many milliseconds for the response at most, and keep the fields of the
  result in the object, or the domain and the message of the fault. -/
  | ask (frame : Frame) (deadline : Nat)
  deriving Repr, Inhabited

/-- The effect of a handler. -/
structure Reaction where
  /-- How many milliseconds pass before anything else. -/
  delay : Option Nat := none
  /-- What the object keeps from now on, if it changes. -/
  state : Option (List Field) := none
  followUps : List FollowUp := []
  outcome : Outcome
  deriving Repr, Inhabited

/-- The code of an operation. -/
abbrev Handler := Invocation → Reaction

namespace Invocation

/-- The invocation as text. -/
def render (i : Invocation) : String :=
  "Invocation \x7b header: Header \x7b kind: " ++ i.header.kind.title ++
    ", connection: ConnectionId(" ++ toString i.header.connection.val.toNat ++ "), target: " ++
    i.header.target.render ++ ", digest: Digest \x7b hi: " ++ toString i.header.digest.hi.toNat ++
    ", lo: " ++ toString i.header.digest.lo.toNat ++ " \x7d, call_id: " ++
    i.header.callId.render ++ " \x7d, payload: " ++ toString i.payload.length ++ ", target: " ++
    i.target.interface.render ++ " \x7d"

end Invocation

namespace Reaction

/-- Return fields. -/
def returning (payload : List Field) : Reaction := { outcome := .result payload }

/-- Fail. -/
def failing (fault : Fault) : Reaction := { outcome := .fault fault }

/-- Fail with a message of this side's own. -/
def refusing (message : String) : Reaction := failing ⟨.internal, message, none⟩

/-- Read the arguments and react to them. -/
def reading (payload : List Field) (x : Reading α) (react : α → Reaction) : Reaction :=
  match x.ofFields payload with
  | .ok a => react a
  | .error e => failing e.toFault

end Reaction

/-- Handlers that need no code of their own. -/
inductive Script where
  /-- Return the arguments. -/
  | echo
  /-- Return twice a whole number, which wraps around. -/
  | double
  /-- Return the only argument, a text. -/
  | one
  /-- Return what the object keeps. -/
  | get
  /-- Keep the arguments in the object. -/
  | set
  /-- Return the invocation as text. -/
  | describe
  /-- Return the header. -/
  | header
  /-- Return the number of the object's interface. -/
  | interface
  /-- Fail. -/
  | fail (fault : Fault)
  /-- Break down. -/
  | crash (message : Option String)
  /-- Return the arguments after so many milliseconds. -/
  | delay (milliseconds : Nat)
  /-- Send so many signals to the handler that the argument names. -/
  | emit (count : Nat)
  /-- Send a signal to the handler that the argument names, and keep its answer. -/
  | emitTwoWay
  /-- Return the types of the object. -/
  | typeList (model : Model)

namespace Script

/-- The script of a name, if it needs nothing else. -/
def ofName? : String → Option Script
  | "echo" => some .echo
  | "double" => some .double
  | "one" => some .one
  | "get" => some .get
  | "set" => some .set
  | "debug" => some .describe
  | "header" => some .header
  | "iface" => some .interface
  | "emit_two_way" => some .emitTwoWay
  | _ => none

/-- A signal to a handler of the other side, as an answer to a request. -/
def signal (request : Header) (kind : MessageKind) (handler : ObjectId) (value : Int64) : Frame :=
  ⟨{ kind, target := handler, digest := request.digest }, [.int value]⟩

/-- How long a signal that is sent back waits for its answer. -/
def signalDeadline : Nat := 1000

/-- React to the handler that the argument names, on a connection. -/
def onConnection (i : Invocation) (react : ObjectId → Reaction) : Reaction :=
  .reading i.payload .object fun handler =>
    if i.connected then react handler else .refusing "no connection"

/-- What a script does. -/
def run : Script → Handler
  | .echo, i => .returning i.payload
  | .double, i => .reading i.payload .int fun n => .returning [.int (n * 2)]
  | .one, i =>
    .reading i.payload (do let s ← Reading.string; Reading.finish; return s) fun s =>
      .returning [.string s]
  | .get, i =>
    match i.target.state with
    | some fields => .returning fields
    | none => .refusing "not a widget"
  | .set, i =>
    match i.target.state with
    | some _ => { state := some i.payload, outcome := .result [] }
    | none => .refusing "not a widget"
  | .describe, i => .returning [.string i.render]
  | .header, i => .returning i.header.fields
  | .interface, i => .returning [.int (Int64.ofNat i.target.interface.index)]
  | .fail fault, _ => .failing fault
  | .crash message, _ => { outcome := .crash message }
  | .delay milliseconds, i => { delay := some milliseconds, outcome := .result i.payload }
  | .emit count, i =>
    onConnection i fun handler =>
      { outcome := .result []
        followUps := [.post ((List.range count).map fun n =>
          signal i.header .signalEmit handler (Int64.ofNat n))] }
  | .emitTwoWay, i =>
    onConnection i fun handler =>
      match i.target.state with
      | none => .refusing "not a widget"
      | some _ =>
        { outcome := .result []
          followUps := [.ask (signal i.header .signalEmitTwoWay handler 7) signalDeadline] }
  | .typeList model, i =>
    match model.typeList i.target.interface with
    | .ok digests => .returning [.sequence (TypeList.elements digests)]
    | .error e => .refusing e.message

end Script

end Remoting
