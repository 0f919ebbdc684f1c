import Remoting.Host.Handler
import Remoting.Host.Registry

/-!
# Remoting.Host.Dispatch

A host answers requests: it finds the handler by the digest and the object by the reference, and
turns what the handler does into a response, if the request expects one.

`Host.judge` decides what becomes of a request before any handler runs, `conclude` makes the
response out of a handler's outcome, and `Host.dispatch` does both around the handler. How the
handler is run is left open in `Host.dispatchWith`.
-/

namespace Remoting

/-- Handlers and objects. -/
structure Host where
  registry : Registry Handler := {}
  objects : ObjectTable := {}

/-- What becomes of a request. -/
inductive Verdict where
  /-- It is done with; the response is given, if there is one. -/
  | answered (response : Option Frame)
  /-- The handler decides. -/
  | invoke (handler : Handler) (target : Servant)

/-- The response to a request that fails, if it expects one. -/
def refuse (request : Header) (fault : Fault) : Option Frame :=
  if request.kind.expectsResponse then some (.errorFor request fault) else none

/-- A breakdown as a fault. -/
def crashFault (message : Option String) : Fault :=
  ⟨.internal, "handler panicked: " ++ message.getD "unknown panic", none⟩

/-- The response to a request whose handler has ended, if it expects one. -/
def conclude (request : Header) : Outcome → Option Frame
  | .result payload =>
    if request.kind.expectsResponse then some (.resultFor request payload) else none
  | .fault fault => refuse request fault
  | .crash message => refuse request (crashFault message)

namespace Host

/-- A host may serve once its registry is sealed. -/
def checkServing (h : Host) : Except RegistryError Unit :=
  if h.registry.serving then .ok () else .error .stillCollecting

/-- The response to the question for the root object. -/
def welcome (h : Host) (request : Header) : Frame :=
  match h.objects.root with
  | some root => .resultFor request [.object root]
  | none => .errorFor request ⟨.dispatch, "no root object", none⟩

/-- What becomes of a request. -/
def judge (h : Host) (request : Header) : Verdict :=
  if request.kind.isResponse then .answered none
  else if request.kind = .helloRequest then .answered (some (h.welcome request))
  else
    match h.registry.lookup request.digest with
    | .error e => .answered (refuse request ⟨.internal, e.message, none⟩)
    | .ok none =>
      .answered (refuse request ⟨.dispatch, "unknown operation " ++ request.digest.render, none⟩)
    | .ok (some handler) =>
      match h.objects.resolve request.target with
      | none =>
        .answered
          (refuse request ⟨.dispatch, "unresolved target " ++ request.target.render, none⟩)
      | some target => .invoke handler target

/-- What a reaction leaves in the object it concerns. -/
def apply (h : Host) (target : ObjectId) (reaction : Reaction) : Host :=
  match reaction.state with
  | some fields => { h with objects := h.objects.store target fields }
  | none => h

/-- Answer a request that came on no connection, where `run` runs the handler. -/
def dispatchWith [Monad μ] (h : Host) (run : Handler → Invocation → μ Reaction) (frame : Frame) :
    μ (Option Frame × Host) :=
  match h.judge frame.header with
  | .answered response => pure (response, h)
  | .invoke handler target => do
    let reaction ← run handler ⟨frame.header, frame.payload, target, false⟩
    return (conclude frame.header reaction.outcome, h.apply frame.header.target reaction)

/-- Answer a request that came on no connection. -/
def dispatch (h : Host) (frame : Frame) : Option Frame × Host :=
  Id.run (h.dispatchWith (fun handler invocation => pure (handler invocation)) frame)

/-- How many milliseconds pass before a request that came on no connection is answered. -/
def delayOf (h : Host) (frame : Frame) : Nat :=
  match h.judge frame.header with
  | .answered _ => 0
  | .invoke handler target =>
    (handler ⟨frame.header, frame.payload, target, false⟩).delay.getD 0

/-- The host as text. -/
def render (h : Host) : String := "Dispatcher \x7b registry: " ++ h.registry.render ++ " \x7d"

end Host

end Remoting
