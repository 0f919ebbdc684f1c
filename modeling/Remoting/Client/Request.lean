import Remoting.Call.Pending
import Remoting.Message.TypeList
import Remoting.Schema.Builder
import Remoting.Schema.Lineage

/-!
# Remoting.Client.Request

The messages that a client sends, and what their responses say. A handle is a client's reference
to an object of the other side; it may be narrowed to an interface that the object has.
-/

namespace Remoting

/-- A reference to an object that is reached through a client. -/
structure RemoteHandle where
  /-- The client, by number. -/
  client : Nat
  id : ObjectId
  /-- The digest of the interface that the handle was narrowed to. -/
  interface : Option Digest := none
  deriving DecidableEq, Repr, Inhabited

/-- The digest of the question for the types of an object. Every model has the same. -/
def typeListQuery : Except Fault Digest :=
  Model.initial.typeListDigest.mapError fun e => ⟨.internal, e.message, none⟩

namespace Request

/-- A message to an object. -/
def frame (kind : MessageKind) (target : ObjectId) (digest : Digest) (args : List Field) : Frame :=
  ⟨{ kind, target, digest }, args⟩

/-- A message that gets no response. -/
def oneWay (kind : MessageKind) (target : ObjectId) (digest : Digest) (args : List Field) :
    Except Fault Frame :=
  if kind.expectsResponse || kind.isResponse then
    .error ⟨.internal, kind.name ++ " is not a one-way kind", none⟩
  else .ok (frame kind target digest args)

/-- The message that connects a handler to a signal. -/
def connect (target : ObjectId) (connector : Digest) (handler : ObjectId) (args : List Field) :
    Frame :=
  frame .signalConnect target connector (.object handler :: args)

/-- The message that disconnects a handler. -/
def disconnect (target : ObjectId) (connector : Digest) (handler : ObjectId) : Frame :=
  frame .signalDisconnect target connector [.object handler]

/-- The fields of the result. -/
def fields (response : Response) : Except Fault (List Field) := response.bind Frame.toResult

/-- Read the whole result. -/
def readAll (response : Response) (x : Reading α) : Except Fault α := do
  let payload ← fields response
  let whole : Reading α := do
    let a ← x
    Reading.finish
    return a
  (whole.ofFields payload).mapError FramingError.toFault

/-- The root object in a result. -/
def root (response : Response) : Except Fault ObjectId := readAll response .object

/-- The types of an object in a result. -/
def types (response : Response) : Except Fault (List Digest) := readAll response TypeList.read

end Request

namespace RemoteHandle

/-- The handle as one of an interface, if the object has it. -/
def narrow (h : RemoteHandle) (types : List Digest) (target : Digest) : Option RemoteHandle :=
  if canNarrow types target then some { h with interface := some target } else none

end RemoteHandle

end Remoting
