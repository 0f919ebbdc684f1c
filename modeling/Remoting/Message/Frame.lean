import Remoting.Field.Codec
import Remoting.Message.Header

/-!
# Remoting.Message.Frame

A frame is a header and a payload of fields. Its bytes are those of one field list, the header's
five fields before the payload.

Decoding reads the header first (`Frame.decodeHeaderFirst`), so that damage in the payload is
reported together with the header of the message that it belongs to.
-/

namespace Remoting

/-- A message. -/
structure Frame where
  header : Header
  payload : List Field := []
  deriving DecidableEq, Repr, Inhabited

/-- A message whose header could be read and whose payload could not. -/
structure MalformedFrame where
  header : Header
  error : FramingError
  deriving DecidableEq, Repr

/-- The message as text: what is wrong, and in which message. -/
def MalformedFrame.render (m : MalformedFrame) : String :=
  "malformed payload in " ++ m.header.render ++ ": " ++ m.error.toFault.render

/-- Why bytes are no frame. -/
inductive FrameError where
  /-- Nothing of the message can be trusted. -/
  | header (error : FramingError)
  /-- The header stands, the payload does not. -/
  | payload (malformed : MalformedFrame)
  deriving DecidableEq, Repr

namespace FrameError

/-- What was wrong, wherever it was. -/
def cause : FrameError → FramingError
  | .header error => error
  | .payload malformed => malformed.error

/-- The error as text. -/
def render : FrameError → String
  | .header error => "malformed frame header: " ++ error.toFault.render
  | .payload malformed => malformed.render

end FrameError

namespace Frame

/-- The request for the other side's root object. -/
def hello : Frame := ⟨{ kind := .helloRequest }, []⟩

/-- The answer to a request that succeeded. -/
def resultFor (request : Header) (payload : List Field) : Frame :=
  ⟨request.respond .callResult, payload⟩

/-- The answer to a request that failed: the domain of the fault, then its message. -/
def errorFor (request : Header) (fault : Fault) : Frame :=
  ⟨request.respond .error, [.string fault.wireDomain, .string fault.message]⟩

/-- Header and payload as one field list. -/
def toFields (f : Frame) : List Field := f.header.fields ++ f.payload

/-- The frame whose header stands in the first five fields. -/
def ofFields (fields : List Field) : Except FramingError Frame := do
  let header ← Header.read.ofFields fields
  return ⟨header, fields.drop Header.fieldCount⟩

/-- A frame as bytes. -/
def encode (f : Frame) : Bytes := Field.encodeList f.toFields

/-- The number of bytes of a frame. -/
def encodedLength (f : Frame) : Nat := Field.listLength f.toFields

/-- The header's fields, how many fields follow them, and the bytes of those. -/
def decodeHead (bs : Bytes) : Except FramingError (List Field × Nat × Bytes) := do
  let (count, bs) ← Field.decodeCount bs
  if count < Header.fieldCount then throw (.tooFewFields count Header.fieldCount)
  let (head, bs) ← Field.decodeMany (Field.decodeField Field.maxNesting) Header.fieldCount bs
  return (head, count - Header.fieldCount, bs)

/-- The `count` fields after the header, which use up the bytes. -/
def decodePayload (count : Nat) (bs : Bytes) : Except FramingError (List Field) := do
  let (payload, rest) ← Field.decodeMany (Field.decodeField Field.maxNesting) count bs
  Field.noneLeft rest
  return payload

/-- The frame that the bytes encode, the header before the payload. -/
def decodeHeaderFirst (bs : Bytes) : Except FrameError Frame :=
  match decodeHead bs with
  | .error e => .error (.header e)
  | .ok (head, count, rest) =>
    match Header.read.ofFields head with
    | .error e => .error (.header e)
    | .ok header =>
      match decodePayload count rest with
      | .error e => .error (.payload ⟨header, e⟩)
      | .ok payload => .ok ⟨header, payload⟩

/-- The frame that the bytes encode. -/
def decode (bs : Bytes) : Except FramingError Frame := (decodeHeaderFirst bs).mapError (·.cause)

/-- The domain and the message inside an error frame. -/
def readFault : Reading Fault := do
  let domain ← Reading.string
  let message ← Reading.string
  Reading.finish
  return Fault.remote domain message

/-- What a response says: the payload of a result, or the fault of an error. -/
def toResult (f : Frame) : Except Fault (List Field) :=
  match f.header.kind with
  | .callResult => .ok f.payload
  | .error =>
    match readFault.ofFields f.payload with
    | .ok fault => .error fault
    | .error e => .error e.toFault
  | other => .error (FramingError.notResponse other).toFault

/-- The frame as text. -/
def render (f : Frame) : String := f.header.render ++ " " ++ Field.renderList f.payload

/-- Equality with floating-point numbers compared as numbers. -/
def same (a b : Frame) : Bool := a.header == b.header && Field.sameList a.payload b.payload

end Frame

end Remoting
