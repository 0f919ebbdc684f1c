import Remoting.Message.Frame

/-!
# Remoting.Message.Envelope

Frames on a byte stream: each stands after its number of bytes in four bytes. A limit bounds the
size of a frame in both directions.

Opening a buffer (`Envelope.unwrap`) takes at most one frame off its front. A frame whose payload
does not decode is taken off like any other, because its length says where the next one starts; a
bad length or a bad header is an error.
-/

namespace Remoting.Envelope

/-- The limit on the size of a frame where none is chosen. -/
def defaultLimit : Nat := 16 * 1024 * 1024

/-- Why a frame cannot be put on or taken off a stream. -/
inductive WrapError where
  /-- The frame is larger than the limit. -/
  | tooLarge (size : Nat)
  /-- The header of the frame does not decode. -/
  | badHeader (error : FramingError)
  deriving DecidableEq, Repr

/-- The wording of an error. -/
def WrapError.message : WrapError → String
  | .tooLarge size => "Frame too large: " ++ toString size ++ " bytes"
  | .badHeader error => "Malformed frame: " ++ error.message

/-- What came off the front of a buffer. -/
inductive Unwrapped where
  /-- The buffer does not hold a whole frame yet. -/
  | needMore
  /-- A frame. -/
  | frame (frame : Frame)
  /-- A frame whose payload does not decode. -/
  | malformed (frame : MalformedFrame)
  /-- An error that ends the stream. -/
  | failed (error : WrapError)
  deriving DecidableEq, Repr

/-- A frame after its length. -/
def wrap (limit : Nat) (f : Frame) : Except WrapError Bytes :=
  if limit < f.encodedLength then .error (.tooLarge f.encodedLength)
  else .ok (bigEndian 4 f.encodedLength ++ f.encode)

/-- What the bytes between two lengths are. -/
def classify (body : Bytes) : Unwrapped :=
  match Frame.decodeHeaderFirst body with
  | .ok frame => .frame frame
  | .error (.payload m) => .malformed m
  | .error (.header e) => .failed (.badHeader e)

/-- Take one frame off the front of a buffer; the second part is what stays in it. -/
def unwrap (limit : Nat) (buffer : Bytes) : Unwrapped × Bytes :=
  if buffer.length < 4 then (.needMore, buffer)
  else
    let size := ofBigEndian (buffer.take 4)
    if limit < size then (.failed (.tooLarge size), buffer)
    else if buffer.length < 4 + size then (.needMore, buffer)
    else (classify ((buffer.drop 4).take size), (buffer.drop 4).drop size)

end Remoting.Envelope
