import Remoting.Message.Envelope

/-!
# Remoting.Link.Transport

What can go wrong when frames are sent and received.
-/

namespace Remoting

/-- What can go wrong on a byte stream. -/
inductive StreamFault where
  /-- The bytes would go nowhere. -/
  | brokenPipe
  /-- The stream ended inside a frame. -/
  | bytesRemaining
  deriving DecidableEq, Repr

/-- The wording of a fault of a stream. -/
def StreamFault.message : StreamFault → String
  | .brokenPipe => "broken pipe"
  | .bytesRemaining => "bytes remaining on stream"

/-- Why a frame was not sent or received. -/
inductive TransportError where
  /-- The other side, or this one, has closed the connection. -/
  | closed
  /-- The byte stream failed. -/
  | stream (fault : StreamFault)
  /-- The frame is too large, or its header does not decode. -/
  | envelope (error : Envelope.WrapError)
  /-- The header of a message does not decode. -/
  | badMessage (error : FramingError)
  /-- The payload of a frame does not decode. The connection can still be used. -/
  | malformed (frame : MalformedFrame)
  deriving DecidableEq, Repr

namespace TransportError

/-- The wording of an error. -/
def message : TransportError → String
  | .closed => "Connection closed"
  | .stream fault => "IO error: " ++ fault.message
  | .envelope error => "Codec error: " ++ error.message
  | .badMessage error => "Codec error: " ++ error.message
  | .malformed frame => frame.render

/-- An error as the fault of a call. -/
def toFault : TransportError → Fault
  | .closed => ⟨.closed, "connection closed", none⟩
  | .stream fault => ⟨.closed, fault.message, none⟩
  | .envelope error => ⟨.framing, error.message, none⟩
  | .badMessage error => error.toFault
  | .malformed frame => frame.error.toFault

end TransportError

/-- What an attempt to send or to close comes to. -/
inductive Sent where
  | done
  /-- There is no room; the rest goes out later. -/
  | blocked
  | failed (error : TransportError)
  deriving DecidableEq, Repr

/-- What an attempt to receive comes to. -/
inductive Arrival where
  | frame (frame : Frame)
  /-- Nothing is there yet. -/
  | nothing
  /-- Nothing will come any more. -/
  | ended
  | failed (error : TransportError)
  deriving DecidableEq, Repr

end Remoting
