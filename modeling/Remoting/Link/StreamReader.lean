import Remoting.Link.Pipe
import Remoting.Link.Transport
import Remoting.Link.Window

/-!
# Remoting.Link.StreamReader

Frames out of a byte stream. A reader keeps the bytes that it has taken from the pipe and not yet
used, and remembers whether they may hold a frame, whether the stream has ended and whether the
last attempt failed.
-/

namespace Remoting

/-- The state of reading frames from a byte stream. -/
structure StreamReader where
  /-- The limit on the size of a frame. -/
  limit : Nat := Envelope.defaultLimit
  /-- Bytes taken from the pipe and not yet used. -/
  buffer : Bytes := []
  /-- Where those bytes stand. -/
  window : Window := {}
  /-- Whether the buffer has to be looked at before the pipe. -/
  readable : Bool := false
  /-- Whether the end of the stream has been seen. -/
  atEnd : Bool := false
  /-- Whether the last attempt failed. -/
  failed : Bool := false
  deriving DecidableEq, Repr, Inhabited

namespace StreamReader

/-- A reader that starts with bytes that were taken from the pipe before. They are looked at only
when more bytes, or the end of the stream, have come. -/
def startingWith (limit : Nat) (buffer : Bytes) : StreamReader :=
  { limit, buffer, window := ({} : Window).reserve 0 buffer.length }

/-- Keep what was left of the buffer. -/
def keep (r : StreamReader) (left : Bytes) : StreamReader :=
  { r with buffer := left, window := r.window.use (r.buffer.length - left.length) }

/-- Make room for the rest of the frame that the buffer starts with, if its size is known. -/
def makeRoom (r : StreamReader) : StreamReader :=
  if r.buffer.length < 4 then r
  else
    { r with
      window := r.window.reserve r.buffer.length
        (4 + ofBigEndian (r.buffer.take 4) - r.buffer.length) }

/-- Look for a frame in the buffer. Without an answer the pipe is to be read. -/
def decode (r : StreamReader) : Option Arrival × StreamReader :=
  match Envelope.unwrap r.limit r.buffer with
  | (.frame frame, left) => (some (.frame frame), r.keep left)
  | (.malformed frame, left) => (some (.failed (.malformed frame)), r.keep left)
  | (.failed error, left) =>
    (some (.failed (.envelope error)), { r.keep left with failed := true })
  | (.needMore, _) =>
    let r := r.makeRoom
    if r.atEnd then
      if r.buffer.isEmpty then (some .ended, { r with readable := false })
      else (some (.failed (.stream .bytesRemaining)), { r with failed := true })
    else (none, { r with readable := false })

/-- Read the pipe once. Without an answer the buffer is to be looked at. -/
def pull (r : StreamReader) (pipe : Pipe) : Option Arrival × StreamReader × Pipe :=
  let r := { r with window := r.window.reserve r.buffer.length 1 }
  if pipe.bytes.isEmpty then
    if !pipe.closed then (some .nothing, r, pipe)
    else if r.atEnd then (some .ended, r, pipe)
    else (none, { r with atEnd := true, readable := true }, pipe)
  else
    let (bs, pipe) := pipe.read (r.window.room r.buffer.length)
    (none, { r with buffer := r.buffer ++ bs, atEnd := false, readable := true }, pipe)

/-- Whether the pipe is to be read next. -/
def needsBytes (r : StreamReader) : Bool := !r.failed && !r.readable

/-- One attempt to receive a frame. Without an answer another attempt is due. After a failure the
next attempt answers that the stream has ended, and the one after it reads on. -/
def attempt (r : StreamReader) (pipe : Pipe) : Option Arrival × StreamReader × Pipe :=
  if r.needsBytes then r.pull pipe
  else if r.failed then (some .ended, { r with failed := false, readable := false }, pipe)
  else
    let (answer, r) := r.decode
    (answer, r, pipe)

/-- Try to receive a frame, so many times at most. -/
def attempts (r : StreamReader) (pipe : Pipe) : (n : Nat) → Arrival × StreamReader × Pipe
  | 0 => (.nothing, r, pipe)
  | n + 1 =>
    match r.attempt pipe with
    | (some answer, r, pipe) => (answer, r, pipe)
    | (none, r, pipe) => r.attempts pipe n

/-- Receive a frame. The buffer is looked at once before the pipe is read, and once after every time
that bytes, or the end of the stream, have come; so there is an answer after as many attempts. -/
def recv (r : StreamReader) (pipe : Pipe) : Arrival × StreamReader × Pipe :=
  r.attempts pipe (2 * pipe.bytes.length + 4)

end StreamReader

end Remoting
