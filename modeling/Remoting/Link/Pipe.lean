import Remoting.Bytes

/-!
# Remoting.Link.Pipe

One direction of a byte stream. A pipe holds a bounded number of bytes on their way. Once it is
closed, by either side, nothing can be written any more; what it holds can still be read.
-/

namespace Remoting

/-- Bytes on their way. -/
structure Pipe where
  bytes : Bytes := []
  capacity : Nat
  closed : Bool := false
  deriving DecidableEq, Repr, Inhabited

namespace Pipe

/-- How many bytes fit in. -/
def room (p : Pipe) : Nat := p.capacity - p.bytes.length

/-- Write as many bytes as fit in; those that do not are given back. A closed pipe takes no bytes,
not even none. -/
def write (p : Pipe) (bs : Bytes) : Option (Bytes × Pipe) :=
  if p.closed then none
  else some (bs.drop p.room, { p with bytes := p.bytes ++ bs.take p.room })

/-- Read so many bytes, or as many as there are. -/
def read (p : Pipe) (n : Nat) : Bytes × Pipe := (p.bytes.take n, { p with bytes := p.bytes.drop n })

/-- Read everything that is there. -/
def readAll (p : Pipe) : Bytes × Pipe := (p.bytes, { p with bytes := [] })

/-- Close the pipe. -/
def close (p : Pipe) : Pipe := { p with closed := true }

end Pipe

end Remoting
