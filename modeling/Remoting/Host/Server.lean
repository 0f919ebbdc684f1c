import Remoting.Flow.Gate
import Remoting.Ident

/-!
# Remoting.Host.Server

A server works on a bounded number of requests at a time, over all its connections, and numbers
the connections in the order in which they come, starting with one.
-/

namespace Remoting

/-- A server. -/
structure Server where
  /-- Places for requests that are worked on. -/
  gate : Gate
  /-- The number of the next connection. -/
  nextConnection : UInt16 := 1
  deriving DecidableEq, Repr

namespace Server

/-- A server that works on so many requests at a time, at least one. -/
def ofLimit (maxInFlight : Nat) : Server := { gate := { free := max maxInFlight 1 } }

/-- The number of a new connection. -/
def connect (s : Server) : ConnectionId × Server :=
  (⟨s.nextConnection⟩, { s with nextConnection := s.nextConnection + 1 })

end Server

end Remoting
