import Remoting.Message.Envelope

/-!
# Remoting.Settings

What can be set about a host and about a client.
-/

namespace Remoting

/-- Settings of a host. -/
structure HostSettings where
  port : UInt16 := 8080
  address : String := "127.0.0.1"
  /-- How many requests are worked on at the same time, over all connections. -/
  maxInFlight : UInt64 := 64
  maxFrameSize : UInt64 := UInt64.ofNat Envelope.defaultLimit
  deriving DecidableEq, Repr, Inhabited

/-- Settings of a client. -/
structure ClientSettings where
  /-- Where the host is. -/
  address : String := "127.0.0.1:8080"
  /-- How many milliseconds a request waits for its response. -/
  timeout : UInt64 := 30000
  maxFrameSize : UInt64 := UInt64.ofNat Envelope.defaultLimit
  deriving DecidableEq, Repr, Inhabited

end Remoting
