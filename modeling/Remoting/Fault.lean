/-!
# Remoting.Fault

A fault is why a call failed: a class, a message, and for a failure that the other side reported
the domain it was reported under. Faults travel inside error frames as two texts.
-/

namespace Remoting

/-- The class of a failure. -/
inductive FaultCode where
  /-- Fields of the wrong kind or number, or bytes that are no fields. -/
  | framing
  /-- An unknown operation or an object that does not resolve. -/
  | dispatch
  /-- A failure that the other side reported. -/
  | remote
  /-- A call that was not answered before its deadline. -/
  | timeout
  /-- A connection that went away. -/
  | closed
  /-- A failure of a handler or of this side. -/
  | internal
  deriving DecidableEq, Repr, Inhabited

namespace FaultCode

/-- Every class. -/
def all : List FaultCode := [.framing, .dispatch, .remote, .timeout, .closed, .internal]

/-- The name of a class as it stands in messages and texts. -/
def name : FaultCode → String
  | .framing => "framing"
  | .dispatch => "dispatch"
  | .remote => "remote"
  | .timeout => "timeout"
  | .closed => "closed"
  | .internal => "internal"

/-- The name of a class at the head of a fault's text. -/
def title : FaultCode → String
  | .framing => "Framing"
  | .dispatch => "Dispatch"
  | .remote => "Remote"
  | .timeout => "Timeout"
  | .closed => "Closed"
  | .internal => "Internal"

/-- The class with the given name. -/
def ofName? (s : String) : Option FaultCode := all.find? (·.name == s)

end FaultCode

/-- Why a call failed. -/
structure Fault where
  code : FaultCode
  message : String
  domain : Option String := none
  deriving DecidableEq, Repr, Inhabited

namespace Fault

/-- A fault of the other side, under the domain it gave. -/
def remote (domain message : String) : Fault := ⟨.remote, message, some domain⟩

/-- The domain under which the fault is reported to the other side. -/
def wireDomain (f : Fault) : String := f.domain.getD f.code.name

/-- Whether the fault is a missed deadline. -/
def isTimeout (f : Fault) : Bool := f.code == .timeout

/-- The fault as text. -/
def render (f : Fault) : String :=
  match f.domain with
  | some domain => f.code.title ++ " [" ++ domain ++ "]: " ++ f.message
  | none => f.code.title ++ ": " ++ f.message

end Fault

end Remoting
