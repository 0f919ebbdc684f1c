import Remoting.Bytes

/-!
# Remoting.Link.Mailbox

One direction of a message stream: whole messages on their way, without a bound. Each side of it
may go away; without a receiver nothing can be sent, and without a sender the messages end.
-/

namespace Remoting

/-- Messages on their way. -/
structure Mailbox where
  messages : List Bytes := []
  senderGone : Bool := false
  receiverGone : Bool := false
  deriving DecidableEq, Repr, Inhabited

namespace Mailbox

/-- Send a message, if there is somebody to receive it. -/
def send (m : Mailbox) (message : Bytes) : Option Mailbox :=
  if m.receiverGone then none else some { m with messages := m.messages ++ [message] }

/-- Take the sender away. -/
def dropSender (m : Mailbox) : Mailbox := { m with senderGone := true }

/-- Take the receiver away, and the messages with it. -/
def dropReceiver (m : Mailbox) : Mailbox := { m with messages := [], receiverGone := true }

end Mailbox

end Remoting
