import Remoting.Link.Mailbox
import Remoting.Link.StreamReader

/-!
# Remoting.Link.Basic

A link joins two endpoints. What one sends, the other receives: as whole messages through a pair
of mailboxes, or as bytes through a pair of pipes. The endpoints of a pipe link send and receive
frames, or leave the bytes to their user.

An endpoint has a sending half and a receiving half. They may be split, so that each can be given
up on its own; a byte stream closes only when both are gone.
-/

namespace Remoting

/-- The two sides of a link. -/
inductive Side where
  | left
  | right
  deriving DecidableEq, Repr, Inhabited

/-- The side across. -/
def Side.other : Side → Side
  | .left => .right
  | .right => .left

/-- One direction of a link. -/
inductive Conduit where
  | mailbox (mailbox : Mailbox)
  | pipe (pipe : Pipe)
  deriving DecidableEq, Repr

/-- An endpoint of a link. -/
structure Endpoint where
  /-- The limit on the size of frames that go out. -/
  limit : Nat := Envelope.defaultLimit
  /-- Bytes of frames that are still to go out. -/
  unsent : Bytes := []
  reader : StreamReader := {}
  /-- Whether the sending half can still send. -/
  sending : Bool := true
  /-- Whether the receiving half is still there. -/
  receiving : Bool := true
  /-- Whether the halves have been split. -/
  isSplit : Bool := false
  deriving DecidableEq, Repr

/-- Two endpoints, and what is on its way from each of them. -/
structure Link where
  leftEnd : Endpoint := {}
  rightEnd : Endpoint := {}
  fromLeft : Conduit
  fromRight : Conduit
  deriving DecidableEq, Repr

namespace Link

/-! ## Making links -/

/-- A link of mailboxes. -/
def memory : Link := { fromLeft := .mailbox {}, fromRight := .mailbox {} }

/-- How many bytes a pipe holds where nothing else is said. -/
def defaultCapacity : Nat := 1024 * 1024

/-- A link of pipes with the given capacity. The left end has a limit of its own. -/
def stream (capacity limit : Nat) : Link :=
  { leftEnd := { limit, reader := { limit } }
    fromLeft := .pipe { capacity }
    fromRight := .pipe { capacity } }

/-! ## Parts of links -/

/-- The endpoint of a side. -/
def endpoint (l : Link) : Side → Endpoint
  | .left => l.leftEnd
  | .right => l.rightEnd

/-- Change the endpoint of a side. -/
def setEndpoint (l : Link) : Side → Endpoint → Link
  | .left, e => { l with leftEnd := e }
  | .right, e => { l with rightEnd := e }

/-- What is on its way from a side. -/
def outgoing (l : Link) : Side → Conduit
  | .left => l.fromLeft
  | .right => l.fromRight

/-- Change what is on its way from a side. -/
def setOutgoing (l : Link) : Side → Conduit → Link
  | .left, c => { l with fromLeft := c }
  | .right, c => { l with fromRight := c }

/-- What is on its way to a side. -/
def incoming (l : Link) (side : Side) : Conduit := l.outgoing side.other

/-- Change what is on its way to a side. -/
def setIncoming (l : Link) (side : Side) (c : Conduit) : Link := l.setOutgoing side.other c

/-! ## Sending -/

/-- Let as many bytes go out as there is room for. -/
def flush (l : Link) (side : Side) : Sent × Link :=
  let e := l.endpoint side
  match l.outgoing side with
  | .mailbox _ => (.done, l)
  | .pipe pipe =>
    if e.unsent.isEmpty then (.done, l)
    else
      match pipe.write e.unsent with
      | none => (.failed (.stream .brokenPipe), l)
      | some (left, pipe) =>
        (if left.isEmpty then .done else .blocked,
          (l.setOutgoing side (.pipe pipe)).setEndpoint side { e with unsent := left })

/-- How many unsent bytes have to go out before the next frame is taken. -/
def unsentLimit : Nat := 8192

/-- Put a frame into the mailbox, or after the unsent bytes. -/
def feed (l : Link) (side : Side) (frame : Frame) : Sent × Link :=
  let e := l.endpoint side
  match l.outgoing side with
  | .mailbox mailbox =>
    if !e.sending then (.failed .closed, l)
    else
      let message := frame.encode
      if Envelope.defaultLimit < message.length then
        (.failed (.envelope (.tooLarge message.length)), l)
      else
        match mailbox.send message with
        | none => (.failed .closed, l)
        | some mailbox => (.done, l.setOutgoing side (.mailbox mailbox))
  | .pipe _ =>
    match Envelope.wrap e.limit frame with
    | .error error => (.failed (.envelope error), l)
    | .ok bs => (.done, l.setEndpoint side { e with unsent := e.unsent ++ bs })

/-- Go on with a link unless sending has stopped there. -/
def andThen : Sent × Link → (Link → Sent × Link) → Sent × Link
  | (.done, l), next => next l
  | stopped, _ => stopped

/-- Send a frame: it goes out as far as there is room. -/
def send (l : Link) (side : Side) (frame : Frame) : Sent × Link :=
  let ready := if (l.endpoint side).unsent.length < unsentLimit then (.done, l) else l.flush side
  andThen (andThen ready (·.feed side frame)) (·.flush side)

/-- Close the sending half: what is unsent goes out first. -/
def close (l : Link) (side : Side) : Sent × Link :=
  let e := l.endpoint side
  match l.outgoing side with
  | .mailbox mailbox =>
    (.done, (l.setOutgoing side (.mailbox mailbox.dropSender)).setEndpoint side
      { e with sending := false })
  | .pipe _ =>
    andThen (l.flush side) fun l =>
      match l.outgoing side with
      | .pipe pipe => (.done, l.setOutgoing side (.pipe pipe.close))
      | .mailbox _ => (.done, l)

/-! ## Receiving -/

/-- What a message is. -/
def openMessage (message : Bytes) : Arrival :=
  match Frame.decodeHeaderFirst message with
  | .ok frame => .frame frame
  | .error (.payload frame) => .failed (.malformed frame)
  | .error (.header error) => .failed (.badMessage error)

/-- Take a message out of a mailbox. -/
def takeMessage (l : Link) (side : Side) (mailbox : Mailbox) : Arrival × Link :=
  match mailbox.messages with
  | message :: messages =>
    (openMessage message, l.setIncoming side (.mailbox { mailbox with messages }))
  | [] => (if mailbox.senderGone then .ended else .nothing, l)

/-- Read from a pipe. -/
def readPipe (l : Link) (side : Side) (pipe : Pipe)
    (read : StreamReader → Pipe → α × StreamReader × Pipe) : α × Link :=
  let e := l.endpoint side
  let (a, reader, pipe) := read e.reader pipe
  (a, (l.setIncoming side (.pipe pipe)).setEndpoint side { e with reader })

/-- One attempt to receive a frame. Without an answer another attempt is due. -/
def attempt (l : Link) (side : Side) : Option Arrival × Link :=
  match l.incoming side with
  | .mailbox mailbox =>
    let (arrival, l) := l.takeMessage side mailbox
    (some arrival, l)
  | .pipe pipe => l.readPipe side pipe StreamReader.attempt

/-- Receive a frame. -/
def recv (l : Link) (side : Side) : Arrival × Link :=
  match l.incoming side with
  | .mailbox mailbox => l.takeMessage side mailbox
  | .pipe pipe => l.readPipe side pipe StreamReader.recv

/-! ## Splitting and giving up -/

/-- Split an endpoint into its halves, unless that has been done. Unsent bytes are lost, and
received bytes wait for what comes after them. -/
def split (l : Link) (side : Side) : Link :=
  let e := l.endpoint side
  if e.isSplit then l
  else
    l.setEndpoint side
      { e with
        unsent := []
        reader := .startingWith e.reader.limit e.reader.buffer
        isSplit := true }

/-- Close both directions of a byte stream whose halves are both gone at a side. -/
def settleDropped (l : Link) (side : Side) : Link :=
  let e := l.endpoint side
  match l.outgoing side, l.incoming side with
  | .pipe out, .pipe back =>
    if e.sending || e.receiving then l
    else (l.setOutgoing side (.pipe out.close)).setIncoming side (.pipe back.close)
  | _, _ => l

/-- Give up the sending half. -/
def dropSending (l : Link) (side : Side) : Link :=
  let l := match l.outgoing side with
    | .mailbox mailbox => l.setOutgoing side (.mailbox mailbox.dropSender)
    | .pipe _ => l
  (l.setEndpoint side { l.endpoint side with sending := false }).settleDropped side

/-- Give up the receiving half. -/
def dropReceiving (l : Link) (side : Side) : Link :=
  let l := match l.incoming side with
    | .mailbox mailbox => l.setIncoming side (.mailbox mailbox.dropReceiver)
    | .pipe _ => l
  (l.setEndpoint side { l.endpoint side with receiving := false }).settleDropped side

/-- Give up an endpoint. -/
def drop (l : Link) (side : Side) : Link := (l.dropSending side).dropReceiving side

/-! ## Bytes -/

/-- Write bytes without framing. Bytes that do not fit in are lost. -/
def writeBytes (l : Link) (side : Side) (bs : Bytes) : Sent × Link :=
  match l.outgoing side with
  | .mailbox _ => (.failed .closed, l)
  | .pipe pipe =>
    if bs.isEmpty then (.done, l)
    else
      match pipe.write bs with
      | none => (.failed (.stream .brokenPipe), l)
      | some (left, pipe) =>
        (if left.isEmpty then .done else .blocked, l.setOutgoing side (.pipe pipe))

/-- Read all bytes that are there, and whether the stream has ended after them. -/
def readBytes (l : Link) (side : Side) : Bytes × Bool × Link :=
  match l.incoming side with
  | .mailbox mailbox => ([], mailbox.senderGone, l)
  | .pipe pipe =>
    let (bs, pipe) := pipe.readAll
    (bs, pipe.closed, l.setIncoming side (.pipe pipe))

/-! ## Waiting -/

/-- Whether an attempt to let bytes go out would come to something. -/
def canWrite (l : Link) (side : Side) : Bool :=
  match l.outgoing side with
  | .mailbox _ => true
  | .pipe pipe => pipe.closed || 0 < pipe.room

/-- Whether letting something go out means to write into a pipe. -/
def writesPipe (l : Link) (side : Side) : Bool :=
  match l.outgoing side with
  | .mailbox _ => false
  | .pipe _ => !(l.endpoint side).unsent.isEmpty

/-- Whether an attempt to receive goes to the mailbox or the pipe, and not to bytes that were read
before. -/
def fetches (l : Link) (side : Side) : Bool :=
  match l.incoming side with
  | .mailbox _ => true
  | .pipe _ => (l.endpoint side).reader.needsBytes

end Link

end Remoting
