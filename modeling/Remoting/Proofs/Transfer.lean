import Remoting.Proofs.PartialReadsAndWrites

/-!
# Remoting.Proofs.Transfer

Frames that are sent over a link, one after the other, and received at the other end until the end
of the stream, while either end may be split (`Transfer`). Sender and receiver go on in any order,
and a pipe takes and gives as few bytes at a time as it likes.

A frame that is not too large is sent, and any other fails and leaves no trace; what has been sent
arrives in order (`Transfer.Inv`). Whenever the sender or the receiver goes on there is less left to
do, unless it waits for the other one (`Transfer.goOn_spec`, `Transfer.listen_spec`). To receive is
to make some attempts in a row (`Transfer.receive_eq_listens`).
-/

namespace Remoting

open List Link Direction

variable {f : Frame} {p : Pipe} {x : Direction}

/-! ## Transfers -/

/-- Frames on their way over a link. -/
structure Transfer where
  link : Link
  /-- The side that sends. -/
  side : Side
  /-- The frames that are still to be sent. -/
  todo : List Frame
  /-- Whether the last frame has not gone out yet. -/
  busy : Bool := false
  /-- Whether the sender has closed the link. -/
  closed : Bool := false
  /-- What sending each frame, and closing, has come to. -/
  sent : List Sent := []
  /-- What receiving has come to. -/
  received : List Arrival := []
  /-- Whether the endpoint of the sender has been split. -/
  senderSplit : Bool := false
  /-- Whether the endpoint of the receiver has been split. -/
  receiverSplit : Bool := false

namespace Transfer

/-- Something that happens. -/
inductive Move where
  /-- The sender goes on, and the pipe takes at most so many bytes. -/
  | send (n : Nat)
  /-- The receiver makes one attempt, and at most so many bytes of the pipe have come through. -/
  | listen (n : Nat)
  /-- The receiver receives, as long as there is something in the pipe. -/
  | receive
  | splitSender
  | splitReceiver

/-- Nothing has been sent yet. -/
def start (link : Link) (side : Side) (frames : List Frame) : Transfer :=
  { link, side, todo := frames }

/-- Whether the receiver has seen the end of the stream. -/
def hasEnded (t : Transfer) : Bool := t.received.contains .ended

/-- The sender goes on: what has not gone out goes out, the next frame is sent, or the link is
closed. -/
def goOn (t : Transfer) (n : Nat) : Transfer :=
  if t.busy then
    match t.link.writing t.side n (·.flush t.side) with
    | (.blocked, link) => { t with link }
    | (result, link) => { t with link, busy := false, sent := t.sent ++ [result] }
  else
    match t.todo with
    | frame :: todo =>
      match t.link.writing t.side n (·.send t.side frame) with
      | (.blocked, link) => { t with link, todo, busy := true }
      | (result, link) => { t with link, todo, sent := t.sent ++ [result] }
    | [] =>
      if t.closed then t
      else
        match t.link.writing t.side n (·.close t.side) with
        | (.blocked, link) => { t with link }
        | (result, link) => { t with link, closed := true, sent := t.sent ++ [result] }

/-- Something arrives, and leaves this link. -/
def hear (t : Transfer) (link : Link) (arrival : Arrival) : Transfer :=
  { t with link, received := t.received ++ [arrival] }

/-- What comes of an answer to the receiver. -/
def answer (t : Transfer) : Option Arrival × Link → Transfer
  | (none, link) | (some .nothing, link) => { t with link }
  | (some arrival, link) => t.hear link arrival

/-- The receiver makes one attempt, until the end of the stream. -/
def listen (t : Transfer) (n : Nat) : Transfer :=
  if t.hasEnded then t else t.answer (t.link.reading t.side n)

/-- The receiver receives, until the end of the stream. -/
def receive (t : Transfer) : Transfer :=
  if t.hasEnded then t
  else
    let (arrival, link) := t.link.recv t.side.other
    t.answer (some arrival, link)

/-- One thing happens. An endpoint is split once, and that of the sender only between sends. -/
def step (t : Transfer) : Move → Transfer
  | .send n => t.goOn n
  | .listen n => t.listen n
  | .receive => t.receive
  | .splitSender =>
    if t.busy || t.senderSplit then t
    else { t with link := t.link.split t.side, senderSplit := true }
  | .splitReceiver =>
    if t.receiverSplit then t
    else { t with link := t.link.split t.side.other, receiverSplit := true }

/-- Several things happen one after the other. -/
def run (t : Transfer) (moves : List Move) : Transfer := moves.foldl step t

end Transfer

/-! ## What becomes of a frame -/

namespace Frame

/-- Whether a frame is not too large to be sent. -/
def isSmall (f : Frame) : Bool := f.encodedLength ≤ Envelope.defaultLimit

/-- What sending a frame comes to. -/
def sentAs (f : Frame) : Sent :=
  if f.isSmall then .done else .failed (.envelope (.tooLarge f.encodedLength))

theorem isSmall_iff : f.isSmall = true ↔ f.encodedLength ≤ Envelope.defaultLimit :=
  decide_eq_true_iff

theorem lt_of_isSmall (h : f.isSmall = true) : f.encodedLength < 2 ^ 32 := by
  rw [isSmall_iff, Envelope.defaultLimit] at h
  omega

theorem carries_of_isSmall (h : f.isSmall = true) :
    Envelope.Carries Envelope.defaultLimit f.encode := by
  rw [Envelope.Carries, length_encode]
  exact ⟨isSmall_iff.mp h, lt_of_isSmall h⟩

theorem arrival_ne_ended (f : Frame) : f.arrival ≠ .ended := by
  unfold arrival
  split <;> simp

theorem arrival_ne_nothing (f : Frame) : f.arrival ≠ .nothing := by
  unfold arrival
  split <;> simp

end Frame

/-! ## What is true at any time -/

namespace Direction

/-- These frames are on their way in a mailbox. -/
structure HoldsMailbox (x : Direction) (m : Mailbox) (closed busy : Bool) (transit : List Frame) :
    Prop where
  conduit : x.conduit = .mailbox m
  messages : m.messages = transit.map Frame.encode
  sender : m.senderGone = closed
  receiver : m.receiverGone = false
  sending : x.sending = !closed
  idle : busy = false

/-- These frames are on their way through a pipe. -/
structure HoldsPipe (x : Direction) (p : Pipe) (closed busy : Bool) (transit : List Frame) :
    Prop where
  conduit : x.conduit = .pipe p
  reads : x.reader.Reads p x.unsent transit
  closed : p.closed = closed
  capacity : 0 < p.capacity
  limit : x.limit = Envelope.defaultLimit
  readerLimit : x.reader.limit = Envelope.defaultLimit
  idle : busy = false → x.unsent = []

/-- What is on its way in a direction that has been closed or not, and where the last frame has
not gone out yet or has. -/
inductive Holds (x : Direction) (closed busy : Bool) (transit : List Frame) : Prop where
  | mailbox (m : Mailbox) (h : x.HoldsMailbox m closed busy transit)
  | pipe (p : Pipe) (h : x.HoldsPipe p closed busy transit)

end Direction

namespace Transfer

variable {frames arrived transit : List Frame} {t t' : Transfer}

/-- Of the frames, some have been taken for sending. The small ones among these have arrived or are
on their way. -/
structure Inv (frames : List Frame) (t : Transfer) (arrived transit : List Frame) : Prop where
  taken : ∃ taken, frames = taken ++ t.todo ∧ taken.filter Frame.isSmall = arrived ++ transit ∧
    t.sent ++ (if t.busy then [.done] else []) =
      taken.map Frame.sentAs ++ if t.closed then [.done] else []
  received : t.received = arrived.map Frame.arrival ++ if t.hasEnded then [.ended] else []
  closed : t.closed = true → t.todo = [] ∧ t.busy = false
  ended : t.hasEnded = true → transit = [] ∧ t.closed = true
  holds : t.hasEnded = false → (t.link.direction t.side).Holds t.closed t.busy transit

theorem hasEnded_of_received (h : t.received = arrived.map Frame.arrival) : t.hasEnded = false := by
  rw [hasEnded, h, contains_eq_mem, decide_eq_false_iff_not]
  intro hmem
  obtain ⟨f, -, hf⟩ := mem_map.mp hmem
  exact f.arrival_ne_ended hf

theorem hasEnded_append_ended (received : List Arrival) (h : t.received = received ++ [.ended]) :
    t.hasEnded = true := by
  simp [hasEnded, h]

/-- How much of the frames is still to be received. -/
theorem Inv.length_received (h : Inv frames t arrived transit) (hended : t.hasEnded = false) :
    t.received.length + transit.length ≤ frames.length := by
  obtain ⟨taken, hframes, hfilter, -⟩ := h.taken
  have hlength := congrArg length hfilter
  have hle := length_filter_le Frame.isSmall taken
  rw [length_append] at hlength
  rw [hframes, h.received, hended]
  simp
  omega

/-! ## How much is left to do -/

end Transfer

/-- How many bytes of a direction are left to move. -/
def Direction.weight (x : Direction) : Nat :=
  match x.conduit with
  | .mailbox _ => 0
  | .pipe p => 3 * x.unsent.length + x.reader.effort p

theorem Direction.weight_of_pipe (h : x.conduit = .pipe p) :
    x.weight = 3 * x.unsent.length + x.reader.effort p := by
  rw [weight, h]

theorem Direction.weight_setReader (h : x.conduit = .pipe p) (r : StreamReader) :
    { x with reader := r }.weight = 3 * x.unsent.length + r.effort p :=
  weight_of_pipe h

theorem Direction.weight_of_mailbox {m : Mailbox} (h : x.conduit = .mailbox m) :
    x.weight = 0 := by
  rw [weight, h]

/-- Bytes that go out are nearer to the reader. -/
theorem Direction.weight_goesOut (x : Direction) (p : Pipe) (k : Nat)
    (hconduit : x.conduit = .pipe p) :
    (x.goesOut p k).weight + min k x.unsent.length = x.weight := by
  have hafter : (x.goesOut p k).weight = 3 * (x.unsent.drop k).length +
      x.reader.effort { p with bytes := p.bytes ++ x.unsent.take k } := weight_of_pipe rfl
  rw [weight_of_pipe hconduit, hafter]
  simp only [StreamReader.effort, StreamReader.backlog, length_append, length_take,
    length_drop]
  omega

namespace Transfer

variable {frames arrived transit todo : List Frame} {t t' : Transfer} {l' : Link}
  {arrival : Arrival}

/-- How much is left to do. -/
def load (frames : List Frame) (t : Transfer) : Nat :=
  (t.todo.map fun f => 3 * (4 + f.encodedLength) + 2).sum + (if t.busy then 1 else 0) +
    (if t.closed then 0 else 1) + (frames.length + 1 - t.received.length) +
    (if t.senderSplit then 0 else 1) + (if t.receiverSplit then 0 else 3) +
    (t.link.direction t.side).weight

/-- Between two states nothing has happened that either side could notice. -/
structure Still (t t' : Transfer) : Prop where
  side : t'.side = t.side
  closed : t'.closed = t.closed
  ended : t'.hasEnded = t.hasEnded
  conduit : t'.link.outgoing t'.side = t.link.outgoing t.side

theorem Still.refl (t : Transfer) : Still t t := ⟨rfl, rfl, rfl, rfl⟩

theorem Still.trans {t'' : Transfer} (h : Still t t') (h' : Still t' t'') : Still t t'' :=
  ⟨h'.side.trans h.side, h'.closed.trans h.closed, h'.ended.trans h.ended,
    h'.conduit.trans h.conduit⟩

/-- The sender has nothing to do, or the pipe is full. -/
def SenderWaits (t : Transfer) : Prop :=
  t.closed = true ∨ ∃ p, t.link.outgoing t.side = .pipe p ∧ p.bytes ≠ []

/-- The receiver has nothing to do, or nothing is there yet. -/
def ReceiverWaits (t : Transfer) : Prop :=
  t.hasEnded = true ∨ t.closed = false ∧ ∀ p, t.link.outgoing t.side = .pipe p → p.bytes = []

/-- Less is left to do than before; or nothing has happened, for a reason. -/
inductive Progress (frames : List Frame) (t t' : Transfer) (reason : Prop) : Prop where
  | less (h : t'.load frames < t.load frames)
  | none (h : t'.load frames = t.load frames) (hstill : Still t t') (hreason : reason)

theorem Progress.imp {reason reason' : Prop} (h : Progress frames t t' reason)
    (himp : reason → reason') : Progress frames t t' reason' := by
  cases h with
  | less h => exact .less h
  | none h hstill hreason => exact .none h hstill (himp hreason)

theorem Progress.trans {t'' : Transfer} {reason reason' : Prop} (h : Progress frames t t' reason)
    (h' : Progress frames t' t'' reason') :
    Progress frames t t'' (reason ∧ Still t t' ∧ reason') := by
  cases h with
  | less h =>
    cases h' with
    | less h' => exact .less (h'.trans h)
    | none h' => exact .less (h'.trans_lt h)
  | none h hstill hreason =>
    cases h' with
    | less h' => exact .less (h'.trans_eq h)
    | none h' hstill' hreason' =>
      exact .none (h'.trans h) (hstill.trans hstill') ⟨hreason, hstill, hreason'⟩

/-! ## The sender -/

section Faithful

variable (h : Inv frames t arrived transit)
include h

/-- A sender that is still sending has not closed the link, and nobody has seen the end. -/
theorem Inv.active (hactive : t.busy = true ∨ t.todo ≠ []) :
    t.closed = false ∧ t.hasEnded = false := by
  have hopen : t.closed = false := by
    by_contra hclosed
    obtain ⟨htodo, hbusy⟩ := h.closed (by simpa using hclosed)
    rcases hactive with hactive | hactive
    · simp [hbusy] at hactive
    · exact hactive htodo
  refine ⟨hopen, ?_⟩
  by_contra hended
  have hclosed := (h.ended (by simpa using hended)).2
  simp [hopen] at hclosed

/-- What has not gone out goes out, as far as the pipe takes it. -/
theorem flush_spec (hbusy : t.busy = true) (n : Nat) :
    Inv frames (t.goOn n) arrived transit ∧
      Progress frames t (t.goOn n) (0 < n → t.SenderWaits) := by
  obtain ⟨hopen, hended⟩ := h.active (.inl hbusy)
  obtain ⟨taken, hframes, hfilter, hsent⟩ := h.taken
  cases h.holds hended with
  | mailbox m hm => exact absurd (hbusy.symm.trans hm.idle) (by simp)
  | pipe p hp =>
    have hclosed := hp.closed.trans hopen
    obtain ⟨l', hwriting, hdirection⟩ := writing_flush hp.conduit hclosed n
    have hweight := (t.link.direction t.side).weight_goesOut p (min p.room n) hp.conduit
    have hreads := hp.reads.goesOut hclosed (min p.room n)
    cases hempty : ((t.link.direction t.side).unsent.drop (min p.room n)).isEmpty with
    | true =>
      have hstep : t.goOn n =
          { t with link := l', busy := false, sent := t.sent ++ [.done] } := by
        simp [goOn, hbusy, hwriting, hempty]
      rw [hstep]
      refine ⟨⟨⟨taken, hframes, hfilter, ?_⟩, h.received, ?_, h.ended, fun _ => ?_⟩, .less ?_⟩
      · simpa [hbusy] using hsent
      · simp [hopen]
      · show (l'.direction t.side).Holds t.closed false transit
        rw [hdirection]
        exact .pipe _ { hp with
          conduit := rfl, reads := hreads, idle := fun _ => isEmpty_iff.mp hempty }
      · simp only [load, hdirection, hbusy]
        simp
        omega
    | false =>
      have hstep : t.goOn n = { t with link := l' } := by
        simp [goOn, hbusy, hwriting, hempty]
      rw [hstep]
      refine ⟨⟨⟨taken, hframes, hfilter, hsent⟩, h.received, h.closed, h.ended, fun _ => ?_⟩,
        ?_⟩
      · show (l'.direction t.side).Holds t.closed t.busy transit
        rw [hdirection]
        exact .pipe _ { hp with conduit := rfl, reads := hreads, idle := by simp [hbusy] }
      · have hsome : min p.room n < (t.link.direction t.side).unsent.length := by
          by_contra hall
          rw [drop_eq_nil_of_le (by omega)] at hempty
          contradiction
        by_cases hfull : min p.room n = 0
        · rw [hfull] at hweight hdirection
          refine .none ?_ ⟨rfl, rfl, rfl, ?_⟩ fun hn => .inr ⟨p, hp.conduit, ?_⟩
          · simp only [load, hdirection]
            omega
          · show l'.outgoing t.side = t.link.outgoing t.side
            rw [show t.link.outgoing t.side = .pipe p from hp.conduit]
            exact (congrArg conduit hdirection).trans (by simp [goesOut])
          · -- there is no room in the pipe
            have hcapacity := hp.capacity
            rw [← length_pos_iff]
            simp only [Pipe.room] at hfull
            omega
        · refine .less ?_
          simp only [load, hdirection]
          omega

/-- A frame that is too large is not sent. -/
theorem send_large_spec (hbusy : t.busy = false) (htodo : t.todo = f :: todo)
    (hlarge : f.isSmall = false) (n : Nat) :
    Inv frames (t.goOn n) arrived transit ∧ (t.goOn n).load frames < t.load frames := by
  obtain ⟨hopen, hended⟩ := h.active (.inr (by simp [htodo]))
  obtain ⟨taken, hframes, hfilter, hsent⟩ := h.taken
  have hsize : Envelope.defaultLimit < f.encodedLength := by
    simpa [Frame.isSmall] using hlarge
  have hresult : f.sentAs = .failed (.envelope (.tooLarge f.encodedLength)) := by
    simp [Frame.sentAs, hlarge]
  obtain ⟨l', hwriting, hdirection⟩ : ∃ l', t.link.writing t.side n (·.send t.side f) =
      (f.sentAs, l') ∧ l'.direction t.side = t.link.direction t.side := by
    rw [hresult]
    cases h.holds hended with
    | mailbox m hm =>
      have hsending : (t.link.direction t.side).sending = true := by simp [hm.sending, hopen]
      refine ⟨t.link, ?_, rfl⟩
      rw [writing_send_mailbox hm.conduit hsending hm.receiver, if_pos hsize]
    | pipe p hp =>
      exact writing_send_of_large hp.conduit (hp.idle hbusy) (hp.limit.trans_lt hsize) n
  have hstep : t.goOn n = { t with link := l', todo, sent := t.sent ++ [f.sentAs] } := by
    simp [goOn, hbusy, htodo, hwriting, hresult]
  rw [hstep]
  refine ⟨⟨⟨taken ++ [f], ?_, ?_, ?_⟩, h.received, ?_, h.ended, fun _ => ?_⟩, ?_⟩
  · simp [hframes, htodo]
  · simpa [hlarge] using hfilter
  · simpa [hbusy, hopen] using hsent
  · simp [hopen]
  · show (l'.direction t.side).Holds t.closed t.busy transit
    rw [hdirection]
    exact h.holds hended
  · simp only [load, hdirection, htodo, map_cons, sum_cons]
    omega

/-- A frame is taken for sending, and it goes out or is `blocked`. -/
theorem take_spec (hbusy : t.busy = false) (htodo : t.todo = f :: todo) (hsmall : f.isSmall = true)
    (blocked : Bool) (hholds : (l'.direction t.side).Holds t.closed blocked (transit ++ [f]))
    (hweight : (l'.direction t.side).weight ≤
      (t.link.direction t.side).weight + 3 * (4 + f.encodedLength)) :
    Inv frames { t with
        link := l', todo, busy := blocked, sent := t.sent ++ if blocked then [] else [.done] }
        arrived (transit ++ [f]) ∧
      { t with
        link := l', todo, busy := blocked,
        sent := t.sent ++ if blocked then [] else [Sent.done] }.load frames < t.load frames := by
  obtain ⟨hopen, hended⟩ := h.active (.inr (by simp [htodo]))
  obtain ⟨taken, hframes, hfilter, hsent⟩ := h.taken
  have hresult : f.sentAs = .done := by simp [Frame.sentAs, hsmall]
  refine ⟨⟨⟨taken ++ [f], ?_, ?_, ?_⟩, h.received, ?_, ?_, fun _ => hholds⟩, ?_⟩
  · simp [hframes, htodo]
  · simp [hsmall, hfilter]
  · cases blocked <;> simpa [hbusy, hopen, hresult] using hsent
  · simp [hopen]
  · exact fun hfalse => absurd (hended.symm.trans hfalse) (by simp)
  · simp only [load, htodo, map_cons, sum_cons, hbusy]
    cases blocked <;> simp <;> omega

/-- Any other frame is put behind those that are on their way. -/
theorem send_small_spec (hbusy : t.busy = false) (htodo : t.todo = f :: todo)
    (hsmall : f.isSmall = true) (n : Nat) :
    Inv frames (t.goOn n) arrived (transit ++ [f]) ∧ (t.goOn n).load frames < t.load frames := by
  obtain ⟨hopen, hended⟩ := h.active (.inr (by simp [htodo]))
  have hsize := Frame.isSmall_iff.mp hsmall
  cases h.holds hended with
  | mailbox m hm =>
    have hsending : (t.link.direction t.side).sending = true := by simp [hm.sending, hopen]
    have hwriting := writing_send_mailbox hm.conduit hsending hm.receiver f n
    rw [if_neg (by omega)] at hwriting
    obtain ⟨l', hdef⟩ : ∃ l', l' = t.link.setOutgoing t.side
        (.mailbox { m with messages := m.messages ++ [f.encode] }) := ⟨_, rfl⟩
    have hdirection : l'.direction t.side = _ :=
      hdef ▸ direction_setOutgoing t.link t.side _
    rw [← hdef] at hwriting
    have hstep : t.goOn n =
        { t with link := l', todo, busy := false, sent := t.sent ++ [.done] } := by
      simp [goOn, hbusy, htodo, hwriting]
    have hholds : (l'.direction t.side).Holds t.closed false (transit ++ [f]) := by
      rw [hdirection]
      exact .mailbox _ { hm with conduit := rfl, messages := by simp [hm.messages], idle := rfl }
    have hweight : (l'.direction t.side).weight = 0 := by
      rw [hdirection]
      rfl
    rw [hstep]
    exact take_spec h hbusy htodo hsmall false hholds (by omega)
  | pipe p hp =>
    have hunsent := hp.idle hbusy
    have hclosed := hp.closed.trans hopen
    have hreads := hp.reads
    rw [hunsent] at hreads
    obtain ⟨l', hwriting, hdirection⟩ :=
      writing_send_of_small hp.conduit hclosed hunsent (hp.limit ▸ hsize) n
    have hreads' := (hreads.concat hclosed
      (hp.readerLimit ▸ Frame.carries_of_isSmall hsmall)).goesOut hclosed (min p.room n)
    have hholds (blocked : Bool)
        (hidle : blocked = false → (Field.sized f.encode).drop (min p.room n) = []) :
        (l'.direction t.side).Holds t.closed blocked (transit ++ [f]) := by
      rw [hdirection]
      exact .pipe _ { hp with conduit := rfl, reads := hreads', idle := hidle }
    have hweight : (l'.direction t.side).weight ≤
        (t.link.direction t.side).weight + 3 * (4 + f.encodedLength) := by
      have hless := weight_goesOut
        { t.link.direction t.side with unsent := Field.sized f.encode } p (min p.room n)
        hp.conduit
      have hfed : { t.link.direction t.side with unsent := Field.sized f.encode }.weight =
          3 * (Field.sized f.encode).length + (t.link.direction t.side).reader.effort p :=
        weight_of_pipe hp.conduit
      have hbefore := weight_of_pipe hp.conduit
      rw [← hdirection] at hless
      simp only [Field.length_sized, Frame.length_encode] at hless hfed
      omega
    -- the whole frame has gone into the pipe, or the rest of it keeps the sender busy
    cases hempty : ((Field.sized f.encode).drop (min p.room n)).isEmpty with
    | true =>
      have hstep : t.goOn n =
          { t with link := l', todo, busy := false, sent := t.sent ++ [.done] } := by
        simp [goOn, hbusy, htodo, hwriting, hempty]
      rw [hstep]
      exact take_spec h hbusy htodo hsmall false
        (hholds false fun _ => isEmpty_iff.mp hempty) hweight
    | false =>
      have hstep : t.goOn n =
          { t with link := l', todo, busy := true, sent := t.sent ++ [] } := by
        simp [goOn, hbusy, htodo, hwriting, hempty]
      rw [hstep]
      exact take_spec h hbusy htodo hsmall true (hholds true (by simp)) hweight

/-- When everything has gone out, the link is closed. -/
theorem close_spec (hbusy : t.busy = false) (htodo : t.todo = []) (hopen : t.closed = false)
    (n : Nat) : Inv frames (t.goOn n) arrived transit ∧ (t.goOn n).load frames < t.load frames := by
  have hended : t.hasEnded = false := by
    by_contra hended
    have hclosed := (h.ended (by simpa using hended)).2
    simp [hopen] at hclosed
  obtain ⟨taken, hframes, hfilter, hsent⟩ := h.taken
  obtain ⟨l', hwriting, hholds, hweight⟩ : ∃ l', t.link.writing t.side n (·.close t.side) =
      (.done, l') ∧ (l'.direction t.side).Holds true t.busy transit ∧
      (l'.direction t.side).weight = (t.link.direction t.side).weight := by
    cases h.holds hended with
    | mailbox m hm =>
      obtain ⟨l', hwriting, hdirection⟩ := writing_close_mailbox hm.conduit n
      refine ⟨l', hwriting, ?_, ?_⟩
      · rw [hdirection]
        exact .mailbox _ { hm with conduit := rfl, sender := rfl, sending := rfl }
      · rw [weight_of_mailbox hm.conduit, hdirection]
        rfl
    | pipe p hp =>
      have hunsent := hp.idle hbusy
      obtain ⟨l', hwriting, hdirection⟩ := writing_close hp.conduit hunsent n
      refine ⟨l', hwriting, ?_, ?_⟩
      · have hreads := hp.reads
        rw [hunsent] at hreads
        rw [hdirection]
        exact .pipe _ { hp with
          conduit := rfl, closed := rfl, reads := by simpa only [hunsent] using hreads.close }
      · rw [weight_of_pipe hp.conduit, hdirection]
        rfl
  have hstep : t.goOn n =
      { t with link := l', closed := true, sent := t.sent ++ [.done] } := by
    simp [goOn, hbusy, htodo, hopen, hwriting]
  rw [hstep]
  refine ⟨⟨⟨taken, hframes, hfilter, ?_⟩, h.received, fun _ => ⟨htodo, hbusy⟩, ?_, fun _ => hholds⟩,
    ?_⟩
  · simpa [hbusy, hopen] using hsent
  · exact fun hfalse => absurd (hended.symm.trans hfalse) (by simp)
  · simp only [load, hweight, hopen]
    simp

/-- The sender goes on, unless it has closed the link or the pipe is full. -/
theorem goOn_spec (n : Nat) :
    (∃ transit', Inv frames (t.goOn n) arrived transit') ∧
      Progress frames t (t.goOn n) (0 < n → t.SenderWaits) := by
  cases hbusy : t.busy with
  | true =>
    obtain ⟨hinv, hprogress⟩ := flush_spec h hbusy n
    exact ⟨⟨transit, hinv⟩, hprogress⟩
  | false =>
    cases htodo : t.todo with
    | cons f todo =>
      cases hsmall : f.isSmall with
      | true =>
        obtain ⟨hinv, hless⟩ := send_small_spec h hbusy htodo hsmall n
        exact ⟨⟨_, hinv⟩, .less hless⟩
      | false =>
        obtain ⟨hinv, hless⟩ := send_large_spec h hbusy htodo hsmall n
        exact ⟨⟨_, hinv⟩, .less hless⟩
    | nil =>
      cases hclosed : t.closed with
      | true =>
        have hstep : t.goOn n = t := by simp [goOn, hbusy, htodo, hclosed]
        rw [hstep]
        exact ⟨⟨transit, h⟩, .none rfl (.refl t) fun _ => .inl hclosed⟩
      | false =>
        obtain ⟨hinv, hless⟩ := close_spec h hbusy htodo hclosed n
        exact ⟨⟨_, hinv⟩, .less hless⟩

end Faithful

/-! ## The receiver -/

/-- Whatever arrives, less is left to do. -/
theorem load_hear (hlength : t.received.length ≤ frames.length)
    (hweight : (l'.direction t.side).weight ≤ (t.link.direction t.side).weight) :
    (t.hear l' arrival).load frames < t.load frames := by
  dsimp only [load, hear]
  rw [length_append, length_singleton]
  omega

/-- A frame arrives. -/
theorem arrive_spec {rest : List Frame} (h : Inv frames t arrived (f :: rest))
    (hended : t.hasEnded = false) (hholds : (l'.direction t.side).Holds t.closed t.busy rest)
    (hweight : (l'.direction t.side).weight ≤ (t.link.direction t.side).weight) :
    Inv frames (t.hear l' f.arrival) (arrived ++ [f]) rest ∧
      (t.hear l' f.arrival).load frames < t.load frames := by
  obtain ⟨taken, hframes, hfilter, hsent⟩ := h.taken
  have hreceived : (t.hear l' f.arrival).received = (arrived ++ [f]).map Frame.arrival := by
    simp [hear, h.received, hended]
  have hended' := hasEnded_of_received hreceived
  have hlength := h.length_received hended
  refine ⟨⟨⟨taken, hframes, ?_, hsent⟩, ?_, h.closed, ?_, fun _ => hholds⟩,
    load_hear (by omega) hweight⟩
  · simp [hfilter]
  · simpa [hended'] using hreceived
  · simp [hended']

/-- The stream ends. -/
theorem end_spec (h : Inv frames t arrived []) (hended : t.hasEnded = false)
    (hclosed : t.closed = true)
    (hweight : (l'.direction t.side).weight ≤ (t.link.direction t.side).weight) :
    Inv frames (t.hear l' .ended) arrived [] ∧
      (t.hear l' .ended).load frames < t.load frames := by
  have hended' : (t.hear l' .ended).hasEnded = true := hasEnded_append_ended t.received rfl
  have hlength := h.length_received hended
  refine ⟨⟨h.taken, ?_, h.closed, fun _ => ⟨rfl, hclosed⟩, ?_⟩, load_hear (by omega) hweight⟩
  · rw [hended']
    simp [hear, h.received, hended]
  · simp [hended']

theorem listen_of_reading (hended : t.hasEnded = false) {n : Nat} (hsome : arrival ≠ .nothing)
    (hreading : t.link.reading t.side n = (some arrival, l')) :
    t.listen n = t.hear l' arrival := by
  cases arrival <;> simp_all [listen, answer]

section Listening

variable (h : Inv frames t arrived transit)
include h

theorem Inv.isSmall_of_mem (hf : f ∈ transit) : f.isSmall = true := by
  obtain ⟨taken, -, hfilter, -⟩ := h.taken
  have hmem : f ∈ taken.filter Frame.isSmall := by simp [hfilter, hf]
  exact (mem_filter.mp hmem).2

/-- Taking a message out of a mailbox. -/
theorem listen_mailbox_spec (hended : t.hasEnded = false) {m : Mailbox}
    (hm : (t.link.direction t.side).HoldsMailbox m t.closed t.busy transit) (n : Nat) :
    (∃ arrived' transit', Inv frames (t.listen n) arrived' transit') ∧
      Progress frames t (t.listen n) (0 < n → t.ReceiverWaits) := by
  have hout : t.link.outgoing t.side = .mailbox m := hm.conduit
  have hreading : t.link.reading t.side n =
      (some (t.link.takeMessage t.side.other m).1, (t.link.takeMessage t.side.other m).2) := by
    have hincoming : t.link.incoming t.side.other = .mailbox m := by
      rw [incoming, Side.other_other, hout]
    simp [reading, hout, attempt, hincoming]
  cases transit with
  | nil =>
    have htake : t.link.takeMessage t.side.other m =
        (if t.closed then .ended else .nothing, t.link) := by
      simp [takeMessage, hm.messages, hm.sender]
    rw [htake] at hreading
    cases hclosed : t.closed with
    | true =>
      rw [hclosed] at hreading
      rw [listen_of_reading hended (by simp) hreading]
      obtain ⟨hinv, hless⟩ := end_spec h hended hclosed (le_refl _)
      exact ⟨⟨_, _, hinv⟩, .less hless⟩
    | false =>
      rw [hclosed] at hreading
      have hstep : t.listen n = t := by
        rw [listen, hended, hreading]
        rfl
      rw [hstep]
      refine ⟨⟨_, _, h⟩, .none rfl (.refl t) fun _ => .inr ⟨hclosed, ?_⟩⟩
      simp [hout]
  | cons f rest =>
    have hsmall := h.isSmall_of_mem mem_cons_self
    obtain ⟨l', hdef⟩ : ∃ l', l' = t.link.setOutgoing t.side
        (.mailbox { m with messages := rest.map Frame.encode }) := ⟨_, rfl⟩
    have hdirection : l'.direction t.side = _ :=
      hdef ▸ direction_setOutgoing t.link t.side _
    have htake : t.link.takeMessage t.side.other m = (f.arrival, l') := by
      simp [takeMessage, hm.messages, openMessage_encode (Frame.lt_of_isSmall hsmall),
        setIncoming, Side.other_other, hdef]
    rw [htake] at hreading
    rw [listen_of_reading hended f.arrival_ne_nothing hreading]
    have hholds : (l'.direction t.side).Holds t.closed t.busy rest := by
      rw [hdirection]
      exact .mailbox _ { hm with conduit := rfl, messages := rfl }
    have hweight : (l'.direction t.side).weight ≤ (t.link.direction t.side).weight := by
      simp [hdirection, weight]
    obtain ⟨hinv, hless⟩ := arrive_spec h hended hholds hweight
    exact ⟨⟨_, _, hinv⟩, .less hless⟩

/-- Reading from a pipe. -/
theorem listen_pipe_spec (hended : t.hasEnded = false)
    (hp : (t.link.direction t.side).HoldsPipe p t.closed t.busy transit) (n : Nat) :
    (∃ arrived' transit', Inv frames (t.listen n) arrived' transit') ∧
      Progress frames t (t.listen n) (0 < n → t.ReceiverWaits) := by
  have hweight := weight_of_pipe hp.conduit
  rcases reading_of_reads hp.conduit hp.reads n with
    ⟨l', r, hreading, hwaits, hdirection, hreads, hlimit, heffort⟩ |
    ⟨l', r, p', hreading, hdirection, hclosed, hcapacity, hreads, hlimit, heffort⟩ |
    ⟨f, rest, l', r, rfl, hreading, hdirection, hreads, hlimit, heffort⟩ |
    ⟨l', r, rfl, hclosed, hreading, hdirection, heffort⟩
  · have hstep : t.listen n = { t with link := l' } := by simp [listen, answer, hended, hreading]
    have hweight' : (l'.direction t.side).weight = (t.link.direction t.side).weight := by
      rw [hdirection, hweight, weight_setReader hp.conduit, heffort]
    rw [hstep]
    refine ⟨⟨arrived, transit, ⟨h.taken, h.received, h.closed, h.ended, fun _ => ?_⟩⟩,
      .none ?_ ?_ ?_⟩
    · show (l'.direction t.side).Holds t.closed t.busy transit
      rw [hdirection]
      exact .pipe p { hp with reads := hreads, readerLimit := hlimit.trans hp.readerLimit }
    · simp only [load, hweight']
    · exact ⟨rfl, rfl, rfl, congrArg conduit hdirection⟩
    · intro hn
      obtain ⟨hbytes, hopen⟩ := hwaits.resolve_left (by omega)
      refine .inr ⟨hp.closed.symm.trans hopen, fun p' hp' => ?_⟩
      have hsame : Conduit.pipe p = .pipe p' := hp.conduit.symm.trans hp'
      cases hsame
      exact hbytes
  · have hstep : t.listen n = { t with link := l' } := by simp [listen, answer, hended, hreading]
    have hweight' : (l'.direction t.side).weight < (t.link.direction t.side).weight := by
      rw [hdirection, hweight, weight_of_pipe rfl]
      exact Nat.add_lt_add_left heffort _
    rw [hstep]
    refine ⟨⟨arrived, transit, ⟨h.taken, h.received, h.closed, h.ended, fun _ => ?_⟩⟩, .less ?_⟩
    · show (l'.direction t.side).Holds t.closed t.busy transit
      rw [hdirection]
      exact .pipe p' { hp with
        conduit := rfl
        reads := hreads
        closed := hclosed.trans hp.closed
        capacity := hcapacity ▸ hp.capacity
        readerLimit := hlimit.trans hp.readerLimit }
    · simp only [load]
      omega
  · rw [listen_of_reading hended f.arrival_ne_nothing hreading]
    have hholds : (l'.direction t.side).Holds t.closed t.busy rest := by
      rw [hdirection]
      exact .pipe p { hp with reads := hreads, readerLimit := hlimit.trans hp.readerLimit }
    have hweight' : (l'.direction t.side).weight ≤ (t.link.direction t.side).weight := by
      rw [hdirection, hweight, weight_setReader hp.conduit, heffort]
    obtain ⟨hinv, hless⟩ := arrive_spec h hended hholds hweight'
    exact ⟨⟨_, _, hinv⟩, .less hless⟩
  · rw [listen_of_reading hended (by simp) hreading]
    have hweight' : (l'.direction t.side).weight ≤ (t.link.direction t.side).weight := by
      rw [hdirection, hweight, weight_setReader hp.conduit]
      exact Nat.add_le_add_left heffort _
    obtain ⟨hinv, hless⟩ := end_spec h hended (hp.closed.symm.trans hclosed) hweight'
    exact ⟨⟨_, _, hinv⟩, .less hless⟩

/-- The receiver goes on, unless the stream has ended or nothing is there yet. -/
theorem listen_spec (n : Nat) :
    (∃ arrived' transit', Inv frames (t.listen n) arrived' transit') ∧
      Progress frames t (t.listen n) (0 < n → t.ReceiverWaits) := by
  cases hended : t.hasEnded with
  | true =>
    have hstep : t.listen n = t := by simp [listen, hended]
    rw [hstep]
    exact ⟨⟨arrived, transit, h⟩, .none rfl (.refl t) fun _ => .inl hended⟩
  | false =>
    cases h.holds hended with
    | mailbox m hm => exact listen_mailbox_spec h hended hm n
    | pipe p hp => exact listen_pipe_spec h hended hp n

/-- Several attempts of the receiver. -/
theorem listens_spec (n k : Nat) :
    (∃ arrived' transit', Inv frames ((·.listen n)^[k] t) arrived' transit') ∧
      Progress frames t ((·.listen n)^[k] t) (0 < k → 0 < n → t.ReceiverWaits) := by
  induction k generalizing t arrived transit with
  | zero => exact ⟨⟨_, _, h⟩, .none rfl (.refl t) (by simp)⟩
  | succ k ih =>
    obtain ⟨⟨arrived', transit', hinv⟩, hfirst⟩ := listen_spec h n
    obtain ⟨hinv', hrest⟩ := ih hinv
    rw [Function.iterate_succ_apply]
    exact ⟨hinv', (hfirst.trans hrest).imp fun hreason _ => hreason.1⟩

end Listening

/-- Attempts in a row are attempts of the receiver, when everything has come through. -/
theorem answer_attempts (hended : t.hasEnded = false) (hout : t.link.outgoing t.side = .pipe p)
    {n : Nat} (hn : p.bytes.length ≤ n) (m : Nat)
    (hread : t.link.readPipe t.side.other p (·.attempts · m) = (arrival, l')) :
    ∃ k, (0 < m → 0 < k) ∧ t.answer (some arrival, l') = (·.listen n)^[k] t := by
  induction m generalizing t p with
  | zero =>
    have hsame : (t.link.setIncoming t.side.other (.pipe p)).setEndpoint t.side.other
        (t.link.endpoint t.side.other) = t.link := by
      rw [setIncoming, Side.other_other, ← hout]
      cases t.side <;> rfl
    simp only [readPipe, StreamReader.attempts, hsame] at hread
    cases hread
    exact ⟨0, by simp, rfl⟩
  | succ m ih =>
    have hlisten : t.listen n =
        t.answer (t.link.readPipe t.side.other p StreamReader.attempt) := by
      simp [listen, hended, reading_of_le hout hn]
    obtain ⟨c, hpipe⟩ := (t.link.endpoint t.side.other).reader.attempt_pipe p
    simp only [readPipe, StreamReader.attempts] at hread hlisten
    rcases hattempt : (t.link.endpoint t.side.other).reader.attempt p with ⟨_ | a, r, p'⟩
    · rw [hattempt] at hread hlisten hpipe
      obtain ⟨l₁, hdef⟩ : ∃ l₁, l₁ = (t.link.setIncoming t.side.other (.pipe p')).setEndpoint
          t.side.other { t.link.endpoint t.side.other with reader := r } := ⟨_, rfl⟩
      have hlisten₁ : t.listen n = { t with link := l₁ } := by
        rw [hlisten, hdef]
        rfl
      have hdirection := (direction_read t.link t.side p' r).1
      have hread₁ : l₁.readPipe t.side.other p' (·.attempts · m) = (arrival, l') := by
        rw [← hread, hdef]
        simp only [readPipe]
        cases t.side <;> rfl
      have hended₁ : { t with link := l₁ }.hasEnded = false := hended
      have hout₁ : { t with link := l₁ }.link.outgoing { t with link := l₁ }.side = .pipe p' :=
        hdef ▸ congrArg conduit hdirection
      have hn₁ : p'.bytes.length ≤ n := by
        rw [show p' = _ from hpipe, length_drop]
        omega
      obtain ⟨k, -, hk⟩ := ih hended₁ hout₁ hn₁ hread₁
      refine ⟨k + 1, by simp, ?_⟩
      rw [Function.iterate_succ_apply, hlisten₁, ← hk]
      cases arrival <;> rfl
    · rw [hattempt] at hread hlisten
      simp only at hread hlisten
      cases hread
      exact ⟨1, by simp, hlisten.symm⟩

/-- To receive is to make some attempts. -/
theorem receive_eq_listens (t : Transfer) :
    ∃ k n, 0 < k ∧ 0 < n ∧ t.receive = (·.listen n)^[k] t := by
  cases hended : t.hasEnded with
  | true => exact ⟨1, 1, by simp, by simp, by simp [receive, listen, hended]⟩
  | false =>
    cases hout : t.link.outgoing t.side with
    | mailbox m =>
      have hincoming : t.link.incoming t.side.other = .mailbox m := by
        rw [incoming, Side.other_other, hout]
      refine ⟨1, 1, by simp, by simp, ?_⟩
      simp [receive, listen, hended, recv, reading, hout, attempt, hincoming]
    | pipe p =>
      have hincoming : t.link.incoming t.side.other = .pipe p := by
        rw [incoming, Side.other_other, hout]
      obtain ⟨k, hk, hanswer⟩ := answer_attempts hended hout (Nat.le_succ p.bytes.length)
        (2 * p.bytes.length + 4) rfl
      refine ⟨k, p.bytes.length + 1, hk (by omega), by simp, ?_⟩
      rw [← hanswer]
      simp only [receive, hended, recv, hincoming]
      rfl

end Transfer

end Remoting
