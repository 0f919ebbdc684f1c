import Remoting.Proofs.Opening

/-!
# Remoting.Proofs.PartialReadsAndWrites

Links whose pipes take and give their bytes in portions. While something is sent, a pipe may take
fewer bytes than there is room for (`Link.writing`), and while something is received, fewer bytes
may have come through than are in the pipe (`Link.reading`). Each lemma says what such a step makes
of one direction of a link (`Link.direction`).
-/

namespace Remoting

open List Direction

/-! ## Pipes that take and give little -/

/-- A pipe that takes at most so many bytes. -/
def Pipe.narrow (p : Pipe) (n : Nat) : Pipe :=
  { p with capacity := min p.capacity (p.bytes.length + n) }

theorem Pipe.room_narrow (p : Pipe) (n : Nat) : (p.narrow n).room = min p.room n := by
  simp only [room, narrow]
  omega

/-- What can be seen of a pipe when only some of its bytes have come through. -/
def Pipe.upTo (p : Pipe) (n : Nat) : Pipe :=
  { p with bytes := p.bytes.take n, closed := p.closed && decide (p.bytes.length ≤ n) }

theorem Pipe.upTo_of_le {p : Pipe} {n : Nat} (h : p.bytes.length ≤ n) : p.upTo n = p := by
  simp [upTo, take_of_length_le h, h]

/-- What is left of the bytes that have come through, before those that have not. -/
def Pipe.before (v p : Pipe) (n : Nat) : Pipe :=
  { v with bytes := v.bytes ++ p.bytes.drop n, closed := p.closed }

theorem Pipe.before_upTo (p : Pipe) (n : Nat) : (p.upTo n).before p n = p := by
  simp [before, upTo]

namespace StreamReader

/-- An attempt takes bytes from the front of the pipe, if any. -/
theorem attempt_pipe (r : StreamReader) (p : Pipe) :
    ∃ k, (r.attempt p).2.2 = { p with bytes := p.bytes.drop k } := by
  cases hneeds : r.needsBytes with
  | true =>
    by_cases hbytes : p.bytes = []
    · have hsame : (r.attempt p).2.2 = p := by
        cases hclosed : p.closed <;> cases hend : r.atEnd <;>
          simp [attempt, hneeds, pull, hbytes, hclosed, hend]
      exact ⟨0, hsame⟩
    · obtain ⟨k, w, -, hpull⟩ := pull_of_ne_nil (r := r) hbytes
      exact ⟨k, by simp [attempt, hneeds, hpull]⟩
  | false =>
    refine ⟨0, ?_⟩
    cases hfailed : r.failed <;> simp [attempt, hneeds, hfailed]

variable {r : StreamReader} {p v : Pipe} {later : Bytes} {frames : List Frame}

theorem Reads.upTo (h : r.Reads p later frames) (n : Nat) :
    r.Reads (p.upTo n) (p.bytes.drop n ++ later) frames where
  failed := h.failed
  small := h.small
  bytes := by
    rw [← h.bytes]
    simp only [Pipe.upTo, append_assoc]
    rw [← append_assoc (p.bytes.take n), take_append_drop]
  atEnd := by
    intro hend
    obtain ⟨hreadable, hbytes, hclosed⟩ := h.atEnd hend
    simp [Pipe.upTo, hreadable, hbytes, hclosed]
  closed := by
    intro hclosed
    obtain ⟨hclosed, hall⟩ : p.closed = true ∧ p.bytes.length ≤ n := by
      simpa [Pipe.upTo] using hclosed
    rw [drop_eq_nil_of_le hall, h.closed hclosed, nil_append]

theorem Reads.before {n : Nat} (h : r.Reads v (p.bytes.drop n ++ later) frames)
    (hclosed : v.closed = (p.upTo n).closed) (hlater : p.closed = true → later = []) :
    r.Reads (v.before p n) later frames where
  failed := h.failed
  small := h.small
  bytes := by
    rw [← h.bytes]
    simp [Pipe.before]
  atEnd := by
    intro hend
    obtain ⟨hreadable, hbytes, hclosed'⟩ := h.atEnd hend
    rw [hclosed] at hclosed'
    obtain ⟨hp, hall⟩ : p.closed = true ∧ p.bytes.length ≤ n := by
      simpa [Pipe.upTo] using hclosed'
    simp [Pipe.before, hreadable, hbytes, hp, hall]
  closed := hlater

theorem effort_before (r : StreamReader) (v p : Pipe) (n : Nat) :
    r.effort (v.before p n) = r.effort v + 2 * (p.bytes.drop n).length := by
  simp only [effort, backlog, Pipe.before, length_append]
  omega

/-- Bytes go out into an open pipe. -/
theorem Reads.goesOut (h : r.Reads p later frames) (hopen : p.closed = false) (k : Nat) :
    r.Reads { p with bytes := p.bytes ++ later.take k } (later.drop k) frames where
  failed := h.failed
  small := h.small
  bytes := by
    rw [← h.bytes]
    simp
  atEnd := by
    intro hend
    rw [(h.atEnd hend).2.2] at hopen
    contradiction
  closed := by
    intro hclosed
    rw [hopen] at hclosed
    contradiction

/-- A frame is put behind those that are on their way. -/
theorem Reads.concat (h : r.Reads p [] frames) (hopen : p.closed = false) {f : Frame}
    (hf : Envelope.Carries r.limit f.encode) :
    r.Reads p (Field.sized f.encode) (frames ++ [f]) where
  failed := h.failed
  small := by
    intro g hg
    rcases mem_append.mp hg with hmem | hmem
    · exact h.small g hmem
    · rwa [mem_singleton.mp hmem]
  bytes := by
    have hbytes := h.bytes
    rw [append_nil] at hbytes
    simp [hbytes, Envelope.stream]
  atEnd := h.atEnd
  closed := by
    intro hclosed
    rw [hopen] at hclosed
    contradiction

theorem Reads.close (h : r.Reads p [] frames) : r.Reads p.close [] frames :=
  { h with
    atEnd := fun hend => ⟨(h.atEnd hend).1, (h.atEnd hend).2.1, rfl⟩
    closed := fun _ => rfl }

end StreamReader

namespace Direction

/-- So many unsent bytes go out into the pipe. -/
def goesOut (d : Direction) (p : Pipe) (k : Nat) : Direction :=
  { d with
    conduit := .pipe { p with bytes := p.bytes ++ d.unsent.take k }
    unsent := d.unsent.drop k }

theorem goesOut_of_nil {d : Direction} {p : Pipe} (hconduit : d.conduit = .pipe p)
    (hunsent : d.unsent = []) (k : Nat) : d.goesOut p k = d := by
  cases d
  simp_all [goesOut]

end Direction

namespace Link

/-- Change the pipe on which a side sends. -/
def changePipe (l : Link) (side : Side) (change : Pipe → Pipe) : Link :=
  match l.outgoing side with
  | .mailbox _ => l
  | .pipe p => l.setOutgoing side (.pipe (change p))

/-- Do something at a side while its pipe takes at most so many bytes. -/
def writing (l : Link) (side : Side) (n : Nat) (act : Link → Sent × Link) : Sent × Link :=
  match l.outgoing side with
  | .mailbox _ => act l
  | .pipe p =>
    let (sent, l) := act (l.changePipe side (·.narrow n))
    (sent, l.changePipe side fun p' => { p' with capacity := p.capacity })

/-- One attempt to receive what a side sends, while at most so many bytes of the pipe have come
through. -/
def reading (l : Link) (side : Side) (n : Nat) : Option Arrival × Link :=
  match l.outgoing side with
  | .mailbox _ => l.attempt side.other
  | .pipe p =>
    let (answer, l) := (l.changePipe side (·.upTo n)).attempt side.other
    (answer, l.changePipe side (·.before p n))

variable {l : Link} {side : Side} {p : Pipe}

section Pipe

variable (hout : l.outgoing side = .pipe p)
include hout

theorem direction_changePipe (change : Pipe → Pipe) :
    (l.changePipe side change).direction side =
      { l.direction side with conduit := .pipe (change p) } := by
  rw [changePipe, hout]
  exact direction_setOutgoing l side _

/-- What goes out of the unsent bytes. -/
theorem flush_pipe (hopen : p.closed = false) :
    ∃ l', l.flush side =
        (if ((l.direction side).unsent.drop p.room).isEmpty then .done else .blocked, l') ∧
      l'.direction side = (l.direction side).goesOut p p.room := by
  have hunsent : (l.direction side).unsent = (l.endpoint side).unsent := rfl
  by_cases hnone : (l.endpoint side).unsent = []
  · refine ⟨l, by simp [flush, hout, hunsent, hnone], ?_⟩
    exact (goesOut_of_nil hout hnone p.room).symm
  · have hempty : (l.endpoint side).unsent.isEmpty = false := by simpa using hnone
    have hwrite : p.write (l.endpoint side).unsent = some ((l.endpoint side).unsent.drop p.room,
        { p with bytes := p.bytes ++ (l.endpoint side).unsent.take p.room }) := by
      rw [Pipe.write, hopen]
      rfl
    refine ⟨_, by simp only [flush, hout, hempty, hwrite, hunsent]; rfl, ?_⟩
    cases side <;> rfl

/-- Something is done while the pipe takes at most so many bytes. -/
theorem writing_pipe (n : Nat) (act : Link → Sent × Link) {sent : Sent} {l' : Link}
    (hact : act (l.changePipe side (·.narrow n)) = (sent, l')) {q : Pipe}
    (hout' : l'.outgoing side = .pipe q) :
    ∃ l'', l.writing side n act = (sent, l'') ∧ l''.direction side =
      { l'.direction side with conduit := .pipe { q with capacity := p.capacity } } :=
  ⟨l'.changePipe side fun p' => { p' with capacity := p.capacity },
    by simp only [writing, hout, hact], direction_changePipe hout' _⟩

/-- What goes out while the pipe takes at most so many bytes. -/
theorem writing_flush (hopen : p.closed = false) (n : Nat) :
    ∃ l', l.writing side n (·.flush side) =
        (if ((l.direction side).unsent.drop (min p.room n)).isEmpty then .done else .blocked, l') ∧
      l'.direction side = (l.direction side).goesOut p (min p.room n) := by
  have hnarrow := direction_changePipe hout (·.narrow n)
  obtain ⟨l', hflush, hdirection⟩ := flush_pipe (congrArg conduit hnarrow) hopen
  rw [p.room_narrow, hnarrow] at hflush hdirection
  obtain ⟨l'', hwriting, hdirection'⟩ :=
    writing_pipe hout n (·.flush side) hflush (congrArg conduit hdirection)
  rw [hdirection] at hdirection'
  exact ⟨l'', hwriting, hdirection'⟩

/-- Sending on a pipe when everything has gone out: the frame is put behind no bytes, and then as
much goes out as there is room for. -/
theorem send_pipe (hunsent : (l.endpoint side).unsent = []) (f : Frame) :
    l.send side f =
      match Envelope.wrap (l.endpoint side).limit f with
      | .error error => (.failed (.envelope error), l)
      | .ok bs => (l.setEndpoint side { l.endpoint side with unsent := bs }).flush side := by
  cases hwrap : Envelope.wrap (l.endpoint side).limit f with
  | error error => simp [send, hunsent, unsentLimit, andThen, feed, hout, hwrap]
  | ok bs => simp [send, hunsent, unsentLimit, andThen, feed, hout, hwrap]

/-- While only some of the room of a pipe is there, all else is as it was. -/
theorem exists_narrow (hunsent : (l.direction side).unsent = []) (n : Nat) :
    ∃ narrow, narrow = l.changePipe side (·.narrow n) ∧
      narrow.direction side = { l.direction side with conduit := .pipe (p.narrow n) } ∧
      narrow.outgoing side = .pipe (p.narrow n) ∧ (narrow.endpoint side).unsent = [] ∧
      (narrow.endpoint side).limit = (l.direction side).limit := by
  have hnarrow := direction_changePipe hout (·.narrow n)
  exact ⟨_, rfl, hnarrow, congrArg conduit hnarrow, (congrArg unsent hnarrow).trans hunsent,
    congrArg limit hnarrow⟩

/-- A frame that is too large is not sent. -/
theorem writing_send_of_large (hunsent : (l.direction side).unsent = []) {f : Frame}
    (hlarge : (l.direction side).limit < f.encodedLength) (n : Nat) :
    ∃ l', l.writing side n (·.send side f) =
        (.failed (.envelope (.tooLarge f.encodedLength)), l') ∧
      l'.direction side = l.direction side := by
  obtain ⟨narrow, rfl, hnarrow, hout', hunsent', hlimit'⟩ := exists_narrow hout hunsent n
  have hsend : (l.changePipe side (·.narrow n)).send side f =
      (.failed (.envelope (.tooLarge f.encodedLength)), l.changePipe side (·.narrow n)) := by
    rw [send_pipe hout' hunsent', Envelope.wrap, if_pos (hlimit' ▸ hlarge)]
  obtain ⟨l', hwriting, hdirection⟩ := writing_pipe hout n (·.send side f) hsend hout'
  rw [hnarrow] at hdirection
  refine ⟨l', hwriting, hdirection.trans ?_⟩
  have hconduit : (l.direction side).conduit = .pipe p := hout
  cases hd : l.direction side
  simp_all [Pipe.narrow]

/-- A frame that is not too large goes out as far as the pipe takes it. -/
theorem writing_send_of_small (hopen : p.closed = false) (hunsent : (l.direction side).unsent = [])
    {f : Frame} (hsmall : f.encodedLength ≤ (l.direction side).limit) (n : Nat) :
    ∃ l', l.writing side n (·.send side f) =
        (if ((Field.sized f.encode).drop (min p.room n)).isEmpty then .done else .blocked, l') ∧
      l'.direction side = { l.direction side with unsent := Field.sized f.encode }.goesOut p
        (min p.room n) := by
  obtain ⟨narrow, hdef, hnarrow, hout', hunsent', hlimit'⟩ := exists_narrow hout hunsent n
  obtain ⟨hfed, -⟩ := direction_setUnsent narrow side (Field.sized f.encode)
  obtain ⟨fed, hfeddef⟩ : ∃ fed, fed = narrow.setEndpoint side
      { narrow.endpoint side with unsent := Field.sized f.encode } := ⟨_, rfl⟩
  rw [← hfeddef, hnarrow] at hfed
  have hwrap : Envelope.wrap (narrow.endpoint side).limit f = .ok (Field.sized f.encode) :=
    Envelope.wrap_eq_ok_iff.mpr ⟨hlimit' ▸ hsmall, rfl⟩
  have hsend : narrow.send side f = fed.flush side := by
    rw [send_pipe hout' hunsent', hwrap, hfeddef]
  obtain ⟨l', hflush, hdirection⟩ := flush_pipe (congrArg conduit hfed) hopen
  rw [p.room_narrow, hfed] at hflush hdirection
  obtain ⟨l'', hwriting, hdirection'⟩ := writing_pipe hout n (·.send side f)
    (by rw [← hdef, hsend, hflush]) (congrArg conduit hdirection)
  rw [hdirection] at hdirection'
  exact ⟨l'', hwriting, hdirection'⟩

/-- Closing a pipe when everything has gone out. -/
theorem writing_close (hunsent : (l.direction side).unsent = []) (n : Nat) :
    ∃ l', l.writing side n (·.close side) = (.done, l') ∧
      l'.direction side = { l.direction side with conduit := .pipe p.close } := by
  obtain ⟨narrow, hdef, hnarrow, hout', hunsent', -⟩ := exists_narrow hout hunsent n
  have hclose : narrow.close side =
      (.done, narrow.setOutgoing side (.pipe (p.narrow n).close)) := by
    simp [close, hout', flush, hunsent', andThen]
  have hclosed := direction_setOutgoing narrow side (.pipe (p.narrow n).close)
  obtain ⟨l'', hwriting, hdirection⟩ := writing_pipe hout n (·.close side)
    (by rw [← hdef, hclose]) (congrArg conduit hclosed)
  rw [hclosed, hnarrow] at hdirection
  exact ⟨l'', hwriting, hdirection⟩

/-- An attempt to receive while at most so many bytes of the pipe have come through. -/
theorem reading_pipe (n : Nat) {answer : Option Arrival} {r : StreamReader} {v : Pipe}
    (hattempt : (l.direction side).reader.attempt (p.upTo n) = (answer, r, v)) :
    ∃ l', l.reading side n = (answer, l') ∧
      l'.direction side =
        { l.direction side with conduit := .pipe (v.before p n), reader := r } := by
  have hseen := direction_changePipe hout (·.upTo n)
  obtain ⟨seen, hdef⟩ : ∃ seen, seen = l.changePipe side (·.upTo n) := ⟨_, rfl⟩
  rw [← hdef] at hseen
  have hincoming : seen.incoming side.other = .pipe (p.upTo n) := by
    rw [incoming, Side.other_other]
    exact congrArg conduit hseen
  have hreader : (seen.endpoint side.other).reader = (l.direction side).reader :=
    congrArg reader hseen
  obtain ⟨hread, -⟩ := direction_read seen side v r
  rw [hseen] at hread
  refine ⟨_, ?_, (direction_changePipe (congrArg conduit hread) (·.before p n)).trans ?_⟩
  · simp only [reading, hout, ← hdef, attempt, hincoming, readPipe, hreader, hattempt]
  · rw [hread]

/-- When everything has come through, this is a plain attempt. -/
theorem reading_of_le {n : Nat} (h : p.bytes.length ≤ n) :
    l.reading side n = l.readPipe side.other p StreamReader.attempt := by
  have hchange (l' : Link) (c : Pipe) (e : Endpoint) :
      ((l'.setIncoming side.other (.pipe c)).setEndpoint side.other e).changePipe side
          (·.before p n) =
        (l'.setIncoming side.other (.pipe (c.before p n))).setEndpoint side.other e := by
    cases side <;> rfl
  have hsame : l.changePipe side (·.upTo n) = l := by
    simp only [changePipe, hout, Pipe.upTo_of_le h]
    rw [← hout]
    cases side <;> rfl
  have hincoming : l.incoming side.other = .pipe p := by rw [incoming, Side.other_other, hout]
  obtain ⟨k, hrest⟩ := (l.endpoint side.other).reader.attempt_pipe p
  have hbefore : ((l.endpoint side.other).reader.attempt p).2.2.before p n =
      ((l.endpoint side.other).reader.attempt p).2.2 := by
    simp [hrest, Pipe.before, drop_of_length_le h]
  simp only [reading, hout, hsame, attempt, hincoming, readPipe, hchange, hbefore]

/-- What comes of an attempt to receive, as for a reader that sees the whole pipe. -/
theorem reading_of_reads {frames : List Frame}
    (h : (l.direction side).reader.Reads p (l.direction side).unsent frames) (n : Nat) :
    (∃ l' r, l.reading side n = (some .nothing, l') ∧ (n = 0 ∨ p.bytes = [] ∧ p.closed = false) ∧
      l'.direction side = { l.direction side with reader := r } ∧
      r.Reads p (l.direction side).unsent frames ∧ r.limit = (l.direction side).reader.limit ∧
      r.effort p = (l.direction side).reader.effort p) ∨
    (∃ l' r p', l.reading side n = (none, l') ∧
      l'.direction side = { l.direction side with conduit := .pipe p', reader := r } ∧
      p'.closed = p.closed ∧ p'.capacity = p.capacity ∧
      r.Reads p' (l.direction side).unsent frames ∧ r.limit = (l.direction side).reader.limit ∧
      r.effort p' < (l.direction side).reader.effort p) ∨
    (∃ f rest l' r, frames = f :: rest ∧ l.reading side n = (some f.arrival, l') ∧
      l'.direction side = { l.direction side with reader := r } ∧
      r.Reads p (l.direction side).unsent rest ∧ r.limit = (l.direction side).reader.limit ∧
      r.effort p = (l.direction side).reader.effort p) ∨
    (∃ l' r, frames = [] ∧ p.closed = true ∧ l.reading side n = (some .ended, l') ∧
      l'.direction side = { l.direction side with reader := r } ∧
      r.effort p ≤ (l.direction side).reader.effort p) := by
  have heffort (r : StreamReader) :
      r.effort p = r.effort (p.upTo n) + 2 * (p.bytes.drop n).length := by
    rw [← StreamReader.effort_before, Pipe.before_upTo]
  have hsame (r : StreamReader) : ({ l.direction side with
      conduit := .pipe ((p.upTo n).before p n), reader := r } : Direction) =
      { l.direction side with reader := r } := by
    have hconduit : (l.direction side).conduit = .pipe p := hout
    rw [Pipe.before_upTo, ← hconduit]
  rcases StreamReader.attempt_of_reads (h.upTo n) with
    ⟨r, hattempt, hbytes, hopen, hreads, hlimit, hless⟩ |
    ⟨r, v, hattempt, hclosed, hcapacity, hreads, hlimit, hless⟩ |
    ⟨f, rest, r, rfl, hattempt, hreads, hlimit, hless⟩ | ⟨r, hframes, hclosed, hattempt, hless⟩
  · obtain ⟨l', hreading, hdirection⟩ := reading_pipe hout n hattempt
    have hback := hreads.before rfl h.closed
    rw [Pipe.before_upTo] at hback
    refine .inl ⟨l', r, hreading, ?_, hdirection.trans (hsame r), hback, hlimit, ?_⟩
    · simp only [Pipe.upTo, take_eq_nil_iff, Bool.and_eq_false_iff, decide_eq_false_iff_not]
        at hbytes hopen
      rcases hbytes with hn | hnil
      · exact .inl hn
      · refine .inr ⟨hnil, hopen.resolve_right ?_⟩
        simp [hnil]
    · rw [heffort, heffort, hless]
  · obtain ⟨l', hreading, hdirection⟩ := reading_pipe hout n hattempt
    refine .inr (.inl ⟨l', r, v.before p n, hreading, hdirection, rfl, hcapacity,
      hreads.before hclosed h.closed, hlimit, ?_⟩)
    rw [heffort, StreamReader.effort_before]
    omega
  · obtain ⟨l', hreading, hdirection⟩ := reading_pipe hout n hattempt
    have hback := hreads.before rfl h.closed
    rw [Pipe.before_upTo] at hback
    refine .inr (.inr (.inl ⟨f, rest, l', r, rfl, hreading, hdirection.trans (hsame r), hback,
      hlimit, ?_⟩))
    rw [heffort, heffort, hless]
  · obtain ⟨l', hreading, hdirection⟩ := reading_pipe hout n hattempt
    refine .inr (.inr (.inr ⟨l', r, hframes, ?_, hreading, hdirection.trans (hsame r), ?_⟩))
    · simp only [Pipe.upTo, Bool.and_eq_true] at hclosed
      exact hclosed.1
    · rw [heffort, heffort]
      omega

end Pipe

/-- Sending to a mailbox. -/
theorem writing_send_mailbox {m : Mailbox} (hout : l.outgoing side = .mailbox m)
    (hsending : (l.direction side).sending = true) (hreceiver : m.receiverGone = false) (f : Frame)
    (n : Nat) :
    l.writing side n (·.send side f) =
      if Envelope.defaultLimit < f.encodedLength then
        (.failed (.envelope (.tooLarge f.encodedLength)), l)
      else
        (.done, l.setOutgoing side (.mailbox { m with messages := m.messages ++ [f.encode] })) := by
  have hsend : (l.endpoint side).sending = true := hsending
  have hset (c : Conduit) : (l.setOutgoing side c).outgoing side = c := by cases side <;> rfl
  by_cases hlarge : Envelope.defaultLimit < f.encodedLength
  · simp [writing, hout, send, flush, andThen, feed, hsend, Frame.length_encode, hlarge]
  · simp [writing, hout, send, flush, andThen, feed, hsend, Frame.length_encode, hlarge,
      Mailbox.send, hreceiver, hset]

theorem writing_close_mailbox {m : Mailbox} (hout : l.outgoing side = .mailbox m) (n : Nat) :
    ∃ l', l.writing side n (·.close side) = (.done, l') ∧
      l'.direction side =
        { l.direction side with conduit := .mailbox m.dropSender, sending := false } := by
  refine ⟨(l.setOutgoing side (.mailbox m.dropSender)).setEndpoint side
    { l.endpoint side with sending := false }, ?_, ?_⟩
  · simp only [writing, hout, close]
  · cases side <;> rfl

theorem direction_split_sender (l : Link) (side : Side) :
    (l.split side).direction side = l.direction side ∨
      (l.split side).direction side = { l.direction side with unsent := [] } := by
  unfold split
  simp only
  split
  · exact .inl rfl
  · refine .inr ?_
    cases side <;> rfl

theorem direction_split_receiver (l : Link) (side : Side) :
    (l.split side.other).direction side = l.direction side ∨
      (l.split side.other).direction side = { l.direction side with
        reader :=
          .startingWith (l.direction side).reader.limit (l.direction side).reader.buffer } := by
  unfold split
  simp only
  split
  · exact .inl rfl
  · refine .inr ?_
    cases side <;> rfl

end Link

end Remoting
