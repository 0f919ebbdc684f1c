import Remoting.Proofs.Opening

/-!
# Remoting.Proofs.ReaderAnswers

What a reader answers depends on the bytes that have come and were not used, whether they are in its
buffer or still in the pipe. `StreamReader.outlook` is the answer that they give. A reader answers
accordingly (`StreamReader.recv_of_alert`), however many bytes it takes at a time, as long as
it is alert: it goes to the pipe only when the buffer does not hold a whole frame, and no attempt
has failed. It stays alert until an answer ends the stream.

A reader that waits looks at its buffer only after something has come. Then it answers as an alert
one does (`StreamReader.recv_of_waits`), and before that it finds nothing, whatever it holds
(`StreamReader.recv_of_idle`).
-/

namespace Remoting

open Envelope (unwrap)

/-! ## Opening more bytes -/

namespace Envelope

variable {limit : Nat} {buffer : Bytes}

theorem unwrap_of_needMore (h : (unwrap limit buffer).1 = .needMore) :
    unwrap limit buffer = (.needMore, buffer) :=
  unwrap_of_waiting (needMore_iff.mp h)

/-- What comes off a buffer does not depend on the bytes behind it. -/
theorem unwrap_append (h : (unwrap limit buffer).1 ≠ .needMore) (more : Bytes) :
    unwrap limit (buffer ++ more) = ((unwrap limit buffer).1, (unwrap limit buffer).2 ++ more) := by
  rcases front_cases limit buffer with hwaiting | hover | hwhole
  · exact absurd (needMore_iff.mpr hwaiting) h
  · rw [unwrap_of_oversized hover, unwrap_of_oversized (hover.append more),
      statedSize_append hover.1]
  · rw [unwrap_of_whole hwhole, unwrap_of_whole (hwhole.append more),
      firstBody_append hwhole, statedSize_append hwhole.four_le,
      List.drop_append_of_le_length hwhole.2]

end Envelope

/-- Whether an answer ends the stream. A damaged payload does not. -/
def Arrival.isFatal : Arrival → Bool
  | .failed (.malformed _) => false
  | .failed _ => true
  | _ => false

namespace StreamReader

/-! ## What the bytes say -/

/-- The answer that bytes give which have come and were not used, and what is left of them. -/
def outlook (limit : Nat) (bytes : Bytes) (closed : Bool) : Arrival × Bytes :=
  match Envelope.unwrap limit bytes with
  | (.frame frame, left) => (.frame frame, left)
  | (.malformed frame, left) => (.failed (.malformed frame), left)
  | (.failed error, left) => (.failed (.envelope error), left)
  | (.needMore, _) =>
    if closed then
      if bytes.isEmpty then (.ended, bytes) else (.failed (.stream .bytesRemaining), bytes)
    else (.nothing, bytes)

variable {r r' : StreamReader} {p p' : Pipe} {limit : Nat} {buffer : Bytes} {closed : Bool}

theorem outlook_of_needMore (h : (unwrap limit buffer).1 = .needMore) (closed : Bool) :
    outlook limit buffer closed =
      (if closed then if buffer.isEmpty then .ended else .failed (.stream .bytesRemaining)
        else .nothing, buffer) := by
  rw [outlook, Envelope.unwrap_of_needMore h]
  cases closed <;> cases buffer.isEmpty <;> simp

/-- Where a frame is whole, neither the bytes behind it nor the end of the stream matter. -/
theorem outlook_append (h : (unwrap limit buffer).1 ≠ .needMore) (more : Bytes)
    (closed closed' : Bool) :
    outlook limit (buffer ++ more) closed' =
      ((outlook limit buffer closed).1, (outlook limit buffer closed).2 ++ more) := by
  rw [outlook, outlook, Envelope.unwrap_append h]
  generalize unwrap limit buffer = opened at h
  obtain ⟨item, left⟩ := opened
  cases item with
  | needMore => contradiction
  | _ => rfl

/-- Bytes with a whole frame at their front are not nothing. -/
theorem outlook_ne_nothing (h : (unwrap limit buffer).1 ≠ .needMore) :
    (outlook limit buffer closed).1 ≠ .nothing := by
  rw [outlook]
  generalize unwrap limit buffer = opened at h
  obtain ⟨item, left⟩ := opened
  cases item with
  | needMore => contradiction
  | _ => simp

/-! ## Alert readers -/

/-- No attempt has failed, and the reader goes to the pipe only when the buffer has nothing more to
give. The end of the stream has been seen only if nothing can come any more. -/
structure Alert (r : StreamReader) (p : Pipe) : Prop where
  failed : r.failed = false
  looked : r.readable = false → (Envelope.unwrap r.limit r.buffer).1 = .needMore
  atEnd : r.atEnd = true → p.bytes = [] ∧ p.closed = true ∧ (r.readable = true ∨ r.buffer = [])

/-- A call is answered as the bytes say that have come. -/
structure Obeys (r : StreamReader) (p : Pipe) (answer : Arrival × StreamReader × Pipe) : Prop where
  arrival : answer.1 = (outlook r.limit (r.buffer ++ p.bytes) p.closed).1
  bytes : answer.2.1.buffer ++ answer.2.2.bytes =
    (outlook r.limit (r.buffer ++ p.bytes) p.closed).2
  limit : answer.2.1.limit = r.limit
  closed : answer.2.2.closed = p.closed
  fatal : answer.1.isFatal = true → answer.2.1.failed = true
  alert : answer.1.isFatal = false → answer.2.1.Alert answer.2.2

/-- Between two states of a reader and its pipe no bytes were used. -/
structure Moves (r : StreamReader) (p : Pipe) (r' : StreamReader) (p' : Pipe) : Prop where
  limit : r'.limit = r.limit
  bytes : r'.buffer ++ p'.bytes = r.buffer ++ p.bytes
  closed : p'.closed = p.closed

/-- An attempt goes on: the reader is alert, and there is less to do. -/
structure GoesOn (r : StreamReader) (p : Pipe) (r' : StreamReader) (p' : Pipe) : Prop
    extends Moves r p r' p' where
  alert : r'.Alert p'
  effort : r'.effort p' < r.effort p

theorem Moves.obeys {answer : Arrival × StreamReader × Pipe} (h : Moves r p r' p')
    (hobeys : r'.Obeys p' answer) : r.Obeys p answer where
  arrival := by rw [hobeys.arrival, h.limit, h.bytes, h.closed]
  bytes := by rw [hobeys.bytes, h.limit, h.bytes, h.closed]
  limit := hobeys.limit.trans h.limit
  closed := hobeys.closed.trans h.closed
  fatal := hobeys.fatal
  alert := hobeys.alert

/-- What becomes of a reader when something comes off its buffer. -/
theorem decode_of_ne_needMore (h : (unwrap r.limit r.buffer).1 ≠ .needMore)
    (closed : Bool) :
    r.decode = (some (outlook r.limit r.buffer closed).1,
      { r.keep (outlook r.limit r.buffer closed).2 with
        failed := r.failed || (outlook r.limit r.buffer closed).1.isFatal }) := by
  rw [decode, outlook]
  generalize unwrap r.limit r.buffer = opened at h
  obtain ⟨item, left⟩ := opened
  cases item with
  | needMore => contradiction
  | _ => simp [Arrival.isFatal, keep]

/-- Looking at a buffer that holds a whole frame. -/
theorem attempt_of_ne_needMore (h : r.Alert p) (hreadable : r.readable = true)
    (hwhole : (unwrap r.limit r.buffer).1 ≠ .needMore) :
    ∃ a r', r.attempt p = (some a, r', p) ∧ r.Obeys p (a, r', p) := by
  have hdecode := decode_of_ne_needMore hwhole p.closed
  have houtlook := outlook_append hwhole p.bytes p.closed p.closed
  have hattempt : r.attempt p = (r.decode.1, r.decode.2, p) := by
    simp [attempt, needsBytes, hreadable, h.failed]
  rw [hdecode, h.failed, Bool.false_or] at hattempt
  refine ⟨_, _, hattempt, ⟨?_, ?_, rfl, rfl, id, fun hgood => ⟨hgood, ?_, ?_⟩⟩⟩
  · rw [houtlook]
  · rw [houtlook]
    rfl
  · intro hfalse
    exact absurd (hreadable.symm.trans hfalse) (by simp)
  · intro hend
    obtain ⟨hbytes, hclosed, -⟩ := h.atEnd hend
    exact ⟨hbytes, hclosed, .inl hreadable⟩

/-- An answer to a buffer without a whole frame, at an empty pipe. -/
theorem obeys_of_needMore {a : Arrival} (hmore : (unwrap r.limit r.buffer).1 = .needMore)
    (hbytes : p.bytes = []) (hbuffer : r'.buffer = r.buffer) (hlimit : r'.limit = r.limit)
    (ha : a = if p.closed then
      if r.buffer.isEmpty then .ended else .failed (.stream .bytesRemaining) else .nothing)
    (hfatal : a.isFatal = true → r'.failed = true) (halert : a.isFatal = false → r'.Alert p) :
    r.Obeys p (a, r', p) := by
  have houtlook := outlook_of_needMore hmore p.closed
  refine ⟨?_, ?_, hlimit, rfl, hfatal, halert⟩
  · rw [hbytes, List.append_nil, houtlook]
    exact ha
  · rw [hbytes, List.append_nil, List.append_nil, houtlook]
    exact hbuffer

/-- Looking at a buffer that does not hold a whole frame. -/
theorem attempt_of_needMore (h : r.Alert p) (hreadable : r.readable = true)
    (hmore : (unwrap r.limit r.buffer).1 = .needMore) :
    (∃ a r', r.attempt p = (some a, r', p) ∧ r.Obeys p (a, r', p)) ∨
    ∃ r', r.attempt p = (none, r', p) ∧ GoesOn r p r' p := by
  obtain ⟨w, hroom⟩ := r.makeRoom_eq
  have hattempt : r.attempt p = (r.decode.1, r.decode.2, p) := by
    simp [attempt, needsBytes, hreadable, h.failed]
  have hunwrap := Envelope.unwrap_of_needMore hmore
  cases hend : r.atEnd with
  | false =>
    refine .inr ⟨{ r with window := w, readable := false }, ?_, ⟨⟨rfl, rfl, rfl⟩, ?_, ?_⟩⟩
    · simp [hattempt, decode, hunwrap, hroom, hend]
    · exact ⟨h.failed, fun _ => hmore, fun hfalse => absurd (hend.symm.trans hfalse) (by simp)⟩
    · simp [effort, backlog, hreadable]
  | true =>
    -- the pipe is empty and closed, so the buffer is all that there is
    obtain ⟨hbytes, hclosed, -⟩ := h.atEnd hend
    by_cases hempty : r.buffer = []
    · refine .inl ⟨.ended, { r with window := w, readable := false }, ?_,
        obeys_of_needMore hmore hbytes rfl rfl ?_ ?_ fun _ => ?_⟩
      · simp [hattempt, decode, hroom, hend, hempty]
      · simp [hclosed, hempty]
      · simp [Arrival.isFatal]
      · exact ⟨h.failed, fun _ => hmore, fun _ => ⟨hbytes, hclosed, .inr hempty⟩⟩
    · refine .inl ⟨.failed (.stream .bytesRemaining), { r with window := w, failed := true }, ?_,
        obeys_of_needMore hmore hbytes rfl rfl ?_ (fun _ => rfl) ?_⟩
      · simp [hattempt, decode, hunwrap, hroom, hend, hempty]
      · simp [hclosed, hempty]
      · simp [Arrival.isFatal]

/-! ## Going to the pipe -/

theorem pull_of_closed (hbytes : p.bytes = []) (hclosed : p.closed = true)
    (hend : r.atEnd = false) :
    ∃ w, r.pull p = (none, { r with window := w, atEnd := true, readable := true }, p) :=
  ⟨r.window.reserve r.buffer.length 1, by simp [pull, hbytes, hclosed, hend]⟩

/-- A reader that goes to a pipe where something has come is alert afterwards, whatever is in its
buffer. -/
theorem goesOn_of_pull (hfailed : r.failed = false) (hreadable : r.readable = false)
    (hend : r.atEnd = false) (hcome : p.bytes ≠ [] ∨ p.closed = true) :
    ∃ r' p', r.attempt p = (none, r', p') ∧ GoesOn r p r' p' := by
  have hneeds : r.needsBytes = true := by simp [needsBytes, hfailed, hreadable]
  by_cases hbytes : p.bytes = []
  · have hclosed : p.closed = true := hcome.resolve_left (not_not_intro hbytes)
    obtain ⟨w, hpull⟩ := pull_of_closed (r := r) hbytes hclosed hend
    refine ⟨_, p, (if_pos hneeds).trans hpull, ⟨⟨rfl, rfl, rfl⟩, ⟨hfailed, by simp, ?_⟩, ?_⟩⟩
    · exact fun _ => ⟨hbytes, hclosed, .inl rfl⟩
    · simp [effort, backlog, hreadable, hend]
  · obtain ⟨n, w, hn, hpull⟩ := pull_of_ne_nil (r := r) hbytes
    refine ⟨_, _, (if_pos hneeds).trans hpull, ⟨⟨rfl, ?_, rfl⟩, ⟨hfailed, by simp, by simp⟩, ?_⟩⟩
    · simp
    · have hlength : 0 < p.bytes.length := List.length_pos_iff.mpr hbytes
      simp only [effort, backlog, hreadable, hend, List.length_drop]
      simp
      omega

/-- One attempt of an alert reader: it answers as the bytes say, or it goes on without having used
any. -/
theorem attempt_of_alert (h : r.Alert p) :
    (∃ a r', r.attempt p = (some a, r', p) ∧ r.Obeys p (a, r', p)) ∨
    ∃ r' p', r.attempt p = (none, r', p') ∧ GoesOn r p r' p' := by
  cases hreadable : r.readable with
  | true =>
    by_cases hmore : (unwrap r.limit r.buffer).1 = .needMore
    · rcases attempt_of_needMore h hreadable hmore with hanswer | ⟨r', hattempt⟩
      · exact .inl hanswer
      · exact .inr ⟨r', p, hattempt⟩
    · exact .inl (attempt_of_ne_needMore h hreadable hmore)
  | false =>
    have hneeds : r.needsBytes = true := by simp [needsBytes, h.failed, hreadable]
    have hmore := h.looked hreadable
    cases hend : r.atEnd with
    | true =>
      obtain ⟨hbytes, hclosed, hlooked⟩ := h.atEnd hend
      have hempty : r.buffer = [] := hlooked.resolve_left (by simp [hreadable])
      refine .inl ⟨.ended, { r with window := r.window.reserve r.buffer.length 1 }, ?_,
        obeys_of_needMore hmore hbytes rfl rfl ?_ ?_ fun _ => { h with }⟩
      · simp [attempt, hneeds, pull, hbytes, hclosed, hend]
      · simp [hclosed, hempty]
      · simp [Arrival.isFatal]
    | false =>
      by_cases hcome : p.bytes ≠ [] ∨ p.closed = true
      · exact .inr (goesOn_of_pull h.failed hreadable hend hcome)
      · obtain ⟨hbytes, hopen⟩ : p.bytes = [] ∧ p.closed = false := by simpa using hcome
        refine .inl ⟨.nothing, { r with window := r.window.reserve r.buffer.length 1 }, ?_,
          obeys_of_needMore hmore hbytes rfl rfl ?_ ?_ fun _ => { h with }⟩
        · simp [attempt, hneeds, pull, hbytes, hopen]
        · simp [hopen]
        · simp [Arrival.isFatal]

/-! ## Receiving -/

/-- Enough attempts of an alert reader come to an answer. -/
theorem attempts_of_alert {n : Nat} (h : r.Alert p) (hn : r.effort p < n) :
    r.Obeys p (r.attempts p n) := by
  induction n generalizing r p with
  | zero => omega
  | succ n ih =>
    rcases attempt_of_alert h with ⟨a, r', hattempt, hobeys⟩ |
      ⟨r', p', hattempt, hgoes⟩
    · rw [attempts, hattempt]
      exact hobeys
    · have heffort := hgoes.effort
      rw [attempts, hattempt]
      exact hgoes.toMoves.obeys (ih hgoes.alert (by omega))

theorem effort_le (r : StreamReader) (p : Pipe) : r.effort p ≤ 2 * p.bytes.length + 3 := by
  unfold effort backlog
  split <;> split <;> omega

theorem recv_of_alert (h : r.Alert p) : r.Obeys p (r.recv p) := by
  have hle := r.effort_le p
  exact attempts_of_alert h (by omega)

/-- A reader goes to the pipe first, whatever is in its buffer. -/
structure Waits (r : StreamReader) : Prop where
  failed : r.failed = false
  readable : r.readable = false
  atEnd : r.atEnd = false

theorem waits_startingWith (limit : Nat) (buffer : Bytes) : (startingWith limit buffer).Waits :=
  ⟨rfl, rfl, rfl⟩

theorem Waits.alert (h : r.Waits) (hmore : (unwrap r.limit r.buffer).1 = .needMore) :
    r.Alert p :=
  ⟨h.failed, fun _ => hmore, fun hfalse => absurd (h.atEnd.symm.trans hfalse) (by simp)⟩

/-- When something has come, a reader that waited answers as the bytes say. -/
theorem recv_of_waits (h : r.Waits) (hcome : p.bytes ≠ [] ∨ p.closed = true) :
    r.Obeys p (r.recv p) := by
  obtain ⟨r', p', hattempt, hgoes⟩ := goesOn_of_pull h.failed h.readable h.atEnd hcome
  have heffort := hgoes.effort
  have hle := r.effort_le p
  rw [recv, attempts, hattempt]
  exact hgoes.toMoves.obeys (attempts_of_alert hgoes.alert (by omega))

theorem recv_of_idle (h : r.Waits) (hbytes : p.bytes = []) (hopen : p.closed = false) :
    ∃ w, r.recv p = (.nothing, { r with window := w }, p) := by
  refine ⟨r.window.reserve r.buffer.length 1, ?_⟩
  have hneeds : r.needsBytes = true := by simp [needsBytes, h.failed, h.readable]
  have hattempt : r.attempt p =
      (some .nothing, { r with window := r.window.reserve r.buffer.length 1 }, p) := by
    simp [attempt, hneeds, pull, hbytes, hopen]
  rw [recv, attempts, hattempt]

theorem recv_of_failed (h : r.failed = true) : (r.recv p).1 = .ended := by
  have hattempt : r.attempt p =
      (some .ended, { r with failed := false, readable := false }, p) := by
    simp [attempt, needsBytes, h]
  rw [recv, attempts, hattempt]

end StreamReader

end Remoting
