import Remoting.Proofs.ReaderAnswers

/-!
# Remoting.Proofs.Splitting

What splitting an endpoint of a byte stream does to the one who receives there. The bytes that were
read before are kept, but the new reader does not know whether they make up a frame, and goes to the
pipe first. So if a frame is already there, the next call finds nothing until something comes in
behind it (`Link.Stalls`). Other calls are answered as if nothing had been split, and calls that
come too early only put off the answers (`Link.split_unnoticed_iff`).

This holds up to a failure that ends the stream and the end that is told behind it. Whoever goes on
after that finds what is in the pipe, but not what is in the buffer, and it shows how many bytes
were taken at a time. For the same reason the two readers are not held against each other, but both
against the bytes that have come (`StreamReader.Obeys`).
-/

namespace Remoting

open StreamReader

/-! ## Calls and what comes in between -/

/-- What comes in before a call. -/
structure Inflow where
  bytes : Bytes := []
  /-- Whether the stream ends behind the bytes. -/
  ends : Bool := false

/-- Nothing comes in. -/
def Inflow.nothing : Inflow := {}

/-- Bytes come into a pipe, unless it is closed. -/
def Pipe.fill (p : Pipe) (i : Inflow) : Pipe :=
  if p.closed then p else { p with bytes := p.bytes ++ i.bytes, closed := i.ends }

/-- The answers up to a failure that ends the stream, and the one behind it. -/
def Arrival.untilFailed : List Arrival → List Arrival
  | [] => []
  | a :: later => if a.isFatal then a :: later.take 1 else a :: untilFailed later

theorem Arrival.untilFailed_cons (a : Arrival) (later : List Arrival) :
    untilFailed (a :: later) = if a.isFatal then a :: later.take 1 else a :: untilFailed later :=
  rfl

theorem Arrival.head?_untilFailed (a : Arrival) (later : List Arrival) :
    (untilFailed (a :: later)).head? = some a := by
  rw [untilFailed_cons]
  split <;> rfl

theorem Arrival.untilFailed_replicate_append (n : Nat) (later : List Arrival) :
    untilFailed (List.replicate n .nothing ++ later) =
      List.replicate n .nothing ++ untilFailed later := by
  induction n with
  | zero => rfl
  | succ n ih => simp [List.replicate_succ, untilFailed_cons, isFatal, ih]

theorem Pipe.fill_nothing (p : Pipe) : p.fill .nothing = p := by
  unfold fill
  split
  · rfl
  · next hopen => simp [Inflow.nothing, ← Bool.eq_false_iff.mpr hopen]

namespace Link

/-- Bytes come in at a side. -/
def fill (l : Link) (side : Side) (i : Inflow) : Link :=
  match l.incoming side with
  | .mailbox _ => l
  | .pipe p => l.setIncoming side (.pipe (p.fill i))

/-- Receive at a side again and again, while something comes in before each call. -/
def receives (l : Link) (side : Side) : List Inflow → List Arrival × Link
  | [] => ([], l)
  | i :: later =>
    let answer := (l.fill side i).recv side
    let more := answer.2.receives side later
    (answer.1 :: more.1, more.2)

end Link

namespace StreamReader

variable {r r' : StreamReader} {p p' : Pipe} {i : Inflow}

theorem Alert.fill (h : r.Alert p) (i : Inflow) : r.Alert (p.fill i) := by
  refine ⟨h.failed, h.looked, fun hend => ?_⟩
  obtain ⟨hbytes, hclosed, hlooked⟩ := h.atEnd hend
  simp [Pipe.fill, hbytes, hclosed, hlooked]

theorem Moves.fill (h : Moves r p r' p') (i : Inflow) : Moves r (p.fill i) r' (p'.fill i) := by
  have hbytes := h.bytes
  cases hclosed : p.closed with
  | true => simpa [Pipe.fill, h.closed, hclosed] using h
  | false =>
    refine ⟨h.limit, ?_, by simp [Pipe.fill, h.closed, hclosed]⟩
    simp [Pipe.fill, h.closed, hclosed, ← List.append_assoc, hbytes]

/-- Readers that have the same bytes before them give the same answer, and have the same bytes
before them afterwards. -/
theorem Moves.answers {answer answer' : Arrival × StreamReader × Pipe} (h : Moves r p r' p')
    (hobeys : r.Obeys p answer) (hobeys' : r'.Obeys p' answer') :
    answer'.1 = answer.1 ∧ Moves answer.2.1 answer.2.2 answer'.2.1 answer'.2.2 := by
  have hanswer := h.obeys hobeys'
  refine ⟨hanswer.arrival.trans hobeys.arrival.symm, ?_, ?_, ?_⟩
  · exact hanswer.limit.trans hobeys.limit.symm
  · exact hanswer.bytes.trans hobeys.bytes.symm
  · exact hanswer.closed.trans hobeys.closed.symm

end StreamReader

namespace Link

open Arrival (untilFailed untilFailed_cons)
open StreamReader (Moves)

variable {l l' start : Link} {side : Side} {b b' : Bool} {r r' : StreamReader} {p p' : Pipe}
  {i : Inflow}

/-! ## The receiving end of a link -/

/-- At a side of a link a reader takes its bytes out of a pipe. -/
structure ReadsFrom (l : Link) (side : Side) (isSplit : Bool) (r : StreamReader) (p : Pipe) :
    Prop where
  incoming : l.incoming side = .pipe p
  reader : (l.endpoint side).reader = r
  isSplit : (l.endpoint side).isSplit = isSplit

theorem ReadsFrom.fill (h : l.ReadsFrom side b r p) (i : Inflow) :
    (l.fill side i).ReadsFrom side b r (p.fill i) := by
  rw [Link.fill, h.incoming]
  cases side <;> exact ⟨rfl, h.reader, h.isSplit⟩

theorem ReadsFrom.recv (h : l.ReadsFrom side b r p) :
    (l.recv side).1 = (r.recv p).1 ∧
      (l.recv side).2.ReadsFrom side b (r.recv p).2.1 (r.recv p).2.2 := by
  have hrecv : l.recv side = ((r.recv p).1,
      (l.setIncoming side (.pipe (r.recv p).2.2)).setEndpoint side
        { l.endpoint side with reader := (r.recv p).2.1 }) := by
    simp only [Link.recv, h.incoming, readPipe, h.reader]
  rw [hrecv]
  refine ⟨rfl, ?_⟩
  cases side <;> exact ⟨rfl, rfl, h.isSplit⟩

theorem ReadsFrom.split (h : l.ReadsFrom side false r p) :
    (l.split side).ReadsFrom side true (.startingWith r.limit r.buffer) p := by
  obtain ⟨hincoming, rfl, hsplit⟩ := h
  rw [Link.split, hsplit, if_neg (by simp)]
  cases side <;> exact ⟨hincoming, rfl, rfl⟩

/-- The first of several calls, and where the others start. -/
theorem ReadsFrom.receives_cons (h : l.ReadsFrom side b r p) (i : Inflow) (later : List Inflow) :
    ∃ l' : Link, (l.receives side (i :: later)).1 =
        (r.recv (p.fill i)).1 :: (l'.receives side later).1 ∧
      (l.receives side (i :: later)).2 = (l'.receives side later).2 ∧
      l'.ReadsFrom side b (r.recv (p.fill i)).2.1 (r.recv (p.fill i)).2.2 := by
  obtain ⟨hanswer, hafter⟩ := (h.fill i).recv
  exact ⟨_, congrArg (· :: _) hanswer, rfl, hafter⟩

/-! ## The same answers -/

/-- Behind a failure the end of the stream is told. -/
theorem take_one_receives_of_failed (h : l.ReadsFrom side b r p) (hfailed : r.failed = true)
    (i : Inflow) (later : List Inflow) :
    (l.receives side (i :: later)).1.take 1 = [.ended] := by
  obtain ⟨l', hanswers, -⟩ := h.receives_cons i later
  rw [hanswers, recv_of_failed hfailed]
  rfl

/-- Two ends with the same bytes before them, whose next calls are answered as the bytes say, give
the same answers up to a failure. -/
theorem untilFailed_receives_eq (hl : l.ReadsFrom side b r p) (hl' : l'.ReadsFrom side b' r' p')
    (hmoves : Moves r p r' p') (i : Inflow) (later : List Inflow)
    (hobeys : r.Obeys (p.fill i) (r.recv (p.fill i)))
    (hobeys' : r'.Obeys (p'.fill i) (r'.recv (p'.fill i))) :
    untilFailed (l'.receives side (i :: later)).1 =
      untilFailed (l.receives side (i :: later)).1 := by
  induction later generalizing l l' r r' p p' i with
  | nil =>
    obtain ⟨m, hanswers, -⟩ := hl.receives_cons i []
    obtain ⟨m', hanswers', -⟩ := hl'.receives_cons i []
    rw [hanswers, hanswers', ((hmoves.fill i).answers hobeys hobeys').1, receives, receives]
  | cons i' later ih =>
    obtain ⟨m, hanswers, -, hm⟩ := hl.receives_cons i (i' :: later)
    obtain ⟨m', hanswers', -, hm'⟩ := hl'.receives_cons i (i' :: later)
    obtain ⟨hsame, hmoves'⟩ := (hmoves.fill i).answers hobeys hobeys'
    rw [hanswers, hanswers', hsame, untilFailed_cons, untilFailed_cons]
    by_cases hfatal : (r.recv (p.fill i)).1.isFatal = true
    · have hfailed := hobeys.fatal hfatal
      have hfailed' := hobeys'.fatal (hsame ▸ hfatal)
      rw [if_pos hfatal, if_pos hfatal, take_one_receives_of_failed hm hfailed,
        take_one_receives_of_failed hm' hfailed']
    · have hgood := Bool.eq_false_iff.mpr hfatal
      have halert := (hobeys.alert hgood).fill i'
      have halert' := (hobeys'.alert (hsame ▸ hgood)).fill i'
      rw [if_neg hfatal, if_neg hfatal, ih hm hm' hmoves' i' (recv_of_alert halert)
        (recv_of_alert halert')]

/-- A reader stays alert as long as no answer ends the stream. -/
theorem alert_of_receives {history : List Inflow} (hl : l.ReadsFrom side b r p)
    (halert : r.Alert p) (hintact : ∀ a ∈ (l.receives side history).1, a.isFatal = false) :
    ∃ r' p', (l.receives side history).2.ReadsFrom side b r' p' ∧ r'.Alert p' := by
  induction history generalizing l r p with
  | nil => exact ⟨r, p, hl, halert⟩
  | cons i history ih =>
    obtain ⟨m, hanswers, hlast, hm⟩ := hl.receives_cons i history
    rw [hanswers] at hintact
    obtain ⟨hfirst, hrest⟩ := List.forall_mem_cons.mp hintact
    have hobeys := recv_of_alert (halert.fill i)
    rw [hlast]
    exact ih hm (hobeys.alert hfirst) hrest

/-! ## Splitting -/

/-- The bytes that were read before have an answer, but nothing has come behind them. -/
def Stalls (l : Link) (side : Side) (i : Inflow) : Prop :=
  (Envelope.unwrap (l.endpoint side).reader.limit (l.endpoint side).reader.buffer).1 ≠ .needMore ∧
    ∃ p, (l.fill side i).incoming side = .pipe p ∧ p.bytes = [] ∧ p.closed = false

theorem ReadsFrom.stalls_iff (h : l.ReadsFrom side b r p) :
    l.Stalls side i ↔ (Envelope.unwrap r.limit r.buffer).1 ≠ .needMore ∧
      (p.fill i).bytes = [] ∧ (p.fill i).closed = false := by
  simp [Stalls, h.reader, (h.fill i).incoming]

/-- Splitting is not noticed when the bytes that were read before have no answer yet, or something
has come behind them. -/
theorem untilFailed_receives_split (hl : l.ReadsFrom side false r p) (halert : r.Alert p)
    (hl' : l'.ReadsFrom side b r' p) (hwaits : r'.Waits) (hlimit : r'.limit = r.limit)
    (hbuffer : r'.buffer = r.buffer) (i : Inflow) (later : List Inflow)
    (hstalls : ¬ l.Stalls side i) :
    untilFailed (l'.receives side (i :: later)).1 =
      untilFailed (l.receives side (i :: later)).1 := by
  have hmoves : Moves r p r' p := ⟨hlimit, by rw [hbuffer], rfl⟩
  refine untilFailed_receives_eq hl hl' hmoves i later
    (recv_of_alert (halert.fill i)) ?_
  rw [hl.stalls_iff, not_and_or, not_not, not_and_or, Bool.not_eq_false] at hstalls
  rcases hstalls with hmore | hcome
  · rw [← hlimit, ← hbuffer] at hmore
    exact recv_of_alert (hwaits.alert hmore)
  · exact recv_of_waits hwaits hcome

/-- As long as nothing comes, calls after splitting find nothing. -/
theorem receives_of_idle (hl : l.ReadsFrom side b r p) (hwaits : r.Waits) (hbytes : p.bytes = [])
    (hopen : p.closed = false) (n : Nat) (later : List Inflow) :
    ∃ (m : Link) (w : Window), m.ReadsFrom side b { r with window := w } p ∧
      (l.receives side (List.replicate n .nothing ++ later)).1 =
        List.replicate n .nothing ++ (m.receives side later).1 := by
  induction n generalizing l r with
  | zero => exact ⟨l, r.window, hl, rfl⟩
  | succ n ih =>
    obtain ⟨m, hanswers, -, hm⟩ := hl.receives_cons .nothing (List.replicate n .nothing ++ later)
    obtain ⟨w, hrecv⟩ := recv_of_idle hwaits hbytes hopen
    rw [p.fill_nothing, hrecv] at hm hanswers
    obtain ⟨m', w', hm', hrest⟩ := ih hm ⟨hwaits.failed, hwaits.readable, hwaits.atEnd⟩
    refine ⟨m', w', hm', ?_⟩
    rw [List.replicate_succ, List.cons_append, hanswers, hrest]
    rfl

/-- **Splitting is noticed exactly if it makes a call wait that has an answer already.** After any
calls at a link, none of which failed so that the stream ended, and whatever comes in from then on:
the half that receives answers, call by call and up to such a failure, as the link would have
answered, unless the bytes that were read before have an answer and nothing comes in behind them
before the first call. In that case calls find nothing until something comes in, and from then on
they are answered as they would have been. -/
theorem split_unnoticed_iff {limit : Nat} {history : List Inflow} {answers : List Arrival}
    (hpipe : start.incoming side = .pipe p) (hreader : (start.endpoint side).reader = { limit })
    (hsplit : (start.endpoint side).isSplit = false)
    (hl : start.receives side history = (answers, l))
    (hintact : ∀ a ∈ answers, a.isFatal = false) :
    (∀ i later, untilFailed ((l.split side).receives side (i :: later)).1 =
        untilFailed (l.receives side (i :: later)).1 ↔ ¬ l.Stalls side i) ∧
    ∀ n i later, l.Stalls side .nothing → ¬ l.Stalls side i →
      untilFailed ((l.split side).receives side (List.replicate n .nothing ++ i :: later)).1 =
        List.replicate n .nothing ++ untilFailed (l.receives side (i :: later)).1 := by
  obtain ⟨r, p, hreads, halert⟩ : ∃ r p, l.ReadsFrom side false r p ∧ r.Alert p := by
    have hstart : start.ReadsFrom side false { limit } p := ⟨hpipe, hreader, hsplit⟩
    have hfresh : ({ limit } : StreamReader).Alert p := ⟨rfl, by simp, by simp⟩
    have hafter : ∃ r' p', (start.receives side history).2.ReadsFrom side false r' p' ∧
        r'.Alert p' := alert_of_receives hstart hfresh (by rwa [hl])
    rwa [hl] at hafter
  have hwaits := StreamReader.waits_startingWith r.limit r.buffer
  refine ⟨fun i later => ⟨fun hsame hstalls => ?_, ?_⟩, fun n i later hidle hstalls => ?_⟩
  · obtain ⟨hwhole, hbytes, hopen⟩ := hreads.stalls_iff.mp hstalls
    obtain ⟨m, hanswers, -⟩ := hreads.receives_cons i later
    obtain ⟨m', hanswers', -⟩ := hreads.split.receives_cons i later
    obtain ⟨w, hrecv⟩ := StreamReader.recv_of_idle hwaits hbytes hopen
    have harrival := (StreamReader.recv_of_alert (halert.fill i)).arrival
    have hfirst := congrArg List.head? hsame
    rw [hanswers, hanswers', hrecv, Arrival.head?_untilFailed, Arrival.head?_untilFailed, harrival,
      hbytes, List.append_nil] at hfirst
    exact StreamReader.outlook_ne_nothing hwhole (Option.some.inj hfirst).symm
  · exact untilFailed_receives_split hreads halert hreads.split hwaits rfl rfl i later
  · obtain ⟨-, hbytes, hopen⟩ := hreads.stalls_iff.mp hidle
    rw [p.fill_nothing] at hbytes hopen
    obtain ⟨m, w, hm, hanswers⟩ := receives_of_idle hreads.split hwaits hbytes hopen n (i :: later)
    have hwaits' : ({ StreamReader.startingWith r.limit r.buffer with window := w }
        : StreamReader).Waits := ⟨rfl, rfl, rfl⟩
    rw [hanswers, Arrival.untilFailed_replicate_append,
      untilFailed_receives_split hreads halert hm hwaits' rfl rfl i later hstalls]

/-! Two calls are sent one after the other and read at once. When the first one has been received,
the other is in the buffer. -/

/-- A call with a number. -/
def numberedCall (n : UInt64) : Frame :=
  ⟨{ kind := .oneWayCall, target := ⟨n⟩, digest := ⟨1, n⟩ }, []⟩

/-- A link on which two calls are on their way. -/
def twoCalls : Link :=
  (((stream defaultCapacity Envelope.defaultLimit).send .left (numberedCall 1)).2.send .left
    (numberedCall 2)).2

/-- The link when the first call has been received. -/
def oneCallLeft : Link := (twoCalls.receives .right [.nothing]).2

/-- Two calls come too early, then the stream ends, and the second call is received. -/
theorem split_unnoticed_oneCallLeft :
    twoCalls.receives .right [.nothing] = ([.frame (numberedCall 1)], oneCallLeft) ∧
      oneCallLeft.Stalls .right .nothing ∧ ¬ oneCallLeft.Stalls .right { ends := true } ∧
      untilFailed ((oneCallLeft.split .right).receives .right
          [.nothing, .nothing, { ends := true }, .nothing]).1 =
        [.nothing, .nothing, .frame (numberedCall 2), .ended] := by
  have hreceives : twoCalls.receives .right [.nothing] =
      ([.frame (numberedCall 1)], oneCallLeft) := by decide +kernel
  have hpipe : ∃ p, twoCalls.incoming .right = .pipe p := ⟨_, rfl⟩
  have hreader : (twoCalls.endpoint .right).reader = { limit := Envelope.defaultLimit } := rfl
  have hreads : oneCallLeft.ReadsFrom .right false (oneCallLeft.endpoint .right).reader
      { capacity := defaultCapacity } := ⟨by decide +kernel, rfl, by decide +kernel⟩
  have hidle : oneCallLeft.Stalls .right .nothing :=
    hreads.stalls_iff.mpr ⟨by decide +kernel, rfl, rfl⟩
  have hends : ¬ oneCallLeft.Stalls .right { ends := true } := by
    simp [hreads.stalls_iff, Pipe.fill]
  obtain ⟨p, hpipe⟩ := hpipe
  obtain ⟨-, hdelayed⟩ := split_unnoticed_iff hpipe hreader rfl hreceives (by decide)
  refine ⟨hreceives, hidle, hends, (hdelayed 2 _ [.nothing] hidle hends).trans ?_⟩
  decide +kernel

/-- Had the link not been split, the second call would have been received. -/
theorem split_hides_second_call :
    (oneCallLeft.receives .right [.nothing]).1 = [.frame (numberedCall 2)] ∧
      ((oneCallLeft.split .right).receives .right [.nothing]).1 = [.nothing] ∧
      untilFailed ((oneCallLeft.split .right).receives .right [.nothing]).1 ≠
        untilFailed (oneCallLeft.receives .right [.nothing]).1 := by
  decide +kernel

end Link

end Remoting
