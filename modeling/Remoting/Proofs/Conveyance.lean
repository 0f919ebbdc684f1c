import Remoting.Proofs.Transit

/-!
# Remoting.Proofs.Conveyance

Open links bring frames to the other side. One direction of a link (`Link.direction`) that nobody
has closed and whose frames respect its limits (`Direction.Conveys`) takes every frame that is put
on it (`Link.feed_conveys`), lets its bytes go out (`Link.flush_conveys`) and gives the frames to
the other side, the first one first (`Link.attempt_conveys`).

A measure of the bytes that still have to move (`Direction.load`) falls whenever bytes go out or are
read, so that the next frame arrives after finitely many attempts, however they are interleaved; and
while a frame is on its way, there is always something left to do.
-/

namespace Remoting

open List

variable {d : Direction} {frames : List Frame}

/-! ## Readers -/

namespace Envelope

/-- A buffer at the front of a stream of frames that respect the limit needs more bytes, which are
still to come, or the first frame comes off it. -/
theorem unwrap_front {limit : Nat} {buffer later : Bytes}
    (hsmall : ∀ f ∈ frames, Carries limit f.encode)
    (hcut : buffer ++ later = stream (frames.map Frame.encode)) :
    (unwrap limit buffer = (.needMore, buffer) ∧ (frames = [] ∨ later ≠ [])) ∨
    ∃ f rest left, frames = f :: rest ∧ unwrap limit buffer = (classify f.encode, left) ∧
      left ++ later = stream (rest.map Frame.encode) := by
  cases frames with
  | nil =>
    obtain ⟨rfl, rfl⟩ : buffer = [] ∧ later = [] := by simpa using hcut
    exact .inl ⟨unwrap_nil limit, .inl rfl⟩
  | cons f rest =>
    have hf := hsmall f mem_cons_self
    rw [map_cons, stream_cons] at hcut
    by_cases hshort : buffer.length < 4 + f.encode.length
    · refine .inl ⟨unwrap_of_short hf hcut hshort, .inr fun hlater => ?_⟩
      have hlength := congrArg length hcut
      rw [hlater, append_nil, length_append, Field.length_sized] at hlength
      omega
    · obtain ⟨tail, rfl, htail⟩ := whole_of_cut hcut (by omega)
      exact .inr ⟨f, rest, tail, rfl, unwrap_sized_append hf tail, htail⟩

end Envelope

/-- There is room for what room was made for. -/
theorem Window.le_room_reserve (w : Window) (held extra : Nat) :
    extra ≤ (w.reserve held extra).room held := by
  unfold reserve room
  split
  · assumption
  · split
    · show extra ≤ w.size - 0 - held
      omega
    · show extra ≤ max (2 * w.size) (w.used + held + extra) - w.used - held
      omega

namespace StreamReader

variable {r : StreamReader}

/-- A reader that goes on reading: no attempt has failed, the stream has not ended, and the buffer
has been looked at whenever the pipe is to be read. -/
structure Attentive (r : StreamReader) : Prop where
  failed : r.failed = false
  atEnd : r.atEnd = false
  looked : r.readable = false → Envelope.unwrap r.limit r.buffer = (.needMore, r.buffer)

theorem buffer_makeRoom (r : StreamReader) : r.makeRoom.buffer = r.buffer := by
  unfold makeRoom
  split <;> rfl

theorem decode_of_unwrap {f : Frame} {left : Bytes} (hlen : f.encodedLength < 2 ^ 32)
    (hunwrap : Envelope.unwrap r.limit r.buffer = (Envelope.classify f.encode, left)) :
    ∃ a : Arrival, a.Brings f ∧ r.decode = (some a, r.keep left) := by
  by_cases hfits : Field.Fits f.toFields
  · rw [Envelope.classify_encode hfits] at hunwrap
    exact ⟨_, .whole hfits, by simp only [decode, hunwrap]⟩
  · obtain ⟨error, herror⟩ := Envelope.classify_encode_of_not_fits hlen hfits
    rw [herror] at hunwrap
    exact ⟨_, .damaged hfits error, by simp only [decode, hunwrap]⟩

/-- Reading a pipe that holds bytes takes at least one of them. -/
theorem pull_of_ne_nil {pipe : Pipe} (hbytes : pipe.bytes ≠ []) :
    ∃ n w, 0 < n ∧
      r.pull pipe =
        (none,
          { r with
            window := w, buffer := r.buffer ++ pipe.bytes.take n, atEnd := false,
            readable := true },
          { pipe with bytes := pipe.bytes.drop n }) := by
  refine ⟨_, r.window.reserve r.buffer.length 1,
    Window.le_room_reserve r.window r.buffer.length 1, ?_⟩
  have hempty : pipe.bytes.isEmpty = false := by simpa using hbytes
  simp [pull, hempty, Pipe.read]

/-- What is still to be done until the reader has looked at everything in the pipe. -/
def backlog (r : StreamReader) (pipe : Pipe) : Nat :=
  2 * pipe.bytes.length + if r.readable then 1 else 0

/-- One attempt of an attentive reader to receive from an open pipe. It finds nothing, and then what
is missing of the first frame has not gone out yet; or it goes on with less to do; or it gives the
first frame. -/
theorem attempt_of_attentive {pipe : Pipe} {later : Bytes} (h : r.Attentive)
    (hopen : pipe.closed = false) (hsmall : ∀ f ∈ frames, Envelope.Carries r.limit f.encode)
    (hcut : r.buffer ++ pipe.bytes ++ later = Envelope.stream (frames.map Frame.encode)) :
    (∃ r', r.attempt pipe = (some .nothing, r', pipe) ∧
      (frames = [] ∨ pipe.bytes = [] ∧ later ≠ [])) ∨
    (∃ r' pipe', r.attempt pipe = (none, r', pipe') ∧ r'.Attentive ∧ r'.limit = r.limit ∧
      pipe'.closed = false ∧ pipe'.capacity = pipe.capacity ∧
      r'.buffer ++ pipe'.bytes ++ later = Envelope.stream (frames.map Frame.encode) ∧
      r'.backlog pipe' < r.backlog pipe) ∨
    ∃ f rest a r', frames = f :: rest ∧ r.attempt pipe = (some a, r', pipe) ∧ a.Brings f ∧
      r'.Attentive ∧ r'.limit = r.limit ∧
      r'.buffer ++ pipe.bytes ++ later = Envelope.stream (rest.map Frame.encode) ∧
      r'.backlog pipe = r.backlog pipe := by
  rw [append_assoc] at hcut
  cases hreadable : r.readable with
  | false =>
    have hneeds : r.needsBytes = true := by simp [needsBytes, h.failed, hreadable]
    by_cases hbytes : pipe.bytes = []
    · refine .inl ⟨{ r with window := r.window.reserve r.buffer.length 1 }, ?_, ?_⟩
      · simp [attempt, hneeds, pull, hbytes, hopen]
      · rw [hbytes, nil_append] at hcut
        rcases Envelope.unwrap_front hsmall hcut with ⟨-, hnone⟩ | ⟨f, rest, left, -, hunwrap, -⟩
        · exact hnone.imp_right fun hlater => ⟨hbytes, hlater⟩
        · rw [h.looked hreadable] at hunwrap
          exact absurd (Prod.mk.inj hunwrap).1.symm (Envelope.classify_ne_needMore _)
    · obtain ⟨n, w, hn, hpull⟩ := pull_of_ne_nil (r := r) hbytes
      have hattempt : r.attempt pipe = _ := (if_pos hneeds).trans hpull
      refine .inr (.inl ⟨_, _, hattempt, ?_, rfl, hopen, rfl, ?_, ?_⟩)
      · exact ⟨h.failed, rfl, by simp⟩
      · simp [← hcut]
      · have hlength : 0 < pipe.bytes.length := length_pos_iff.mpr hbytes
        simp only [backlog, hreadable, length_drop]
        simp
        omega
  | true =>
    have hneeds : r.needsBytes = false := by simp [needsBytes, hreadable]
    have hattempt : r.attempt pipe = (r.decode.1, r.decode.2, pipe) := by
      simp [attempt, hneeds, h.failed]
    rcases Envelope.unwrap_front hsmall hcut with ⟨hmore, -⟩ |
      ⟨f, rest, left, rfl, hunwrap, hleft⟩
    · have hdecode : r.decode = (none, { r.makeRoom with readable := false }) := by
        have hend : r.makeRoom.atEnd = false := by
          unfold makeRoom
          split <;> exact h.atEnd
        simp [decode, hmore, hend]
      have hlimit : r.makeRoom.limit = r.limit := by
        unfold makeRoom
        split <;> rfl
      rw [hdecode] at hattempt
      refine .inr (.inl ⟨_, _, hattempt, ⟨?_, ?_, fun _ => ?_⟩, hlimit, hopen, rfl, ?_, ?_⟩)
      · unfold makeRoom
        split <;> exact h.failed
      · unfold makeRoom
        split <;> exact h.atEnd
      · show Envelope.unwrap r.makeRoom.limit r.makeRoom.buffer = (.needMore, r.makeRoom.buffer)
        rw [hlimit, buffer_makeRoom, hmore]
      · show r.makeRoom.buffer ++ pipe.bytes ++ later = _
        rw [buffer_makeRoom, append_assoc, hcut]
      · simp [backlog, hreadable]
    · have hlen : f.encodedLength < 2 ^ 32 := by
        rw [← Frame.length_encode]
        exact (hsmall f mem_cons_self).2
      obtain ⟨a, hbrings, hdecode⟩ := decode_of_unwrap hlen hunwrap
      rw [hdecode] at hattempt
      refine .inr (.inr
        ⟨f, rest, a, _, rfl, hattempt, hbrings, ⟨h.failed, h.atEnd, ?_⟩, rfl, ?_, rfl⟩)
      · intro hfalse
        exact absurd (hreadable.symm.trans hfalse) (by decide)
      · show left ++ pipe.bytes ++ later = _
        rw [append_assoc, hleft]

end StreamReader

/-! ## Directions -/

/-- One direction of a link: what is on its way, and what the two ends keep about it. -/
structure Direction where
  conduit : Conduit
  /-- What has not gone out yet. -/
  unsent : Bytes
  /-- Whether the sending half can still send. -/
  sending : Bool
  /-- The limit on the size of frames that go out. -/
  limit : Nat
  /-- The reader at the other end. -/
  reader : StreamReader

/-- The direction of a link from a side to the other one. -/
def Link.direction (l : Link) (side : Side) : Direction where
  conduit := l.outgoing side
  unsent := (l.endpoint side).unsent
  sending := (l.endpoint side).sending
  limit := (l.endpoint side).limit
  reader := (l.endpoint side.other).reader

namespace Direction

/-- How many bytes a frame may have to get to the other side. On a stream both ends have a limit,
and the length has to fit into four bytes. -/
def frameLimit (d : Direction) : Nat :=
  match d.conduit with
  | .mailbox _ => Envelope.defaultLimit
  | .pipe _ => min (min d.limit d.reader.limit) (2 ^ 32 - 1)

/-- A direction is open, and these frames are on their way. -/
inductive Conveys (d : Direction) (frames : List Frame) : Prop where
  | mailbox (mailbox : Mailbox) (hconduit : d.conduit = .mailbox mailbox)
      (hmessages : mailbox.messages = frames.map Frame.encode) (hsending : d.sending = true)
      (hsender : mailbox.senderGone = false) (hreceiver : mailbox.receiverGone = false)
      (hsmall : ∀ f ∈ frames, f.encodedLength ≤ d.frameLimit)
  | pipe (pipe : Pipe) (hconduit : d.conduit = .pipe pipe)
      (hbytes : d.reader.buffer ++ pipe.bytes ++ d.unsent =
        Envelope.stream (frames.map Frame.encode))
      (hopen : pipe.closed = false) (hcapacity : 0 < pipe.capacity)
      (hreader : d.reader.Attentive) (hsmall : ∀ f ∈ frames, f.encodedLength ≤ d.frameLimit)

theorem Conveys.small (h : d.Conveys frames) :
    ∀ f ∈ frames, f.encodedLength ≤ d.frameLimit := by
  cases h <;> assumption

/-- Nothing is left that has not gone out. -/
def Drained (d : Direction) : Prop :=
  match d.conduit with
  | .mailbox _ => True
  | .pipe _ => d.unsent = []

/-- How much has still to be done until everything that was sent has been looked at. -/
def load (d : Direction) : Nat :=
  match d.conduit with
  | .mailbox _ => 0
  | .pipe pipe => 3 * d.unsent.length + d.reader.backlog pipe

end Direction

namespace Link

variable {l l' : Link} {side : Side} {frames : List Frame}

/-- Between two states of a link only one direction has changed, and its limit is the same. -/
structure Only (side : Side) (l l' : Link) : Prop where
  other : l'.direction side.other = l.direction side.other
  limit : (l'.direction side).frameLimit = (l.direction side).frameLimit

@[simp] theorem direction_setOutgoing (l : Link) (side : Side) (c : Conduit) :
    (l.setOutgoing side c).direction side = { l.direction side with conduit := c } := by
  cases side <;> rfl

@[simp] theorem direction_other_setOutgoing (l : Link) (side : Side) (c : Conduit) :
    (l.setOutgoing side c).direction side.other = l.direction side.other := by
  cases side <;> rfl

theorem direction_setUnsent (l : Link) (side : Side) (bs : Bytes) :
    (l.setEndpoint side { l.endpoint side with unsent := bs }).direction side =
        { l.direction side with unsent := bs } ∧
      (l.setEndpoint side { l.endpoint side with unsent := bs }).direction side.other =
        l.direction side.other := by
  cases side <;> exact ⟨rfl, rfl⟩

theorem direction_read (l : Link) (side : Side) (p : Pipe) (r : StreamReader) :
    ((l.setIncoming side.other (.pipe p)).setEndpoint side.other
        { l.endpoint side.other with reader := r }).direction side =
        { l.direction side with conduit := .pipe p, reader := r } ∧
      ((l.setIncoming side.other (.pipe p)).setEndpoint side.other
        { l.endpoint side.other with reader := r }).direction side.other =
        l.direction side.other := by
  cases side <;> exact ⟨rfl, rfl⟩

theorem frameLimit_of_mailbox {m : Mailbox} (h : d.conduit = .mailbox m) :
    d.frameLimit = Envelope.defaultLimit := by
  rw [Direction.frameLimit, h]

theorem frameLimit_of_pipe {p : Pipe} (h : d.conduit = .pipe p) :
    d.frameLimit = min (min d.limit d.reader.limit) (2 ^ 32 - 1) := by
  rw [Direction.frameLimit, h]

theorem drained_of_pipe_iff {p : Pipe} (h : d.conduit = .pipe p) :
    d.Drained ↔ d.unsent = [] := by
  rw [Direction.Drained, h]

theorem load_of_pipe {p : Pipe} (h : d.conduit = .pipe p) :
    d.load = 3 * d.unsent.length + d.reader.backlog p := by
  rw [Direction.load, h]

/-- An open direction takes a frame that respects the limit. -/
theorem feed_conveys {f : Frame} (h : (l.direction side).Conveys frames)
    (hf : f.encodedLength ≤ (l.direction side).frameLimit) :
    ∃ l', l.feed side f = (.done, l') ∧ (l'.direction side).Conveys (frames ++ [f]) ∧
      Only side l l' ∧
      (l'.direction side).load ≤ (l.direction side).load + 3 * (4 + f.encodedLength) := by
  have hsmall : ∀ g ∈ frames ++ [f], g.encodedLength ≤ (l.direction side).frameLimit := by
    intro g hg
    rcases mem_append.mp hg with hmem | hmem
    · exact h.small g hmem
    · rwa [mem_singleton.mp hmem]
  cases h with
  | mailbox m hconduit hmessages hsending hsender hreceiver _ =>
    have hout : l.outgoing side = .mailbox m := hconduit
    have hsend : (l.endpoint side).sending = true := hsending
    have hlimit := frameLimit_of_mailbox hconduit
    have hsize : ¬ Envelope.defaultLimit < f.encode.length := by
      rw [Frame.length_encode]
      omega
    have hlimit' : ({ l.direction side with
        conduit := .mailbox { m with messages := m.messages ++ [f.encode] } }
          : Direction).frameLimit = (l.direction side).frameLimit := by
      rw [hlimit]
      rfl
    refine ⟨l.setOutgoing side (.mailbox { m with messages := m.messages ++ [f.encode] }), ?_, ?_,
      ⟨direction_other_setOutgoing l side _, ?_⟩, ?_⟩
    · simp [feed, hout, hsend, hsize, Mailbox.send, hreceiver]
    · rw [direction_setOutgoing]
      exact .mailbox _ rfl (by simp [hmessages]) hsending hsender hreceiver (hlimit' ▸ hsmall)
    · rw [direction_setOutgoing, hlimit']
    · rw [direction_setOutgoing]
      exact Nat.zero_le _
  | pipe p hconduit hbytes hopen hcapacity hreader _ =>
    have hout : l.outgoing side = .pipe p := hconduit
    have hlimit := frameLimit_of_pipe hconduit
    have hle : f.encodedLength ≤ (l.endpoint side).limit := by
      have : (l.direction side).limit = (l.endpoint side).limit := rfl
      omega
    have hwrap : Envelope.wrap (l.endpoint side).limit f = .ok (Field.sized f.encode) :=
      Envelope.wrap_eq_ok_iff.mpr ⟨hle, rfl⟩
    obtain ⟨hside, hother⟩ :=
      direction_setUnsent l side ((l.endpoint side).unsent ++ Field.sized f.encode)
    refine ⟨_, by simp only [feed, hout, hwrap], ?_, ⟨hother, ?_⟩, ?_⟩
    · rw [hside]
      refine .pipe p hconduit ?_ hopen hcapacity hreader hsmall
      show (l.direction side).reader.buffer ++ p.bytes ++
        ((l.direction side).unsent ++ Field.sized f.encode) = _
      rw [← append_assoc, hbytes]
      simp [Envelope.stream]
    · rw [hside]
      rfl
    · rw [hside, load_of_pipe hconduit, load_of_pipe (d := { l.direction side with
        unsent := (l.endpoint side).unsent ++ Field.sized f.encode }) hconduit]
      show 3 * ((l.direction side).unsent ++ Field.sized f.encode).length +
        (l.direction side).reader.backlog p ≤ _
      rw [length_append, Field.length_sized, Frame.length_encode]
      omega

/-- What goes out moves into the pipe, as far as there is room. -/
theorem flush_conveys (h : (l.direction side).Conveys frames) (hwrite : l.canWrite side = true) :
    ∃ sent l', l.flush side = (sent, l') ∧ (l'.direction side).Conveys frames ∧ Only side l l' ∧
      ((sent = .done ∧ (l'.direction side).Drained ∧
          (l'.direction side).load ≤ (l.direction side).load) ∨
        (sent = .blocked ∧ (l'.direction side).load < (l.direction side).load)) := by
  cases h with
  | mailbox m hconduit hmessages hsending hsender hreceiver hsmall =>
    have hout : l.outgoing side = .mailbox m := hconduit
    refine ⟨.done, l, by simp [flush, hout],
      .mailbox m hconduit hmessages hsending hsender hreceiver hsmall, ⟨rfl, rfl⟩,
      .inl ⟨rfl, ?_, le_refl _⟩⟩
    rw [Direction.Drained, hconduit]
    trivial
  | pipe p hconduit hbytes hopen hcapacity hreader hsmall =>
    have hout : l.outgoing side = .pipe p := hconduit
    have hunsent : (l.direction side).unsent = (l.endpoint side).unsent := rfl
    by_cases hnone : (l.endpoint side).unsent = []
    · refine ⟨.done, l, by simp [flush, hout, hnone],
        .pipe p hconduit hbytes hopen hcapacity hreader hsmall, ⟨rfl, rfl⟩,
        .inl ⟨rfl, ?_, le_refl _⟩⟩
      rw [drained_of_pipe_iff hconduit, hunsent, hnone]
    · have hroom : 0 < p.room := by simpa [canWrite, hout, hopen] using hwrite
      have hpositive : 0 < (l.endpoint side).unsent.length := length_pos_iff.mpr hnone
      have hempty : (l.endpoint side).unsent.isEmpty = false := by simpa using hnone
      have hfill : p.write (l.endpoint side).unsent = some ((l.endpoint side).unsent.drop p.room,
          { p with bytes := p.bytes ++ (l.endpoint side).unsent.take p.room }) := by
        simp [Pipe.write, hopen]
      -- named, so that rewriting by `hside` does not unfold what is left and what is in the pipe
      obtain ⟨left, hleft⟩ : ∃ left, left = (l.endpoint side).unsent.drop p.room := ⟨_, rfl⟩
      obtain ⟨pipe, hpipe⟩ : ∃ pipe : Pipe,
          pipe = { p with bytes := p.bytes ++ (l.endpoint side).unsent.take p.room } := ⟨_, rfl⟩
      have hflush : l.flush side = (if left.isEmpty then .done else .blocked,
          (l.setOutgoing side (.pipe pipe)).setEndpoint side
            { l.endpoint side with unsent := left }) := by
        simp only [flush, hout, hempty, hfill, ← hleft, ← hpipe]
        rfl
      have hend : (l.setOutgoing side (.pipe pipe)).endpoint side = l.endpoint side := by
        cases side <;> rfl
      obtain ⟨hside, hother⟩ := direction_setUnsent (l.setOutgoing side (.pipe pipe)) side left
      rw [hend] at hside hother
      rw [direction_setOutgoing] at hside
      rw [direction_other_setOutgoing] at hother
      have hload : ({ l.direction side with
          conduit := .pipe pipe, unsent := left } : Direction).load <
          (l.direction side).load := by
        rw [load_of_pipe hconduit, load_of_pipe (p := pipe) rfl]
        simp only [StreamReader.backlog, hpipe, hleft, hunsent, length_append,
          length_drop, length_take]
        omega
      refine ⟨_, _, hflush, ?_, ⟨hother, ?_⟩, ?_⟩
      · rw [hside]
        refine .pipe pipe rfl ?_ ?_ ?_ hreader ?_
        · show (l.direction side).reader.buffer ++ pipe.bytes ++ left = _
          rw [← hbytes, hpipe, hleft, hunsent]
          simp
        · rw [hpipe]
          exact hopen
        · rw [hpipe]
          exact hcapacity
        · rwa [frameLimit_of_pipe hconduit] at hsmall
      · rw [hside, frameLimit_of_pipe hconduit]
        rfl
      · rw [hside]
        cases hcase : left.isEmpty with
        | true => exact .inl ⟨rfl, List.isEmpty_iff.mp hcase, hload.le⟩
        | false => exact .inr ⟨rfl, hload⟩

/-- There is room for what is to go out when nothing is on its way. -/
theorem canWrite_of_conveys_nil (h : (l.direction side).Conveys []) : l.canWrite side = true := by
  cases h with
  | mailbox m hconduit =>
    have hout : l.outgoing side = .mailbox m := hconduit
    simp [canWrite, hout]
  | pipe p hconduit hbytes hopen hcapacity =>
    have hout : l.outgoing side = .pipe p := hconduit
    have hnone : p.bytes = [] := by
      rw [map_nil, Envelope.stream_nil, append_eq_nil_iff, append_eq_nil_iff]
        at hbytes
      exact hbytes.1.2
    simp [canWrite, hout, Pipe.room, hnone, hcapacity]

/-- The other side finds nothing, and then there is nothing, or something has still to go out and
can; or it is a step nearer to the first frame; or it gets the first frame. -/
theorem attempt_conveys (h : (l.direction side).Conveys frames) :
    (∃ l', l.attempt side.other = (some .nothing, l') ∧
      (frames = [] ∨ ¬ (l.direction side).Drained ∧ l.canWrite side = true)) ∨
    (∃ l', l.attempt side.other = (none, l') ∧ (l'.direction side).Conveys frames ∧
      Only side l l' ∧ ((l.direction side).Drained → (l'.direction side).Drained) ∧
      (l'.direction side).load < (l.direction side).load) ∨
    ∃ f rest a l', frames = f :: rest ∧ l.attempt side.other = (some a, l') ∧ a.Brings f ∧
      (l'.direction side).Conveys rest ∧ Only side l l' ∧
      ((l.direction side).Drained → (l'.direction side).Drained) ∧
      (l'.direction side).load ≤ (l.direction side).load := by
  have hincoming : l.incoming side.other = l.outgoing side := by rw [incoming, Side.other_other]
  cases h with
  | mailbox m hconduit hmessages hsending hsender hreceiver hsmall =>
    have hout : l.outgoing side = .mailbox m := hconduit
    cases frames with
    | nil =>
      rw [map_nil] at hmessages
      exact .inl ⟨l, by simp [attempt, hincoming, hout, takeMessage, hmessages, hsender],
        .inl rfl⟩
    | cons f rest =>
      have hlimit := frameLimit_of_mailbox hconduit
      have hlen : f.encodedLength < 2 ^ 32 := by
        have := hsmall f mem_cons_self
        rw [hlimit, Envelope.defaultLimit] at this
        omega
      have hset : ∀ c, l.setIncoming side.other c = l.setOutgoing side c := by
        intro c
        rw [setIncoming, Side.other_other]
      refine .inr (.inr ⟨f, rest, _, l.setOutgoing side (.mailbox { m with
          messages := rest.map Frame.encode }), rfl, ?_, brings_openMessage hlen, ?_,
        ⟨direction_other_setOutgoing l side _, ?_⟩, ?_, ?_⟩)
      · simp [attempt, hincoming, hout, takeMessage, hmessages, hset]
      · rw [direction_setOutgoing]
        refine .mailbox _ rfl rfl hsending hsender hreceiver fun g hg => ?_
        have := hsmall g (mem_cons_of_mem f hg)
        rwa [hlimit] at this
      · rw [direction_setOutgoing, hlimit]
        rfl
      · rw [direction_setOutgoing]
        exact fun _ => trivial
      · rw [direction_setOutgoing]
        exact Nat.zero_le _
  | pipe p hconduit hbytes hopen hcapacity hreader hsmall =>
    have hout : l.outgoing side = .pipe p := hconduit
    have hlimit := frameLimit_of_pipe hconduit
    have hcarries : ∀ f ∈ frames, Envelope.Carries (l.direction side).reader.limit f.encode := by
      intro f hf
      have hle := hsmall f hf
      rw [Envelope.Carries, Frame.length_encode]
      omega
    have hattempt {a : Option Arrival} {r : StreamReader} {p' : Pipe}
        (hread : (l.direction side).reader.attempt p = (a, r, p')) :
        l.attempt side.other = (a, (l.setIncoming side.other (.pipe p')).setEndpoint side.other
          { l.endpoint side.other with reader := r }) := by
      have hread' : (l.endpoint side.other).reader.attempt p = (a, r, p') := hread
      simp [attempt, hincoming, hout, readPipe, hread']
    -- the reader finds nothing, takes bytes into its buffer, or has a whole frame there
    rcases StreamReader.attempt_of_attentive hreader hopen hcarries hbytes with
      ⟨r, hread, hnone⟩ | ⟨r, p', hread, hreader', hsame, hopen', hcapacity', hbytes', hload⟩ |
      ⟨f, rest, a, r, rfl, hread, hbrings, hreader', hsame, hbytes', hload⟩
    · refine .inl ⟨_, hattempt hread, ?_⟩
      rcases hnone with hnil | ⟨hempty, hunsent⟩
      · exact .inl hnil
      · refine .inr ⟨?_, ?_⟩
        · rwa [drained_of_pipe_iff hconduit]
        · simp [canWrite, hout, Pipe.room, hempty, hcapacity]
    · obtain ⟨hside, hother⟩ := direction_read l side p' r
      have hlimit' : ({ l.direction side with
          conduit := .pipe p', reader := r } : Direction).frameLimit =
          (l.direction side).frameLimit := by
        rw [hlimit, frameLimit_of_pipe (p := p') rfl, hsame]
      refine .inr (.inl ⟨_, hattempt hread, ?_, ⟨hother, ?_⟩, ?_, ?_⟩)
      · rw [hside]
        exact .pipe p' rfl hbytes' hopen' (hcapacity' ▸ hcapacity) hreader' (hlimit' ▸ hsmall)
      · rw [hside, hlimit']
      · rw [hside, drained_of_pipe_iff hconduit, drained_of_pipe_iff (p := p') rfl]
        exact id
      · rw [hside, load_of_pipe hconduit, load_of_pipe (p := p') rfl]
        exact Nat.add_lt_add_left hload _
    · obtain ⟨hside, hother⟩ := direction_read l side p r
      have hlimit' : ({ l.direction side with
          conduit := .pipe p, reader := r } : Direction).frameLimit =
          (l.direction side).frameLimit := by
        rw [hlimit, frameLimit_of_pipe (p := p) rfl, hsame]
      refine .inr (.inr ⟨f, rest, a, _, rfl, hattempt hread, hbrings, ?_, ⟨hother, ?_⟩, ?_, ?_⟩)
      · rw [hside]
        refine .pipe p rfl hbytes' hopen hcapacity hreader' fun g hg => ?_
        rw [hlimit']
        exact hsmall g (mem_cons_of_mem f hg)
      · rw [hside, hlimit']
      · rw [hside, drained_of_pipe_iff hconduit, drained_of_pipe_iff (p := p) rfl]
        exact id
      · rw [hside, load_of_pipe hconduit, load_of_pipe (p := p) rfl, hload]

end Link

end Remoting
