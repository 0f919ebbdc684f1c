import Remoting.Link.Basic
import Remoting.Proofs.Chunking

/-!
# Remoting.Proofs.Transit

Links are first-in, first-out. What is on its way from one side of a link (`Link.transit`) is a list
of whole messages, or one run of bytes: those that the other side has taken from the pipe and not
used yet, those in the pipe, and those that have not gone out yet. In both cases it stands for a
list of frames (`Link.Carries`).

A frame that is sent is put at the end of that list (`Link.Carries.feed`), and the first frame of it
is the only one that can arrive (`Link.Carries.attempt`): as itself if it fits the format, and
damaged, with its header, if it does not. Everything else that is done with a link leaves the list
alone, except that giving up the receiving half may empty it.
-/

namespace Remoting

open List

variable {frames : List Frame} {answer : Option Arrival} {later : Bytes}

/-! ## The front of a stream of frames -/

namespace Envelope

theorem classify_encode_of_not_fits {f : Frame} (hlen : f.encodedLength < 2 ^ 32)
    (h : ¬ Field.Fits f.toFields) :
    ∃ error, classify f.encode = .malformed ⟨f.header, error⟩ := by
  obtain ⟨error, herror⟩ := Frame.decodeHeaderFirst_encode_of_not_fits hlen h
  exact ⟨error, by rw [classify, herror]⟩

/-- A buffer at the front of a stream of frames is left alone, because more is needed or the first
frame is too large, or the first frame comes off it. -/
theorem unwrap_stream (limit : Nat) {buffer : Bytes}
    (hsmall : ∀ f ∈ frames, f.encodedLength < 2 ^ 32)
    (hcut : buffer ++ later = stream (frames.map Frame.encode)) :
    (unwrap limit buffer = (.needMore, buffer) ∨
      ∃ size, unwrap limit buffer = (.failed (.tooLarge size), buffer)) ∨
    ∃ f rest left, frames = f :: rest ∧ unwrap limit buffer = (classify f.encode, left) ∧
      left ++ later = stream (rest.map Frame.encode) := by
  cases frames with
  | nil =>
    obtain ⟨rfl, rfl⟩ : buffer = [] ∧ later = [] := by simpa using hcut
    exact .inl (.inl (unwrap_nil limit))
  | cons f rest =>
    have hlen : f.encode.length < 2 ^ 32 := by
      rw [Frame.length_encode]
      exact hsmall f mem_cons_self
    rw [map_cons, stream_cons] at hcut
    by_cases hfour : buffer.length < 4
    · exact .inl (.inl (by rw [unwrap, if_pos hfour]))
    · by_cases hlarge : limit < f.encode.length
      · have hsize := size_of_cut hlen hcut (by omega)
        refine .inl (.inr ⟨f.encode.length, ?_⟩)
        rw [unwrap, if_neg hfour, hsize, if_pos hlarge]
      · have hcarries : Carries limit f.encode := ⟨by omega, hlen⟩
        by_cases hshort : buffer.length < 4 + f.encode.length
        · exact .inl (.inl (unwrap_of_short hcarries hcut hshort))
        · obtain ⟨tail, rfl, htail⟩ := whole_of_cut hcut (by omega)
          exact .inr ⟨f, rest, tail, rfl, unwrap_sized_append hcarries tail, htail⟩

end Envelope

/-! ## Arrivals -/

namespace Arrival

/-- How a frame arrives: as itself if it fits the format, and damaged if it does not. -/
inductive Brings (f : Frame) : Arrival → Prop where
  | whole (h : Field.Fits f.toFields) : Brings f (.frame f)
  | damaged (h : ¬ Field.Fits f.toFields) (error : FramingError) :
    Brings f (.failed (.malformed ⟨f.header, error⟩))

/-- Whether no frame arrives, damaged or not. -/
def isQuiet : Arrival → Bool
  | .frame _ | .failed (.malformed _) => false
  | _ => true

end Arrival

/-- What an attempt to receive comes to when some frames are on their way: no frame arrives and they
are still on their way, or the first of them arrives. -/
def Receives (frames : List Frame) (answer : Option Arrival) (Left : List Frame → Prop) : Prop :=
  ((∀ a ∈ answer, a.isQuiet = true) ∧ Left frames) ∨
    ∃ f rest a, frames = f :: rest ∧ answer = some a ∧ a.Brings f ∧ Left rest

theorem Receives.quiet {Left : List Frame → Prop} (hanswer : ∀ a ∈ answer, a.isQuiet = true)
    (hleft : Left frames) :
    Receives frames answer Left := .inl ⟨hanswer, hleft⟩

theorem Receives.imp {Left Left' : List Frame → Prop} (h : Receives frames answer Left)
    (himp : ∀ left, left <:+ frames → Left left → Left' left) :
    Receives frames answer Left' := by
  rcases h with ⟨hquiet, hleft⟩ | ⟨f, rest, a, rfl, hanswer, hbrings, hleft⟩
  · exact .inl ⟨hquiet, himp _ (suffix_refl _) hleft⟩
  · exact .inr ⟨f, rest, a, rfl, hanswer, hbrings, himp _ (suffix_cons f rest) hleft⟩

/-! ## Readers -/

namespace StreamReader

variable {r r' : StreamReader}

/-- Looking at the buffer takes at most the first frame off it. -/
theorem decode_stream (hsmall : ∀ f ∈ frames, f.encodedLength < 2 ^ 32)
    (hcut : r.buffer ++ later = Envelope.stream (frames.map Frame.encode))
    (hdecode : r.decode = (answer, r')) :
    Receives frames answer fun left =>
      r'.buffer ++ later = Envelope.stream (left.map Frame.encode) := by
  unfold decode at hdecode
  rcases Envelope.unwrap_stream r.limit hsmall hcut with (hmore | ⟨size, hlarge⟩) |
    ⟨f, rest, left, rfl, hunwrap, hleft⟩
  · have hroom : r.makeRoom.buffer = r.buffer := by
      unfold makeRoom
      split <;> rfl
    simp only [hmore] at hdecode
    split at hdecode
    · split at hdecode
      · cases hdecode
        exact .quiet (by simp [Arrival.isQuiet]) (by rw [← hcut, ← hroom])
      · cases hdecode
        exact .quiet (by simp [Arrival.isQuiet]) (by rw [← hcut, ← hroom])
    · cases hdecode
      exact .quiet (by simp) (by rw [← hcut, ← hroom])
  · simp only [hlarge] at hdecode
    cases hdecode
    exact .quiet (by simp [Arrival.isQuiet]) hcut
  · by_cases hfits : Field.Fits f.toFields
    · rw [Envelope.classify_encode hfits] at hunwrap
      simp only [hunwrap] at hdecode
      cases hdecode
      exact .inr ⟨f, rest, _, rfl, rfl, .whole hfits, hleft⟩
    · obtain ⟨error, herror⟩ :=
        Envelope.classify_encode_of_not_fits (hsmall f mem_cons_self) hfits
      rw [herror] at hunwrap
      simp only [hunwrap] at hdecode
      cases hdecode
      exact .inr ⟨f, rest, _, rfl, rfl, .damaged hfits error, hleft⟩

/-- Reading the pipe moves bytes from it to the end of the buffer. -/
theorem pull_bytes {pipe pipe' : Pipe} (hpull : r.pull pipe = (answer, r', pipe')) :
    (∀ a ∈ answer, a.isQuiet = true) ∧ r'.buffer ++ pipe'.bytes = r.buffer ++ pipe.bytes := by
  unfold pull at hpull
  simp only [Pipe.read] at hpull
  split at hpull
  · split at hpull
    · obtain ⟨rfl, hrest⟩ := Prod.mk.inj hpull
      cases hrest
      exact ⟨by simp [Arrival.isQuiet], rfl⟩
    · split at hpull
      · obtain ⟨rfl, hrest⟩ := Prod.mk.inj hpull
        cases hrest
        exact ⟨by simp [Arrival.isQuiet], rfl⟩
      · obtain ⟨rfl, hrest⟩ := Prod.mk.inj hpull
        cases hrest
        exact ⟨by simp, rfl⟩
  · obtain ⟨rfl, hrest⟩ := Prod.mk.inj hpull
    cases hrest
    exact ⟨by simp, by simp⟩

/-- One attempt to receive from a pipe. -/
theorem attempt_stream {pipe pipe' : Pipe} (hsmall : ∀ f ∈ frames, f.encodedLength < 2 ^ 32)
    (hcut : r.buffer ++ pipe.bytes ++ later = Envelope.stream (frames.map Frame.encode))
    (hattempt : r.attempt pipe = (answer, r', pipe')) :
    Receives frames answer fun left =>
      r'.buffer ++ pipe'.bytes ++ later = Envelope.stream (left.map Frame.encode) := by
  unfold attempt at hattempt
  split at hattempt
  · obtain ⟨hquiet, hsame⟩ := pull_bytes hattempt
    exact .quiet hquiet (by rw [hsame, hcut])
  · split at hattempt
    · obtain ⟨rfl, hrest⟩ := Prod.mk.inj hattempt
      cases hrest
      exact .quiet (by simp [Arrival.isQuiet]) hcut
    · obtain ⟨hanswer, hrest⟩ := Prod.mk.inj hattempt
      obtain ⟨hreader, rfl⟩ := Prod.mk.inj hrest
      rw [append_assoc] at hcut
      simp only [append_assoc]
      exact decode_stream hsmall hcut (Prod.ext hanswer hreader)

end StreamReader

/-! ## Links -/

@[simp] theorem Side.other_other (side : Side) : side.other.other = side := by cases side <;> rfl

/-- What is on its way from one side of a link to the other. -/
inductive Transit where
  | messages (messages : List Bytes)
  | bytes (bytes : Bytes)

/-- What a conduit holds. -/
def Conduit.contents : Conduit → Transit
  | .mailbox m => .messages m.messages
  | .pipe p => .bytes p.bytes

/-- What is on its way stands for a list of frames. -/
def Transit.Holds (frames : List Frame) : Transit → Prop
  | .messages ms => ms = frames.map Frame.encode
  | .bytes bs => bs = Envelope.stream (frames.map Frame.encode)

namespace Link

variable {l l' : Link} {side : Side} {e : Endpoint}

/-- What is on its way from a side: the messages in the mailbox, or the bytes from those that the
other side has taken and not used yet to those that have not gone out yet. -/
def transit (l : Link) (side : Side) : Transit :=
  match l.outgoing side with
  | .mailbox mailbox => .messages mailbox.messages
  | .pipe pipe =>
    .bytes ((l.endpoint side.other).reader.buffer ++ pipe.bytes ++ (l.endpoint side).unsent)

/-- The frames on their way from a side, in the order in which they were sent. -/
structure Carries (l : Link) (side : Side) (frames : List Frame) : Prop where
  small : ∀ f ∈ frames, f.encodedLength < 2 ^ 32
  holds : (l.transit side).Holds frames

/-- Nothing was sent or received between two states of a link. -/
structure Rests (l l' : Link) : Prop where
  limit : ∀ side, (l'.endpoint side).limit = (l.endpoint side).limit
  transit : ∀ side, l'.transit side = l.transit side

theorem Rests.refl (l : Link) : Rests l l := ⟨fun _ => rfl, fun _ => rfl⟩

theorem Rests.trans {l'' : Link} (h : Rests l l') (h' : Rests l' l'') : Rests l l'' :=
  ⟨fun side => (h'.limit side).trans (h.limit side),
    fun side => (h'.transit side).trans (h.transit side)⟩

/-- A link at rest carries the same frames. -/
theorem Rests.carries (h : Rests l l') (hl : l.Carries side frames) : l'.Carries side frames :=
  ⟨hl.small, by rw [h.transit side]; exact hl.holds⟩

/-- An endpoint may change as long as its bytes stay where they are. -/
theorem rests_setEndpoint (hlimit : e.limit = (l.endpoint side).limit)
    (hunsent : e.unsent = (l.endpoint side).unsent)
    (hbuffer : e.reader.buffer = (l.endpoint side).reader.buffer) :
    Rests l (l.setEndpoint side e) := by
  constructor
  · intro s
    cases side <;> cases s <;> simp_all [endpoint, setEndpoint]
  · intro s
    cases side <;> cases s <;>
      simp_all [Link.transit, outgoing, endpoint, setEndpoint, Side.other]

theorem rests_setOutgoing {c : Conduit} (h : c.contents = (l.outgoing side).contents) :
    Rests l (l.setOutgoing side c) := by
  constructor
  · intro s
    cases side <;> cases s <;> rfl
  · intro s
    cases hout : l.outgoing side <;> cases c <;> cases side <;> cases s <;>
      simp_all [Link.transit, outgoing, endpoint, setOutgoing, Side.other, Conduit.contents]

/-- Bytes that go out move from those that have not gone out yet into the pipe. -/
theorem rests_flush (l : Link) (side : Side) : Rests l (l.flush side).2 := by
  unfold flush
  simp only
  split
  · exact .refl l
  · next pipe hpipe =>
    split
    · exact .refl l
    · unfold Pipe.write
      split
      · exact .refl l
      · next left pipe' hwrite =>
        split at hwrite
        · contradiction
        · cases hwrite
          constructor
          · intro s
            cases side <;> cases s <;> rfl
          · intro s
            cases side <;> cases s <;>
              simp_all [Link.transit, outgoing, endpoint, setEndpoint, setOutgoing, Side.other]

/-- Closing changes only whether the conduit is closed, after bytes have gone out. -/
theorem rests_close (l : Link) (side : Side) : Rests l (l.close side).2 := by
  unfold close
  simp only
  split
  · next mailbox hmailbox =>
    have hdrop : Rests l (l.setOutgoing side (.mailbox mailbox.dropSender)) :=
      rests_setOutgoing (by rw [hmailbox]; rfl)
    refine hdrop.trans (rests_setEndpoint ?_ ?_ ?_) <;> cases side <;> rfl
  · have hflush := rests_flush l side
    generalize l.flush side = flushed at hflush
    obtain ⟨sent, l'⟩ := flushed
    refine hflush.trans ?_
    cases sent with
    | done =>
      simp only [andThen]
      split
      · next pipe hpipe => exact rests_setOutgoing (by rw [hpipe]; rfl)
      · exact .refl l'
    | blocked => exact .refl l'
    | failed error => exact .refl l'

theorem rests_settleDropped (l : Link) (side : Side) : Rests l (l.settleDropped side) := by
  unfold settleDropped
  simp only
  split
  · next out back hout hback =>
    split
    · exact .refl l
    · have hclose : Rests l (l.setOutgoing side (.pipe out.close)) :=
        rests_setOutgoing (by rw [hout]; rfl)
      refine hclose.trans (rests_setOutgoing ?_)
      rw [incoming] at hback
      have hother : (l.setOutgoing side (.pipe out.close)).outgoing side.other = .pipe back := by
        rw [← hback]
        cases side <;> rfl
      rw [hother]
      rfl
  · exact .refl l

theorem rests_dropSending (l : Link) (side : Side) : Rests l (l.dropSending side) := by
  unfold dropSending
  simp only
  refine Rests.trans ?_ (rests_settleDropped _ side)
  split
  · next mailbox hmailbox =>
    have hdrop : Rests l (l.setOutgoing side (.mailbox mailbox.dropSender)) :=
      rests_setOutgoing (by rw [hmailbox]; rfl)
    exact hdrop.trans (rests_setEndpoint rfl rfl rfl)
  · exact rests_setEndpoint rfl rfl rfl

/-- Nothing was sent from one side, and nothing arrived from there, between two states of a link. -/
structure RestsFrom (side : Side) (l l' : Link) : Prop where
  limit : ∀ s, (l'.endpoint s).limit = (l.endpoint s).limit
  transit : l'.transit side = l.transit side

theorem RestsFrom.trans {l'' : Link} (h : RestsFrom side l l') (h' : RestsFrom side l' l'') :
    RestsFrom side l l'' :=
  ⟨fun s => (h'.limit s).trans (h.limit s), h'.transit.trans h.transit⟩

theorem Rests.restsFrom (h : Rests l l') (side : Side) : RestsFrom side l l' :=
  ⟨h.limit, h.transit side⟩

theorem RestsFrom.carries (h : RestsFrom side l l') (hl : l.Carries side frames) :
    l'.Carries side frames :=
  ⟨hl.small, by rw [h.transit]; exact hl.holds⟩

theorem restsFrom_other_setOutgoing (l : Link) (side : Side) (c : Conduit) :
    RestsFrom side.other l (l.setOutgoing side c) := by
  constructor
  · intro s
    cases side <;> cases s <;> rfl
  · cases side <;> rfl

theorem restsFrom_other_setEndpoint (hlimit : e.limit = (l.endpoint side).limit)
    (hbuffer : e.reader.buffer = (l.endpoint side).reader.buffer) :
    RestsFrom side.other l (l.setEndpoint side e) := by
  constructor
  · intro s
    cases side <;> cases s <;> simp_all [endpoint, setEndpoint]
  · cases side <;> simp_all [Link.transit, outgoing, endpoint, setEndpoint, Side.other]

theorem restsFrom_setEndpoint (hlimit : e.limit = (l.endpoint side).limit)
    (hunsent : e.unsent = (l.endpoint side).unsent) :
    RestsFrom side l (l.setEndpoint side e) := by
  constructor
  · intro s
    cases side <;> cases s <;> simp_all [endpoint, setEndpoint]
  · cases side <;> simp_all [Link.transit, outgoing, endpoint, setEndpoint, Side.other]

/-! ## Sending and receiving -/

/-- A frame that is sent comes after those that are on their way, or is not sent at all. -/
theorem Carries.feed {frame : Frame} {sent : Sent} (hl : l.Carries side frames)
    (hlimit : (l.endpoint side).limit < 2 ^ 32) (hfeed : l.feed side frame = (sent, l')) :
    l' = l ∨ (l'.Carries side (frames ++ [frame]) ∧ RestsFrom side.other l l') := by
  have hholds := hl.holds
  have hsmall (hframe : frame.encodedLength < 2 ^ 32) :
      ∀ f ∈ frames ++ [frame], f.encodedLength < 2 ^ 32 := by
    intro f hf
    rcases mem_append.mp hf with hmem | hmem
    · exact hl.small f hmem
    · rwa [mem_singleton.mp hmem]
  unfold Link.feed at hfeed
  simp only at hfeed
  split at hfeed
  · next mailbox hmailbox =>
    split at hfeed
    · exact .inl (Prod.mk.inj hfeed).2.symm
    · split at hfeed
      · exact .inl (Prod.mk.inj hfeed).2.symm
      · next hsize =>
        split at hfeed
        · exact .inl (Prod.mk.inj hfeed).2.symm
        · next mailbox' hsend =>
          cases hfeed
          unfold Mailbox.send at hsend
          split at hsend
          · contradiction
          · cases hsend
            rw [Link.transit, hmailbox] at hholds
            rw [Envelope.defaultLimit, Frame.length_encode] at hsize
            refine .inr ⟨⟨hsmall (by omega), ?_⟩, restsFrom_other_setOutgoing _ _ _⟩
            cases side <;>
              simp_all [Link.transit, outgoing, setOutgoing, Transit.Holds]
  · next pipe hpipe =>
    split at hfeed
    · exact .inl (Prod.mk.inj hfeed).2.symm
    · next bs hwrap =>
      obtain ⟨hsize, rfl⟩ := Envelope.wrap_eq_ok_iff.mp hwrap
      cases hfeed
      refine .inr ⟨⟨hsmall (by omega), ?_⟩, restsFrom_other_setEndpoint rfl rfl⟩
      rw [Link.transit, hpipe, Transit.Holds] at hholds
      have htransit : (l.setEndpoint side { l.endpoint side with
          unsent := (l.endpoint side).unsent ++ Field.sized frame.encode }).transit side =
          .bytes ((l.endpoint side.other).reader.buffer ++ pipe.bytes ++
            (l.endpoint side).unsent ++ Field.sized frame.encode) := by
        cases side <;>
          simp only [outgoing] at hpipe <;>
          simp [Link.transit, outgoing, endpoint, setEndpoint, Side.other, hpipe]
      rw [htransit, hholds, Transit.Holds]
      simp [Envelope.stream]

/-- How a message that stands for a frame is opened. -/
theorem brings_openMessage {f : Frame} (hlen : f.encodedLength < 2 ^ 32) :
    (openMessage f.encode).Brings f := by
  by_cases hfits : Field.Fits f.toFields
  · rw [openMessage, Frame.decodeHeaderFirst_encode hfits]
    exact .whole hfits
  · obtain ⟨error, herror⟩ := Frame.decodeHeaderFirst_encode_of_not_fits hlen hfits
    rw [openMessage, herror]
    exact .damaged hfits error

/-- Only the first of the frames on their way can arrive. -/
theorem Carries.attempt (hl : l.Carries side.other frames)
    (hattempt : l.attempt side = (answer, l')) :
    Receives frames answer (l'.Carries side.other) ∧ RestsFrom side l l' := by
  have hholds := hl.holds
  unfold Link.attempt at hattempt
  split at hattempt
  · next mailbox hmailbox =>
    rw [incoming] at hmailbox
    rw [Link.transit, hmailbox] at hholds
    simp only [Transit.Holds] at hholds
    cases frames with
    | nil =>
      rw [map_nil] at hholds
      simp only [takeMessage, hholds] at hattempt
      cases hattempt
      refine ⟨.quiet ?_ hl, (Rests.refl l).restsFrom side⟩
      cases mailbox.senderGone <;> simp [Arrival.isQuiet]
    | cons f rest =>
      rw [map_cons] at hholds
      simp only [takeMessage, hholds] at hattempt
      cases hattempt
      have hsmall : ∀ g ∈ rest, g.encodedLength < 2 ^ 32 :=
        fun g hg => hl.small g (mem_cons_of_mem f hg)
      refine ⟨.inr ⟨f, rest, _, rfl, rfl,
        brings_openMessage (hl.small f mem_cons_self), hsmall, ?_⟩, ?_⟩
      · cases side <;> rfl
      · have hrests := restsFrom_other_setOutgoing l side.other
          (.mailbox { mailbox with messages := rest.map Frame.encode })
        rwa [Side.other_other] at hrests
  · next pipe hpipe =>
    rw [incoming] at hpipe
    rw [Link.transit, hpipe, Side.other_other] at hholds
    cases hread : (l.endpoint side).reader.attempt pipe with
    | mk a rest =>
      obtain ⟨reader, pipe'⟩ := rest
      simp only [readPipe, hread] at hattempt
      cases hattempt
      have htransit : ((l.setIncoming side (.pipe pipe')).setEndpoint side
          { l.endpoint side with reader := reader }).transit side.other =
          .bytes (reader.buffer ++ pipe'.bytes ++ (l.endpoint side.other).unsent) := by
        cases side <;> rfl
      have hrests := restsFrom_other_setOutgoing l side.other (.pipe pipe')
      rw [Side.other_other] at hrests
      refine ⟨?_, hrests.trans (restsFrom_setEndpoint ?_ ?_)⟩
      · refine (StreamReader.attempt_stream hl.small hholds hread).imp ?_
        intro left hsuffix hleft
        exact ⟨fun f hf => hl.small f (hsuffix.subset hf), by rw [htransit]; exact hleft⟩
      · cases side <;> rfl
      · cases side <;> rfl

/-- Giving up the receiving half leaves alone what is on its way there, or loses all of it. -/
theorem Carries.dropReceiving (hl : l.Carries side.other frames) :
    ((l.dropReceiving side).Carries side.other frames ∨
      (l.dropReceiving side).Carries side.other []) ∧
    RestsFrom side l (l.dropReceiving side) := by
  unfold Link.dropReceiving
  simp only
  have hrests (l' : Link) : Rests l'
      ((l'.setEndpoint side { l'.endpoint side with receiving := false }).settleDropped side) := by
    refine Rests.trans ?_ (rests_settleDropped _ side)
    exact rests_setEndpoint rfl rfl rfl
  split
  · next mailbox hmailbox =>
    have hempty : (l.setIncoming side (.mailbox mailbox.dropReceiver)).Carries side.other [] :=
      ⟨by simp, by cases side <;> rfl⟩
    have hother := restsFrom_other_setOutgoing l side.other (.mailbox mailbox.dropReceiver)
    rw [Side.other_other] at hother
    exact ⟨.inr ((hrests _).carries hempty), hother.trans ((hrests _).restsFrom side)⟩
  · exact ⟨.inl ((hrests l).carries hl), (hrests l).restsFrom side⟩

/-! ## Frames that may be on their way -/

/-- Whatever is on its way from a side is a frame that may be sent from there. -/
structure Safe (May : Side → Frame → Prop) (l : Link) : Prop where
  limit : ∀ side, (l.endpoint side).limit < 2 ^ 32
  carries : ∀ side, ∃ frames, l.Carries side frames ∧ ∀ f ∈ frames, May side f

variable {May : Side → Frame → Prop}

theorem Safe.of_rests (h : l.Safe May) (hrests : Rests l l') : l'.Safe May := by
  refine ⟨fun side => by rw [hrests.limit]; exact h.limit side, fun side => ?_⟩
  obtain ⟨frames, hframes, hmay⟩ := h.carries side
  exact ⟨frames, hrests.carries hframes, hmay⟩

/-- It is enough to know the direction that has changed. -/
theorem Safe.of_restsFrom (h : l.Safe May) (hrests : RestsFrom side.other l l')
    (hside : ∃ frames, l'.Carries side frames ∧ ∀ f ∈ frames, May side f) : l'.Safe May := by
  refine ⟨fun s => by rw [hrests.limit]; exact h.limit s, fun s => ?_⟩
  by_cases hs : s = side
  · rw [hs]
    exact hside
  · obtain rfl : s = side.other := by cases s <;> cases side <;> simp_all [Side.other]
    obtain ⟨frames, hframes, hmay⟩ := h.carries side.other
    exact ⟨frames, hrests.carries hframes, hmay⟩

/-- A frame that may be sent is sent safely. -/
theorem Safe.feed {frame : Frame} {sent : Sent} (h : l.Safe May) (hmay : May side frame)
    (hfeed : l.feed side frame = (sent, l')) : l'.Safe May := by
  obtain ⟨frames, hframes, hall⟩ := h.carries side
  rcases hframes.feed (h.limit side) hfeed with hsame | ⟨hmore, hrests⟩
  · rw [hsame]
    exact h
  · refine h.of_restsFrom hrests ⟨_, hmore, fun f hf => ?_⟩
    rcases mem_append.mp hf with hmem | hmem
    · exact hall f hmem
    · rwa [mem_singleton.mp hmem]

/-- What arrives was on its way. -/
theorem Safe.attempt (h : l.Safe May) (hattempt : l.attempt side = (answer, l')) :
    l'.Safe May ∧ ∀ a ∈ answer, a.isQuiet = true ∨ ∃ f, May side.other f ∧ a.Brings f := by
  obtain ⟨frames, hframes, hall⟩ := h.carries side.other
  obtain ⟨hreceives, hrests⟩ := hframes.attempt hattempt
  have hback : RestsFrom side.other.other l l' := by rwa [Side.other_other]
  rcases hreceives with ⟨hquiet, hleft⟩ | ⟨f, rest, a, rfl, rfl, hbrings, hleft⟩
  · exact ⟨h.of_restsFrom hback ⟨_, hleft, hall⟩, fun a ha => .inl (hquiet a ha)⟩
  · refine ⟨h.of_restsFrom hback ⟨_, hleft, fun g hg => hall g (mem_cons_of_mem f hg)⟩, ?_⟩
    intro b hb
    obtain rfl : a = b := by simpa using hb
    exact .inr ⟨f, hall f mem_cons_self, hbrings⟩

theorem Safe.dropReceiving (h : l.Safe May) :
    (l.dropReceiving side).Safe May := by
  obtain ⟨frames, hframes, hall⟩ := h.carries side.other
  obtain ⟨hcarries, hrests⟩ := hframes.dropReceiving
  have hback : RestsFrom side.other.other l (l.dropReceiving side) := by rwa [Side.other_other]
  refine h.of_restsFrom hback ?_
  rcases hcarries with hsame | hnone
  · exact ⟨frames, hsame, hall⟩
  · exact ⟨[], hnone, by simp⟩

/-- What is safe stays safe when more may be sent. -/
theorem Safe.mono {May' : Side → Frame → Prop} (h : l.Safe May)
    (himp : ∀ side f, May side f → May' side f) : l.Safe May' := by
  refine ⟨h.limit, fun side => ?_⟩
  obtain ⟨frames, hframes, hmay⟩ := h.carries side
  exact ⟨frames, hframes, fun f hf => himp side f (hmay f hf)⟩

end Link

end Remoting
