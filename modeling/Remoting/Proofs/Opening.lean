import Remoting.Proofs.Conveyance

/-!
# Remoting.Proofs.Opening

How a frame arrives. The bytes of a frame that is nested no deeper than the format allows are opened
as the frame, and those of any other frame as a damaged one with its header and the reason that it
is nested too deep (`Frame.arrival`). A mailbox and a byte stream open them alike
(`Link.openMessage_encode`, `StreamReader.decode_of_front`).

A reader of a byte stream that goes on to the end gets one frame after the other and then the end of
the stream (`StreamReader.attempt_of_reads`), even if it starts with bytes that were read before.
-/

namespace Remoting

open List

variable {f : Frame}

/-! ## Too deep -/

namespace Field

variable {f : Field} {fs : List Field} {error : FramingError} {levels : Nat}

/-- After the tag of a record or a sequence comes a list. -/
theorem decodeWith_list {nested : Decoder (List Field)}
    (hf : f = .record fs ∨ f = .sequence fs) {rest : Bytes}
    (h : nested (encodeList fs ++ rest) = .error error) :
    decodeWith nested (encode f ++ rest) = .error error := by
  have htag (k : FieldKind) (bs : Bytes) :
      takeWord .tag 1 (k.tag :: bs) = .ok (k.tag.toNat, bs) := by
    have hword := (exact_takeWord .tag 1).decode_append (UInt8.toNat_lt k.tag) bs
    simpa [bigEndian] using hword
  rcases hf with rfl | rfl
  all_goals
    simp only [encodeList, append_assoc] at h
    simp only [decodeWith, encode, cons_append, append_assoc, htag]
    simp [bind, Except.bind, FieldKind.ofTag?_tag, decodeBody, h]

/-- Fields with one among them that cannot be read, after some that can. -/
theorem decodeMany_of_error {field : Decoder Field}
    (hgood : ∀ f ∈ fs, (∀ rest, field (encode f ++ rest) = .ok (f, rest)) ∨
      ∀ rest, field (encode f ++ rest) = .error error)
    (hbad : ∃ f ∈ fs, ∀ rest, field (encode f ++ rest) = .error error) (rest : Bytes) :
    decodeMany field fs.length (encodeEach fs ++ rest) = .error error := by
  induction fs with
  | nil => simp at hbad
  | cons f fs ih =>
    rw [length_cons, decodeMany, encodeEach, append_assoc]
    rcases hgood f mem_cons_self with hf | hf
    · have hlater : ∃ g ∈ fs, ∀ rest, field (encode g ++ rest) = .error error := by
        obtain ⟨g, hg, herror⟩ := hbad
        rcases mem_cons.mp hg with rfl | hg
        · exact absurd ((hf []).symm.trans (herror [])) (by simp)
        · exact ⟨g, hg, herror⟩
      have hrest := ih (fun g hg => hgood g (mem_cons_of_mem f hg)) hlater
      simp [bind, Except.bind, hf, hrest]
    · simp [bind, Except.bind, hf]

/-- Where each field that is nested too deep is refused, a list of fields is. -/
theorem decodeMany_of_nesting (hfield : ∀ f, Bounded f → levels < nesting f → ∀ rest,
      decodeField levels (encode f ++ rest) = .error .tooDeep) (hbounded : BoundedEach fs) (hdeep : levels < nestingEach fs) (rest : Bytes) :
    decodeMany (decodeField levels) fs.length (encodeEach fs ++ rest) = .error .tooDeep := by
  rw [boundedEach_iff] at hbounded
  refine decodeMany_of_error (fun f hf => ?_) ?_ rest
  · by_cases hnesting : nesting f ≤ levels
    · exact .inl ((exact_decodeField levels).decode_append ⟨hnesting, hbounded f hf⟩)
    · exact .inr (hfield f (hbounded f hf) (by omega))
  · have hsome : ¬ ∀ f ∈ fs, nesting f ≤ levels := by
      rw [← nestingEach_le_iff]
      omega
    push Not at hsome
    obtain ⟨f, hf, hnesting⟩ := hsome
    exact ⟨f, hf, hfield f (hbounded f hf) hnesting⟩

/-- A field that is nested deeper than the levels is refused for that. -/
theorem decodeField_of_nesting (hbounded : Bounded f) (hdeep : levels < nesting f) (rest : Bytes) :
    decodeField levels (encode f ++ rest) = .error .tooDeep := by
  induction levels generalizing f rest with
  | zero =>
    obtain ⟨fs, hf⟩ : ∃ fs, f = .record fs ∨ f = .sequence fs := by
      cases f <;> simp_all [nesting]
    exact decodeWith_list hf rfl
  | succ levels ih =>
    obtain ⟨fs, hf, hdeep, hcount, hbounded⟩ : ∃ fs, (f = .record fs ∨ f = .sequence fs) ∧
        levels < nestingEach fs ∧ fs.length < 2 ^ 32 ∧ BoundedEach fs := by
      cases f <;> simp_all [nesting, Bounded]
    have hroom := two_mul_length_le_encodeEach fs
    have hread : decodeCount (encodeList fs ++ rest) =
        .ok (fs.length, encodeEach fs ++ rest) := by
      refine decodeCount_eq_ok_iff.mpr ⟨by simp [encodeList], hcount, ?_⟩
      rw [length_append]
      omega
    have hmany := decodeMany_of_nesting (fun f hf hdeep rest => ih hf hdeep rest) hbounded hdeep
      rest
    refine decodeWith_list hf ?_
    simp [decodeLevel, bind, Except.bind, hread, hmany]

end Field

/-- A frame that is nested too deep is damaged for the reader, who still gets its header. -/
theorem Frame.decodeHeaderFirst_encode_of_nesting (hlen : f.encodedLength < 2 ^ 32)
    (hdeep : Field.maxNesting < Field.nestingEach f.payload) :
    decodeHeaderFirst f.encode = .error (.payload ⟨f.header, .tooDeep⟩) := by
  have hmany := Field.decodeMany_of_nesting
    (fun g hg hdeep rest => Field.decodeField_of_nesting hg hdeep rest)
    (bounded_of_encodedLength_lt hlen).2 hdeep []
  rw [append_nil] at hmany
  refine decodeHeaderFirst_encode_of_payload hlen ?_
  simp [decodePayload, bind, Except.bind, hmany]

/-! ## Arrivals -/

/-- How a frame arrives. -/
def Frame.arrival (f : Frame) : Arrival :=
  if Field.nestingEach f.payload ≤ Field.maxNesting then .frame f
  else .failed (.malformed ⟨f.header, .tooDeep⟩)

/-- A message is opened as the frame arrives. -/
theorem Link.openMessage_encode (hlen : f.encodedLength < 2 ^ 32) :
    openMessage f.encode = f.arrival := by
  by_cases hnesting : Field.nestingEach f.payload ≤ Field.maxNesting
  · have hfits := Frame.fits_of_encodedLength_lt hlen hnesting
    rw [openMessage, Frame.decodeHeaderFirst_encode hfits, Frame.arrival, if_pos hnesting]
  · have hdamaged := Frame.decodeHeaderFirst_encode_of_nesting hlen (by omega)
    rw [openMessage, hdamaged, Frame.arrival, if_neg hnesting]

/-- A frame comes off the buffer as it arrives. -/
theorem StreamReader.decode_of_front {r : StreamReader} {left : Bytes}
    (hlen : f.encodedLength < 2 ^ 32)
    (hunwrap : Envelope.unwrap r.limit r.buffer = (Envelope.classify f.encode, left)) :
    r.decode = (some f.arrival, r.keep left) := by
  by_cases hnesting : Field.nestingEach f.payload ≤ Field.maxNesting
  · have hfits := Frame.fits_of_encodedLength_lt hlen hnesting
    rw [Envelope.classify_encode hfits] at hunwrap
    simp only [decode, hunwrap, Frame.arrival, if_pos hnesting]
  · have hdamaged := Frame.decodeHeaderFirst_encode_of_nesting hlen (by omega)
    rw [Envelope.classify, hdamaged] at hunwrap
    simp only [decode, hunwrap, Frame.arrival, if_neg hnesting]

/-! ## Reading to the end -/

namespace StreamReader

variable {r : StreamReader} {pipe : Pipe} {later : Bytes} {frames : List Frame}

/-- These frames are still to come out of a reader, its pipe and bytes that are not in the pipe yet.
The end of the stream has been seen only if the pipe is empty and closed, and then the buffer has to
be looked at. -/
structure Reads (r : StreamReader) (pipe : Pipe) (later : Bytes) (frames : List Frame) : Prop where
  failed : r.failed = false
  small : ∀ f ∈ frames, Envelope.Carries r.limit f.encode
  bytes : r.buffer ++ pipe.bytes ++ later = Envelope.stream (frames.map Frame.encode)
  atEnd : r.atEnd = true → r.readable = true ∧ pipe.bytes = [] ∧ pipe.closed = true
  closed : pipe.closed = true → later = []

/-- What is still to be done until the reader has looked at everything up to the end. -/
def effort (r : StreamReader) (pipe : Pipe) : Nat :=
  r.backlog pipe + if r.atEnd then 0 else 2

theorem makeRoom_eq (r : StreamReader) : ∃ w, r.makeRoom = { r with window := w } := by
  unfold makeRoom
  split
  · exact ⟨r.window, rfl⟩
  · exact ⟨_, rfl⟩

/-- Looking at the buffer. -/
theorem decode_of_reads (h : r.Reads pipe later frames) (hreadable : r.readable = true) :
    (∃ r', r.decode = (none, r') ∧ r'.Reads pipe later frames ∧ r'.limit = r.limit ∧
      r'.effort pipe < r.effort pipe) ∨
    (∃ f rest r', frames = f :: rest ∧ r.decode = (some f.arrival, r') ∧
      r'.Reads pipe later rest ∧ r'.limit = r.limit ∧ r'.effort pipe = r.effort pipe) ∨
    (∃ r', frames = [] ∧ pipe.closed = true ∧ r.decode = (some .ended, r') ∧
      r'.effort pipe ≤ r.effort pipe) := by
  have hcut := h.bytes
  rw [append_assoc] at hcut
  obtain ⟨w, hroom⟩ := r.makeRoom_eq
  rcases Envelope.unwrap_front h.small hcut with ⟨hmore, hnone⟩ |
    ⟨f, rest, left, rfl, hunwrap, hleft⟩
  · cases hend : r.atEnd with
    | true =>
      -- nothing is missing, so there was nothing left to come
      obtain ⟨-, hbytes, hclosed⟩ := h.atEnd hend
      have hlater := h.closed hclosed
      have hframes : frames = [] := by simpa [hbytes, hlater] using hnone
      have hempty : r.buffer = [] := by simpa [hframes, hbytes, hlater] using hcut
      refine .inr (.inr ⟨{ r with window := w, readable := false }, hframes, hclosed, ?_, ?_⟩)
      · simp [decode, hroom, hend, hempty]
      · simp [effort, backlog]
    | false =>
      refine .inl ⟨{ r with window := w, readable := false }, ?_, ?_, rfl, ?_⟩
      · simp [decode, hmore, hroom, hend]
      · exact { h with atEnd := fun hfalse => absurd (hend.symm.trans hfalse) (by simp) }
      · simp [effort, backlog, hreadable]
  · have hlen : f.encodedLength < 2 ^ 32 := by
      rw [← Frame.length_encode]
      exact (h.small f mem_cons_self).2
    refine .inr (.inl ⟨f, rest, _, rfl, decode_of_front hlen hunwrap, ?_, rfl, rfl⟩)
    refine { h with small := fun g hg => h.small g (mem_cons_of_mem f hg), bytes := ?_ }
    show left ++ pipe.bytes ++ later = _
    rw [append_assoc, hleft]

/-- One attempt to receive. It finds nothing, in an empty pipe that is open; or it goes on with less
to do; or it gives the first frame; or it gives the end of the stream when all frames have come. -/
theorem attempt_of_reads (h : r.Reads pipe later frames) :
    (∃ r', r.attempt pipe = (some .nothing, r', pipe) ∧ pipe.bytes = [] ∧ pipe.closed = false ∧
      r'.Reads pipe later frames ∧ r'.limit = r.limit ∧ r'.effort pipe = r.effort pipe) ∨
    (∃ r' pipe', r.attempt pipe = (none, r', pipe') ∧ pipe'.closed = pipe.closed ∧
      pipe'.capacity = pipe.capacity ∧ r'.Reads pipe' later frames ∧ r'.limit = r.limit ∧
      r'.effort pipe' < r.effort pipe) ∨
    (∃ f rest r', frames = f :: rest ∧ r.attempt pipe = (some f.arrival, r', pipe) ∧
      r'.Reads pipe later rest ∧ r'.limit = r.limit ∧ r'.effort pipe = r.effort pipe) ∨
    (∃ r', frames = [] ∧ pipe.closed = true ∧ r.attempt pipe = (some .ended, r', pipe) ∧
      r'.effort pipe ≤ r.effort pipe) := by
  cases hreadable : r.readable with
  | true =>
    have hattempt : r.attempt pipe = (r.decode.1, r.decode.2, pipe) := by
      simp [attempt, needsBytes, hreadable, h.failed]
    rcases decode_of_reads h hreadable with ⟨r', hdecode, hrest⟩ |
      ⟨f, rest, r', rfl, hdecode, hrest⟩ | ⟨r', hframes, hclosed, hdecode, hrest⟩
    · rw [hdecode] at hattempt
      exact .inr (.inl ⟨r', pipe, hattempt, rfl, rfl, hrest⟩)
    · rw [hdecode] at hattempt
      exact .inr (.inr (.inl ⟨f, rest, r', rfl, hattempt, hrest⟩))
    · rw [hdecode] at hattempt
      exact .inr (.inr (.inr ⟨r', hframes, hclosed, hattempt, hrest⟩))
  | false =>
    have hneeds : r.needsBytes = true := by simp [needsBytes, h.failed, hreadable]
    have hend : r.atEnd = false := by
      by_contra hend
      have := (h.atEnd (by simpa using hend)).1
      simp [hreadable] at this
    by_cases hbytes : pipe.bytes = []
    · cases hclosed : pipe.closed with
      | false =>
        refine .inl ⟨{ r with window := r.window.reserve r.buffer.length 1 }, ?_, hbytes, rfl,
          { h with }, rfl, rfl⟩
        simp [attempt, hneeds, pull, hbytes, hclosed]
      | true =>
        refine .inr (.inl ⟨{ r with
          window := r.window.reserve r.buffer.length 1, atEnd := true, readable := true }, pipe,
          ?_, hclosed, rfl, ?_, rfl, ?_⟩)
        · simp [attempt, hneeds, pull, hbytes, hclosed, hend]
        · exact { h with atEnd := fun _ => ⟨rfl, hbytes, hclosed⟩ }
        · simp [effort, backlog, hreadable, hend]
    · obtain ⟨n, w, hn, hpull⟩ := pull_of_ne_nil (r := r) hbytes
      have hattempt : r.attempt pipe = _ := (if_pos hneeds).trans hpull
      refine .inr (.inl ⟨_, _, hattempt, rfl, rfl, ?_, rfl, ?_⟩)
      · refine { h with bytes := ?_, atEnd := by simp }
        have hcut := h.bytes
        simp only [append_assoc] at hcut ⊢
        rw [← hcut, ← append_assoc (pipe.bytes.take n), take_append_drop]
      · have hlength : 0 < pipe.bytes.length := length_pos_iff.mpr hbytes
        simp only [effort, backlog, hreadable, hend, length_drop]
        simp
        omega

theorem Reads.startingWith (h : r.Reads pipe later frames) :
    (startingWith r.limit r.buffer).Reads pipe later frames :=
  { h with failed := rfl, atEnd := by simp [StreamReader.startingWith] }

end StreamReader

end Remoting
