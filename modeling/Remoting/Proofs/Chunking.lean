import Remoting.Proofs.BufferFront
import Remoting.Proofs.FrameCodec

/-!
# Remoting.Proofs.Chunking

Frames on a byte stream do not depend on how the stream is cut. A reader appends each chunk that
arrives to one buffer and then opens the buffer until more is needed (`Envelope.drain`); it goes on
from chunk to chunk (`Envelope.readChunks`) until it meets an error that ends the stream.

The bodies between the lengths decide alone what comes out (`Envelope.verdicts`). The invariant that
carries this is about bytes only: what is in the buffer and what is still to come are together the
stream of the bodies not yet reported. Opening a buffer that holds a whole first body takes just
that body off (`unwrap_sized_append`), and opening one that does not leaves it alone
(`unwrap_of_short`).
-/

namespace Remoting.Envelope

open List

variable {limit : Nat} {body buffer later left rest : Bytes} {bodies chunks : List Bytes}
  {item : Unwrapped}

/-! ## Reading a stream in chunks -/

/-- Whether an error came out that ends the stream. -/
def Unwrapped.isFailed : Unwrapped → Bool
  | .failed _ => true
  | _ => false

/-- A frame, damaged or not, takes its length and its body off the buffer. -/
theorem length_lt_of_unwrap (h : unwrap limit buffer = (item, left)) (hmore : item ≠ .needMore)
    (hfailed : item.isFailed = false) : left.length < buffer.length := by
  rcases front_cases limit buffer with hwaiting | hover | hwhole
  · rw [unwrap_of_waiting hwaiting, Prod.mk.injEq] at h
    exact absurd h.1.symm hmore
  · rw [unwrap_of_oversized hover, Prod.mk.injEq] at h
    rw [← h.1] at hfailed
    contradiction
  · rw [unwrap_of_whole hwhole, Prod.mk.injEq] at h
    have hfour := hwhole.four_le
    rw [← h.2, length_drop]
    omega

/-- Open a buffer until more is needed or an error comes out. The answer is what came out, and what
stays in the buffer. -/
def drain (limit : Nat) (buffer : Bytes) : List Unwrapped × Bytes :=
  match h : unwrap limit buffer with
  | (.needMore, left) => ([], left)
  | (.failed error, left) => ([.failed error], left)
  | (.frame frame, left) =>
    have := length_lt_of_unwrap h (by simp) rfl
    let (items, rest) := drain limit left
    (.frame frame :: items, rest)
  | (.malformed frame, left) =>
    have := length_lt_of_unwrap h (by simp) rfl
    let (items, rest) := drain limit left
    (.malformed frame :: items, rest)
termination_by buffer.length

/-- Append chunks to a buffer one after the other, and open the buffer after each. -/
def readChunks (limit : Nat) : (buffer : Bytes) → (chunks : List Bytes) → List Unwrapped × Bytes
  | buffer, [] => ([], buffer)
  | buffer, chunk :: chunks =>
    let (items, left) := drain limit (buffer ++ chunk)
    if items.any Unwrapped.isFailed then (items, left)
    else
      let (more, rest) := readChunks limit left chunks
      (items ++ more, rest)

/-- Bodies on a stream, each after its length. -/
def stream (bodies : List Bytes) : Bytes := (bodies.map Field.sized).flatten

/-- What the bodies of a stream are, up to the first one whose header does not decode. -/
def verdicts : (bodies : List Bytes) → List Unwrapped
  | [] => []
  | body :: bodies =>
    if (classify body).isFailed then [classify body] else classify body :: verdicts bodies

/-! ## Opening a buffer -/

@[simp] theorem stream_nil : stream [] = [] := rfl

@[simp] theorem stream_cons (body : Bytes) (bodies : List Bytes) :
    stream (body :: bodies) = Field.sized body ++ stream bodies := rfl

/-- A body may stand on a stream when it respects the limit and its length can be written. -/
def Carries (limit : Nat) (body : Bytes) : Prop := body.length ≤ limit ∧ body.length < 2 ^ 32

instance (limit : Nat) (body : Bytes) : Decidable (Carries limit body) :=
  inferInstanceAs (Decidable (_ ∧ _))

@[simp] theorem unwrap_nil (limit : Nat) : unwrap limit [] = (.needMore, []) := by
  simp [unwrap]

/-- A whole body at the front of the buffer is taken off, whatever comes after it. -/
theorem unwrap_sized_append (h : Carries limit body) (rest : Bytes) :
    unwrap limit (Field.sized body ++ rest) = (classify body, rest) := by
  have hlen : (Field.sized body ++ rest).length = 4 + body.length + rest.length := by simp
  have hfour : (bigEndian 4 body.length).length = 4 := length_bigEndian 4 _
  have htake : (Field.sized body ++ rest).take 4 = bigEndian 4 body.length := by
    rw [Field.sized, append_assoc, take_left' hfour]
  have hdrop : (Field.sized body ++ rest).drop 4 = body ++ rest := by
    rw [Field.sized, append_assoc, drop_left' hfour]
  have hsize : ofBigEndian (bigEndian 4 body.length) = body.length :=
    (ofBigEndian_bigEndian 4 _).trans (Nat.mod_eq_of_lt h.2)
  have hlimit := h.1
  unfold unwrap
  rw [if_neg (by omega), htake, hsize, if_neg (by omega), if_neg (by omega), hdrop,
    take_left' rfl, drop_left' rfl]

/-- The length of the first body stands in the first four bytes, as soon as these are there. -/
theorem size_of_cut (hlen : body.length < 2 ^ 32)
    (hcut : buffer ++ later = Field.sized body ++ rest) (hfour : 4 ≤ buffer.length) :
    ofBigEndian (buffer.take 4) = body.length := by
  have htake := congrArg (take 4) hcut
  rw [take_append_of_le_length hfour, Field.sized, append_assoc,
    take_left' (length_bigEndian 4 _)] at htake
  rw [htake]
  exact (ofBigEndian_bigEndian 4 _).trans (Nat.mod_eq_of_lt hlen)

/-- A buffer that is long enough holds the first body. -/
theorem whole_of_cut (hcut : buffer ++ later = Field.sized body ++ rest)
    (hlong : 4 + body.length ≤ buffer.length) :
    ∃ tail, buffer = Field.sized body ++ tail ∧ tail ++ later = rest := by
  obtain ⟨tail, rfl⟩ : Field.sized body <+: buffer := by
    refine prefix_of_prefix_length_le (prefix_append _ rest)
      (hcut ▸ prefix_append buffer later) ?_
    rw [Field.length_sized]
    omega
  rw [append_assoc] at hcut
  exact ⟨tail, rfl, append_cancel_left hcut⟩

/-- A buffer that ends inside its first body is left alone. -/
theorem unwrap_of_short (h : Carries limit body) (hcut : buffer ++ later = Field.sized body ++ rest)
    (hshort : buffer.length < 4 + body.length) :
    unwrap limit buffer = (.needMore, buffer) := by
  apply unwrap_of_waiting
  by_cases hfour : buffer.length < 4
  · exact .inl hfour
  · have hsize : statedSize buffer = body.length := size_of_cut h.2 hcut (Nat.not_lt.mp hfour)
    rw [Waiting, hsize]
    exact .inr ⟨h.1, hshort⟩

theorem drain_of_needMore (h : unwrap limit buffer = (.needMore, buffer)) :
    drain limit buffer = ([], buffer) := by
  rw [drain]
  split <;> simp_all

theorem drain_of_failed (h : unwrap limit buffer = (item, left)) (hfailed : item.isFailed = true) :
    drain limit buffer = ([item], left) := by
  rw [drain]
  cases item <;> simp [Unwrapped.isFailed] at hfailed
  split <;> simp_all

theorem drain_of_item (h : unwrap limit buffer = (item, left)) (hmore : item ≠ .needMore)
    (hfailed : item.isFailed = false) :
    drain limit buffer = (item :: (drain limit left).1, (drain limit left).2) := by
  rw [drain]
  cases item with
  | needMore => contradiction
  | failed error => contradiction
  | frame frame => split <;> simp_all
  | malformed frame => split <;> simp_all

/-! ## What comes out -/

/-- The outcome of draining a buffer that starts a stream: some first bodies are reported. Either
the last of them ends the stream, or what stays in the buffer starts the stream of the bodies that
are left, and none of them is whole. -/
theorem drain_stream (hall : ∀ b ∈ bodies, Carries limit b) (hcut : buffer ++ later = stream bodies)
    :
    ((drain limit buffer).1.any Unwrapped.isFailed = true ∧
      (drain limit buffer).1 = verdicts bodies) ∨
    ((drain limit buffer).1.any Unwrapped.isFailed = false ∧ ∃ undone,
      (∀ b ∈ undone, Carries limit b) ∧
      verdicts bodies = (drain limit buffer).1 ++ verdicts undone ∧
      (drain limit buffer).2 ++ later = stream undone ∧
      unwrap limit (drain limit buffer).2 = (.needMore, (drain limit buffer).2)) := by
  induction bodies generalizing buffer with
  | nil =>
    obtain ⟨rfl, rfl⟩ : buffer = [] ∧ later = [] := by simpa using hcut
    have hdrain : drain limit [] = ([], []) := drain_of_needMore (unwrap_nil limit)
    rw [hdrain]
    exact .inr ⟨rfl, [], hall, rfl, rfl, rfl⟩
  | cons body bodies ih =>
    have hbody := hall body List.mem_cons_self
    have hrest (b : Bytes) (hb : b ∈ bodies) : Carries limit b :=
      hall b (List.mem_cons_of_mem body hb)
    rw [stream_cons] at hcut
    by_cases hshort : buffer.length < 4 + body.length
    · have hmore := unwrap_of_short hbody hcut hshort
      rw [drain_of_needMore hmore]
      exact .inr ⟨rfl, body :: bodies, hall, rfl, hcut, hmore⟩
    · -- the first body is whole: it comes out, and the rest of the buffer starts the rest
      obtain ⟨tail, rfl, htail⟩ := whole_of_cut hcut (by omega)
      have hunwrap := unwrap_sized_append hbody tail
      by_cases hfailed : (classify body).isFailed = true
      · rw [drain_of_failed hunwrap hfailed, verdicts, if_pos hfailed]
        exact .inl ⟨by simp [hfailed], rfl⟩
      · have hgood : (classify body).isFailed = false := by simpa using hfailed
        rw [drain_of_item hunwrap (classify_ne_needMore body) hgood, verdicts, if_neg hfailed]
        simp only [any_cons, hgood, Bool.false_or, cons_append, List.cons.injEq,
          true_and]
        exact ih hrest htail

/-- Chunks that cut a stream give what its bodies are, and without an error nothing is left over. -/
theorem readChunks_stream (hall : ∀ b ∈ bodies, Carries limit b)
    (hcut : buffer ++ chunks.flatten = stream bodies)
    (hmore : unwrap limit buffer = (.needMore, buffer)) :
    (readChunks limit buffer chunks).1 = verdicts bodies ∧
      ((verdicts bodies).any Unwrapped.isFailed = false →
        (readChunks limit buffer chunks).2 = []) := by
  induction chunks generalizing buffer bodies with
  | nil =>
    rw [flatten_nil, append_nil] at hcut
    subst hcut
    cases bodies with
    | nil => exact ⟨rfl, fun _ => rfl⟩
    | cons body bodies =>
      -- a whole body in the buffer would have come out before
      rw [stream_cons, unwrap_sized_append (hall body List.mem_cons_self)] at hmore
      exact absurd (congrArg Prod.fst hmore) (classify_ne_needMore body)
  | cons chunk chunks ih =>
    rw [flatten_cons, ← append_assoc] at hcut
    simp only [readChunks]
    rcases drain_stream hall hcut with ⟨hfailed, hitems⟩ | ⟨hgood, undone, hundone, hverdicts,
      hleft, hquiet⟩
    · rw [if_pos hfailed]
      refine ⟨hitems, fun hnone => ?_⟩
      rw [← hitems, hfailed] at hnone
      contradiction
    · rw [if_neg (by simp [hgood])]
      obtain ⟨hmore', hrest⟩ := ih hundone hleft hquiet
      refine ⟨by rw [hmore', hverdicts], fun hnone => hrest ?_⟩
      rw [hverdicts, any_append, hgood, Bool.false_or] at hnone
      exact hnone

/-! ## Verdicts -/

theorem verdicts_append {before : List Bytes} (after : List Bytes)
    (h : ∀ b ∈ before, (classify b).isFailed = false) :
    verdicts (before ++ after) = before.map classify ++ verdicts after := by
  induction before with
  | nil => rfl
  | cons body before ih =>
    have hbody := h body List.mem_cons_self
    have hbefore := ih fun b hb => h b (List.mem_cons_of_mem body hb)
    rw [cons_append, verdicts, if_neg (by simp [hbody]), hbefore]
    rfl

/-- Without an error that ends the stream, there is a verdict on every body. -/
theorem verdicts_eq_map (h : ∀ b ∈ bodies, (classify b).isFailed = false) :
    verdicts bodies = bodies.map classify := by
  have happend := verdicts_append [] h
  rwa [append_nil, verdicts, append_nil] at happend

theorem any_isFailed_map (h : ∀ b ∈ bodies, (classify b).isFailed = false) :
    (bodies.map classify).any Unwrapped.isFailed = false := by
  simpa using h

/-! ## Frames -/

theorem classify_encode {f : Frame} (h : Field.Fits f.toFields) : classify f.encode = .frame f := by
  rw [classify, Frame.decodeHeaderFirst_encode h]

theorem wrap_eq_ok_iff {f : Frame} {bs : Bytes} :
    wrap limit f = .ok bs ↔ f.encodedLength ≤ limit ∧ bs = Field.sized f.encode := by
  unfold wrap
  split
  · next hlarge =>
    constructor
    · intro h
      contradiction
    · intro h
      omega
  · next hsmall =>
    rw [Field.sized, Frame.length_encode, Except.ok.injEq]
    exact ⟨fun h => ⟨by omega, h.symm⟩, fun h => h.2.symm⟩

/-- Frames that are put on a stream one after the other make the stream of their bytes. -/
theorem wrapped_eq_stream {frames : List Frame} {wrapped : List Bytes}
    (h : frames.mapM (wrap limit) = .ok wrapped) :
    wrapped.flatten = stream (frames.map Frame.encode) ∧ ∀ f ∈ frames, f.encodedLength ≤ limit := by
  induction frames generalizing wrapped with
  | nil =>
    obtain rfl : wrapped = [] := by simpa [pure, Except.pure] using h.symm
    exact ⟨rfl, by simp⟩
  | cons f frames ih =>
    rw [mapM_cons] at h
    obtain ⟨bs, hwrap, hrest⟩ := bind_eq_ok_iff.mp h
    obtain ⟨more, hmore, hpure⟩ := bind_eq_ok_iff.mp hrest
    obtain rfl : bs :: more = wrapped := by simpa [pure, Except.pure] using hpure
    obtain ⟨hlimit, rfl⟩ := wrap_eq_ok_iff.mp hwrap
    obtain ⟨hflat, hall⟩ := ih hmore
    refine ⟨by rw [flatten_cons, hflat]; rfl, fun g hg => ?_⟩
    rcases List.mem_cons.mp hg with rfl | hmem
    · exact hlimit
    · exact hall g hmem

/-- Chunks that cut a stream without an error give what each of its bodies is, and use it up. -/
theorem readChunks_good (hall : ∀ b ∈ bodies, Carries limit b)
    (hcut : chunks.flatten = stream bodies) (hnone : ∀ b ∈ bodies, (classify b).isFailed = false) :
    readChunks limit [] chunks = (bodies.map classify, []) := by
  obtain ⟨hitems, hrest⟩ :=
    readChunks_stream hall ((nil_append _).trans hcut) (unwrap_nil limit)
  rw [verdicts_eq_map hnone] at hitems hrest
  exact Prod.ext hitems (hrest (any_isFailed_map hnone))

/-- Frames come back from any chunks that cut their stream. -/
theorem readChunks_frames {frames : List Frame}
    (hsmall : ∀ f ∈ frames, f.encodedLength ≤ limit ∧ f.encodedLength < 2 ^ 32)
    (hnest : ∀ f ∈ frames, Field.nestingEach f.payload ≤ Field.maxNesting)
    (hcut : chunks.flatten = stream (frames.map Frame.encode)) :
    readChunks limit [] chunks = (frames.map .frame, []) := by
  have hclassify {f : Frame} (hf : f ∈ frames) : classify f.encode = .frame f := by
    obtain ⟨-, hlen⟩ := hsmall f hf
    exact classify_encode (Frame.fits_of_encodedLength_lt hlen (hnest f hf))
  have hcarries : ∀ b ∈ frames.map Frame.encode, Carries limit b := by
    intro b hb
    obtain ⟨f, hf, rfl⟩ := List.mem_map.mp hb
    rw [Carries, Frame.length_encode]
    exact hsmall f hf
  have hnone : ∀ b ∈ frames.map Frame.encode, (classify b).isFailed = false := by
    intro b hb
    obtain ⟨f, hf, rfl⟩ := List.mem_map.mp hb
    rw [hclassify hf]
    rfl
  have hmap : (frames.map Frame.encode).map classify = frames.map .frame := by
    rw [List.map_map]
    refine map_congr_left fun f hf => ?_
    rw [Function.comp_apply, hclassify hf]
  rw [readChunks_good hcarries hcut hnone, hmap]

/-- **The cuts of a stream do not matter.** For bodies that respect the limit, and however their
stream is cut into chunks: there comes out what each body is, up to the first body whose header does
not decode, and without such a body nothing is left over. In particular frames that were put on the
stream come back unchanged, and a damaged payload does not change what comes out after it. -/
theorem readChunks_independent_of_cuts (limit : Nat) :
    (∀ bodies chunks : List Bytes, (∀ b ∈ bodies, Carries limit b) →
      chunks.flatten = stream bodies →
      (readChunks limit [] chunks).1 = verdicts bodies ∧
      ((∀ b ∈ bodies, (classify b).isFailed = false) →
        readChunks limit [] chunks = (bodies.map classify, []))) ∧
    (∀ (frames : List Frame) (wrapped chunks : List Bytes),
      frames.mapM (wrap limit) = .ok wrapped →
      (∀ f ∈ frames, Field.nestingEach f.payload ≤ Field.maxNesting ∧ f.encodedLength < 2 ^ 32) →
      chunks.flatten = wrapped.flatten →
      readChunks limit [] chunks = (frames.map .frame, [])) ∧
    ∀ (before after : List Bytes) (body : Bytes) (damaged : MalformedFrame) (chunks : List Bytes),
      (∀ b ∈ before ++ body :: after, Carries limit b) →
      (∀ b ∈ before, (classify b).isFailed = false) → classify body = .malformed damaged →
      chunks.flatten = stream (before ++ body :: after) →
      (readChunks limit [] chunks).1 =
        before.map classify ++ .malformed damaged :: verdicts after := by
  refine ⟨fun bodies chunks hall hcut => ?_, ?_, ?_⟩
  · obtain ⟨hitems, -⟩ := readChunks_stream hall ((List.nil_append _).trans hcut) (unwrap_nil limit)
    exact ⟨hitems, readChunks_good hall hcut⟩
  · intro frames wrapped chunks hwrapped hfits hcut
    obtain ⟨hstream, hlimit⟩ := wrapped_eq_stream hwrapped
    refine readChunks_frames (fun f hf => ?_) (fun f hf => (hfits f hf).1) (hcut.trans hstream)
    obtain ⟨-, hlen⟩ := hfits f hf
    exact ⟨hlimit f hf, hlen⟩
  · intro before after body damaged chunks hall hbefore hbody hcut
    obtain ⟨hitems, -⟩ := readChunks_stream hall ((List.nil_append _).trans hcut) (unwrap_nil limit)
    rw [hitems, verdicts_append _ hbefore, verdicts, hbody]
    rfl

/-- A call whose last byte is missing. -/
def damagedCall : Bytes := Frame.nestedCall.encode.dropLast

theorem readChunks_hello_damagedCall :
    [Frame.hello, Frame.nestedCall].mapM (wrap 200) =
      .ok [Field.sized Frame.hello.encode, Field.sized Frame.nestedCall.encode] ∧
    readChunks 200 [] [(stream [Frame.hello.encode, Frame.nestedCall.encode]).take 3, [],
        (stream [Frame.hello.encode, Frame.nestedCall.encode]).drop 3] =
      ([.frame Frame.hello, .frame Frame.nestedCall], []) ∧
    classify damagedCall =
      .malformed ⟨Frame.nestedCall.header, .truncated (.payload .bool) 1 0⟩ ∧
    (readChunks 200 [] [stream [Frame.hello.encode, damagedCall, Frame.hello.encode]]).1 =
      [.frame Frame.hello,
        .malformed ⟨Frame.nestedCall.header, .truncated (.payload .bool) 1 0⟩,
        .frame Frame.hello] := by
  have hwrap : [Frame.hello, Frame.nestedCall].mapM (wrap 200) =
      .ok [Field.sized Frame.hello.encode, Field.sized Frame.nestedCall.encode] := by cbv
  have hhello : classify Frame.hello.encode = .frame Frame.hello := by cbv
  have hdamaged : classify damagedCall =
      .malformed ⟨Frame.nestedCall.header, .truncated (.payload .bool) 1 0⟩ := by cbv
  obtain ⟨-, hframes, hisolated⟩ := readChunks_independent_of_cuts 200
  refine ⟨hwrap, hframes _ _ _ hwrap ?_ (by decide), hdamaged, ?_⟩
  · simp only [List.mem_cons, List.not_mem_nil, or_false, forall_eq_or_imp, forall_eq]
    decide
  · have hitems := hisolated [Frame.hello.encode] [Frame.hello.encode] damagedCall _
      [stream [Frame.hello.encode, damagedCall, Frame.hello.encode]] (by decide)
      (by simp [hhello, Unwrapped.isFailed]) hdamaged (List.append_nil _)
    rw [hitems]
    simp [verdicts, hhello, Unwrapped.isFailed]

end Remoting.Envelope
