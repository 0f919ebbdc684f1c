import Remoting.Proofs.ComputedLength
import Remoting.Proofs.DecodeStack

/-!
# Remoting.Proofs.Confinement

A codec at work on its buffer, step by step. To open a buffer it takes the length off the front and
then the body, and decodes the body where it has put it (`Unwrapping`); to put a frame into a buffer
it appends the length, the number of fields and the fields one after the other (`Wrapping`). To take
bytes off that are not there would be a crash.

What a codec does is confined to the bytes that it has to do with. A buffer is changed only when a
whole frame is at its front, and then loses that frame; the bytes behind the frame go along
unchanged through every step and change no step (`Unwrapping.Stage.step_behind`). In the same way
the bytes that are in a buffer go along when a frame is put behind them (`Wrapping.step_before`). In
the end there is what `unwrap` and `wrap` give (`confined`).
-/

namespace Remoting.Envelope

open StateTransition (eval Reaches)
open List Option

variable {limit : Nat} {buffer : Bytes}

/-! ## Opening a buffer -/

/-- What the answer of a decoder makes of a body. -/
def verdict : Except FrameError Frame → Unwrapped
  | .ok frame => .frame frame
  | .error (.payload m) => .malformed m
  | .error (.header e) => .failed (.badHeader e)

theorem classify_eq_verdict (body : Bytes) :
    classify body = verdict (Frame.decodeHeaderFirst body) := by
  unfold classify
  cases Frame.decodeHeaderFirst body with
  | ok frame => rfl
  | error e => cases e <;> rfl

/-- What a codec does next to open a buffer. -/
inductive UnwrapTask where
  /-- See whether the buffer holds a length. -/
  | look
  /-- Hold the length against the limit and against the bytes that are there. -/
  | weigh (size : Nat)
  /-- Take the length off. -/
  | skip (size : Nat)
  /-- Take the body off. -/
  | cut (size : Nat)
  /-- Decode the body that was taken off. -/
  | read (body : Bytes) (decoding : Decoding)
  /-- Nothing, this has come off the buffer. -/
  | opened (item : Unwrapped)
  /-- Nothing any more, bytes were to be taken off that are not there. -/
  | crashed

/-- A codec that opens a buffer. -/
structure Unwrapping where
  task : UnwrapTask
  buffer : Bytes

namespace Unwrapping

variable {t t' : Unwrapping}

/-- Take bytes off the front, which must be there. -/
def takeOff (n : Nat) (buffer : Bytes) (next : Bytes → UnwrapTask) : Unwrapping :=
  if n ≤ buffer.length then ⟨next (buffer.take n), buffer.drop n⟩ else ⟨.crashed, buffer⟩

/-- One step of a codec with a limit on the size of frames. -/
def step (limit : Nat) : Unwrapping → Option Unwrapping
  | ⟨.look, buffer⟩ =>
    some ⟨if buffer.length < 4 then .opened .needMore else .weigh (statedSize buffer), buffer⟩
  | ⟨.weigh size, buffer⟩ =>
    some ⟨if limit < size then .opened (.failed (.tooLarge size))
      else if buffer.length < 4 + size then .opened .needMore
      else .skip size, buffer⟩
  | ⟨.skip size, buffer⟩ => some (takeOff 4 buffer fun _ => .cut size)
  | ⟨.cut size, buffer⟩ => some (takeOff size buffer fun body => .read body .beginFrame)
  | ⟨.read body s, buffer⟩ =>
    match s.step body with
    | some s' => some ⟨.read body s', buffer⟩
    | none => some ⟨s.frameAnswer?.elim .crashed (.opened ∘ verdict), buffer⟩
  | ⟨.opened _, _⟩ | ⟨.crashed, _⟩ => none

/-- The same with other bytes behind those in the buffer. -/
def behind (t : Unwrapping) (more : Bytes) : Unwrapping := { t with buffer := t.buffer ++ more }

/-- Where a codec may be that was to open the given buffer. -/
inductive Stage (limit : Nat) (buffer : Bytes) : Unwrapping → Prop
  | look : Stage limit buffer ⟨.look, buffer⟩
  | weigh (h : 4 ≤ buffer.length) : Stage limit buffer ⟨.weigh (statedSize buffer), buffer⟩
  | skip (h : Whole limit buffer) : Stage limit buffer ⟨.skip (statedSize buffer), buffer⟩
  | cut (h : Whole limit buffer) : Stage limit buffer ⟨.cut (statedSize buffer), buffer.drop 4⟩
  | read (h : Whole limit buffer) {s : Decoding}
      (hs : Reaches (Decoding.step (firstBody buffer)) .beginFrame s) :
      Stage limit buffer ⟨.read (firstBody buffer) s, buffer.drop (4 + statedSize buffer)⟩
  | waits (h : Waiting limit buffer) : Stage limit buffer ⟨.opened .needMore, buffer⟩
  | tooLarge (h : Oversized limit buffer) :
      Stage limit buffer ⟨.opened (.failed (.tooLarge (statedSize buffer))), buffer⟩
  | opened (h : Whole limit buffer) :
      Stage limit buffer
        ⟨.opened (classify (firstBody buffer)), buffer.drop (4 + statedSize buffer)⟩

theorem takeOff_of_le {n : Nat} (h : n ≤ buffer.length) (next : Bytes → UnwrapTask) :
    takeOff n buffer next = ⟨next (buffer.take n), buffer.drop n⟩ := if_pos h

theorem step_skip (h : Whole limit buffer) (size : Nat) :
    step limit ⟨.skip size, buffer⟩ = some ⟨.cut size, buffer.drop 4⟩ := by
  rw [step, takeOff_of_le h.four_le]

theorem step_cut (h : Whole limit buffer) :
    step limit ⟨.cut (statedSize buffer), buffer.drop 4⟩ =
      some ⟨.read (firstBody buffer) .beginFrame, buffer.drop (4 + statedSize buffer)⟩ := by
  have hlength : statedSize buffer ≤ (buffer.drop 4).length := by
    rw [length_drop]
    exact Nat.le_sub_of_add_le' h.2
  rw [step, takeOff_of_le hlength, drop_drop, firstBody]

theorem step_read_end {data left : Bytes} {s : Decoding}
    (hs : Reaches (Decoding.step data) .beginFrame s) (hend : Decoding.step data s = none) :
    step limit ⟨.read data s, left⟩ = some ⟨.opened (classify data), left⟩ := by
  obtain ⟨s', hs', hend', hanswer⟩ := Decoding.exists_reaches_frame data
  obtain rfl := eq_of_ends hs' hend' hs hend
  simp only [step, hend, hanswer, elim_some, Function.comp_apply, classify_eq_verdict]

theorem Stage.step (h : Stage limit buffer t) (hnext : Unwrapping.step limit t = some t') :
    Stage limit buffer t' := by
  cases h with
  | look =>
    cases hnext
    split
    · next hfour => exact .waits (.inl hfour)
    · next hfour => exact .weigh (Nat.not_lt.mp hfour)
  | weigh hfour =>
    cases hnext
    split
    · next hlimit => exact .tooLarge ⟨hfour, hlimit⟩
    · next hlimit =>
      split
      · next hshort => exact .waits (.inr ⟨Nat.not_lt.mp hlimit, hshort⟩)
      · next hlength => exact .skip ⟨Nat.not_lt.mp hlimit, Nat.not_lt.mp hlength⟩
  | skip hwhole =>
    rw [step_skip hwhole] at hnext
    cases hnext
    exact .cut hwhole
  | cut hwhole =>
    rw [step_cut hwhole] at hnext
    cases hnext
    exact .read hwhole .refl
  | @read hwhole s hs =>
    cases hdecode : Decoding.step (firstBody buffer) s with
    | some s' =>
      simp only [Unwrapping.step, hdecode, some.injEq] at hnext
      subst hnext
      exact .read hwhole (hs.tail hdecode)
    | none =>
      rw [step_read_end hs hdecode] at hnext
      cases hnext
      exact .opened hwhole
  | waits | tooLarge | opened => contradiction

theorem stage_of_reaches (h : Reaches (step limit) ⟨.look, buffer⟩ t) : Stage limit buffer t :=
  keeps_of_reaches (fun _ _ ht hnext => ht.step hnext) .look h

/-- Bytes behind a whole frame change no step, and go along unchanged. -/
theorem Stage.step_behind (h : Stage limit buffer t) (hwhole : Whole limit buffer) (more : Bytes) :
    Unwrapping.step limit (t.behind more) = (Unwrapping.step limit t).map (·.behind more) := by
  have hmore := hwhole.append more
  have hsize := statedSize_append hwhole.four_le more
  cases h with
  | look =>
    simp only [behind, Unwrapping.step, hsize, if_neg (Nat.not_lt.mpr hwhole.four_le),
      if_neg (Nat.not_lt.mpr hmore.four_le), map_some]
  | weigh =>
    have hlonger := hmore.2
    rw [hsize] at hlonger
    simp only [behind, Unwrapping.step, if_neg (Nat.not_lt.mpr hwhole.1),
      if_neg (Nat.not_lt.mpr hwhole.2), if_neg (Nat.not_lt.mpr hlonger), map_some]
  | skip =>
    rw [step_skip hwhole, map_some, behind, behind, step_skip hmore,
      drop_append_of_le_length hwhole.four_le]
  | cut =>
    have hcut := step_cut hmore
    rw [hsize, firstBody_append hwhole, drop_append_of_le_length hwhole.four_le,
      drop_append_of_le_length hwhole.2] at hcut
    rw [step_cut hwhole, behind, hcut]
    rfl
  | @read _ s hs =>
    simp only [behind, Unwrapping.step]
    cases Decoding.step (firstBody buffer) s <;> rfl
  | waits | tooLarge | opened => rfl

theorem reaches_read {data left : Bytes} {s s' : Decoding} (h : Reaches (Decoding.step data) s s') :
    Reaches (step limit) ⟨.read data s, left⟩ ⟨.read data s', left⟩ := by
  refine h.lift (fun s => Unwrapping.mk (.read data s) left) fun s s' hnext => ?_
  change step limit ⟨.read data s, left⟩ = some ⟨.read data s', left⟩
  simp only [step, mem_def.mp hnext]

theorem reaches_weigh (h : 4 ≤ buffer.length) :
    Reaches (step limit) ⟨.look, buffer⟩ ⟨.weigh (statedSize buffer), buffer⟩ :=
  .single (by simp [step, Nat.not_lt.mpr h])

/-- Opening a buffer comes to its end. -/
theorem eval_look (limit : Nat) (buffer : Bytes) :
    eval (step limit) ⟨.look, buffer⟩ =
      Part.some ⟨.opened (unwrap limit buffer).1, (unwrap limit buffer).2⟩ := by
  refine eval_eq_some ?_ rfl
  rcases front_cases limit buffer with hwaiting | hover | hwhole
  · rw [unwrap_of_waiting hwaiting]
    by_cases hfour : buffer.length < 4
    · exact .single (by simp [step, hfour])
    · obtain ⟨hlimit, hshort⟩ := hwaiting.resolve_left hfour
      refine (reaches_weigh (Nat.not_lt.mp hfour)).tail ?_
      simp [step, Nat.not_lt.mpr hlimit, hshort]
  · rw [unwrap_of_oversized hover]
    refine (reaches_weigh hover.1).tail ?_
    simp [step, hover.2]
  · rw [unwrap_of_whole hwhole]
    have hweigh : step limit ⟨.weigh (statedSize buffer), buffer⟩ =
        some ⟨.skip (statedSize buffer), buffer⟩ := by
      rw [step, if_neg (Nat.not_lt.mpr hwhole.1), if_neg (Nat.not_lt.mpr hwhole.2)]
    obtain ⟨s, hs, hend, -⟩ := Decoding.exists_reaches_frame (firstBody buffer)
    have hcut := (((reaches_weigh hwhole.four_le).tail hweigh).tail (step_skip hwhole _)).tail
      (step_cut hwhole)
    exact (hcut.trans (reaches_read hs)).tail (step_read_end hs hend)

end Unwrapping

/-! ## Putting a frame into a buffer -/

/-- What a codec does next to put a frame into a buffer. -/
inductive WrapTask where
  /-- Hold the length of a frame against the limit. -/
  | measure (frame : Frame)
  /-- Append the length of the frame. -/
  | announce (frame : Frame)
  /-- Append the number of fields. -/
  | count (fields : List Field)
  /-- Append the fields. -/
  | write (fields : List Field)
  /-- Nothing, the frame is in the buffer. -/
  | written
  /-- Nothing, the frame was refused. -/
  | refused (error : WrapError)

/-- A codec that puts a frame into a buffer. -/
structure Wrapping where
  task : WrapTask
  buffer : Bytes

namespace Wrapping

variable {t : Wrapping} {f : Frame}

/-- One step of a codec with a limit on the size of frames. -/
def step (limit : Nat) : Wrapping → Option Wrapping
  | ⟨.measure f, buffer⟩ =>
    some ⟨if limit < f.encodedLength then .refused (.tooLarge f.encodedLength) else .announce f,
      buffer⟩
  | ⟨.announce f, buffer⟩ => some ⟨.count f.toFields, buffer ++ bigEndian 4 f.encodedLength⟩
  | ⟨.count fs, buffer⟩ => some ⟨.write fs, buffer ++ bigEndian 4 fs.length⟩
  | ⟨.write fs, buffer⟩ =>
    match FieldWriter.step ⟨buffer, fs⟩ with
    | some w => some ⟨.write w.todo, w.written⟩
    | none => some ⟨.written, buffer⟩
  | ⟨.written, _⟩ | ⟨.refused _, _⟩ => none

/-- The same with other bytes before those in the buffer. -/
def before (front : Bytes) (t : Wrapping) : Wrapping := { t with buffer := front ++ t.buffer }

/-- Bytes that are in the buffer change no step, and stay where they are. -/
theorem step_before (limit : Nat) (front : Bytes) (t : Wrapping) :
    step limit (t.before front) = (step limit t).map (before front) := by
  obtain ⟨task, buffer⟩ := t
  cases task with
  | written | refused | measure => rfl
  | announce | count => simp [step, before]
  | write fs => cases fs <;> simp [step, before, FieldWriter.step]

theorem reaches_write {w w' : FieldWriter} (h : Reaches FieldWriter.step w w') :
    Reaches (step limit) ⟨.write w.todo, w.written⟩ ⟨.write w'.todo, w'.written⟩ := by
  refine h.lift (fun w => Wrapping.mk (.write w.todo) w.written) fun w w' hnext => ?_
  change step limit ⟨.write w.todo, w.written⟩ = some ⟨.write w'.todo, w'.written⟩
  simp only [step, mem_def.mp hnext]

/-- Where a codec is when there is nothing more to put into the given buffer. -/
def settled (buffer : Bytes) : Except WrapError Bytes → Wrapping
  | .ok bytes => ⟨.written, buffer ++ bytes⟩
  | .error e => ⟨.refused e, buffer⟩

/-- Putting a frame into a buffer comes to its end. -/
theorem eval_measure (limit : Nat) (f : Frame) (buffer : Bytes) :
    eval (step limit) ⟨.measure f, buffer⟩ = Part.some (settled buffer (wrap limit f)) := by
  unfold wrap
  split
  · next hlarge => exact eval_eq_some (.single (by simp [step, hlarge, settled])) rfl
  · next hlimit =>
    have hmeasure : Reaches (step limit) ⟨.measure f, buffer⟩ ⟨.announce f, buffer⟩ :=
      .single (by simp [step, hlimit])
    have hcount := (hmeasure.tail (mem_def.mpr rfl)).tail (mem_def.mpr rfl)
    have hwrite := hcount.trans (reaches_write (FieldWriter.reaches_whole ⟨_, f.toFields⟩))
    refine eval_eq_some (hwrite.tail ?_) rfl
    simp [step, FieldWriter.step, FieldWriter.whole, settled, Frame.encode, Field.encodeList]

theorem buffer_of_refused {e : WrapError} (h : wrap limit f = .error e)
    (ht : Reaches (step limit) ⟨.measure f, buffer⟩ t) : t.buffer = buffer := by
  have hlarge : limit < f.encodedLength := by
    unfold wrap at h
    split at h
    · assumption
    · contradiction
  have hstep (t t' : Wrapping)
      (ht : t = ⟨.measure f, buffer⟩ ∨ t = ⟨.refused (.tooLarge f.encodedLength), buffer⟩)
      (hnext : step limit t = some t') :
      t' = ⟨.measure f, buffer⟩ ∨ t' = ⟨.refused (.tooLarge f.encodedLength), buffer⟩ := by
    obtain rfl | rfl := ht
    · cases hnext
      exact .inr (by rw [if_pos hlarge])
    · contradiction
  rcases keeps_of_reaches hstep (.inl rfl) ht with rfl | rfl <;> rfl

end Wrapping

/-! ## One call of a codec -/

/-- An answer that takes nothing off a buffer. -/
def Unwrapped.Leaves (item : Unwrapped) : Prop :=
  item = .needMore ∨ ∃ size, item = .failed (.tooLarge size)

/-- What one call of a codec does with its buffer, and what has a part in it. -/
structure Confined (limit : Nat) : Prop where
  /-- Opening a buffer in place ends with the answer of `unwrap`, and with what it leaves. -/
  opens : ∀ buffer, eval (Unwrapping.step limit) ⟨.look, buffer⟩ =
    Part.some ⟨.opened (unwrap limit buffer).1, (unwrap limit buffer).2⟩
  /-- More bytes are asked for exactly as long as the length is not there, or is within the limit
  and its bytes are not there. -/
  waits : ∀ buffer, (unwrap limit buffer).1 = .needMore ↔
    buffer.length < 4 ∨ statedSize buffer ≤ limit ∧ buffer.length < 4 + statedSize buffer
  /-- A length is too large as soon as it is there and above the limit. -/
  tooLarge : ∀ buffer size, (unwrap limit buffer).1 = .failed (.tooLarge size) ↔
    4 ≤ buffer.length ∧ limit < statedSize buffer ∧ size = statedSize buffer
  /-- In both cases the buffer is not changed at any time. -/
  untouched : ∀ buffer, (unwrap limit buffer).1.Leaves →
    ∀ t, Reaches (Unwrapping.step limit) ⟨.look, buffer⟩ t → t.buffer = buffer
  /-- In any other case the length comes off, and as many bytes as it says. -/
  taken : ∀ buffer, ¬ (unwrap limit buffer).1.Leaves →
    4 + statedSize buffer ≤ buffer.length ∧
      (unwrap limit buffer).2 = buffer.drop (4 + statedSize buffer)
  /-- The answer is that of the bytes that come off, with any other bytes behind them or none, and
  these are left. -/
  alone : ∀ buffer, ¬ (unwrap limit buffer).1.Leaves → ∀ rest,
    unwrap limit (buffer.take (4 + statedSize buffer) ++ rest) = ((unwrap limit buffer).1, rest)
  /-- All along the way they are carried along, and make no difference to any step. -/
  carried : ∀ buffer, ¬ (unwrap limit buffer).1.Leaves → ∀ rest t,
    Reaches (Unwrapping.step limit) ⟨.look, buffer.take (4 + statedSize buffer) ++ rest⟩ t ↔
      ∃ t₀, Reaches (Unwrapping.step limit) ⟨.look, buffer.take (4 + statedSize buffer)⟩ t₀ ∧
        t = t₀.behind rest
  /-- While a body is decoded, it and the buffer are what was behind the length, and the decoder
  stays inside the body, whatever the counts and lengths in it say. -/
  inside : ∀ buffer body s left,
    Reaches (Unwrapping.step limit) ⟨.look, buffer⟩ ⟨.read body s, left⟩ →
      body.length = statedSize buffer ∧ body ++ left = buffer.drop 4 ∧ s.position ≤ body.length
  /-- No bytes are taken off that are not there. -/
  intact : ∀ buffer t, Reaches (Unwrapping.step limit) ⟨.look, buffer⟩ t → t.task ≠ .crashed
  /-- Putting a frame into a buffer in place appends what `wrap` gives, or nothing. -/
  puts : ∀ f buffer, eval (Wrapping.step limit) ⟨.measure f, buffer⟩ =
    Part.some (Wrapping.settled buffer (wrap limit f))
  /-- A frame that is refused changes the buffer at no time. -/
  refused : ∀ f buffer e, wrap limit f = .error e →
    ∀ t, Reaches (Wrapping.step limit) ⟨.measure f, buffer⟩ t → t.buffer = buffer
  /-- The bytes that are in the buffer stay there all along the way, and make no difference to any
  step. -/
  appended : ∀ f buffer t, Reaches (Wrapping.step limit) ⟨.measure f, buffer⟩ t ↔
    ∃ t₀, Reaches (Wrapping.step limit) ⟨.measure f, []⟩ t₀ ∧ t = t₀.before buffer

/-- Something comes off a buffer exactly if a whole frame is at its front. -/
theorem not_leaves_iff : ¬ (unwrap limit buffer).1.Leaves ↔ Whole limit buffer := by
  constructor
  · intro h
    rcases front_cases limit buffer with hwaiting | hover | hwhole
    · exact absurd (.inl (needMore_iff.mpr hwaiting)) h
    · exact absurd (.inr ⟨_, tooLarge_iff.mpr ⟨hover, rfl⟩⟩) h
    · exact hwhole
  · intro hwhole
    rw [unwrap_of_whole hwhole]
    rintro (hmore | ⟨size, hlarge⟩)
    · exact classify_ne_needMore _ hmore
    · exact classify_ne_tooLarge _ _ hlarge

theorem buffer_of_leaves {t : Unwrapping} (h : (unwrap limit buffer).1.Leaves)
    (ht : Reaches (Unwrapping.step limit) ⟨.look, buffer⟩ t) : t.buffer = buffer := by
  cases Unwrapping.stage_of_reaches ht with
  | look | weigh | waits | tooLarge => rfl
  | skip hwhole | cut hwhole | read hwhole | opened hwhole =>
    exact absurd h (not_leaves_iff.mpr hwhole)

/-- Bytes that have a whole frame at their front give the same answer without those behind it, and
with others. -/
theorem unwrap_take_append (h : Whole limit buffer) (rest : Bytes) :
    unwrap limit (buffer.take (4 + statedSize buffer) ++ rest) =
      ((unwrap limit buffer).1, rest) := by
  obtain ⟨hwhole, hsize⟩ := h.take
  have hbody : firstBody (buffer.take (4 + statedSize buffer)) = firstBody buffer := by
    rw [← firstBody_append hwhole (buffer.drop (4 + statedSize buffer)), take_append_drop]
  rw [unwrap_of_whole (hwhole.append rest), unwrap_of_whole h, firstBody_append hwhole, hbody,
    statedSize_append hwhole.four_le, hsize, drop_left' (length_take_of_le h.2)]

/-- **A codec keeps to the bytes it has to do with.** Opening a buffer takes one whole frame off its
front or changes nothing, and what is behind the frame has no part in it. Putting a frame into a
buffer appends the frame or changes nothing, and what was there before has no part in it. -/
theorem confined (limit : Nat) : Confined limit where
  opens := Unwrapping.eval_look limit
  waits _ := needMore_iff
  tooLarge _ _ := tooLarge_iff.trans and_assoc
  untouched _ h _ := buffer_of_leaves h
  taken buffer h := by
    have hwhole := not_leaves_iff.mp h
    rw [unwrap_of_whole hwhole]
    exact ⟨hwhole.2, rfl⟩
  alone buffer h := unwrap_take_append (not_leaves_iff.mp h)
  carried buffer h rest t := by
    have hwhole := (not_leaves_iff.mp h).take.1
    exact reaches_map_iff (f := fun t => t.behind rest)
      (fun _ ht => (Unwrapping.stage_of_reaches ht).step_behind hwhole rest) t
  inside buffer body s left h := by
    cases Unwrapping.stage_of_reaches h with
    | read hwhole hs =>
      have hsound := keeps_of_reaches (fun _ _ hs => hs.step) Decoding.Sound.beginFrame hs
      exact ⟨length_firstBody hwhole, firstBody_append_drop buffer, hsound.inside⟩
  intact buffer t h hcrashed := by
    cases Unwrapping.stage_of_reaches h <;> contradiction
  puts := Wrapping.eval_measure limit
  refused _ _ _ h _ := Wrapping.buffer_of_refused h
  appended f buffer t := by
    have hstart : Wrapping.mk (.measure f) buffer = Wrapping.before buffer ⟨.measure f, []⟩ := by
      simp [Wrapping.before]
    rw [hstart]
    exact reaches_map_iff (fun s _ => Wrapping.step_before limit buffer s) t

end Remoting.Envelope
