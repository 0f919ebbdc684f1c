import Remoting.Proofs.Interchange
import Remoting.Proofs.Stepwise

/-!
# Remoting.Proofs.ComputedLength

Lengths that are computed before anything is written. The length of a field list is found by a
recursion of its own, and room for so many bytes is set aside; then the fields are written in place,
one after the other (`FieldWriter`). At any time what has been written and what was computed for the
fields that follow make up the length of the whole, so the room is never too small and is full at
the end (`Field.measured`).

On a stream the length of a frame stands before it in four bytes. It is the right one as long as
four bytes can hold it, which the limit on the size of a frame ensures only if it is below `2 ^ 32`
(`Envelope.announced`). A longer frame that the limit lets through stands after a length that is too
small, and the next frame is looked for in the middle of it.
-/

namespace Remoting

namespace Field

variable {f : Field}

/-! ## Writing in place -/

/-- What is written of a field before the fields inside it. -/
def opening : Field → Bytes
  | .record fs => FieldKind.record.tag :: bigEndian 4 fs.length
  | .sequence fs => FieldKind.sequence.tag :: bigEndian 4 fs.length
  | f => encode f

/-- The fields inside a field. -/
def content : Field → List Field
  | .record fs | .sequence fs => fs
  | _ => []

/-- A field is written as its opening and what it contains. -/
theorem encode_eq (f : Field) : encode f = f.opening ++ encodeEach f.content := by
  cases f <;> simp [opening, content, encode, encodeEach]

theorem opening_ne_nil (f : Field) : f.opening ≠ [] := by
  cases f <;> simp [opening, encode]

theorem encodedLength_eq (f : Field) :
    encodedLength f = f.opening.length + encodedLengths f.content := by
  rw [← length_encode, encode_eq, List.length_append, length_encodeEach]

theorem encodedLengths_append (fs gs : List Field) :
    encodedLengths (fs ++ gs) = encodedLengths fs + encodedLengths gs := by
  rw [← length_encodeEach, encodeEach_append, List.length_append, length_encodeEach,
    length_encodeEach]

end Field

/-- A field list on its way into a buffer: the bytes that are there, and the fields that follow. -/
structure FieldWriter where
  written : Bytes
  todo : List Field
  deriving DecidableEq, Repr

namespace FieldWriter

open Remoting.Field (encodeEach encodeList encodedLengths listLength)

variable {fs : List Field} {w w' : FieldWriter}

/-- The number of fields comes first. -/
def start (fs : List Field) : FieldWriter := ⟨bigEndian 4 fs.length, fs⟩

/-- Write the next field up to the fields inside it, which then come next. -/
def step : FieldWriter → Option FieldWriter
  | ⟨_, []⟩ => none
  | ⟨written, f :: todo⟩ => some ⟨written ++ f.opening, f.content ++ todo⟩

/-- What the bytes and the fields that follow come to. -/
def whole (w : FieldWriter) : Bytes := w.written ++ encodeEach w.todo

/-- How many bytes there will be, as far as it was computed. -/
def wholeLength (w : FieldWriter) : Nat := w.written.length + encodedLengths w.todo

theorem whole_start (fs : List Field) : (start fs).whole = encodeList fs := rfl

theorem wholeLength_start (fs : List Field) : (start fs).wholeLength = listLength fs := by
  rw [wholeLength, start, length_bigEndian, listLength]

theorem step_cases (h : w.step = some w') :
    ∃ f todo, w.todo = f :: todo ∧ w' = ⟨w.written ++ f.opening, f.content ++ todo⟩ := by
  obtain ⟨written, todo⟩ := w
  cases todo with
  | nil => contradiction
  | cons f todo => exact ⟨f, todo, rfl, (Option.some.inj h).symm⟩

/-- A step changes nothing about what will have been written. -/
theorem whole_step (h : w.step = some w') : w'.whole = w.whole := by
  obtain ⟨f, todo, htodo, rfl⟩ := step_cases h
  simp only [whole, htodo, encodeEach, Field.encodeEach_append, Field.encode_eq f,
    List.append_assoc]

/-- Bytes that are written are no longer to come. -/
theorem wholeLength_step (h : w.step = some w') : w'.wholeLength = w.wholeLength := by
  obtain ⟨f, todo, htodo, rfl⟩ := step_cases h
  simp only [wholeLength, htodo, encodedLengths, Field.encodedLengths_append,
    Field.encodedLength_eq f, List.length_append]
  omega

/-- Every step writes something. -/
theorem encodedLengths_todo_lt (h : w.step = some w') :
    encodedLengths w'.todo < encodedLengths w.todo := by
  obtain ⟨f, todo, htodo, rfl⟩ := step_cases h
  have hopening := List.length_pos_iff.mpr f.opening_ne_nil
  simp only [htodo, encodedLengths, Field.encodedLengths_append, Field.encodedLength_eq f]
  omega

theorem todo_of_step_eq_none (h : w.step = none) : w.todo = [] := by
  obtain ⟨written, todo⟩ := w
  cases todo with
  | nil => rfl
  | cons f todo => contradiction

theorem whole_of_reaches (h : StateTransition.Reaches step w w') : w'.whole = w.whole :=
  keeps_of_reaches (P := fun w' => w'.whole = w.whole)
    (fun _ _ hw hnext => (whole_step hnext).trans hw) rfl h

theorem wholeLength_of_reaches (h : StateTransition.Reaches step (start fs) w) :
    w.wholeLength = listLength fs :=
  keeps_of_reaches (P := fun w => w.wholeLength = listLength fs)
    (fun _ _ hw hnext => (wholeLength_step hnext).trans hw) (wholeLength_start fs) h

/-- A writer comes to an end, and then all bytes are there. -/
theorem reaches_whole (w : FieldWriter) : StateTransition.Reaches step w ⟨w.whole, []⟩ := by
  obtain ⟨⟨written, todo⟩, hend⟩ := exists_mem_eval
    (measure fun w : FieldWriter => encodedLengths w.todo).wf
    (fun _ _ hnext => encodedLengths_todo_lt hnext) w
  obtain ⟨hreaches, hnone⟩ := StateTransition.mem_eval.mp hend
  obtain rfl : todo = [] := todo_of_step_eq_none hnone
  have hwhole := whole_of_reaches hreaches
  simp only [whole, encodeEach, List.append_nil] at hwhole
  rwa [hwhole] at hreaches

/-- Writing ends with the bytes of the list. -/
theorem eval_start (fs : List Field) :
    StateTransition.eval step (start fs) = Part.some ⟨encodeList fs, []⟩ :=
  eval_eq_some (reaches_whole (start fs)) rfl

end FieldWriter

namespace Field

/-! ## Lengths in machine words -/

mutual
/-- The number of bytes that a field takes, in a word. -/
def wordLength : Field → UInt64
  | .bool _ => 1 + 1
  | .int _ | .enum _ | .float _ | .object _ => 1 + 8
  | .string s => 1 + (4 + UInt64.ofNat s.utf8ByteSize)
  | .any bs => 1 + (4 + UInt64.ofNat bs.length)
  | .record fs | .sequence fs => 1 + (4 + wordLengths fs)
termination_by structural f => f

/-- The number of bytes that the fields take together, in a word. -/
def wordLengths : List Field → UInt64
  | [] => 0
  | f :: fs => wordLength f + wordLengths fs
termination_by structural fs => fs
end

mutual
theorem wordLength_eq : (f : Field) → wordLength f = UInt64.ofNat (encodedLength f)
  | .bool _ | .int _ | .enum _ | .float _ | .object _ => rfl
  | .string s => by
    simp only [wordLength, encodedLength, UInt64.ofNat_add, ← UInt64.add_assoc]
    rfl
  | .any bs => by
    simp only [wordLength, encodedLength, UInt64.ofNat_add, ← UInt64.add_assoc]
    rfl
  | .record fs | .sequence fs => by
    simp only [wordLength, encodedLength, UInt64.ofNat_add, wordLengths_eq fs]
    rfl

theorem wordLengths_eq : (fs : List Field) → wordLengths fs = UInt64.ofNat (encodedLengths fs)
  | [] => rfl
  | f :: fs => by
    rw [wordLengths, encodedLengths, UInt64.ofNat_add, wordLength_eq f, wordLengths_eq fs]
end

/-- The number of bytes that a field list takes, in a word. -/
def wordListLength (fs : List Field) : UInt64 := 4 + wordLengths fs

/-- A word holds the length, unless it is too large for a word. -/
theorem toNat_wordListLength (fs : List Field) :
    (wordListLength fs).toNat = listLength fs % 2 ^ 64 := by
  have hword : wordListLength fs = UInt64.ofNat (listLength fs) := by
    rw [wordListLength, listLength, UInt64.ofNat_add, wordLengths_eq]
    rfl
  rw [hword, UInt64.toNat_ofNat']

/-- What the length of a field list says that was computed before the list is written. -/
structure Measured (fs : List Field) : Prop where
  /-- There are as many bytes. -/
  exact : (encodeList fs).length = listLength fs
  /-- The writer comes to an end with these bytes. -/
  written : StateTransition.eval FieldWriter.step (.start fs) = Part.some ⟨encodeList fs, []⟩
  /-- All along the way the room that is left is what was computed for the fields that follow, and
  the bytes that are there stay. -/
  room : ∀ w, StateTransition.Reaches FieldWriter.step (.start fs) w →
    w.written.length ≤ listLength fs ∧
      listLength fs - w.written.length = encodedLengths w.todo ∧
      w.written <+: encodeList fs
  /-- A word holds the length if it holds the number of bytes. -/
  word : (encodeList fs).length < 2 ^ 64 → (wordListLength fs).toNat = (encodeList fs).length

/-- **The computed length** of a field list is that of its bytes, whatever it holds and however deep
it is nested. -/
theorem measured (fs : List Field) : Measured fs where
  exact := length_encodeList fs
  written := FieldWriter.eval_start fs
  room w hw := by
    have hlength := FieldWriter.wholeLength_of_reaches hw
    rw [FieldWriter.wholeLength] at hlength
    refine ⟨by omega, by omega, ?_⟩
    rw [← FieldWriter.whole_start, ← FieldWriter.whole_of_reaches hw]
    exact List.prefix_append _ _
  word hsmall := by
    rw [toNat_wordListLength, ← length_encodeList, Nat.mod_eq_of_lt hsmall]

end Field

/-! ## Lengths on a stream -/

namespace Envelope

variable {limit : Nat} {f : Frame} {bs : Bytes}

/-- The length in front says how many bytes follow. -/
def Announces (bs : Bytes) : Prop := ofBigEndian (bs.take 4) = (bs.drop 4).length

theorem take_sized (bs : Bytes) : (Field.sized bs).take 4 = bigEndian 4 bs.length := by
  rw [Field.sized, List.take_left' (length_bigEndian 4 _)]

theorem drop_sized (bs : Bytes) : (Field.sized bs).drop 4 = bs := by
  rw [Field.sized, List.drop_left' (length_bigEndian 4 _)]

/-- Only the lowest four bytes of the length stand in front. -/
theorem ofBigEndian_take_sized (bs : Bytes) :
    ofBigEndian ((Field.sized bs).take 4) = bs.length % 2 ^ 32 := by
  rw [take_sized, ofBigEndian_bigEndian]
  rfl

theorem announces_sized_iff : Announces (Field.sized bs) ↔ bs.length < 2 ^ 32 := by
  rw [Announces, ofBigEndian_take_sized, drop_sized]
  constructor
  · intro h
    have := Nat.mod_lt bs.length (by decide : 0 < 2 ^ 32)
    omega
  · exact Nat.mod_eq_of_lt

/-- What a reader takes off bytes that stand after their length. -/
theorem unwrap_sized (h : bs.length ≤ limit) :
    unwrap limit (Field.sized bs) =
      (classify (bs.take (bs.length % 2 ^ 32)), bs.drop (bs.length % 2 ^ 32)) := by
  have hmod := Nat.mod_le bs.length (2 ^ 32)
  have hlength := Field.length_sized bs
  rw [unwrap, if_neg (by omega), ofBigEndian_take_sized, drop_sized]
  dsimp only
  rw [if_neg (by omega), if_neg (by omega)]

theorem drop_mod_eq_nil_iff : bs.drop (bs.length % 2 ^ 32) = [] ↔ bs.length < 2 ^ 32 := by
  rw [List.drop_eq_nil_iff]
  constructor
  · intro h
    have := Nat.mod_lt bs.length (by decide : 0 < 2 ^ 32)
    omega
  · intro h
    rw [Nat.mod_eq_of_lt h]

/-- A frame of one byte more than four bytes can count. -/
def overlong : Frame := Transfer.padded (2 ^ 32 - 54)

theorem encodedLength_overlong : overlong.encodedLength = 2 ^ 32 := by
  rw [overlong, Transfer.encodedLength_padded]
  omega

/-- A frame whose length takes more than four bytes is wrapped under a large limit. -/
theorem wrap_overlong (h : 2 ^ 32 ≤ limit) :
    wrap limit overlong = .ok (Field.sized overlong.encode) :=
  wrap_eq_ok_iff.mpr ⟨encodedLength_overlong.trans_le h, rfl⟩

/-- What stands before the frames that a limit lets through. -/
structure Announced (limit : Nat) : Prop where
  /-- Four bytes and the bytes of the frame; the four hold what they can of the length. -/
  layout : ∀ f bs, wrap limit f = .ok bs →
    bs.drop 4 = f.encode ∧ bs.length = 4 + f.encodedLength ∧
      ofBigEndian (bs.take 4) = f.encodedLength % 2 ^ 32
  /-- The length in front is right if four bytes can hold it, and only then. -/
  exact : ∀ f bs, wrap limit f = .ok bs → (Announces bs ↔ f.encodedLength < 2 ^ 32)
  /-- Otherwise a reader takes too little off the stream. -/
  inStep : ∀ f bs, wrap limit f = .ok bs →
    ((unwrap limit bs).2 = [] ↔ f.encodedLength < 2 ^ 32)
  /-- A limit keeps all lengths right if it is below `2 ^ 32`, and only then. -/
  limited : (∀ f bs, wrap limit f = .ok bs → Announces bs) ↔ limit < 2 ^ 32

/-- **Frames stand after their length** exactly as long as four bytes can hold it. -/
theorem announced (limit : Nat) : Announced limit where
  layout f bs h := by
    obtain ⟨hlimit, rfl⟩ := wrap_eq_ok_iff.mp h
    rw [drop_sized, Field.length_sized, ofBigEndian_take_sized, Frame.length_encode]
    exact ⟨rfl, rfl, rfl⟩
  exact f bs h := by
    obtain ⟨hlimit, rfl⟩ := wrap_eq_ok_iff.mp h
    rw [announces_sized_iff, Frame.length_encode]
  inStep f bs h := by
    obtain ⟨hlimit, rfl⟩ := wrap_eq_ok_iff.mp h
    rw [unwrap_sized (by rwa [Frame.length_encode]), drop_mod_eq_nil_iff, Frame.length_encode]
  limited := by
    constructor
    · intro h
      by_contra hlimit
      have hlt := announces_sized_iff.mp (h _ _ (wrap_overlong (Nat.not_lt.mp hlimit)))
      rw [Frame.length_encode, encodedLength_overlong] at hlt
      exact Nat.lt_irrefl _ hlt
    · intro hlimit f bs h
      obtain ⟨hsize, rfl⟩ := wrap_eq_ok_iff.mp h
      rw [announces_sized_iff, Frame.length_encode]
      omega

/-- The length in front of a frame of `2 ^ 32` bytes is zero. A reader finds a frame without a
header there, which ends the stream. -/
theorem overlong_announced_empty :
    ∃ bs, wrap (2 ^ 32) overlong = .ok bs ∧ (bs.drop 4).length = 2 ^ 32 ∧
      ofBigEndian (bs.take 4) = 0 ∧ ¬ Announces bs ∧
      unwrap (2 ^ 32) bs = (.failed (.badHeader (.truncated .count 4 0)), overlong.encode) := by
  have hlength : overlong.encode.length = 2 ^ 32 := by
    rw [Frame.length_encode, encodedLength_overlong]
  refine ⟨_, wrap_overlong (Nat.le_refl _), ?_, ?_, ?_, ?_⟩
  · rw [drop_sized, hlength]
  · rw [ofBigEndian_take_sized, hlength]
    rfl
  · rw [announces_sized_iff, hlength]
    exact Nat.lt_irrefl _
  · rw [unwrap_sized hlength.le, hlength, Nat.mod_self, List.take_zero, List.drop_zero]
    rfl

end Envelope

end Remoting
