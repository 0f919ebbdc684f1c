import Remoting.Proofs.FrameCodec
import Remoting.Proofs.Stepwise

/-!
# Remoting.Proofs.DecodeStack

Decoding step by step, at a position in the bytes and with a stack of the lists that are being read.
Here nothing protects a read but the test in front of it: bytes that are not there, and differences
below zero, are mishaps (`Mishap`), and a list inside a record or a sequence is read on top of the
one around it, however deep that is.

The tests suffice. An attempt to read does what the decoder of the same part does with the bytes
from the position on, and has no mishap (`Tracks`). So no step has one, the position stays inside
the bytes, and the stack has at most `Field.maxNesting` lists on top of the outermost one
(`Decoding.Sound`). Every run ends, with the answer of `Field.decodeList` or
`Frame.decodeHeaderFirst` (`Decoding.guarded`).
-/

namespace Remoting

open StateTransition (eval Reaches)
open Remoting.Field (maxNesting decodeField decodeMany decodeWith decodeLevel decodeCount)
open Header (fieldCount)

/-! ## Attempts -/

/-- What goes wrong where nothing is tested. -/
inductive Mishap where
  /-- Bytes are read that are not there. -/
  | overrun
  /-- A number is subtracted from a smaller one. -/
  | underflow
  deriving DecidableEq, Repr

/-- Why a decoder stops on its way. -/
inductive Halt where
  | refused (error : FramingError)
  | crashed (mishap : Mishap)
  deriving DecidableEq, Repr

/-- Something that a decoder attempts. -/
abbrev Attempt := Except Halt

namespace Attempt

/-- The difference of two numbers of which the first must be the larger one. -/
def minus (a b : Nat) : Attempt Nat := if b ≤ a then .ok (a - b) else .error (.crashed .underflow)

/-- How many bytes are left. -/
def remaining (data : Bytes) (position : Nat) : Attempt Nat := minus data.length position

/-- The next `n` bytes, which must be there, and the position behind them. -/
def advance (data : Bytes) (n position : Nat) : Attempt (Bytes × Nat) :=
  if position + n ≤ data.length then .ok ((data.drop position).take n, position + n)
  else .error (.crashed .overrun)

/-- Refuse bytes of which fewer than `n` are left. -/
def need (data : Bytes) (piece : Piece) (n position : Nat) : Attempt Unit := do
  let present ← remaining data position
  if present < n then .error (.refused (.truncated piece n present)) else .ok ()

/-- The number in the next `width` bytes, after a test that they are there. -/
def word (data : Bytes) (piece : Piece) (width position : Nat) : Attempt (Nat × Nat) := do
  need data piece width position
  let (w, position) ← advance data width position
  return (ofBigEndian w, position)

/-- Bytes after their length, after a test that they are there. -/
def sized (data : Bytes) (piece : Piece) (position : Nat) : Attempt (Bytes × Nat) := do
  let (n, position) ← word data piece 4 position
  need data piece n position
  advance data n position

/-- The number of fields of a list, after a test that they can be there. -/
def count (data : Bytes) (position : Nat) : Attempt (Nat × Nat) := do
  let (n, position) ← word data .count 4 position
  let present ← remaining data position
  if present / 2 < n then .error (.refused (.countExceedsSize n)) else .ok (n, position)

end Attempt

/-- The fields that hold a list. -/
inductive Shell where
  | record
  | sequence
  deriving DecidableEq, Repr

/-- The field that holds the given list. -/
def Shell.field : Shell → List Field → Field
  | .record => .record
  | .sequence => .sequence

/-- What stands behind the tag of a kind: what makes up a field, or a list that is to be read. -/
def Attempt.body (data : Bytes) : FieldKind → (position : Nat) → Attempt ((Field ⊕ Shell) × Nat)
  | .bool => fun p => do
    let (b, p) ← word data (.payload .bool) 1 p
    match b with
    | 0 => return (.inl (.bool false), p)
    | 1 => return (.inl (.bool true), p)
    | other => .error (.refused (.invalidBool (UInt8.ofNat other)))
  | .int => fun p => do
    let (w, p) ← word data (.payload .int) 8 p
    return (.inl (.int (UInt64.ofNat w).toInt64), p)
  | .enum => fun p => do
    let (w, p) ← word data (.payload .enum) 8 p
    return (.inl (.enum (UInt64.ofNat w).toInt64), p)
  | .float => fun p => do
    let (w, p) ← word data (.payload .float) 8 p
    return (.inl (.float (UInt64.ofNat w)), p)
  | .string => fun p => do
    let (text, p) ← sized data (.payload .string) p
    match ofUtf8? text with
    | some s => return (.inl (.string s), p)
    | none => .error (.refused .invalidUtf8)
  | .record => fun p => return (.inr .record, p)
  | .sequence => fun p => return (.inr .sequence, p)
  | .object => fun p => do
    let (w, p) ← word data (.payload .object) 8 p
    return (.inl (.object ⟨UInt64.ofNat w⟩), p)
  | .any => fun p => do
    let (bytes, p) ← sized data (.payload .any) p
    return (.inl (.any bytes), p)

/-! ## Steps -/

/-- What a list is read for. -/
inductive ListRole where
  /-- It is all that is read. -/
  | whole
  /-- It is held by a field of the list around it. -/
  | inside (shell : Shell)
  /-- It is the header of a frame with the given number of fields. -/
  | head (count : Nat)
  /-- It is the payload of a frame with the given fields in its header. -/
  | payload (head : List Field)
  deriving DecidableEq, Repr

/-- A list that is being read. -/
structure Level where
  role : ListRole
  /-- How many fields are still to be read. -/
  wanted : Nat
  /-- The fields that have been read. -/
  fields : List Field
  deriving DecidableEq, Repr

/-- The level with one field more. -/
def Level.push (level : Level) (f : Field) : Level := { level with fields := level.fields ++ [f] }

/-- What a decoder does next. -/
inductive DecodeTask where
  /-- Begin with a list. -/
  | enter (role : ListRole)
  /-- Begin with a frame. -/
  | split
  /-- Go on with the list at hand. -/
  | proceed
  /-- Nothing, all is read. -/
  | complete (level : Level)
  /-- Nothing any more. -/
  | halt (halt : Halt)
  deriving DecidableEq, Repr

/-- Decoding on its way. -/
structure Decoding where
  task : DecodeTask
  position : Nat
  /-- The stack of the lists that are being read, the innermost one first. -/
  levels : List Level
  deriving DecidableEq, Repr

namespace Decoding

/-- Begin with a list. The stack is as high as the list is deep. -/
def enter (data : Bytes) (role : ListRole) (position : Nat) (levels : List Level) :
    Attempt Decoding :=
  if Field.maxNesting < levels.length then .error (.refused .tooDeep)
  else do
    let (n, position) ← Attempt.count data position
    return ⟨.proceed, position, ⟨role, n, []⟩ :: levels⟩

/-- Begin with a frame, whose header is read like a list of its own. -/
def split (data : Bytes) (position : Nat) : Attempt Decoding := do
  let (n, position) ← Attempt.count data position
  if n < Header.fieldCount then .error (.refused (.tooFewFields n Header.fieldCount))
  else return ⟨.proceed, position, [⟨.head n, Header.fieldCount, []⟩]⟩

/-- Read a field of the list at hand, up to the list inside it if it holds one. -/
def field (data : Bytes) (position : Nat) (level : Level) (levels : List Level) :
    Attempt Decoding := do
  let (tag, position) ← Attempt.word data .tag 1 position
  match FieldKind.ofTag? (UInt8.ofNat tag) with
  | none => .error (.refused (.unknownTag (UInt8.ofNat tag)))
  | some kind =>
    match ← Attempt.body data kind position with
    | (.inl f, position) => return ⟨.proceed, position, level.push f :: levels⟩
    | (.inr shell, position) => return ⟨.enter (.inside shell), position, level :: levels⟩

/-- Take a list off the stack whose fields are all read. -/
def leave (data : Bytes) (position : Nat) (level : Level) (levels : List Level) :
    Attempt Decoding :=
  match level.role, levels with
  | .inside shell, around :: levels =>
    .ok ⟨.proceed, position, around.push (shell.field level.fields) :: levels⟩
  | .head n, levels => do
    let n ← Attempt.minus n Header.fieldCount
    return ⟨.proceed, position, ⟨.payload level.fields, n, []⟩ :: levels⟩
  | _, levels => do
    let present ← Attempt.remaining data position
    if present = 0 then return ⟨.complete level, position, levels⟩
    else .error (.refused (.trailing present))

/-- What comes of an attempt. A decoder that stops keeps its position and its stack. -/
def settle (s : Decoding) : Attempt Decoding → Decoding
  | .ok s' => s'
  | .error halt => { s with task := .halt halt }

/-- One step. -/
def step (data : Bytes) : Decoding → Option Decoding
  | ⟨.enter role, p, levels⟩ => some (settle ⟨.enter role, p, levels⟩ (enter data role p levels))
  | ⟨.split, p, levels⟩ => some (settle ⟨.split, p, levels⟩ (split data p))
  | ⟨.proceed, p, ⟨role, 0, fields⟩ :: levels⟩ =>
    some (settle ⟨.proceed, p, ⟨role, 0, fields⟩ :: levels⟩
      (leave data p ⟨role, 0, fields⟩ levels))
  | ⟨.proceed, p, ⟨role, n + 1, fields⟩ :: levels⟩ =>
    some (settle ⟨.proceed, p, ⟨role, n + 1, fields⟩ :: levels⟩
      (field data p ⟨role, n, fields⟩ levels))
  | _ => none

/-- Decoding a field list from the beginning. -/
def beginList : Decoding := ⟨.enter .whole, 0, []⟩

/-- Decoding a frame from the beginning. -/
def beginFrame : Decoding := ⟨.split, 0, []⟩

/-- What a decoder of field lists answers in the end. -/
def listAnswer? (s : Decoding) : Option (Except FramingError (List Field)) :=
  match s.task with
  | .complete level => some (.ok level.fields)
  | .halt (.refused e) => some (.error e)
  | _ => none

/-- The frame with a header that is to be read from the given fields, and with the given payload or
damage to it. -/
def frameOf (head : List Field) (payload : Except FramingError (List Field)) :
    Except FrameError Frame :=
  match Header.read.ofFields head, payload with
  | .error e, _ => .error (.header e)
  | .ok header, .ok fields => .ok ⟨header, fields⟩
  | .ok header, .error e => .error (.payload ⟨header, e⟩)

/-- The roles of the lists that are being read. -/
def roles (s : Decoding) : List ListRole := s.levels.map (·.role)

/-- A refusal is that of the payload or that of the header, whichever is at the bottom of the
stack. -/
def blame (outermost : Option ListRole) (e : FramingError) : Except FrameError Frame :=
  match outermost with
  | some (.payload head) => frameOf head (.error e)
  | _ => .error (.header e)

/-- What a decoder of frames answers in the end. -/
def frameAnswer? (s : Decoding) : Option (Except FrameError Frame) :=
  match s.task with
  | .complete ⟨.payload head, _, fields⟩ => some (frameOf head (.ok fields))
  | .halt (.refused e) => some (blame s.roles.getLast? e)
  | _ => none

end Decoding

/-! ## The tests suffice -/

/-- An attempt comes to what a decoder answers: the same value, at the position where what is left
begins, or the same refusal. It has no mishap. -/
inductive Tracks (data : Bytes) : Attempt (α × Nat) → Except FramingError (α × Bytes) → Prop
  | ok (a : α) {p : Nat} (hp : p ≤ data.length) : Tracks data (.ok (a, p)) (.ok (a, data.drop p))
  | refused (e : FramingError) : Tracks data (.error (.refused e)) (.error e)

namespace Tracks

variable {data : Bytes} {x : Attempt (α × Nat)} {y : Except FramingError (α × Bytes)}

/-- Two attempts in a row track two decoders in a row. -/
theorem bind {f : α × Nat → Attempt (β × Nat)} {g : α × Bytes → Except FramingError (β × Bytes)}
    (h : Tracks data x y)
    (hfg : ∀ a p, p ≤ data.length → Tracks data (f (a, p)) (g (a, data.drop p))) :
    Tracks data (x >>= f) (y >>= g) := by
  cases h with
  | ok a hp => exact hfg a _ hp
  | refused e => exact .refused e

/-- The same, where what was decoded is wrapped up. -/
theorem bind_map {f : α × Nat → Attempt (γ × Nat)}
    {g : α × Bytes → Except FramingError (β × Bytes)} {make : β × Bytes → γ × Bytes}
    (h : Tracks data x y)
    (hfg : ∀ a p, p ≤ data.length → Tracks data (f (a, p)) ((g (a, data.drop p)).map make)) :
    Tracks data (x >>= f) ((y >>= g).map make) := by
  cases h with
  | ok a hp => exact hfg a _ hp
  | refused e => exact .refused e

end Tracks

namespace Attempt

variable {data : Bytes} {position : Nat}

/-- Within the data, what remains can be counted. -/
theorem remaining_eq (hp : position ≤ data.length) :
    remaining data position = .ok (data.drop position).length := by
  rw [remaining, minus, if_pos hp, List.length_drop]

/-- A read after a test is what the decoders do. -/
theorem tracks_take (piece : Piece) (n : Nat) (hp : position ≤ data.length) :
    Tracks data (do need data piece n position; advance data n position)
      (Field.takeBytes piece n (data.drop position)) := by
  simp only [need, remaining_eq hp, bind, Except.bind, Field.takeBytes]
  by_cases hpresent : (data.drop position).length < n
  · simp only [if_pos hpresent]
    exact .refused _
  · have hinside : position + n ≤ data.length := by
      rw [List.length_drop] at hpresent
      omega
    simp only [if_neg hpresent, advance, if_pos hinside, List.drop_drop]
    exact .ok _ hinside

/-- Words are read as decoders read them. -/
theorem tracks_word (piece : Piece) (width : Nat) (hp : position ≤ data.length) :
    Tracks data (word data piece width position)
      (Field.takeWord piece width (data.drop position)) := by
  have hword : word data piece width position =
      (do need data piece width position; advance data width position) >>=
        fun x => .ok (ofBigEndian x.1, x.2) := by
    rw [bind_assoc]
    rfl
  rw [hword]
  exact (tracks_take piece width hp).bind fun w p hp => .ok _ hp

/-- So are sized bytes. -/
theorem tracks_sized (piece : Piece) (hp : position ≤ data.length) :
    Tracks data (sized data piece position) (Field.takeSized piece (data.drop position)) :=
  (tracks_word piece 4 hp).bind fun n _ hp => tracks_take piece n hp

/-- So are the counts of lists. -/
theorem tracks_count (hp : position ≤ data.length) :
    Tracks data (count data position) (decodeCount (data.drop position)) := by
  refine (tracks_word .count 4 hp).bind fun n p hp => ?_
  simp only [remaining_eq hp, bind, Except.bind]
  split
  · exact .refused _
  · exact .ok n hp

/-- A field that holds a list begins with that list. Any other field is read in one go. -/
theorem body_cases (kind : FieldKind) (hp : position ≤ data.length) :
    (∃ shell, body data kind position = .ok (.inr shell, position) ∧
      ∀ nested bs, Field.decodeBody nested kind bs =
        (nested bs).map fun x => (Shell.field shell x.1, x.2)) ∨
    ∃ y, (∀ nested, Field.decodeBody nested kind (data.drop position) = y) ∧
      Tracks data (body data kind position) (y.map fun x => (.inl x.1, x.2)) := by
  cases kind with
  | record =>
    refine .inl ⟨.record, rfl, fun nested bs => ?_⟩
    simp only [Field.decodeBody]
    cases nested bs <;> rfl
  | sequence =>
    refine .inl ⟨.sequence, rfl, fun nested bs => ?_⟩
    simp only [Field.decodeBody]
    cases nested bs <;> rfl
  | bool =>
    refine .inr ⟨_, fun _ => rfl, (tracks_word _ 1 hp).bind_map fun b p hp => ?_⟩
    rcases b with _ | _ | n
    · exact .ok _ hp
    · exact .ok _ hp
    · exact .refused _
  | string =>
    refine .inr ⟨_, fun _ => rfl, (tracks_sized _ hp).bind_map fun text p hp => ?_⟩
    dsimp only
    cases ofUtf8? text with
    | none => exact .refused _
    | some s => exact .ok _ hp
  | any => exact .inr ⟨_, fun _ => rfl, (tracks_sized _ hp).bind_map fun _ _ hp => .ok _ hp⟩
  | int | enum | float | object =>
    exact .inr ⟨_, fun _ => rfl, (tracks_word _ 8 hp).bind_map fun _ _ hp => .ok _ hp⟩

end Attempt

/-! ## What a step can do -/

namespace Decoding

variable {data : Bytes} {p : Nat} {role : ListRole} {level : Level} {levels : List Level}
  {s s' : Decoding}

/-- A list is refused for its depth, or its number of fields is read. -/
theorem enter_cases (role : ListRole) (levels : List Level) (hp : p ≤ data.length) :
    (maxNesting < levels.length ∧
      enter data role p levels = .error (.refused .tooDeep)) ∨
    (levels.length ≤ maxNesting ∧
      ((∃ e, enter data role p levels = .error (.refused e) ∧
        decodeCount (data.drop p) = .error e) ∨
      ∃ n p', p' ≤ data.length ∧
        enter data role p levels = .ok ⟨.proceed, p', ⟨role, n, []⟩ :: levels⟩ ∧
        decodeCount (data.drop p) = .ok (n, data.drop p'))) := by
  by_cases hdeep : maxNesting < levels.length
  · exact .inl ⟨hdeep, if_pos hdeep⟩
  · refine .inr ⟨Nat.le_of_not_lt hdeep, ?_⟩
    rw [enter, if_neg hdeep]
    have hcount := Attempt.tracks_count hp
    generalize Attempt.count data p = x, decodeCount (data.drop p) = y at hcount ⊢
    cases hcount with
    | refused e => exact .inl ⟨e, rfl, rfl⟩
    | ok n hp' => exact .inr ⟨n, _, hp', rfl, rfl⟩

/-- A frame is refused, or its header can be read, which has no more fields than the frame. -/
theorem split_cases (hp : p ≤ data.length) :
    (∃ e, split data p = .error (.refused e) ∧ Frame.decodeHead (data.drop p) = .error e) ∨
    ∃ n p', p' ≤ data.length ∧ fieldCount ≤ n ∧
      split data p = .ok ⟨.proceed, p', [⟨.head n, fieldCount, []⟩]⟩ ∧
      Frame.decodeHead (data.drop p) =
        (decodeMany (decodeField maxNesting) fieldCount
          (data.drop p')).map fun x => (x.1, n - fieldCount, x.2) := by
  have hcount := Attempt.tracks_count hp
  simp only [split, Frame.decodeHead]
  generalize Attempt.count data p = x, decodeCount (data.drop p) = y at hcount ⊢
  cases hcount with
  | refused e => exact .inl ⟨e, rfl, rfl⟩
  | @ok n p' hp' =>
    simp only [bind, Except.bind]
    by_cases hfew : n < fieldCount
    · exact .inl ⟨_, if_pos hfew, if_pos hfew⟩
    · refine .inr ⟨n, p', hp', Nat.le_of_not_lt hfew, if_neg hfew, ?_⟩
      rw [if_neg hfew]
      cases decodeMany (decodeField maxNesting) fieldCount
        (data.drop p') <;> rfl

/-- A field is refused, it is read, or it is read up to a list inside it. -/
theorem field_cases (level : Level) (levels : List Level) (hp : p ≤ data.length) :
    (∃ e, field data p level levels = .error (.refused e) ∧
      ∀ nested, decodeWith nested (data.drop p) = .error e) ∨
    (∃ f p', p' ≤ data.length ∧
      field data p level levels = .ok ⟨.proceed, p', level.push f :: levels⟩ ∧
      ∀ nested, decodeWith nested (data.drop p) = .ok (f, data.drop p')) ∨
    ∃ shell p', p' ≤ data.length ∧
      field data p level levels = .ok ⟨.enter (.inside shell), p', level :: levels⟩ ∧
      ∀ nested, decodeWith nested (data.drop p) =
        (nested (data.drop p')).map fun x => (shell.field x.1, x.2) := by
  have htag := Attempt.tracks_word .tag 1 hp
  simp only [field, decodeWith]
  generalize Attempt.word data .tag 1 p = x, Field.takeWord .tag 1 (data.drop p) = y at htag ⊢
  cases htag with
  | refused e => exact .inl ⟨e, rfl, fun _ => rfl⟩
  | @ok tag p' hp' =>
    simp only [bind, Except.bind]
    cases FieldKind.ofTag? (UInt8.ofNat tag) with
    | none => exact .inl ⟨_, rfl, fun _ => rfl⟩
    | some kind =>
      rcases Attempt.body_cases kind hp' with ⟨shell, hbody, hnested⟩ | ⟨y, hdecode, hbody⟩
      · refine .inr (.inr ⟨shell, p', hp', ?_, fun nested => hnested nested _⟩)
        simp only [hbody]
        rfl
      · simp only [hdecode]
        generalize Attempt.body data kind p' = x at hbody ⊢
        cases y with
        | error e =>
          cases hbody
          exact .inl ⟨e, rfl, fun _ => rfl⟩
        | ok y =>
          obtain ⟨f, rest⟩ := y
          cases hbody with
          | ok _ hp'' => exact .inr (.inl ⟨f, _, hp'', rfl, fun _ => rfl⟩)

/-- Behind the header comes the payload. -/
theorem leave_head {n wanted : Nat} {fields : List Field} (hn : fieldCount ≤ n) :
    leave data p ⟨.head n, wanted, fields⟩ levels =
      .ok ⟨.proceed, p, ⟨.payload fields, n - fieldCount, []⟩ :: levels⟩ := by
  simp [leave, Attempt.minus, hn, bind, Except.bind, pure, Except.pure]

/-- A list that is not followed by another one is complete when no bytes are left. -/
theorem leave_last (level : Level) (levels : List Level)
    (hinside : ∀ shell, level.role = .inside shell → levels = [])
    (hhead : ∀ n, level.role ≠ .head n) (hp : p ≤ data.length) :
    (∃ e, Field.noneLeft (data.drop p) = .error e ∧
      leave data p level levels = .error (.refused e)) ∨
    (Field.noneLeft (data.drop p) = .ok () ∧
      leave data p level levels = .ok ⟨.complete level, p, levels⟩) := by
  have hleave : leave data p level levels =
      (do
        let present ← Attempt.remaining data p
        if present = 0 then return ⟨.complete level, p, levels⟩
        else .error (.refused (.trailing present))) := by
    unfold leave
    split
    · next shell around rest hrole => exact absurd (hinside shell hrole) (by simp)
    · next n hrole => exact absurd hrole (hhead n)
    · rfl
  rw [hleave, Attempt.remaining_eq hp]
  cases data.drop p with
  | nil => exact .inr ⟨rfl, rfl⟩
  | cons b bs => exact .inl ⟨_, rfl, rfl⟩

/-! ## The stack on the way -/

/-- What is true at any time: the position is inside the bytes, the stack is no higher than a list
may be deep, a header has no more fields than its frame, and there was no mishap. -/
structure Sound (data : Bytes) (s : Decoding) : Prop where
  inside : s.position ≤ data.length
  shallow : s.levels.length ≤ Field.maxNesting + 1
  heads : ∀ level ∈ s.levels, ∀ n, level.role = .head n → Header.fieldCount ≤ n
  entering : ∀ role, s.task = .enter role → ∀ n, role ≠ .head n
  intact : ∀ mishap, s.task ≠ .halt (.crashed mishap)

/-- A refusal keeps the state sound. -/
theorem Sound.refuse (h : Sound data s) (e : FramingError) :
    Sound data (s.settle (.error (.refused e))) :=
  ⟨h.inside, h.shallow, h.heads, by simp [settle], by simp [settle]⟩

/-- Decoding a list begins soundly. -/
theorem Sound.beginList : Sound data beginList :=
  ⟨Nat.zero_le _, Nat.zero_le _, by simp [Decoding.beginList], by simp [Decoding.beginList],
    by simp [Decoding.beginList]⟩

/-- So does decoding a frame. -/
theorem Sound.beginFrame : Sound data beginFrame :=
  ⟨Nat.zero_le _, Nat.zero_le _, by simp [Decoding.beginFrame], by simp [Decoding.beginFrame],
    by simp [Decoding.beginFrame]⟩

theorem Sound.proceed (hp : p ≤ data.length) (hshallow : levels.length ≤ maxNesting + 1)
    (hheads : ∀ level ∈ levels, ∀ n, level.role = .head n → fieldCount ≤ n) :
    Sound data ⟨.proceed, p, levels⟩ :=
  ⟨hp, hshallow, hheads, by simp, by simp⟩

/-- Entering a list keeps the state sound. -/
theorem Sound.enter (h : Sound data ⟨.enter role, p, levels⟩) :
    Sound data (settle ⟨.enter role, p, levels⟩ (enter data role p levels)) := by
  rcases enter_cases role levels h.inside with
    ⟨-, henter⟩ | ⟨hdepth, ⟨e, henter, -⟩ | ⟨n, p', hp', henter, -⟩⟩
  · rw [henter]
    exact h.refuse _
  · rw [henter]
    exact h.refuse e
  · rw [henter]
    refine .proceed hp' (Nat.succ_le_succ hdepth) (List.forall_mem_cons.mpr ⟨?_, h.heads⟩)
    exact fun n hn => absurd hn (h.entering role rfl n)

/-- So does reading the count of a frame. -/
theorem Sound.split (h : Sound data ⟨.split, p, levels⟩) :
    Sound data (settle ⟨.split, p, levels⟩ (split data p)) := by
  rcases split_cases h.inside with ⟨e, hsplit, -⟩ | ⟨n, p', hp', hn, hsplit, -⟩
  · rw [hsplit]
    exact h.refuse e
  · rw [hsplit]
    refine .proceed hp' (Nat.le_add_left 1 maxNesting) (List.forall_mem_singleton.mpr ?_)
    intro n' hn'
    obtain rfl := ListRole.head.inj hn'
    exact hn

/-- So does reading a field. -/
theorem Sound.field {n : Nat} {fields : List Field}
    (h : Sound data ⟨.proceed, p, ⟨role, n + 1, fields⟩ :: levels⟩) :
    Sound data (settle ⟨.proceed, p, ⟨role, n + 1, fields⟩ :: levels⟩
      (field data p ⟨role, n, fields⟩ levels)) := by
  have hheads := List.forall_mem_cons.mp h.heads
  rcases field_cases ⟨role, n, fields⟩ levels h.inside with
    ⟨e, hfield, -⟩ | ⟨f, p', hp', hfield, -⟩ | ⟨shell, p', hp', hfield, -⟩
  · rw [hfield]
    exact h.refuse e
  · rw [hfield]
    exact .proceed hp' h.shallow (List.forall_mem_cons.mpr hheads)
  · rw [hfield]
    exact ⟨hp', h.shallow, List.forall_mem_cons.mpr hheads, by simp [settle], by simp [settle]⟩

/-- So does leaving a list. -/
theorem Sound.leave (h : Sound data ⟨.proceed, p, level :: levels⟩) :
    Sound data (settle ⟨.proceed, p, level :: levels⟩ (leave data p level levels)) := by
  obtain ⟨hhead, hheads⟩ := List.forall_mem_cons.mp h.heads
  have hshallow : levels.length + 1 ≤ maxNesting + 1 := h.shallow
  have hlast (hinside : ∀ shell, level.role = .inside shell → levels = [])
      (hhead : ∀ n, level.role ≠ .head n) :
      Sound data (settle ⟨.proceed, p, level :: levels⟩ (Decoding.leave data p level levels)) := by
    rcases leave_last level levels hinside hhead h.inside with ⟨e, -, hleave⟩ | ⟨-, hleave⟩
    · rw [hleave]
      exact h.refuse e
    · rw [hleave]
      exact ⟨h.inside, Nat.le_of_succ_le hshallow, hheads, by simp [settle], by simp [settle]⟩
  obtain ⟨role, wanted, fields⟩ := level
  cases role with
  | head n =>
    rw [leave_head (hhead n rfl)]
    exact .proceed h.inside hshallow (List.forall_mem_cons.mpr ⟨by simp, hheads⟩)
  | inside shell =>
    cases levels with
    | nil => exact hlast (fun _ _ => rfl) (by simp)
    | cons around rest =>
      exact .proceed h.inside (Nat.le_of_succ_le hshallow)
        (List.forall_mem_cons.mpr (List.forall_mem_cons.mp hheads))
  | whole | payload => exact hlast (by simp) (by simp)

/-- Every step keeps the state sound. -/
theorem Sound.step (h : Sound data s) (hs' : step data s = some s') : Sound data s' := by
  unfold Decoding.step at hs'
  split at hs'
  · cases hs'
    exact h.enter
  · cases hs'
    exact h.split
  · cases hs'
    exact h.leave
  · cases hs'
    exact h.field
  · contradiction

/-! ## Runs -/

theorem reaches_settle {x y : Attempt Decoding} (hs : step data s = some (s.settle x))
    (hx : x = y) : Reaches (step data) s (s.settle y) :=
  .single (by rw [hs, hx]; rfl)

/-- A run comes to what a decoder answers: a state with the value, at the position where what is
left begins, or the same refusal, with the stack that there was below whatever else is on it. -/
inductive Comes (data : Bytes) (s : Decoding) (next : α → Nat → Decoding) :
    Except FramingError (α × Bytes) → Prop
  | ok {a : α} {p : Nat} (hp : p ≤ data.length) (h : Reaches (step data) s (next a p)) :
      Comes data s next (.ok (a, data.drop p))
  | refused {e : FramingError} {s' : Decoding} (h : Reaches (step data) s s')
      (htask : s'.task = .halt (.refused e)) (hroles : s.roles <:+ s'.roles) :
      Comes data s next (.error e)

namespace Comes

variable {next : α → Nat → Decoding} {next' : β → Nat → Decoding}
  {x : Except FramingError (α × Bytes)}

/-- A state comes to what a later one comes to. -/
theorem of_reaches (h : Reaches (step data) s s') (hroles : s.roles <:+ s'.roles)
    (hs' : Comes data s' next x) : Comes data s next x := by
  cases hs' with
  | ok hp h' => exact .ok hp (h.trans h')
  | refused h' htask hroles' => exact .refused (h.trans h') htask (hroles.trans hroles')

/-- What two decoders in a row come to. -/
theorem bind {f : α × Bytes → Except FramingError (β × Bytes)} (h : Comes data s next x)
    (hroles : ∀ a p, s.roles <:+ (next a p).roles)
    (hf : ∀ a p, p ≤ data.length → Comes data (next a p) next' (f (a, data.drop p))) :
    Comes data s next' (x >>= f) := by
  cases h with
  | @ok a p hp h => exact of_reaches h (hroles a p) (hf a p hp)
  | refused h htask hroles' => exact .refused h htask hroles'

end Comes

/-- A decoder tells what becomes of a list when one more of its fields is read. -/
def ReadsOne (data : Bytes) (role : ListRole) (levels : List Level)
    (field : Field.Decoder Field) : Prop :=
  ∀ n fields p, p ≤ data.length →
    Comes data ⟨.proceed, p, ⟨role, n + 1, fields⟩ :: levels⟩
      (fun f p => ⟨.proceed, p, ⟨role, n, fields ++ [f]⟩ :: levels⟩) (field (data.drop p))

/-- The fields of a list are read one after the other, when each of them can be. -/
theorem comes_fields {field : Field.Decoder Field} (hfield : ReadsOne data role levels field)
    (n : Nat) (fields : List Field) (hp : p ≤ data.length) :
    Comes data ⟨.proceed, p, ⟨role, n, fields⟩ :: levels⟩
      (fun fs p => ⟨.proceed, p, ⟨role, 0, fields ++ fs⟩ :: levels⟩)
      (decodeMany field n (data.drop p)) := by
  induction n generalizing fields p with
  | zero =>
    refine .ok hp ?_
    rw [List.append_nil]
    exact .refl
  | succ n ih =>
    refine (hfield n fields p hp).bind (fun _ _ => List.suffix_rfl) fun f p hp => ?_
    refine (ih (fields ++ [f]) hp).bind (fun _ _ => List.suffix_rfl) fun fs p hp => ?_
    refine .ok hp ?_
    rw [List.append_assoc, List.singleton_append]
    exact .refl

/-- A list that is not too deep is read, when each of its fields can be. -/
theorem comes_list {field : Field.Decoder Field} (hdepth : levels.length ≤ maxNesting)
    (hfield : ReadsOne data role levels field) (hp : p ≤ data.length) :
    Comes data ⟨.enter role, p, levels⟩
      (fun fs p => ⟨.proceed, p, ⟨role, 0, fs⟩ :: levels⟩)
      (decodeLevel field (data.drop p)) := by
  rcases enter_cases role levels hp with
    ⟨hdeep, -⟩ | ⟨-, ⟨e, henter, hcount⟩ | ⟨n, p', hp', henter, hcount⟩⟩
  · omega
  · rw [decodeLevel, hcount]
    exact .refused (reaches_settle rfl henter) rfl List.suffix_rfl
  · rw [decodeLevel, hcount]
    refine .of_reaches (reaches_settle rfl henter) (List.suffix_cons role _) ?_
    exact comes_fields hfield n [] hp'

/-- A field is read, when the list inside it can be. -/
theorem comes_with {nested : Field.Decoder (List Field)} {n : Nat} {fields : List Field}
    (hnested : ∀ shell p, p ≤ data.length →
      Comes data ⟨.enter (.inside shell), p, ⟨role, n, fields⟩ :: levels⟩
        (fun fs p => ⟨.proceed, p, ⟨.inside shell, 0, fs⟩ :: ⟨role, n, fields⟩ :: levels⟩)
        (nested (data.drop p)))
    (hp : p ≤ data.length) :
    Comes data ⟨.proceed, p, ⟨role, n + 1, fields⟩ :: levels⟩
      (fun f p => ⟨.proceed, p, ⟨role, n, fields ++ [f]⟩ :: levels⟩)
      (decodeWith nested (data.drop p)) := by
  rcases field_cases ⟨role, n, fields⟩ levels hp with
    ⟨e, hfield, hdecode⟩ | ⟨f, p', hp', hfield, hdecode⟩ | ⟨shell, p', hp', hfield, hdecode⟩
  · rw [hdecode]
    exact .refused (reaches_settle rfl hfield) rfl List.suffix_rfl
  · rw [hdecode]
    exact .ok hp' (reaches_settle rfl hfield)
  · rw [hdecode]
    refine .of_reaches (reaches_settle rfl hfield) List.suffix_rfl ?_
    have hlist := hnested shell p' hp'
    generalize nested (data.drop p') = y at hlist ⊢
    cases hlist with
    | refused h htask hroles => exact .refused h htask hroles
    | ok hp h => exact .ok hp (h.tail rfl)

/-- A field is read with as many levels of lists inside it as the stack leaves. -/
theorem comes_field {levels : List Level} {role : ListRole} {k : Nat}
    (hdepth : levels.length + k = maxNesting) : ReadsOne data role levels (decodeField k) := by
  -- by the levels that are left: a list inside the field goes on the stack and takes one of them
  induction k generalizing levels role with
  | zero =>
    intro n fields p hp
    refine comes_with (fun shell p hp => ?_) hp
    rcases enter_cases (.inside shell) (⟨role, n, fields⟩ :: levels) hp with
      ⟨-, henter⟩ | ⟨hshallow, -⟩
    · exact .refused (reaches_settle rfl henter) rfl List.suffix_rfl
    · rw [List.length_cons] at hshallow
      omega
  | succ k ih =>
    intro n fields p hp
    refine comes_with (fun shell p hp => ?_) hp
    have hdepth' : (⟨role, n, fields⟩ :: levels : List Level).length + k = maxNesting := by
      rw [List.length_cons]
      omega
    exact comes_list (by omega) (ih hdepth') hp

/-- A refusal is the end. -/
theorem step_of_refused {e : FramingError} (htask : s.task = .halt (.refused e)) :
    step data s = none := by
  obtain ⟨task, p, levels⟩ := s
  obtain rfl : task = .halt (.refused e) := htask
  rfl

/-- The fields that were read, if nothing is left. -/
def allRead (x : List Field × Bytes) : Except FramingError (List Field) :=
  (Field.noneLeft x.2).map fun _ => x.1

/-- A list that is not followed by another one is read to the end of the bytes, or refused. -/
theorem Comes.ends {x : Except FramingError (List Field × Bytes)}
    (h : Comes data s (fun fs p => ⟨.proceed, p, [⟨role, 0, fs⟩]⟩) x)
    (hhead : ∀ n, role ≠ .head n) (hroles : s.roles <:+ [role]) :
    ∃ s', Reaches (step data) s s' ∧ step data s' = none ∧
      ((∃ fs, (x >>= allRead) = .ok fs ∧ s'.task = .complete ⟨role, 0, fs⟩) ∨
      ∃ e, (x >>= allRead) = .error e ∧ s'.task = .halt (.refused e) ∧
        s.roles <:+ s'.roles) := by
  cases h with
  | @refused e s' h htask hroles' =>
    exact ⟨s', h, step_of_refused htask, .inr ⟨e, rfl, htask, hroles'⟩⟩
  | @ok fs p hp h =>
    rcases leave_last ⟨role, 0, fs⟩ [] (fun _ _ => rfl) hhead hp with
      ⟨e, hleft, hleave⟩ | ⟨hleft, hleave⟩
    · refine ⟨_, h.trans (reaches_settle rfl hleave), rfl, .inr ⟨e, ?_, rfl, hroles⟩⟩
      exact congrArg (Except.map fun _ => fs) hleft
    · refine ⟨_, h.trans (reaches_settle rfl hleave), rfl, .inl ⟨fs, ?_, rfl⟩⟩
      exact congrArg (Except.map fun _ => fs) hleft

/-- Decoding a field list comes to what the decoder answers. -/
theorem exists_reaches_list (data : Bytes) :
    ∃ s, Reaches (step data) beginList s ∧ step data s = none ∧
      s.listAnswer? = some (Field.decodeList data) := by
  have hlist : Comes data beginList (fun fs p => ⟨.proceed, p, [⟨.whole, 0, fs⟩]⟩)
      (decodeLevel (decodeField maxNesting) data) :=
    comes_list (Nat.zero_le _) (comes_field (Nat.zero_add _)) (Nat.zero_le _)
  have hdecode : Field.decodeList data =
      decodeLevel (decodeField maxNesting) data >>= allRead := rfl
  obtain ⟨s, hs, hend, ⟨fs, hall, htask⟩ | ⟨e, hall, htask, -⟩⟩ :=
    hlist.ends (by simp) List.nil_suffix
  · exact ⟨s, hs, hend, by rw [listAnswer?, htask, hdecode, hall]⟩
  · exact ⟨s, hs, hend, by rw [listAnswer?, htask, hdecode, hall]⟩

/-- Once the header is there, the payload decides. -/
theorem decodeHeaderFirst_eq_frameOf {head : List Field} {n : Nat} {rest : Bytes}
    (h : Frame.decodeHead data = .ok (head, n, rest)) :
    Frame.decodeHeaderFirst data = frameOf head (Frame.decodePayload n rest) := by
  simp only [Frame.decodeHeaderFirst, h, frameOf]
  cases Header.read.ofFields head <;> cases Frame.decodePayload n rest <;> rfl

/-- A refusal is blamed on the outermost list. -/
theorem frameAnswer?_of_refused {e : FramingError} (htask : s.task = .halt (.refused e))
    (hroles : [role] <:+ s.roles) : s.frameAnswer? = some (blame (some role) e) := by
  obtain ⟨above, habove⟩ := hroles
  rw [frameAnswer?, htask, ← habove, List.getLast?_concat]

/-- The fields of a header or of a payload are read. -/
theorem comes_outermost (role : ListRole) (n : Nat) (hp : p ≤ data.length) :
    Comes data ⟨.proceed, p, [⟨role, n, []⟩]⟩ (fun fs p => ⟨.proceed, p, [⟨role, 0, fs⟩]⟩)
      (decodeMany (decodeField maxNesting) n (data.drop p)) :=
  comes_fields (comes_field (Nat.zero_add _)) n [] hp

/-- Decoding a payload comes to what the decoder of payloads answers. -/
theorem exists_reaches_payload (head : List Field) (n : Nat) (hp : p ≤ data.length) :
    ∃ s, Reaches (step data) ⟨.proceed, p, [⟨.payload head, n, []⟩]⟩ s ∧ step data s = none ∧
      s.frameAnswer? = some (frameOf head (Frame.decodePayload n (data.drop p))) := by
  have hdecode : Frame.decodePayload n (data.drop p) =
      decodeMany (decodeField maxNesting) n (data.drop p) >>= allRead := rfl
  obtain ⟨s, hs, hend, ⟨fs, hall, htask⟩ | ⟨e, hall, htask, hroles⟩⟩ :=
    (comes_outermost (.payload head) n hp).ends (by simp) List.suffix_rfl
  · exact ⟨s, hs, hend, by rw [frameAnswer?, htask, hdecode, hall]⟩
  · exact ⟨s, hs, hend, by rw [frameAnswer?_of_refused htask hroles, hdecode, hall, blame]⟩

/-- Decoding a frame comes to what the decoder of frames answers. -/
theorem exists_reaches_frame (data : Bytes) :
    ∃ s, Reaches (step data) beginFrame s ∧ step data s = none ∧
      s.frameAnswer? = some (Frame.decodeHeaderFirst data) := by
  rcases split_cases (Nat.zero_le data.length) with
    ⟨e, hsplit, hdecode⟩ | ⟨n, p, hp, hn, hsplit, hdecode⟩
  · refine ⟨_, reaches_settle rfl hsplit, rfl, ?_⟩
    rw [List.drop_zero] at hdecode
    rw [Frame.decodeHeaderFirst, hdecode]
    rfl
  · have hbegin : Reaches (step data) beginFrame
        ⟨.proceed, p, [⟨.head n, fieldCount, []⟩]⟩ := reaches_settle rfl hsplit
    have hhead := comes_outermost (.head n) fieldCount hp
    rw [List.drop_zero] at hdecode
    generalize decodeMany (decodeField maxNesting) fieldCount
      (data.drop p) = x at hhead hdecode
    cases hhead with
    | @refused e s h htask hroles =>
      refine ⟨s, hbegin.trans h, step_of_refused htask, ?_⟩
      rw [frameAnswer?_of_refused htask hroles, Frame.decodeHeaderFirst, hdecode]
      rfl
    | @ok head p hp h =>
      obtain ⟨s, hs, hend, hanswer⟩ :=
        exists_reaches_payload head (n - fieldCount) hp
      have hleave : Reaches (step data) ⟨.proceed, p, [⟨.head n, 0, head⟩]⟩
          ⟨.proceed, p, [⟨.payload head, n - fieldCount, []⟩]⟩ :=
        reaches_settle rfl (leave_head hn)
      refine ⟨s, hbegin.trans (h.trans (hleave.trans hs)), hend, ?_⟩
      rw [hanswer, decodeHeaderFirst_eq_frameOf hdecode]

end Decoding

/-! ## Headers -/

namespace Reading

/-- A reading that never goes past the last field. -/
def Within (x : Reading α) : Prop :=
  ∀ r : Reader, r.position ≤ r.fields.length →
    (x.perform r).2.position ≤ (x.perform r).2.fields.length

theorem within_pure (a : α) : Within (pure a) := fun _ hr => hr

theorem within_throw (e : FramingError) : Within (throw e : Reading α) := fun _ hr => hr

/-- Two readings in a row stay within the fields. -/
theorem Within.bind {x : Reading α} {f : α → Reading β} (hx : x.Within)
    (hf : ∀ a, (f a).Within) : (x >>= f).Within := by
  intro r hr
  have hr' := hx r hr
  rw [perform_bind]
  generalize x.perform r = y at hr' ⊢
  obtain ⟨result, r'⟩ := y
  cases result with
  | error e => exact hr'
  | ok a => exact hf a r' hr'

/-- A field that is read was there. -/
theorem within_next (expected : FieldKind) (pick : Field → Option α) :
    (next expected pick).Within := by
  intro r hr
  have hnext : (next expected pick).perform r = next expected pick r := rfl
  rw [hnext]
  cases hget : r.fields[r.position]? with
  | none => simpa [next, hget] using hr
  | some f =>
    have hlt := (List.getElem?_eq_some_iff.mp hget).1
    cases hpick : pick f with
    | none => simpa [next, hget, hpick] using hr
    | some a => simpa [next, hget, hpick] using hlt

theorem within_word : word.Within := (within_next _ _).bind fun _ => within_pure _

end Reading

theorem Header.within_read : read.Within := by
  refine Reading.within_word.bind fun w => ?_
  dsimp only
  cases MessageKind.ofCode? (w >>> 56).toUInt8 with
  | none => exact Reading.within_throw _
  | some kind =>
    exact (Reading.within_next _ _).bind fun _ => Reading.within_word.bind fun _ =>
      Reading.within_word.bind fun _ => Reading.within_word.bind fun _ => Reading.within_pure _

/-! ## Every input -/

namespace Decoding

/-- Decoding from the given start is safe, and comes to the expected answer. -/
structure Guarded (data : Bytes) (start : Decoding) (answer? : Decoding → Option (Except ε α))
    (expected : Except ε α) (fault : ε → Fault) : Prop where
  /-- No byte is read that is not there, and no number is subtracted from a smaller one. -/
  intact : ∀ s, Reaches (step data) start s → ∀ mishap, s.task ≠ .halt (.crashed mishap)
  /-- The position never leaves the bytes. -/
  inside : ∀ s, Reaches (step data) start s → s.position ≤ data.length
  /-- There are never more lists on the stack than may be nested, and the outermost one. A list is
  begun, or refused, at the depth that the stack has. -/
  shallow : ∀ s, Reaches (step data) start s → s.levels.length ≤ Field.maxNesting + 1
  /-- It ends with the answer. -/
  ends : ∃ s, eval (step data) start = Part.some s ∧ answer? s = some expected
  /-- Whatever is refused is a fault of framing, without a domain. -/
  framing : ∀ e, expected = .error e → (fault e).code = .framing ∧ (fault e).domain = none

/-- Decoding that starts soundly and ends with the expected answer is guarded. -/
theorem Guarded.of_sound {start : Decoding} {answer? : Decoding → Option (Except ε α)}
    {expected : Except ε α} {fault : ε → Fault} (hsound : Sound data start)
    (hends : ∃ s, Reaches (step data) start s ∧ step data s = none ∧ answer? s = some expected)
    (hfault : ∀ e, (fault e).code = .framing ∧ (fault e).domain = none) :
    Guarded data start answer? expected fault := by
  have hall {s : Decoding} (hs : Reaches (step data) start s) : Sound data s :=
    keeps_of_reaches (fun _ _ hs => hs.step) hsound hs
  obtain ⟨s, hs, hend, hanswer⟩ := hends
  exact ⟨fun _ hs => (hall hs).intact, fun _ hs => (hall hs).inside, fun _ hs => (hall hs).shallow,
    ⟨s, eval_eq_some hs hend, hanswer⟩, fun e _ => hfault e⟩

/-- **Decoding is safe**, whatever the bytes are. Reading a field list or a frame, nothing is read
past the end, nothing is subtracted from less, lists are read inside one another only as deep as
they may be nested, and in the end there is a value or a fault of framing. The header of a frame is
read from no more fields than it has. -/
theorem guarded (data : Bytes) :
    Guarded data beginList listAnswer? (Field.decodeList data) FramingError.toFault ∧
      Guarded data beginFrame frameAnswer? (Frame.decodeHeaderFirst data) (·.cause.toFault) ∧
      ∀ head : List Field, (Header.read.perform ⟨head, 0⟩).2.position ≤
        (Header.read.perform ⟨head, 0⟩).2.fields.length :=
  ⟨.of_sound .beginList (exists_reaches_list data) fun _ => ⟨rfl, rfl⟩,
    .of_sound .beginFrame (exists_reaches_frame data) fun _ => ⟨rfl, rfl⟩,
    fun _ => Header.within_read _ (Nat.zero_le _)⟩

/-- It is the tests that keep reads inside the bytes. -/
example : Attempt.advance [0, 0, 0] 4 0 = .error (.crashed .overrun) ∧
    Attempt.word [0, 0, 0] .count 4 0 = .error (.refused (.truncated .count 4 3)) := ⟨rfl, rfl⟩

end Decoding

end Remoting
