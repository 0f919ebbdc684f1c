import Mathlib
import Remoting.Message.Envelope

/-!
# Remoting.Proofs.BufferFront

What is at the front of a buffer. A buffer has to grow before anything comes off it (`Waiting`), or
begins with a length above the limit (`Oversized`), or with a whole frame (`Whole`); there is no
other case (`front_cases`). `unwrap` answers accordingly, and nothing that is said here about a
frame depends on the bytes behind it.
-/

namespace Remoting.Envelope

open List

variable {limit : Nat} {buffer : Bytes}

/-- The length that a buffer begins with. -/
def statedSize (buffer : Bytes) : Nat := ofBigEndian (buffer.take 4)

/-- The bytes that the length of a buffer is about. -/
def firstBody (buffer : Bytes) : Bytes := (buffer.drop 4).take (statedSize buffer)

/-- The length is not there yet, or it is within the limit and its bytes are not there yet. -/
def Waiting (limit : Nat) (buffer : Bytes) : Prop :=
  buffer.length < 4 ∨ statedSize buffer ≤ limit ∧ buffer.length < 4 + statedSize buffer

/-- The length is there and above the limit. -/
def Oversized (limit : Nat) (buffer : Bytes) : Prop :=
  4 ≤ buffer.length ∧ limit < statedSize buffer

/-- The length is within the limit, and its bytes are there. -/
def Whole (limit : Nat) (buffer : Bytes) : Prop :=
  statedSize buffer ≤ limit ∧ 4 + statedSize buffer ≤ buffer.length

/-- A buffer waits for more, begins with a frame that is too large, or with a whole one. -/
theorem front_cases (limit : Nat) (buffer : Bytes) :
    Waiting limit buffer ∨ Oversized limit buffer ∨ Whole limit buffer := by
  unfold Waiting Oversized Whole
  omega

/-! ## Bytes behind the front -/

theorem Whole.four_le (h : Whole limit buffer) : 4 ≤ buffer.length :=
  (Nat.le_add_right 4 _).trans h.2

/-- More bytes do not change the size that is stated. -/
theorem statedSize_append (h : 4 ≤ buffer.length) (more : Bytes) :
    statedSize (buffer ++ more) = statedSize buffer := by
  rw [statedSize, statedSize, take_append_of_le_length h]

/-- A frame that is too large stays so. -/
theorem Oversized.append (h : Oversized limit buffer) (more : Bytes) :
    Oversized limit (buffer ++ more) := by
  rw [Oversized, statedSize_append h.1, length_append]
  exact ⟨Nat.le_add_right_of_le h.1, h.2⟩

/-- A whole frame stays whole. -/
theorem Whole.append (h : Whole limit buffer) (more : Bytes) : Whole limit (buffer ++ more) := by
  rw [Whole, statedSize_append h.four_le, length_append]
  exact ⟨h.1, Nat.le_add_right_of_le h.2⟩

/-- Its body stays the same. -/
theorem firstBody_append (h : Whole limit buffer) (more : Bytes) :
    firstBody (buffer ++ more) = firstBody buffer := by
  have hbody : statedSize buffer ≤ (buffer.drop 4).length := by
    rw [length_drop]
    exact Nat.le_sub_of_add_le' h.2
  rw [firstBody, firstBody, statedSize_append h.four_le, drop_append_of_le_length h.four_le,
    take_append_of_le_length hbody]

theorem length_firstBody (h : Whole limit buffer) :
    (firstBody buffer).length = statedSize buffer := by
  rw [firstBody, length_take, length_drop]
  exact Nat.min_eq_left (Nat.le_sub_of_add_le' h.2)

theorem firstBody_append_drop (buffer : Bytes) :
    firstBody buffer ++ buffer.drop (4 + statedSize buffer) = buffer.drop 4 := by
  rw [firstBody, ← drop_drop, take_append_drop]

/-- A frame is still whole without the bytes behind it. -/
theorem Whole.take (h : Whole limit buffer) :
    Whole limit (buffer.take (4 + statedSize buffer)) ∧
      statedSize (buffer.take (4 + statedSize buffer)) = statedSize buffer := by
  have hsize : statedSize (buffer.take (4 + statedSize buffer)) = statedSize buffer := by
    rw [statedSize, take_take, Nat.min_eq_left (Nat.le_add_right 4 _), ← statedSize]
  rw [Whole, hsize, length_take_of_le h.2]
  exact ⟨⟨h.1, Nat.le_refl _⟩, rfl⟩

/-! ## What comes off -/

/-- Nothing is taken before a frame is whole. -/
theorem unwrap_of_waiting (h : Waiting limit buffer) :
    unwrap limit buffer = (.needMore, buffer) := by
  rw [unwrap]
  split
  · rfl
  · next hfour =>
    obtain ⟨hlimit, hshort⟩ := h.resolve_left hfour
    exact (if_neg (Nat.not_lt.mpr hlimit)).trans (if_pos hshort)

/-- What is too large is refused, and nothing is taken. -/
theorem unwrap_of_oversized (h : Oversized limit buffer) :
    unwrap limit buffer = (.failed (.tooLarge (statedSize buffer)), buffer) := by
  rw [unwrap, if_neg (Nat.not_lt.mpr h.1)]
  exact if_pos h.2

/-- A whole frame is taken off the buffer. -/
theorem unwrap_of_whole (h : Whole limit buffer) :
    unwrap limit buffer = (classify (firstBody buffer), buffer.drop (4 + statedSize buffer)) := by
  rw [unwrap, if_neg (Nat.not_lt.mpr h.four_le), ← drop_drop]
  exact (if_neg (Nat.not_lt.mpr h.1)).trans (if_neg (Nat.not_lt.mpr h.2))

theorem classify_ne_needMore (body : Bytes) : classify body ≠ .needMore := by
  unfold classify
  split <;> simp

theorem classify_ne_tooLarge (body : Bytes) (size : Nat) :
    classify body ≠ .failed (.tooLarge size) := by
  unfold classify
  split <;> simp

/-- More bytes are asked for exactly as long as the buffer has to grow. -/
theorem needMore_iff : (unwrap limit buffer).1 = .needMore ↔ Waiting limit buffer := by
  constructor
  · intro h
    rcases front_cases limit buffer with hwaiting | hover | hwhole
    · exact hwaiting
    · rw [unwrap_of_oversized hover] at h
      contradiction
    · rw [unwrap_of_whole hwhole] at h
      exact absurd h (classify_ne_needMore _)
  · intro h
    rw [unwrap_of_waiting h]

/-- A size is refused exactly when it is stated and above the limit. -/
theorem tooLarge_iff {size : Nat} :
    (unwrap limit buffer).1 = .failed (.tooLarge size) ↔
      Oversized limit buffer ∧ size = statedSize buffer := by
  constructor
  · intro h
    rcases front_cases limit buffer with hwaiting | hover | hwhole
    · rw [unwrap_of_waiting hwaiting] at h
      contradiction
    · rw [unwrap_of_oversized hover] at h
      exact ⟨hover, by simpa using h.symm⟩
    · rw [unwrap_of_whole hwhole] at h
      exact absurd h (classify_ne_tooLarge _ _)
  · rintro ⟨hover, rfl⟩
    rw [unwrap_of_oversized hover]

end Remoting.Envelope
