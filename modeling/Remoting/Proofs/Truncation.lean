import Remoting.Message.Envelope
import Remoting.Proofs.FrameCodec

/-!
# Remoting.Proofs.Truncation

Frames that were cut off behind their header. The header can be read from what is left, and the
payload cannot (`Frame.decodePayload_take`). But before the header is read, the number of fields is
held against the bytes that are left, and a number that these cannot hold is taken for damage to the
header. So what is left is blamed on the payload exactly if it has two bytes for each of the fields
that were announced (`Frame.decodeHeaderFirst_take_encode`).
-/

namespace Remoting.Frame

open Remoting.Field (encodeEach Fits maxNesting encodeList)

variable {f : Frame} {n : Nat}

/-- The number of bytes of a frame that come before its payload. -/
def headSize : Nat := 49

theorem length_encodeEach_fields (h : Header) : (encodeEach h.fields).length = 45 := by
  simp [Header.fields, encodeEach, Field.encode]

theorem length_toFields (f : Frame) : f.toFields.length = f.payload.length + 5 := by
  simp [toFields, Header.fields]

/-- A frame that was cut off behind its header. -/
theorem take_encode (hhead : headSize ≤ n) :
    f.encode.take n = bigEndian 4 f.toFields.length ++ (encodeEach f.header.fields ++
      (encodeEach f.payload).take (n - headSize)) := by
  have hfront : (bigEndian 4 f.toFields.length ++ encodeEach f.header.fields).length =
      headSize := by
    simp [length_encodeEach_fields, headSize]
  have hbytes : f.encode = bigEndian 4 f.toFields.length ++ encodeEach f.header.fields ++
      encodeEach f.payload := by
    simp [encode, encodeList, toFields, Field.encodeEach_append]
  rw [hbytes, List.take_append, List.take_of_length_le (by omega), hfront, List.append_assoc]

theorem length_take_payload (hhead : headSize ≤ n) (hcut : n < f.encode.length) :
    ((encodeEach f.payload).take (n - headSize)).length = n - headSize := by
  have hlength := congrArg List.length (take_encode (f := f) hhead)
  simp [length_encodeEach_fields, headSize] at hlength ⊢
  omega

/-- The header of a frame that was cut off can be read as long as the bytes that are left could hold
all the fields that were announced. -/
theorem decodeHead_take (hfits : Fits f.toFields) (hhead : headSize ≤ n)
    (hcut : n < f.encode.length) (hroom : 2 * f.toFields.length ≤ n - 4) :
    decodeHead (f.encode.take n) = .ok (f.header.fields, f.payload.length,
      (encodeEach f.payload).take (n - headSize)) := by
  have hleft := length_take_payload hhead hcut
  have hcount := hfits.count
  rw [take_encode hhead]
  simp only [length_toFields, headSize] at *
  rw [decodeHead_eq_ok_iff, Field.decodeCount_eq_ok_iff, List.length_append,
    length_encodeEach_fields, hleft]
  exact ⟨⟨rfl, hcount, by omega⟩, rfl, good_wire f.header f.header.word⟩

/-- Otherwise the number of fields is refused. -/
theorem decodeHead_take_of_crowded (hfits : Fits f.toFields) (hhead : headSize ≤ n)
    (hcut : n < f.encode.length) (hroom : n - 4 < 2 * f.toFields.length) :
    decodeHead (f.encode.take n) = .error (.countExceedsSize f.toFields.length) := by
  have hleft := length_take_payload hhead hcut
  have hword := (Field.exact_takeWord .count 4).decode_append (a := f.toFields.length) hfits.count
    (encodeEach f.header.fields ++ (encodeEach f.payload).take (n - headSize))
  have hshort : (encodeEach f.header.fields ++
      (encodeEach f.payload).take (n - headSize)).length / 2 < f.toFields.length := by
    rw [List.length_append, length_encodeEach_fields, hleft]
    simp only [headSize] at *
    omega
  rw [take_encode hhead]
  simp only [decodeHead, Field.decodeCount, hword, bind, Except.bind, if_pos hshort]
  rfl

/-- A payload that lacks some of its bytes is none. -/
theorem decodePayload_take {payload : List Field}
    (hgood : ∀ g ∈ payload, g.nesting ≤ maxNesting ∧ g.Bounded)
    (hcut : n < (encodeEach payload).length) :
    ∃ error, decodePayload payload.length ((encodeEach payload).take n) = .error error := by
  cases hdecode : decodePayload payload.length ((encodeEach payload).take n) with
  | error error => exact ⟨error, rfl⟩
  | ok fields =>
    -- the whole payload would start with the bytes of these fields, and so be these fields
    obtain ⟨hbytes, hlength, hfields⟩ := decodePayload_eq_ok_iff.mp hdecode
    have hexact := Field.exact_decodeMany (Field.exact_decodeField maxNesting)
      payload.length
    have hshort := hexact.decode_append ⟨hlength, hfields⟩ ((encodeEach payload).drop n)
    have hwhole := hexact.decode_append ⟨rfl, hgood⟩ []
    rw [← hbytes, List.take_append_drop] at hshort
    rw [List.append_nil, hshort] at hwhole
    have hnone : (encodeEach payload).drop n = [] := by
      simpa using congrArg Prod.snd (Except.ok.inj hwhole)
    simp at hnone
    omega

/-- **A frame that was cut off behind its header is blamed on its payload exactly if the bytes that
are left have room for the fields that were announced**, two bytes for each. If they have not, the
header is blamed, and the message cannot be told any more. -/
theorem decodeHeaderFirst_take_encode (hfits : Field.Fits f.toFields) (hhead : headSize ≤ n)
    (hcut : n < f.encode.length) :
    ((∃ error, decodeHeaderFirst (f.encode.take n) = .error (.payload ⟨f.header, error⟩)) ↔
      2 * f.toFields.length ≤ n - 4) ∧
    (n - 4 < 2 * f.toFields.length →
      decodeHeaderFirst (f.encode.take n) =
        .error (.header (.countExceedsSize f.toFields.length))) := by
  have hcrowded (hroom : n - 4 < 2 * f.toFields.length) : decodeHeaderFirst (f.encode.take n) =
      .error (.header (.countExceedsSize f.toFields.length)) := by
    simp [decodeHeaderFirst, decodeHead_take_of_crowded hfits hhead hcut hroom]
  refine ⟨⟨fun hblamed => ?_, fun hroom => ?_⟩, hcrowded⟩
  · by_contra hroom
    obtain ⟨error, hblamed⟩ := hblamed
    rw [hcrowded (by omega)] at hblamed
    simp at hblamed
  · have hread : Header.read.ofFields f.header.fields = .ok f.header :=
      (Header.read_eq_ok_iff rfl).mpr ⟨f.header.word, rfl, f.header.says_word⟩
    have hpayload : n - headSize < (Field.encodeEach f.payload).length := by
      have hlength := length_take_payload hhead hcut
      have hwhole : f.encode.length = headSize + (Field.encodeEach f.payload).length := by
        simp [encode, Field.encodeList, toFields, Field.encodeEach_append,
          length_encodeEach_fields, headSize]
        omega
      omega
    obtain ⟨error, herror⟩ := decodePayload_take (fits_wire_iff.mp hfits).2 hpayload
    refine ⟨error, ?_⟩
    simp only [decodeHeaderFirst, decodeHead_take hfits hhead hcut hroom, hread, herror]

/-- A call with so many truth values. -/
def questionnaire (answers : Nat) : Frame :=
  ⟨{ kind := .twoWayCall, target := ⟨1⟩, digest := ⟨1, 2⟩, callId := ⟨9⟩ },
    List.replicate answers (.bool true)⟩

theorem fits_questionnaire (answers : Nat) (h : answers + 5 < 2 ^ 32) :
    Fits (questionnaire answers).toFields := by
  refine fits_wire_iff.mpr ⟨by simpa [questionnaire] using h, fun g hg => ?_⟩
  obtain ⟨-, rfl⟩ := List.mem_replicate.mp hg
  simp [Field.nesting, Field.Bounded]

/-- With seventeen truth values, all of which are missing, there is just room enough. -/
theorem decodeHeaderFirst_take_questionnaire :
    Field.Fits (questionnaire 17).toFields ∧ headSize ≤ 49 ∧ 49 < (questionnaire 17).encode.length ∧
      ∃ error, decodeHeaderFirst ((questionnaire 17).encode.take 49) =
        .error (.payload ⟨(questionnaire 17).header, error⟩) := by
  have hfits := fits_questionnaire 17 (by decide)
  have hcut : 49 < (questionnaire 17).encode.length := by decide
  exact ⟨hfits, by decide, hcut,
    (decodeHeaderFirst_take_encode hfits (by decide) hcut).1.mpr (by decide)⟩

/-- With eighteen there is not: a call that lost nothing but its payload ends the stream. -/
theorem questionnaire_blamed_on_header :
    Field.Fits (questionnaire 18).toFields ∧ headSize ≤ 49 ∧ 49 < (questionnaire 18).encode.length ∧
      decodeHeaderFirst ((questionnaire 18).encode.take 49) =
        .error (.header (.countExceedsSize 23)) ∧
      (¬ ∃ error, decodeHeaderFirst ((questionnaire 18).encode.take 49) =
        .error (.payload ⟨(questionnaire 18).header, error⟩)) ∧
      Envelope.classify ((questionnaire 18).encode.take 49) =
        .failed (.badHeader (.countExceedsSize 23)) := by
  have hfits := fits_questionnaire 18 (by decide)
  have hblamed : decodeHeaderFirst ((questionnaire 18).encode.take 49) =
      .error (.header (.countExceedsSize 23)) := by cbv
  refine ⟨hfits, by decide, by decide, hblamed, ?_, ?_⟩
  · simp [hblamed]
  · simp [Envelope.classify, hblamed]

end Remoting.Frame
