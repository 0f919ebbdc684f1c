import Remoting.Message.Frame
import Remoting.Proofs.FieldCodec

/-!
# Remoting.Proofs.FrameCodec

Frames and their bytes. A frame that fits the format is read back from its bytes. Read the other way
round, the bytes of a frame are determined except for five: the first word of a header holds the
kind in its top byte and the connection in its lowest two, and nobody looks at the five bytes
between.

`Header.wire` is a header with any first word; `Header.read_eq_ok_iff` says which first words a
header is read from, and `Frame.decodeHeaderFirst_eq_ok_iff` lifts that to whole frames.
-/

namespace Remoting

open Remoting.Field (encodeEach Fits maxNesting encodeList BoundedEach)

variable {h : Header}

/-! ## Readings -/

namespace Reading

variable {fields : List Field} {position : Nat}

@[simp] theorem perform_pure (a : α) (r : Reader) :
    (pure a : Reading α).perform r = (.ok a, r) := rfl

@[simp] theorem perform_throw (e : FramingError) (r : Reader) :
    (throw e : Reading α).perform r = (.error e, r) := rfl

theorem perform_bind (x : Reading α) (f : α → Reading β) (r : Reader) :
    (x >>= f).perform r =
      match x.perform r with
      | (.ok a, r') => (f a).perform r'
      | (.error e, r') => (.error e, r') := by
  unfold perform ExceptT.run StateT.run
  simp only [bind, ExceptT.bind, ExceptT.mk, ExceptT.bindCont, StateT.bind]
  cases x r with
  | mk result r' => cases result <;> rfl

/-- A reading that starts with the next field succeeds when that field is there, is of the kind
that `pick` takes apart and `make` puts together, and the rest succeeds behind it. -/
theorem perform_next_bind {expected : FieldKind} {pick : Field → Option α} {make : α → Field}
    (hpick : ∀ g a, pick g = some a ↔ g = make a) {f : α → Reading β} {b : β} :
    ((next expected pick >>= f).perform ⟨fields, position⟩).1 = .ok b ↔
      ∃ a, fields[position]? = some (make a) ∧
        ((f a).perform ⟨fields, position + 1⟩).1 = .ok b := by
  have hnext : (next expected pick).perform ⟨fields, position⟩ =
      next expected pick ⟨fields, position⟩ := rfl
  rw [perform_bind, hnext]
  cases hget : fields[position]? with
  | none => simp [next, hget]
  | some g =>
    cases hg : pick g with
    | none =>
      have hno (a : α) : g ≠ make a := fun h => by simp [(hpick g a).mpr h] at hg
      simp [next, hget, hg, hno]
    | some a =>
      obtain rfl := (hpick g a).mp hg
      have hinj (c : α) : make a = make c ↔ a = c := by
        rw [← hpick, hg, Option.some.injEq]
      simp [next, hget, hg, hinj]

theorem perform_int_bind {f : Int64 → Reading β} {b : β} :
    ((int >>= f).perform ⟨fields, position⟩).1 = .ok b ↔
      ∃ i, fields[position]? = some (.int i) ∧
        ((f i).perform ⟨fields, position + 1⟩).1 = .ok b :=
  perform_next_bind (fun g a => by cases g <;> simp)

theorem perform_object_bind {f : ObjectId → Reading β} {b : β} :
    ((object >>= f).perform ⟨fields, position⟩).1 = .ok b ↔
      ∃ id, fields[position]? = some (.object id) ∧
        ((f id).perform ⟨fields, position + 1⟩).1 = .ok b :=
  perform_next_bind (fun g a => by cases g <;> simp)

theorem perform_word_bind {f : UInt64 → Reading β} {b : β} :
    ((word >>= f).perform ⟨fields, position⟩).1 = .ok b ↔
      ∃ w : UInt64, fields[position]? = some (.int w.toInt64) ∧
        ((f w).perform ⟨fields, position + 1⟩).1 = .ok b := by
  have hassoc : (word >>= f) = (int >>= fun i => f i.toUInt64) := by simp [word]
  rw [hassoc, perform_int_bind]
  constructor
  · rintro ⟨i, hget, hrest⟩
    exact ⟨i.toUInt64, by simpa using hget, hrest⟩
  · rintro ⟨w, hget, hrest⟩
    exact ⟨w.toInt64, hget, by simpa using hrest⟩

end Reading

/-! ## Headers -/

namespace Header

/-- The five fields of a header, with any word in the place of the first. -/
def wire (h : Header) (word : UInt64) : List Field :=
  [.int word.toInt64, .object h.target, .int h.digest.hi.toInt64, .int h.digest.lo.toInt64,
   .int h.callId.val.toInt64]

theorem fields_eq_wire (h : Header) : h.fields = h.wire h.word := rfl

/-- A word says what a header says first: the kind in its top byte, the connection in its lowest
two. -/
def Says (h : Header) (word : UInt64) : Prop :=
  (word >>> 56).toUInt8 = h.kind.code ∧ word.toUInt16 = h.connection.val

theorem toNat_word (h : Header) :
    h.word.toNat = h.kind.code.toNat * 2 ^ 56 + h.connection.val.toNat := by
  have hcode := UInt8.toNat_lt h.kind.code
  have hconn := UInt16.toNat_lt h.connection.val
  have hor := Nat.two_pow_add_eq_or_of_lt (i := 56) (b := h.connection.val.toNat) (by omega)
    h.kind.code.toNat
  rw [word, UInt64.toNat_or, UInt64.toNat_shiftLeft, UInt8.toNat_toUInt64, UInt16.toNat_toUInt64,
    Nat.shiftLeft_eq]
  rw [show (56 : UInt64).toNat % 64 = 56 from rfl, Nat.mod_eq_of_lt (by omega),
    Nat.mul_comm, ← hor]

/-- A word says what a header says when its top byte and its lowest two bytes do. -/
theorem says_iff (h : Header) (w : UInt64) :
    h.Says w ↔
      w.toNat / 2 ^ 56 = h.kind.code.toNat ∧ w.toNat % 2 ^ 16 = h.connection.val.toNat := by
  have hw := UInt64.toNat_lt w
  unfold Says
  rw [← UInt8.toNat_inj, ← UInt16.toNat_inj, UInt64.toNat_toUInt8, UInt64.toNat_toUInt16,
    UInt64.toNat_shiftRight, Nat.shiftRight_eq_div_pow]
  rw [show (56 : UInt64).toNat % 64 = 56 from rfl, Nat.mod_eq_of_lt (by omega)]

theorem says_word (h : Header) : h.Says h.word := by
  have hcode := UInt8.toNat_lt h.kind.code
  have hconn := UInt16.toNat_lt h.connection.val
  rw [says_iff, toNat_word]
  omega

/-- A header is read from its five fields, whose first word may be any that says the same. -/
theorem read_eq_ok_iff {head : List Field} (hlen : head.length = fieldCount) :
    read.ofFields head = .ok h ↔ ∃ w, head = h.wire w ∧ h.Says w := by
  obtain ⟨f0, f1, f2, f3, f4, rfl⟩ : ∃ f0 f1 f2 f3 f4, head = [f0, f1, f2, f3, f4] := by
    match head, hlen with
    | [f0, f1, f2, f3, f4], _ => exact ⟨f0, f1, f2, f3, f4, rfl⟩
  unfold Reading.ofFields read
  rw [Reading.perform_word_bind]
  constructor
  · rintro ⟨w, hw, hrest⟩
    cases hkind : MessageKind.ofCode? (w >>> 56).toUInt8 with
    | none => simp [hkind] at hrest
    | some kind =>
      simp only [hkind, Reading.perform_object_bind, Reading.perform_word_bind] at hrest
      obtain ⟨target, htarget, hi, hhi, lo, hlo, callId, hcall, hpure⟩ := hrest
      obtain rfl : ⟨kind, ⟨w.toUInt16⟩, target, ⟨hi, lo⟩, ⟨callId⟩⟩ = h := by
        simpa using hpure
      refine ⟨w, ?_, (MessageKind.ofCode?_eq_some_iff.mp hkind).symm, rfl⟩
      simp_all [wire]
  · rintro ⟨w, hw, hkind, hconn⟩
    simp only [wire, List.cons.injEq, and_true] at hw
    obtain ⟨rfl, rfl, rfl, rfl, rfl⟩ := hw
    refine ⟨w, rfl, ?_⟩
    simp only [MessageKind.ofCode?_eq_some_iff.mpr hkind.symm, Reading.perform_object_bind,
      Reading.perform_word_bind]
    refine ⟨h.target, rfl, h.digest.hi, rfl, h.digest.lo, rfl, h.callId.val, rfl, ?_⟩
    rw [hconn]
    rfl

end Header

/-! ## Frames -/

namespace Frame

variable {f : Frame} {bs : Bytes} {payload : List Field}

theorem good_wire (h : Header) (w : UInt64) :
    ∀ f ∈ h.wire w, f.nesting ≤ maxNesting ∧ f.Bounded := by
  intro f hf
  simp only [Header.wire, List.mem_cons, List.not_mem_nil, or_false] at hf
  rcases hf with rfl | rfl | rfl | rfl | rfl <;> exact ⟨Nat.zero_le _, trivial⟩

/-- Whether a frame fits depends on its payload only. -/
theorem fits_wire_iff {w : UInt64} :
    Fits (h.wire w ++ payload) ↔
      payload.length + 5 < 2 ^ 32 ∧
        ∀ f ∈ payload, f.nesting ≤ maxNesting ∧ f.Bounded := by
  have hlen : (h.wire w ++ payload).length = payload.length + 5 := rfl
  rw [Field.fits_iff, hlen]
  refine and_congr_right fun _ => ⟨fun hall f hf => hall f (List.mem_append_right _ hf), ?_⟩
  intro hall f hf
  rcases List.mem_append.mp hf with hhead | hpayload
  · exact good_wire h w f hhead
  · exact hall f hpayload

theorem decodeHead_eq_ok_iff {rest : Bytes} {head : List Field} {n : Nat} :
    decodeHead bs = .ok (head, n, rest) ↔
      Field.decodeCount bs = .ok (n + 5, encodeEach head ++ rest) ∧ head.length = 5 ∧
        ∀ f ∈ head, f.nesting ≤ maxNesting ∧ f.Bounded := by
  have hexact := Field.exact_decodeMany (Field.exact_decodeField maxNesting) 5
  simp only [decodeHead, bind_eq_ok_iff, Prod.exists]
  constructor
  · rintro ⟨count, left, hcount, hguard⟩
    split at hguard
    · contradiction
    · next hmin =>
      simp only [bind_eq_ok_iff, Prod.exists] at hguard
      obtain ⟨fs, left', hmany, hpure⟩ := hguard
      obtain ⟨rfl, rfl, rfl⟩ : fs = head ∧ count - Header.fieldCount = n ∧ left' = rest := by
        simpa [pure, Except.pure] using hpure
      obtain ⟨rfl, hfs⟩ := (hexact _ _ _).mp hmany
      rw [Header.fieldCount] at hmin
      rw [Header.fieldCount, Nat.sub_add_cancel (by omega)]
      exact ⟨hcount, hfs⟩
  · rintro ⟨hcount, hhead⟩
    refine ⟨_, _, hcount, ?_⟩
    rw [if_neg (by simp [Header.fieldCount])]
    simp only [bind_eq_ok_iff, Prod.exists]
    exact ⟨head, rest, hexact.decode_append hhead rest, rfl⟩

/-- The header comes off the front of a frame whose fields can be counted. -/
theorem decodeHead_encodeList (h : Header) (w : UInt64) (hbound : payload.length + 5 < 2 ^ 32) :
    decodeHead (encodeList (h.wire w ++ payload)) =
      .ok (h.wire w, payload.length, encodeEach payload) := by
  refine decodeHead_eq_ok_iff.mpr ⟨Field.decodeCount_eq_ok_iff.mpr ⟨?_, hbound, ?_⟩, rfl,
    good_wire h w⟩
  · rw [encodeList, Field.encodeEach_append]
    rfl
  · have hroom := Field.two_mul_length_le_encodeEach (h.wire w ++ payload)
    rw [Field.encodeEach_append] at hroom
    have hlen : (h.wire w ++ payload).length = payload.length + 5 := rfl
    omega

theorem decodePayload_eq_ok_iff {n : Nat} :
    decodePayload n bs = .ok payload ↔
      bs = encodeEach payload ∧ payload.length = n ∧
        ∀ f ∈ payload, f.nesting ≤ maxNesting ∧ f.Bounded := by
  have hexact := Field.exact_decodeMany (Field.exact_decodeField maxNesting) n
  simp only [decodePayload, bind_eq_ok_iff, Prod.exists, Field.noneLeft_eq_ok_iff]
  constructor
  · rintro ⟨fs, rest, hmany, _, rfl, hpure⟩
    obtain ⟨rfl, hfs⟩ := (hexact _ _ _).mp hmany
    obtain rfl : fs = payload := by simpa [pure, Except.pure] using hpure
    exact ⟨by simp, hfs⟩
  · rintro ⟨rfl, hpayload⟩
    have h := hexact.decode_append hpayload []
    rw [List.append_nil] at h
    exact ⟨payload, [], h, (), rfl, rfl⟩

theorem decodeHeaderFirst_eq_ok_iff_parts :
    decodeHeaderFirst bs = .ok f ↔
      ∃ head n rest, decodeHead bs = .ok (head, n, rest) ∧
        Header.read.ofFields head = .ok f.header ∧ decodePayload n rest = .ok f.payload := by
  unfold decodeHeaderFirst
  constructor
  · intro h
    split at h
    · contradiction
    · next head n rest hhead =>
      split at h
      · contradiction
      · next header hread =>
        split at h
        · contradiction
        · next payload hpayload =>
          obtain rfl : ⟨header, payload⟩ = f := by simpa using h
          exact ⟨head, n, rest, hhead, hread, hpayload⟩
  · rintro ⟨head, n, rest, hhead, hread, hpayload⟩
    simp only [hhead, hread, hpayload]

/-- Bytes are read as a frame when they encode its fields, where the first word of the header may
be any that says the same. -/
theorem decodeHeaderFirst_eq_ok_iff :
    decodeHeaderFirst bs = .ok f ↔
      ∃ w, bs = encodeList (f.header.wire w ++ f.payload) ∧ f.header.Says w ∧
        Fits (f.header.wire w ++ f.payload) := by
  rw [decodeHeaderFirst_eq_ok_iff_parts]
  constructor
  · rintro ⟨head, n, rest, hhead, hread, hpayload⟩
    obtain ⟨hcount, hlen, -⟩ := decodeHead_eq_ok_iff.mp hhead
    obtain ⟨rfl, rfl, hfits⟩ := decodePayload_eq_ok_iff.mp hpayload
    obtain ⟨rfl, hbound, -⟩ := Field.decodeCount_eq_ok_iff.mp hcount
    obtain ⟨w, rfl, hsays⟩ := (Header.read_eq_ok_iff hlen).mp hread
    refine ⟨w, ?_, hsays, fits_wire_iff.mpr ⟨by omega, hfits⟩⟩
    rw [encodeList, Field.encodeEach_append]
    rfl
  · rintro ⟨w, rfl, hsays, hfits⟩
    obtain ⟨hbound, hpayload⟩ := fits_wire_iff.mp hfits
    exact ⟨f.header.wire w, f.payload.length, encodeEach f.payload,
      decodeHead_encodeList f.header w hbound, (Header.read_eq_ok_iff rfl).mpr ⟨w, rfl, hsays⟩,
      decodePayload_eq_ok_iff.mpr ⟨rfl, rfl, hpayload⟩⟩

/-- A frame that fits the format is read back from its bytes. -/
theorem decodeHeaderFirst_encode (h : Fits f.toFields) :
    decodeHeaderFirst f.encode = .ok f :=
  decodeHeaderFirst_eq_ok_iff.mpr ⟨f.header.word, rfl, f.header.says_word, h⟩

theorem length_encode (f : Frame) : f.encode.length = f.encodedLength :=
  Field.length_encodeList f.toFields

/-- A frame of fewer than `2 ^ 32` bytes fits the format when its payload is not nested too deep. -/
theorem fits_of_encodedLength_lt (hlen : f.encodedLength < 2 ^ 32)
    (hnest : Field.nestingEach f.payload ≤ maxNesting) : Fits f.toFields := by
  rw [← length_encode] at hlen
  refine Field.fits_of_length_lt hlen (Field.nestingEach_le_iff.mpr fun g hg => ?_)
  rcases List.mem_append.mp hg with hhead | hpayload
  · exact (good_wire f.header f.header.word g hhead).1
  · exact Field.nestingEach_le_iff.mp hnest g hpayload

theorem bounded_of_encodedLength_lt (hlen : f.encodedLength < 2 ^ 32) :
    f.payload.length + 5 < 2 ^ 32 ∧ BoundedEach f.payload := by
  rw [← length_encode, encode, encodeList, List.length_append, length_bigEndian] at hlen
  have hroom := Field.two_mul_length_le_encodeEach f.toFields
  have hcount : f.toFields.length = f.payload.length + 5 := rfl
  have hall := Field.boundedEach_of_length_lt f.toFields (by omega)
  rw [Field.boundedEach_iff] at hall ⊢
  exact ⟨by omega, fun g hg => hall g (List.mem_append_right _ hg)⟩

/-- A frame whose payload cannot be decoded is damaged for the reader, who still gets its header. -/
theorem decodeHeaderFirst_encode_of_payload {error : FramingError}
    (hlen : f.encodedLength < 2 ^ 32)
    (h : decodePayload f.payload.length (encodeEach f.payload) = .error error) :
    decodeHeaderFirst f.encode = .error (.payload ⟨f.header, error⟩) := by
  have hhead := decodeHead_encodeList f.header f.header.word (bounded_of_encodedLength_lt hlen).1
  have hread : Header.read.ofFields (f.header.wire f.header.word) = .ok f.header :=
    (Header.read_eq_ok_iff rfl).mpr ⟨f.header.word, rfl, f.header.says_word⟩
  unfold decodeHeaderFirst encode toFields
  rw [Header.fields_eq_wire, hhead]
  simp only [hread, h]

/-- A frame that does not fit, because it is nested too deep, is damaged for the reader, who still
gets its header. -/
theorem decodeHeaderFirst_encode_of_not_fits (hlen : f.encodedLength < 2 ^ 32)
    (h : ¬ Fits f.toFields) :
    ∃ error, decodeHeaderFirst f.encode = .error (.payload ⟨f.header, error⟩) := by
  cases hpayload : decodePayload f.payload.length (encodeEach f.payload) with
  | error error => exact ⟨error, decodeHeaderFirst_encode_of_payload hlen hpayload⟩
  | ok payload =>
    -- what was read would be the payload itself, and it would fit
    obtain ⟨hbytes, hsame, hgood⟩ := decodePayload_eq_ok_iff.mp hpayload
    obtain ⟨hbound, hbounded⟩ := bounded_of_encodedLength_lt hlen
    have heq : f.payload = payload :=
      Field.encodeEach_inj hsame.symm hbounded
        (Field.boundedEach_iff.mpr fun g hg => (hgood g hg).2) hbytes
    rw [← heq] at hgood
    exact absurd (fits_wire_iff.mpr ⟨hbound, hgood⟩) h

/-! ## Spare bytes -/

theorem bigEndian_eight (n : Nat) :
    bigEndian 8 n = UInt8.ofNat (n / 2 ^ 56) ::
      [UInt8.ofNat (n / 2 ^ 48), UInt8.ofNat (n / 2 ^ 40), UInt8.ofNat (n / 2 ^ 32),
        UInt8.ofNat (n / 2 ^ 24), UInt8.ofNat (n / 2 ^ 16)] ++
      [UInt8.ofNat (n / 2 ^ 8), UInt8.ofNat n] := by
  simp [bigEndian, Nat.shiftRight_eq_div_pow]

/-- The word of a header and any other that says the same agree in the first byte and in the last
two; the five bytes between are zero in the word of the header. -/
theorem bytes_of_says {w : UInt64} (hs : h.Says w) :
    ∃ kind between low, between.length = 5 ∧
      bigEndian 8 w.toNat = kind :: between ++ low ∧
      bigEndian 8 h.word.toNat = kind :: List.replicate 5 0 ++ low := by
  obtain ⟨hkind, hconn⟩ := (Header.says_iff h w).mp hs
  have hcode := UInt8.toNat_lt h.kind.code
  have hid := UInt16.toNat_lt h.connection.val
  have hbyte {x y : Nat} (hxy : x % 256 = y % 256) : UInt8.ofNat x = UInt8.ofNat y := by
    rw [← UInt8.toNat_inj, UInt8.toNat_ofNat', UInt8.toNat_ofNat']
    exact hxy
  have hzero {x : Nat} (hx : x % 256 = 0) : UInt8.ofNat x = 0 := hbyte hx
  refine ⟨UInt8.ofNat (w.toNat / 2 ^ 56), _, [UInt8.ofNat (w.toNat / 2 ^ 8), UInt8.ofNat w.toNat],
    rfl, bigEndian_eight _, ?_⟩
  rw [bigEndian_eight, Header.toNat_word]
  rw [hbyte (x := (h.kind.code.toNat * 2 ^ 56 + h.connection.val.toNat) / 2 ^ 56)
      (y := w.toNat / 2 ^ 56) (by omega),
    hzero (x := (h.kind.code.toNat * 2 ^ 56 + h.connection.val.toNat) / 2 ^ 48) (by omega),
    hzero (x := (h.kind.code.toNat * 2 ^ 56 + h.connection.val.toNat) / 2 ^ 40) (by omega),
    hzero (x := (h.kind.code.toNat * 2 ^ 56 + h.connection.val.toNat) / 2 ^ 32) (by omega),
    hzero (x := (h.kind.code.toNat * 2 ^ 56 + h.connection.val.toNat) / 2 ^ 24) (by omega),
    hzero (x := (h.kind.code.toNat * 2 ^ 56 + h.connection.val.toNat) / 2 ^ 16) (by omega),
    hbyte (x := (h.kind.code.toNat * 2 ^ 56 + h.connection.val.toNat) / 2 ^ 8)
      (y := w.toNat / 2 ^ 8) (by omega),
    hbyte (x := h.kind.code.toNat * 2 ^ 56 + h.connection.val.toNat) (y := w.toNat) (by omega)]
  rfl

theorem encodeList_wire (h : Header) (w : UInt64) (payload : List Field) :
    encodeList (h.wire w ++ payload) =
      (bigEndian 4 (payload.length + 5) ++ [FieldKind.int.tag]) ++
        (bigEndian 8 w.toNat ++ encodeEach ((h.wire w).tail ++ payload)) := by
  have hlen : (h.wire w ++ payload).length = payload.length + 5 := rfl
  rw [encodeList, hlen]
  simp [Header.wire, encodeEach, Field.encode]

/-- Bytes that are read as a frame are those of the frame, except for the five bytes after the first
six. -/
theorem eq_encode_of_decodeHeaderFirst (hdec : decodeHeaderFirst bs = .ok f) :
    ∃ before between after, before.length = 6 ∧ between.length = 5 ∧
      bs = before ++ between ++ after ∧ f.encode = before ++ List.replicate 5 0 ++ after := by
  obtain ⟨w, rfl, hsays, -⟩ := decodeHeaderFirst_eq_ok_iff.mp hdec
  obtain ⟨kind, between, low, hlen, hw, hword⟩ := bytes_of_says hsays
  refine ⟨bigEndian 4 (f.payload.length + 5) ++ [FieldKind.int.tag] ++ [kind], between,
    low ++ encodeEach ((f.header.wire w).tail ++ f.payload), rfl, hlen, ?_, ?_⟩
  · rw [encodeList_wire, hw]
    simp
  · rw [encode, toFields, Header.fields_eq_wire, encodeList_wire, hword]
    simp [Header.wire]

/-- **Frames and bytes correspond up to the spare bytes**: a frame that fits the format is read back
from its bytes; and bytes that are read as a frame are as many as those of the frame, and the same,
except for the bytes 6 to 10, which are zero in the bytes of the frame. -/
theorem decode_encode_up_to_spare_bytes :
    (∀ f : Frame, Field.Fits f.toFields → decode f.encode = .ok f) ∧
    ∀ (bs : Bytes) (f : Frame), decode bs = .ok f →
      f.encode.length = bs.length ∧
      ∀ i, (6 ≤ i ∧ i ≤ 10 → f.encode[i]? = some 0) ∧
        (¬ (6 ≤ i ∧ i ≤ 10) → f.encode[i]? = bs[i]?) := by
  constructor
  · intro f hfits
    rw [decode, decodeHeaderFirst_encode hfits]
    rfl
  · intro bs f hdec
    have hfirst : decodeHeaderFirst bs = .ok f := by
      unfold decode at hdec
      cases h : decodeHeaderFirst bs with
      | error e => simp [h, Except.mapError] at hdec
      | ok g => simpa [h, Except.mapError] using hdec
    obtain ⟨before, between, after, hbefore, hbetween, rfl, hencode⟩ :=
      eq_encode_of_decodeHeaderFirst hfirst
    have hzeros : (List.replicate 5 (0 : UInt8)).length = 5 := List.length_replicate
    rw [hencode, List.append_assoc, List.append_assoc]
    refine ⟨?_, fun i => ⟨fun hi => ?_, fun hi => ?_⟩⟩
    · simp only [List.length_append, hzeros, hbetween]
    · rw [List.getElem?_append_right (by omega), List.getElem?_append_left (by omega),
        List.getElem?_replicate, if_pos (by omega)]
    · by_cases hlow : i < 6
      · rw [List.getElem?_append_left (by omega), List.getElem?_append_left (by omega)]
      · rw [List.getElem?_append_right (by omega), List.getElem?_append_right (by omega),
          List.getElem?_append_right (by omega), List.getElem?_append_right (by omega), hzeros,
          hbetween]

/-- A call with a nested payload. -/
def nestedCall : Frame :=
  ⟨{ kind := .twoWayCall, connection := ⟨258⟩, target := ⟨7⟩, digest := ⟨1, 2⟩, callId := ⟨3⟩ },
    [.record [.string "x", .sequence []], .bool true]⟩

theorem decode_nestedCall_up_to_spare_bytes :
    Field.Fits nestedCall.toFields ∧ decode nestedCall.encode = .ok nestedCall ∧
      decode (nestedCall.encode.set 8 255) = .ok nestedCall ∧ nestedCall.encode[8]? = some 0 := by
  have hbounded : Field.BoundedEach nestedCall.toFields := by
    simp [nestedCall, toFields, Header.fields, Field.BoundedEach, Field.Bounded]
    decide
  have hfits : Field.Fits nestedCall.toFields := ⟨by decide, by decide, hbounded⟩
  have hdec : decode (nestedCall.encode.set 8 255) = .ok nestedCall := by cbv
  exact ⟨hfits, decode_encode_up_to_spare_bytes.1 nestedCall hfits, hdec,
    ((decode_encode_up_to_spare_bytes.2 _ _ hdec).2 8).1 (by decide)⟩

end Frame

end Remoting
