import Remoting.Field.Codec
import Remoting.Proofs.BigEndian
import Remoting.Proofs.Fallible

/-!
# Remoting.Proofs.FieldCodec

The field format is canonical: a byte string decodes to a field list exactly when it is the encoding
of that list and the list fits the format.

Every decoder of the format is *exact* (`Exact`) for the encoding that it undoes: it accepts the
bytes that start with the encoding of an admissible value, gives that value and what follows it, and
accepts nothing else. Exactness is proved once for each layer:

* words and sized bytes (`exact_takeWord`, `exact_takeSized`);
* one field, given the lists inside it (`exact_decodeWith`);
* runs of fields and counted lists, given one field (`exact_decodeMany`, `exact_decodeLevel`);
* fields with a bounded number of levels, by induction on that number (`exact_decodeField`).

The decoder refuses at once a count that the rest of the bytes cannot hold. No encoding is refused
for that reason, because every field takes at least two bytes (`two_mul_length_le_encodeEach`).
-/

namespace Remoting

open List

namespace Field

variable {fs : List Field} {Good : Field → Prop}

/-! ## What fits the format -/

mutual
/-- How many lists are nested in one another inside a field. -/
def nesting : Field → Nat
  | .record fs => nestingEach fs + 1
  | .sequence fs => nestingEach fs + 1
  | _ => 0
termination_by structural f => f

/-- The deepest nesting among fields. -/
def nestingEach : List Field → Nat
  | [] => 0
  | f :: fs => max (nesting f) (nestingEach fs)
termination_by structural fs => fs
end

mutual
/-- Every number of fields and of bytes inside the field can be written in four bytes. -/
def Bounded : Field → Prop
  | .string s => (utf8 s).length < 2 ^ 32
  | .record fs => fs.length < 2 ^ 32 ∧ BoundedEach fs
  | .sequence fs => fs.length < 2 ^ 32 ∧ BoundedEach fs
  | .any bs => bs.length < 2 ^ 32
  | _ => True
termination_by structural f => f

/-- Every number inside each of the fields can be written in four bytes. -/
def BoundedEach : List Field → Prop
  | [] => True
  | f :: fs => Bounded f ∧ BoundedEach fs
termination_by structural fs => fs
end

/-- A field list fits the format: its fields are nested no deeper than the format allows, and all
its counts and lengths can be written in four bytes. -/
structure Fits (fs : List Field) : Prop where
  nested : nestingEach fs ≤ maxNesting
  count : fs.length < 2 ^ 32
  bounded : BoundedEach fs

theorem nestingEach_le_iff {n : Nat} :
    nestingEach fs ≤ n ↔ ∀ f ∈ fs, nesting f ≤ n := by
  induction fs with
  | nil => simp [nestingEach]
  | cons f fs ih => rw [nestingEach, Nat.max_le, ih, forall_mem_cons]

theorem boundedEach_iff : BoundedEach fs ↔ ∀ f ∈ fs, Bounded f := by
  induction fs with
  | nil => simp [BoundedEach]
  | cons f fs ih => simp [BoundedEach, ih]

/-! ## Sizes -/

@[simp] theorem length_sized (bs : Bytes) : (sized bs).length = 4 + bs.length := by
  simp [sized]

theorem two_le_length_encode (f : Field) : 2 ≤ (encode f).length := by
  cases f <;> simp [encode] <;> omega

theorem two_mul_length_le_encodeEach (fs : List Field) :
    2 * fs.length ≤ (encodeEach fs).length := by
  induction fs with
  | nil => simp
  | cons f fs ih =>
    have hf := two_le_length_encode f
    simp only [encodeEach, length_append, length_cons]
    omega

theorem encodeEach_append (fs gs : List Field) :
    encodeEach (fs ++ gs) = encodeEach fs ++ encodeEach gs := by
  induction fs with
  | nil => simp [encodeEach]
  | cons f fs ih => simp [encodeEach, ih]

theorem length_utf8 (s : String) : (utf8 s).length = s.utf8ByteSize := by
  rw [utf8, Array.length_toList, ← String.size_toByteArray, ByteArray.size]

mutual
/-- The number of bytes of a field is what was computed for it. -/
theorem length_encode : (f : Field) → (encode f).length = encodedLength f
  | .bool _ => rfl
  | .int _ | .enum _ | .float _ | .object _ => by simp [encode, encodedLength]
  | .string s => by
    simp only [encode, encodedLength, length_cons, length_sized, length_utf8]
    omega
  | .any bs => by
    simp only [encode, encodedLength, length_cons, length_sized]
    omega
  | .record fs | .sequence fs => by
    simp only [encode, encodedLength, length_cons, length_append, length_bigEndian,
      length_encodeEach fs]
    omega

theorem length_encodeEach : (fs : List Field) → (encodeEach fs).length = encodedLengths fs
  | [] => rfl
  | f :: fs => by
    rw [encodeEach, encodedLengths, length_append, length_encode f, length_encodeEach fs]
end

theorem length_encodeList (fs : List Field) : (encodeList fs).length = listLength fs := by
  rw [encodeList, listLength, length_append, length_bigEndian, length_encodeEach]

mutual
/-- No number inside a field is larger than the number of its bytes. -/
theorem bounded_of_length_lt : (f : Field) → (encode f).length < 2 ^ 32 → Bounded f
  | .bool _, _ | .int _, _ | .enum _, _ | .float _, _ | .object _, _ => trivial
  | .string s, h => by
    simp only [encode, length_cons, length_sized] at h
    simp only [Bounded]
    omega
  | .any bs, h => by
    simp only [encode, length_cons, length_sized] at h
    simp only [Bounded]
    omega
  | .record fs, h | .sequence fs, h => by
    simp only [encode, length_cons, length_append, length_bigEndian] at h
    have hcount := two_mul_length_le_encodeEach fs
    exact ⟨by omega, boundedEach_of_length_lt fs (by omega)⟩

theorem boundedEach_of_length_lt :
    (fs : List Field) → (encodeEach fs).length < 2 ^ 32 → BoundedEach fs
  | [], _ => trivial
  | f :: fs, h => by
    rw [encodeEach, length_append] at h
    exact ⟨bounded_of_length_lt f (by omega), boundedEach_of_length_lt fs (by omega)⟩
end

/-- A list of fewer than `2 ^ 32` bytes fits the format when it is not nested too deep. -/
theorem fits_of_length_lt (hlen : (encodeList fs).length < 2 ^ 32)
    (hnest : nestingEach fs ≤ maxNesting) : Fits fs := by
  rw [encodeList, length_append, length_bigEndian] at hlen
  have hcount := two_mul_length_le_encodeEach fs
  exact ⟨hnest, by omega, boundedEach_of_length_lt fs (by omega)⟩

/-! ## Exact decoders -/

/-- A decoder is exact for an encoding when it accepts the bytes that start with the encoding of a
good value, and no others. -/
def Exact (decode : Decoder α) (encode : α → Bytes) (Good : α → Prop) : Prop :=
  ∀ bs a rest, decode bs = .ok (a, rest) ↔ bs = encode a ++ rest ∧ Good a

theorem Exact.congr {decode : Decoder α} {encode : α → Bytes} {P Q : α → Prop}
    (h : Exact decode encode P) (hPQ : ∀ a, P a ↔ Q a) : Exact decode encode Q := by
  intro bs a rest
  rw [h, hPQ]

/-- An exact decoder reads a good value back from the front of its encoding. -/
theorem Exact.decode_append {decode : Decoder α} {encode : α → Bytes} {Good : α → Prop}
    (h : Exact decode encode Good) {a : α} (ha : Good a) (rest : Bytes) :
    decode (encode a ++ rest) = .ok (a, rest) :=
  (h _ _ _).mpr ⟨rfl, ha⟩

theorem exact_takeBytes (piece : Piece) (n : Nat) :
    Exact (takeBytes piece n) id (fun bs => bs.length = n) := by
  intro bs w rest
  unfold takeBytes
  constructor
  · intro h
    split at h
    · contradiction
    · next hlen =>
      obtain ⟨rfl, rfl⟩ : bs.take n = w ∧ bs.drop n = rest := by simpa using h
      exact ⟨(take_append_drop n bs).symm, length_take_of_le (by omega)⟩
  · rintro ⟨rfl, rfl⟩
    simp

/-- Reading a word of a fixed width undoes writing it. -/
theorem exact_takeWord (piece : Piece) (width : Nat) :
    Exact (takeWord piece width) (bigEndian width) (fun n => n < 256 ^ width) := by
  intro bs n rest
  simp only [takeWord, bind_eq_ok_iff, Prod.exists]
  constructor
  · rintro ⟨w, left, htake, hpure⟩
    obtain ⟨rfl, rfl⟩ := (exact_takeBytes piece width _ _ _).mp htake
    obtain ⟨rfl, rfl⟩ : ofBigEndian w = n ∧ left = rest := by simpa [pure, Except.pure] using hpure
    exact ⟨by rw [bigEndian_ofBigEndian]; rfl, ofBigEndian_lt w⟩
  · rintro ⟨rfl, hn⟩
    refine ⟨bigEndian width n, rest, ?_, ?_⟩
    · exact (exact_takeBytes piece width).decode_append (length_bigEndian width n) rest
    · rw [ofBigEndian_bigEndian, Nat.mod_eq_of_lt hn]
      rfl

/-- Reading bytes after their length undoes writing them so. -/
theorem exact_takeSized (piece : Piece) :
    Exact (takeSized piece) sized (fun bs => bs.length < 2 ^ 32) := by
  intro bs w rest
  simp only [takeSized, bind_eq_ok_iff, Prod.exists]
  constructor
  · rintro ⟨n, left, hword, htake⟩
    obtain ⟨rfl, hn⟩ := (exact_takeWord piece 4 _ _ _).mp hword
    obtain ⟨rfl, rfl⟩ := (exact_takeBytes piece n _ _ _).mp htake
    exact ⟨by simp [sized], hn⟩
  · rintro ⟨rfl, hw⟩
    refine ⟨w.length, w ++ rest, ?_, ?_⟩
    · rw [sized, append_assoc]
      exact (exact_takeWord piece 4).decode_append hw _
    · exact (exact_takeBytes piece w.length).decode_append rfl rest

/-- An exact decoder stays exact when its result is repackaged without loss. -/
theorem Exact.map {decode : Decoder α} {encode : α → Bytes} {Good : α → Prop}
    (h : Exact decode encode Good) (make : α → β) {encode' : β → Bytes} {Good' : β → Prop}
    (hgood : ∀ b, Good' b ↔ ∃ a, Good a ∧ make a = b)
    (hencode : ∀ a, Good a → encode' (make a) = encode a) :
    Exact (fun bs => do let (a, bs) ← decode bs; return (make a, bs)) encode' Good' := by
  intro bs b rest
  simp only [bind_eq_ok_iff, Prod.exists]
  constructor
  · rintro ⟨a, left, hdec, hpure⟩
    obtain ⟨rfl, ha⟩ := (h _ _ _).mp hdec
    obtain ⟨rfl, rfl⟩ : make a = b ∧ left = rest := by simpa [pure, Except.pure] using hpure
    exact ⟨by rw [hencode a ha], (hgood _).mpr ⟨a, ha, rfl⟩⟩
  · rintro ⟨rfl, hb⟩
    obtain ⟨a, ha, rfl⟩ := (hgood b).mp hb
    exact ⟨a, rest, by rw [hencode a ha]; exact h.decode_append ha rest, rfl⟩

/-! ## One field -/

/-- What a field of the format may hold, where `Inner` says it for the lists inside records and
sequences. -/
def Admits (Inner : List Field → Prop) : Field → Prop
  | .string s => (utf8 s).length < 2 ^ 32
  | .record fs => Inner fs
  | .sequence fs => Inner fs
  | .any bs => bs.length < 2 ^ 32
  | _ => True

/-- The bytes of a field after its tag. -/
def body (f : Field) : Bytes := (encode f).tail

theorem encode_eq_tag_cons (f : Field) : encode f = f.kind.tag :: body f := by
  cases f <;> rfl

theorem exact_decodeBody_bool (nested : Decoder (List Field)) (Inner : List Field → Prop) :
    Exact (decodeBody nested .bool) body (fun f => f.kind = .bool ∧ Admits Inner f) := by
  intro bs f rest
  simp only [decodeBody, bind_eq_ok_iff, Prod.exists]
  constructor
  · rintro ⟨b, left, hword, hmatch⟩
    obtain ⟨rfl, -⟩ := (exact_takeWord _ 1 _ _ _).mp hword
    split at hmatch
    · obtain ⟨rfl, rfl⟩ : Field.bool false = f ∧ left = rest := by
        simpa [pure, Except.pure] using hmatch
      exact ⟨rfl, rfl, trivial⟩
    · obtain ⟨rfl, rfl⟩ : Field.bool true = f ∧ left = rest := by
        simpa [pure, Except.pure] using hmatch
      exact ⟨rfl, rfl, trivial⟩
    · contradiction
  · rintro ⟨rfl, hkind, -⟩
    cases f with
    | bool b =>
      cases b with
      | false =>
        exact ⟨0, rest, (exact_takeWord _ 1).decode_append (a := 0) (by decide) rest, rfl⟩
      | true =>
        exact ⟨1, rest, (exact_takeWord _ 1).decode_append (a := 1) (by decide) rest, rfl⟩
    | _ => contradiction

theorem exact_decodeBody_string (nested : Decoder (List Field)) (Inner : List Field → Prop) :
    Exact (decodeBody nested .string) body (fun f => f.kind = .string ∧ Admits Inner f) := by
  intro bs f rest
  simp only [decodeBody, bind_eq_ok_iff, Prod.exists]
  constructor
  · rintro ⟨text, left, hsized, hmatch⟩
    obtain ⟨rfl, hlen⟩ := (exact_takeSized _ _ _ _).mp hsized
    split at hmatch
    · next s hs =>
      obtain ⟨rfl, rfl⟩ : Field.string s = f ∧ left = rest := by
        simpa [pure, Except.pure] using hmatch
      rw [ofUtf8?_eq_some_iff] at hs
      subst hs
      exact ⟨rfl, rfl, hlen⟩
    · contradiction
  · rintro ⟨rfl, hkind, hadmits⟩
    cases f with
    | string s =>
      refine ⟨utf8 s, rest, (exact_takeSized _).decode_append hadmits rest, ?_⟩
      rw [ofUtf8?_eq_some_iff.mpr rfl]
      rfl
    | _ => contradiction

/-- A field that holds one word of eight bytes, which `make` puts into it. -/
theorem exact_word (piece : Piece) (make : UInt64 → Field) (hgood : ∀ f, Good f ↔ ∃ w, make w = f)
    (hbody : ∀ w, body (make w) = bigEndian 8 w.toNat) :
    Exact (fun bs => do let (w, bs) ← takeWord piece 8 bs; return (make (UInt64.ofNat w), bs))
      body Good := by
  refine (exact_takeWord piece 8).map (fun w => make (UInt64.ofNat w)) (fun f => ?_)
    (fun w hw => ?_)
  · rw [hgood]
    constructor
    · rintro ⟨w, rfl⟩
      exact ⟨w.toNat, UInt64.toNat_lt w, by simp⟩
    · rintro ⟨w, -, rfl⟩
      exact ⟨UInt64.ofNat w, rfl⟩
  · rw [hbody, UInt64.toNat_ofNat_of_lt' hw]

/-- Reading what a field holds undoes writing it. -/
theorem exact_decodeBody {nested : Decoder (List Field)} {Inner : List Field → Prop}
    (h : Exact nested encodeList Inner) (k : FieldKind) :
    Exact (decodeBody nested k) body (fun f => f.kind = k ∧ Admits Inner f) := by
  cases k with
  | bool => exact exact_decodeBody_bool nested Inner
  | int =>
    refine exact_word _ (fun w => .int w.toInt64) (fun f => ?_) (fun w => by simp [body, encode])
    cases f with
    | int i => exact ⟨fun _ => ⟨i.toUInt64, by simp⟩, fun _ => ⟨rfl, trivial⟩⟩
    | _ => simp [kind]
  | enum =>
    refine exact_word _ (fun w => .enum w.toInt64) (fun f => ?_) (fun w => by simp [body, encode])
    cases f with
    | enum i => exact ⟨fun _ => ⟨i.toUInt64, by simp⟩, fun _ => ⟨rfl, trivial⟩⟩
    | _ => simp [kind]
  | float =>
    refine exact_word _ .float (fun f => ?_) (fun w => by simp [body, encode])
    cases f with
    | float w => exact ⟨fun _ => ⟨w, rfl⟩, fun _ => ⟨rfl, trivial⟩⟩
    | _ => simp [kind]
  | string => exact exact_decodeBody_string nested Inner
  | record =>
    refine h.map Field.record (fun f => ?_) (fun fs _ => by simp [body, encode, encodeList])
    cases f with
    | record fs => simp [kind, Admits]
    | _ => simp [kind]
  | sequence =>
    refine h.map Field.sequence (fun f => ?_) (fun fs _ => by simp [body, encode, encodeList])
    cases f with
    | sequence fs => simp [kind, Admits]
    | _ => simp [kind]
  | object =>
    refine exact_word _ (fun w => .object ⟨w⟩) (fun f => ?_) (fun w => by simp [body, encode])
    cases f with
    | object id => exact ⟨fun _ => ⟨id.val, rfl⟩, fun _ => ⟨rfl, trivial⟩⟩
    | _ => simp [kind]
  | any =>
    refine (exact_takeSized _).map Field.any (fun f => ?_) (fun bs _ => by simp [body, encode])
    cases f with
    | any bs => simp [kind, Admits]
    | _ => simp [kind]

/-- Reading a field undoes writing it, when reading the lists inside it does. -/
theorem exact_decodeWith {nested : Decoder (List Field)} {Inner : List Field → Prop}
    (h : Exact nested encodeList Inner) : Exact (decodeWith nested) encode (Admits Inner) := by
  intro bs f rest
  simp only [decodeWith, bind_eq_ok_iff, Prod.exists]
  constructor
  · rintro ⟨tag, left, htag, hmatch⟩
    obtain ⟨rfl, -⟩ := (exact_takeWord _ 1 _ _ _).mp htag
    split at hmatch
    · contradiction
    · next k hk =>
      obtain ⟨rfl, hkind, hf⟩ := (exact_decodeBody h k _ _ _).mp hmatch
      rw [FieldKind.ofTag?_eq_some_iff] at hk
      refine ⟨?_, hf⟩
      rw [encode_eq_tag_cons, hkind, hk]
      simp [bigEndian]
  · rintro ⟨rfl, hf⟩
    refine ⟨f.kind.tag.toNat, body f ++ rest, ?_, ?_⟩
    · rw [encode_eq_tag_cons]
      have hbyte : bigEndian 1 f.kind.tag.toNat = [f.kind.tag] := by simp [bigEndian]
      have htag := (exact_takeWord .tag 1).decode_append (UInt8.toNat_lt f.kind.tag)
        (body f ++ rest)
      rwa [hbyte] at htag
    · rw [UInt8.ofNat_toNat, FieldKind.ofTag?_tag]
      exact (exact_decodeBody h f.kind).decode_append ⟨rfl, hf⟩ rest

/-! ## Field lists -/

/-- Reading a number of fields undoes writing them one after the other. -/
theorem exact_decodeMany {field : Decoder Field} (h : Exact field encode Good) (n : Nat) :
    Exact (decodeMany field n) encodeEach (fun fs => fs.length = n ∧ ∀ f ∈ fs, Good f) := by
  induction n with
  | zero =>
    intro bs fs rest
    cases fs with
    | nil => simp [decodeMany, encodeEach]
    | cons f fs => simp [decodeMany]
  | succ n ih =>
    intro bs fs rest
    simp only [decodeMany, bind_eq_ok_iff, Prod.exists]
    constructor
    · rintro ⟨f, left, hfield, gs, left', hmany, hpure⟩
      obtain ⟨rfl, hf⟩ := (h _ _ _).mp hfield
      obtain ⟨rfl, hlen, hgs⟩ := (ih _ _ _).mp hmany
      obtain ⟨rfl, rfl⟩ : f :: gs = fs ∧ left' = rest := by
        simpa [pure, Except.pure] using hpure
      exact ⟨by simp [encodeEach], by simp [hlen], by simpa using ⟨hf, hgs⟩⟩
    · rintro ⟨rfl, hlen, hgood⟩
      cases fs with
      | nil => simp at hlen
      | cons f fs =>
        have hfs : fs.length = n := by simpa using hlen
        refine ⟨f, encodeEach fs ++ rest, ?_, fs, rest, ?_, rfl⟩
        · rw [encodeEach, append_assoc]
          exact h.decode_append (hgood f mem_cons_self) _
        · exact ih.decode_append
            ⟨hfs, fun g hg => hgood g (mem_cons_of_mem f hg)⟩ rest

/-- A count is read when the bytes after it could hold as many fields. -/
theorem decodeCount_eq_ok_iff {bs rest : Bytes} {n : Nat} :
    decodeCount bs = .ok (n, rest) ↔
      bs = bigEndian 4 n ++ rest ∧ n < 2 ^ 32 ∧ n ≤ rest.length / 2 := by
  simp only [decodeCount, bind_eq_ok_iff, Prod.exists]
  constructor
  · rintro ⟨m, left, hword, hguard⟩
    obtain ⟨rfl, hm⟩ := (exact_takeWord _ 4 _ _ _).mp hword
    split at hguard
    · contradiction
    · next hroom =>
      obtain ⟨rfl, rfl⟩ : m = n ∧ left = rest := by simpa [pure, Except.pure] using hguard
      exact ⟨rfl, hm, by omega⟩
  · rintro ⟨rfl, hn, hroom⟩
    refine ⟨n, rest, (exact_takeWord _ 4).decode_append hn rest, ?_⟩
    rw [if_neg (by omega)]
    rfl

/-- Reading a counted list undoes writing it. The test of the count never refuses what was
written. -/
theorem exact_decodeLevel {field : Decoder Field} (h : Exact field encode Good) :
    Exact (decodeLevel field) encodeList (fun fs => fs.length < 2 ^ 32 ∧ ∀ f ∈ fs, Good f) := by
  intro bs fs rest
  simp only [decodeLevel, bind_eq_ok_iff, Prod.exists]
  constructor
  · rintro ⟨n, left, hcount, hmany⟩
    obtain ⟨rfl, hn, -⟩ := decodeCount_eq_ok_iff.mp hcount
    obtain ⟨rfl, rfl, hgood⟩ := (exact_decodeMany h n _ _ _).mp hmany
    exact ⟨by simp [encodeList], hn, hgood⟩
  · rintro ⟨rfl, hcount, hgood⟩
    refine ⟨fs.length, encodeEach fs ++ rest, ?_, ?_⟩
    · have hroom := two_mul_length_le_encodeEach fs
      refine decodeCount_eq_ok_iff.mpr ⟨by simp [encodeList], hcount, ?_⟩
      rw [length_append]
      omega
    · exact (exact_decodeMany h fs.length).decode_append ⟨rfl, hgood⟩ rest

/-- What a field may hold with one level more: lists of fields with the levels there were. -/
theorem admits_succ_iff {levels : Nat} (f : Field) :
    Admits (fun fs => fs.length < 2 ^ 32 ∧ ∀ g ∈ fs, nesting g ≤ levels ∧ Bounded g) f ↔
      nesting f ≤ levels + 1 ∧ Bounded f := by
  have hlist (fs : List Field) :
      (fs.length < 2 ^ 32 ∧ ∀ g ∈ fs, nesting g ≤ levels ∧ Bounded g) ↔
        nestingEach fs + 1 ≤ levels + 1 ∧ fs.length < 2 ^ 32 ∧ BoundedEach fs := by
    rw [Nat.add_le_add_iff_right, nestingEach_le_iff, boundedEach_iff]
    exact ⟨fun ⟨hlen, hall⟩ => ⟨fun g hg => (hall g hg).1, hlen, fun g hg => (hall g hg).2⟩,
      fun ⟨hnest, hlen, hb⟩ => ⟨hlen, fun g hg => ⟨hnest g hg, hb g hg⟩⟩⟩
  cases f with
  | record fs => exact hlist fs
  | sequence fs => exact hlist fs
  | _ => simp [Admits, nesting, Bounded]

theorem admits_zero_iff (f : Field) :
    Admits (fun _ => False) f ↔ nesting f ≤ 0 ∧ Bounded f := by
  cases f <;> simp [Admits, nesting, Bounded]

/-- Reading a field undoes writing it, for every field that is not nested deeper than the levels
and whose numbers can be written. -/
theorem exact_decodeField (levels : Nat) :
    Exact (decodeField levels) encode (fun f => nesting f ≤ levels ∧ Bounded f) := by
  induction levels with
  | zero =>
    have hnone : Exact (fun _ => .error .tooDeep) encodeList (fun _ => False) := by
      intro bs fs rest
      simp
    exact (exact_decodeWith hnone).congr admits_zero_iff
  | succ levels ih =>
    exact (exact_decodeWith (exact_decodeLevel ih)).congr admits_succ_iff

/-- Different lists of one length have different bytes, however deep they are nested. -/
theorem encodeEach_inj {gs : List Field} (hlen : fs.length = gs.length) (hfs : BoundedEach fs)
    (hgs : BoundedEach gs) (h : encodeEach fs = encodeEach gs) :
    fs = gs := by
  -- enough levels for both lists
  have hexact := exact_decodeMany
    (exact_decodeField (max (nestingEach fs) (nestingEach gs))) gs.length
  have hf := hexact.decode_append (a := fs) ⟨hlen, fun f hf =>
    ⟨nestingEach_le_iff.mp (Nat.le_max_left _ _) f hf, boundedEach_iff.mp hfs f hf⟩⟩ []
  have hg := hexact.decode_append (a := gs) ⟨rfl, fun g hg =>
    ⟨nestingEach_le_iff.mp (Nat.le_max_right _ _) g hg, boundedEach_iff.mp hgs g hg⟩⟩ []
  rw [h, hg] at hf
  simpa using hf.symm

theorem fits_iff :
    Fits fs ↔ fs.length < 2 ^ 32 ∧ ∀ f ∈ fs, nesting f ≤ maxNesting ∧ Bounded f := by
  constructor
  · intro h
    exact ⟨h.count, fun f hf =>
      ⟨nestingEach_le_iff.mp h.nested f hf, boundedEach_iff.mp h.bounded f hf⟩⟩
  · rintro ⟨hcount, hall⟩
    exact ⟨nestingEach_le_iff.mpr fun f hf => (hall f hf).1, hcount,
      boundedEach_iff.mpr fun f hf => (hall f hf).2⟩

theorem noneLeft_eq_ok_iff {bs : Bytes} {u : Unit} : noneLeft bs = .ok u ↔ bs = [] := by
  cases bs <;> simp [noneLeft]

/-- **The format is canonical**: a byte string decodes to a field list exactly when it is the
encoding of that list and the list fits the format. -/
theorem decodeList_eq_ok_iff (bs : Bytes) (fs : List Field) :
    decodeList bs = .ok fs ↔ bs = encodeList fs ∧ Fits fs := by
  simp only [decodeList, bind_eq_ok_iff, Prod.exists, noneLeft_eq_ok_iff]
  rw [fits_iff]
  constructor
  · rintro ⟨gs, rest, hlevel, _, rfl, hpure⟩
    obtain ⟨rfl, hfits⟩ := (exact_decodeLevel (exact_decodeField maxNesting) _ _ _).mp hlevel
    obtain rfl : gs = fs := by simpa [pure, Except.pure] using hpure
    exact ⟨by simp, hfits⟩
  · rintro ⟨rfl, hfits⟩
    refine ⟨fs, [], ?_, (), rfl, rfl⟩
    have h := (exact_decodeLevel (exact_decodeField maxNesting)).decode_append hfits []
    rwa [List.append_nil] at h

end Field

end Remoting
