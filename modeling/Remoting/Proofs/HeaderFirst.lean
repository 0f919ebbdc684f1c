import Remoting.Proofs.FrameCodec

/-!
# Remoting.Proofs.HeaderFirst

Reading a frame header first gives the same as reading all its fields and taking the frame out of
them (`Frame.decodeHeaderFirst_agrees`): the same frames, and damage to a payload is the very damage
that a reader of the fields finds.

The bytes are gone through in the same order either way, so that what is read after the header is
what is left of the whole list (`Frame.decodeList_of_decodeHead`). That a list is no frame is found
out at a different moment only: a reader of the fields looks at the header last.
-/

namespace Remoting

namespace Field

/-- Reading fields in one go, or some of them first and then the others. -/
theorem decodeMany_add (field : Decoder Field) (a b : Nat) (bs : Bytes) :
    decodeMany field (a + b) bs =
      (do
        let front ← decodeMany field a bs
        let back ← decodeMany field b front.2
        return (front.1 ++ back.1, back.2)) := by
  induction a generalizing bs with
  | zero =>
    rw [Nat.zero_add]
    cases h : decodeMany field b bs <;> simp [decodeMany, h, bind, Except.bind, pure, Except.pure]
  | succ a ih =>
    rw [Nat.add_right_comm, decodeMany, decodeMany]
    cases hfirst : field bs with
    | error e => rfl
    | ok first =>
      simp only [bind, Except.bind, ih first.2]
      cases hfront : decodeMany field a first.2 with
      | error e => rfl
      | ok front =>
        simp only [pure, Except.pure]
        cases hback : decodeMany field b front.2 <;> rfl

end Field

namespace Header

/-- A header is read from the first five fields, whatever comes behind them. -/
theorem read_append_eq_ok_iff {head payload : List Field} {h : Header}
    (hlen : head.length = fieldCount) :
    read.ofFields (head ++ payload) = .ok h ↔ read.ofFields head = .ok h := by
  have hget (i : Nat) (hi : i < 5) : (head ++ payload)[i]? = head[i]? :=
    List.getElem?_append_left (hlen ▸ hi)
  unfold Reading.ofFields read
  rw [Reading.perform_word_bind, Reading.perform_word_bind, hget 0 (by decide)]
  refine exists_congr fun w => and_congr_right fun _ => ?_
  cases hkind : MessageKind.ofCode? (w >>> 56).toUInt8 with
  | none => simp [hkind]
  | some kind =>
    simp only [hkind, Reading.perform_object_bind, Reading.perform_word_bind, Nat.zero_add,
      Nat.reduceAdd, hget 1 (by decide), hget 2 (by decide), hget 3 (by decide),
      hget 4 (by decide), Reading.perform_pure]

/-- There is no header in fewer than five fields. -/
theorem fieldCount_le_of_read {fields : List Field} {h : Header}
    (hread : read.ofFields fields = .ok h) : fieldCount ≤ fields.length := by
  unfold Reading.ofFields read at hread
  obtain ⟨w, -, hrest⟩ := Reading.perform_word_bind.mp hread
  cases hkind : MessageKind.ofCode? (w >>> 56).toUInt8 with
  | none => simp [hkind] at hrest
  | some kind =>
    simp only [hkind, Reading.perform_object_bind, Reading.perform_word_bind] at hrest
    obtain ⟨_, _, _, _, _, _, _, hlast, _⟩ := hrest
    exact (List.getElem?_eq_some_iff.mp hlast).1

end Header

namespace Frame

variable {bs rest : Bytes} {head payload : List Field} {n : Nat}

/-- After the header, what is left to read is what a reader of all the fields still has to read. -/
theorem decodeList_of_decodeHead (h : decodeHead bs = .ok (head, n, rest)) :
    Field.decodeList bs = (decodePayload n rest).map (head ++ ·) := by
  obtain ⟨hcount, hlen, hgood⟩ := decodeHead_eq_ok_iff.mp h
  have hexact := Field.exact_decodeMany (Field.exact_decodeField Field.maxNesting) 5
  have hmany := hexact.decode_append ⟨hlen, hgood⟩ rest
  unfold Field.decodeList Field.decodeLevel decodePayload
  simp only [hcount, bind, Except.bind]
  rw [Nat.add_comm, Field.decodeMany_add, hmany]
  simp only [bind, Except.bind]
  cases hback : Field.decodeMany (Field.decodeField Field.maxNesting) n rest with
  | error e => rfl
  | ok back =>
    simp only [pure, Except.pure]
    cases hnone : Field.noneLeft back.2 <;> rfl

/-- A list of five fields or more starts with what is read as the header. -/
theorem decodeHead_of_decodeList {fields : List Field} (h : Field.decodeList bs = .ok fields)
    (hmin : Header.fieldCount ≤ fields.length) :
    ∃ head n rest, decodeHead bs = .ok (head, n, rest) := by
  obtain ⟨⟨fs, left⟩, hlevel, hrest⟩ := bind_eq_ok_iff.mp h
  obtain ⟨-, hfields⟩ := check_bind_eq_ok_iff.mp hrest
  obtain rfl : fs = fields := Except.ok.inj hfields
  obtain ⟨⟨count, bs'⟩, hcount, hmany⟩ := bind_eq_ok_iff.mp hlevel
  have hlen : fs.length = count :=
    ((Field.exact_decodeMany (Field.exact_decodeField Field.maxNesting) count _ _ _).mp hmany).2.1
  obtain ⟨n, rfl⟩ : ∃ n, count = Header.fieldCount + n :=
    Nat.exists_eq_add_of_le (hlen ▸ hmin)
  have hsplit := Field.decodeMany_add (Field.decodeField Field.maxNesting) Header.fieldCount n bs'
  obtain ⟨⟨head, rest⟩, hhead, -⟩ := bind_eq_ok_iff.mp (hsplit.symm.trans hmany)
  refine ⟨head, Header.fieldCount + n - Header.fieldCount, rest, ?_⟩
  simp [decodeHead, hcount, hhead, bind, Except.bind, pure, Except.pure]

/-- The frame in a field list whose first five fields are known. -/
theorem ofFields_append_eq_ok_iff {f : Frame} (hlen : head.length = Header.fieldCount) :
    ofFields (head ++ payload) = .ok f ↔
      Header.read.ofFields head = .ok f.header ∧ payload = f.payload := by
  have hdrop : (head ++ payload).drop Header.fieldCount = payload := List.drop_left' hlen
  unfold ofFields
  rw [bind_eq_ok_iff, hdrop]
  constructor
  · rintro ⟨header, hread, hframe⟩
    obtain rfl : ⟨header, payload⟩ = f := Except.ok.inj hframe
    exact ⟨(Header.read_append_eq_ok_iff hlen).mp hread, rfl⟩
  · rintro ⟨hread, rfl⟩
    exact ⟨f.header, (Header.read_append_eq_ok_iff hlen).mpr hread, rfl⟩

/-- A payload is damaged when the header stands and a reader of all the fields fails. -/
theorem decodeHeaderFirst_eq_payload_iff {malformed : MalformedFrame} :
    decodeHeaderFirst bs = .error (.payload malformed) ↔
      (∃ head n rest, decodeHead bs = .ok (head, n, rest) ∧
        Header.read.ofFields head = .ok malformed.header) ∧
      Field.decodeList bs = .error malformed.error := by
  unfold decodeHeaderFirst
  cases hhead : decodeHead bs with
  | error e => simp
  | ok parts =>
    obtain ⟨head, n, rest⟩ := parts
    rw [decodeList_of_decodeHead hhead]
    cases hread : Header.read.ofFields head with
    | error e => simp [hread]
    | ok header =>
      cases hpayload : decodePayload n rest with
      | error e =>
        obtain ⟨header', e'⟩ := malformed
        simp [hread, hpayload, Except.map]
      | ok payload => simp [hread, hpayload, Except.map]

/-- **Reading the header first changes nothing but the order.** The frames that are read are those
that stand in the fields the bytes encode. A payload is reported as damaged exactly when the header
could be read and the fields could not, with the error that a reader of the fields gets; so bytes
that encode fields are never reported so. -/
theorem decodeHeaderFirst_agrees (bs : Bytes) :
    (∀ f, decodeHeaderFirst bs = .ok f ↔
      ∃ fields, Field.decodeList bs = .ok fields ∧ ofFields fields = .ok f) ∧
    (∀ malformed, decodeHeaderFirst bs = .error (.payload malformed) ↔
      (∃ head n rest, decodeHead bs = .ok (head, n, rest) ∧
        Header.read.ofFields head = .ok malformed.header) ∧
      Field.decodeList bs = .error malformed.error) ∧
    ∀ fields, Field.decodeList bs = .ok fields →
      ∀ malformed, decodeHeaderFirst bs ≠ .error (.payload malformed) := by
  refine ⟨fun f => ?_, fun malformed => decodeHeaderFirst_eq_payload_iff, ?_⟩
  · rw [decodeHeaderFirst_eq_ok_iff_parts]
    constructor
    · rintro ⟨head, n, rest, hhead, hread, hpayload⟩
      obtain ⟨-, hlen, -⟩ := decodeHead_eq_ok_iff.mp hhead
      refine ⟨head ++ f.payload, ?_, (ofFields_append_eq_ok_iff hlen).mpr ⟨hread, rfl⟩⟩
      rw [decodeList_of_decodeHead hhead, hpayload]
      rfl
    · rintro ⟨fields, hfields, hframe⟩
      obtain ⟨header, hheader, -⟩ := bind_eq_ok_iff.mp hframe
      obtain ⟨head, n, rest, hhead⟩ :=
        decodeHead_of_decodeList hfields (Header.fieldCount_le_of_read hheader)
      obtain ⟨-, hlen, -⟩ := decodeHead_eq_ok_iff.mp hhead
      rw [decodeList_of_decodeHead hhead] at hfields
      obtain ⟨payload, hpayload, rfl⟩ := map_eq_ok_iff.mp hfields
      obtain ⟨hread, rfl⟩ := (ofFields_append_eq_ok_iff hlen).mp hframe
      exact ⟨head, n, rest, hhead, hread, hpayload⟩
  · intro fields hfields malformed hmalformed
    rw [(decodeHeaderFirst_eq_payload_iff.mp hmalformed).2] at hfields
    contradiction

/-- A call that lacks its last byte, a call, and fields that are no frame. -/
theorem decodeHeaderFirst_agrees_nestedCall :
    Field.decodeList nestedCall.encode.dropLast = .error (.truncated (.payload .bool) 1 0) ∧
      decodeHeaderFirst nestedCall.encode.dropLast =
        .error (.payload ⟨nestedCall.header, .truncated (.payload .bool) 1 0⟩) ∧
      decodeHeaderFirst nestedCall.encode = .ok nestedCall ∧
      Field.decodeList (Field.encodeList [.bool true]) = .ok [.bool true] ∧
      ∀ malformed,
        decodeHeaderFirst (Field.encodeList [.bool true]) ≠ .error (.payload malformed) := by
  have hdamaged : Field.decodeList nestedCall.encode.dropLast =
      .error (.truncated (.payload .bool) 1 0) := by cbv
  have hhead : decodeHead nestedCall.encode.dropLast =
      .ok (nestedCall.header.fields, 2, (Field.encodeEach nestedCall.payload).dropLast) := by cbv
  have hread : Header.read.ofFields nestedCall.header.fields = .ok nestedCall.header := by cbv
  have hfields : Field.decodeList nestedCall.encode = .ok nestedCall.toFields := by cbv
  have hframe : ofFields nestedCall.toFields = .ok nestedCall := by cbv
  have hbool : Field.decodeList (Field.encodeList [.bool true]) = .ok [.bool true] := by cbv
  exact ⟨hdamaged,
    ((decodeHeaderFirst_agrees _).2.1 ⟨nestedCall.header, .truncated (.payload .bool) 1 0⟩).mpr
      ⟨⟨_, _, _, hhead, hread⟩, hdamaged⟩,
    ((decodeHeaderFirst_agrees _).1 nestedCall).mpr ⟨_, hfields, hframe⟩, hbool,
    (decodeHeaderFirst_agrees _).2.2 _ hbool⟩

end Frame

end Remoting
