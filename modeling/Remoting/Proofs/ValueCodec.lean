import Remoting.Proofs.Building
import Remoting.Schema.Value

/-!
# Remoting.Proofs.ValueCodec

Writing a value against its type and reading it back are inverse to one another, field by field
(`Model.write_read_inverse`).

`Model.Represents` says which field stands for which value of a type, one rule for every kind of
type, without either function. Writing a value gives the one field that represents it
(`Model.writeValue_eq_ok_iff`), and reading a field gives the one value that it represents
(`Model.readField_eq_ok_iff`), so that each undoes the other.
-/

namespace Remoting

namespace Model

variable {m : Model}

/-- The type with the given number is of the given kind. -/
def HasKind (m : Model) (id : TypeId) (kind : TypeKind) : Prop :=
  ∃ info, m.type? id = some info ∧ info.kind = kind

mutual

/-- A field represents a value of a type. -/
inductive Represents (m : Model) : TypeId → Value → Field → Prop
  | bool {id : TypeId} (hkind : m.HasKind id .bool) (b : Bool) :
      Represents m id (.bool b) (.bool b)
  | int {id : TypeId} (hkind : m.HasKind id .int) (i : Int64) :
      Represents m id (.int i) (.int i)
  | float {id : TypeId} (hkind : m.HasKind id .float) (bits : UInt64) :
      Represents m id (.float bits) (.float bits)
  | string {id : TypeId} (hkind : m.HasKind id .string) (s : String) :
      Represents m id (.string s) (.string s)
  /-- The ordinal is that of one of the values of the enumeration. -/
  | enum {id : TypeId} {values : List EnumValue} (hkind : m.HasKind id (.enum values))
      {ordinal : Int64} (hordinal : ∃ v ∈ values, v.ordinal = ordinal) :
      Represents m id (.enum ordinal) (.enum ordinal)
  /-- Every slot has one value, in order. -/
  | record {id : TypeId} {slots : List Slot} (hkind : m.HasKind id (.record slots))
      {values : List Value} {fields : List Field}
      (hslots : RepresentEach m (slots.map (·.type)) values fields) :
      Represents m id (.record values) (.record fields)
  /-- All values are of the type of the elements. -/
  | sequence {id : TypeId} {element : Slot} (hkind : m.HasKind id (.sequence element))
      {values : List Value} {fields : List Field}
      (helements : RepresentEach m (List.replicate values.length element.type) values fields) :
      Represents m id (.sequence values) (.sequence fields)
  | object {id : TypeId} {members : Interface} (hkind : m.HasKind id (.interface members))
      (object : ObjectId) :
      Represents m id (.object object) (.object object)
  | any {id : TypeId} (hkind : m.HasKind id .any) (bytes : Bytes) :
      Represents m id (.any bytes) (.any bytes)

/-- Fields represent values, each of its own type. -/
inductive RepresentEach (m : Model) : List TypeId → List Value → List Field → Prop
  | nil : RepresentEach m [] [] []
  | cons {id : TypeId} {ids : List TypeId} {value : Value} {values : List Value} {field : Field}
      {fields : List Field} (hfirst : Represents m id value field)
      (hrest : RepresentEach m ids values fields) :
      RepresentEach m (id :: ids) (value :: values) (field :: fields)

end

theorem RepresentEach.length_eq {ids : List TypeId} {values : List Value} {fields : List Field}
    (h : m.RepresentEach ids values fields) :
    values.length = ids.length ∧ fields.length = ids.length := by
  induction ids generalizing values fields with
  | nil =>
    cases h
    exact ⟨rfl, rfl⟩
  | cons id ids ih =>
    cases h with
    | cons _ hrest =>
      obtain ⟨hvalues, hfields⟩ := ih hrest
      exact ⟨congrArg (· + 1) hvalues, congrArg (· + 1) hfields⟩

/-- A field that represents a value is of the kind that the values of the type take. -/
theorem Represents.fieldKind_eq {id : TypeId} {value : Value} {field : Field}
    (h : m.Represents id value field) :
    ∃ info, m.type? id = some info ∧ info.kind.fieldKind? = some field.kind := by
  cases h
  all_goals
    next hkind =>
      obtain ⟨info, hinfo, hkind⟩ := hkind
      exact ⟨info, hinfo, by rw [hkind]; rfl⟩

/-! ## Writing -/

theorem writeAll_eq (id : TypeId) (values : List Value) :
    m.writeAll id values = m.writeEach (List.replicate values.length id) values := by
  induction values with
  | nil => rfl
  | cons value values ih =>
    rw [writeAll, ih, List.length_cons, List.replicate_succ, writeEach]

/-- A value is written as any field that represents it. -/
theorem Represents.writeValue_eq {id : TypeId} {value : Value} {field : Field}
    (h : m.Represents id value field) : m.writeValue id value = .ok field := by
  induction h using Represents.rec
    (motive_2 := fun ids values fields _ => m.writeEach ids values = .ok fields) with
  | nil => rfl
  | cons hfirst hrest ihfirst ihrest => simp [writeEach, ihfirst, ihrest, Except.map]
  | enum hkind hordinal =>
    obtain ⟨info, hinfo, hkind⟩ := hkind
    rw [writeValue.eq_def, hinfo]
    simp [hkind, hordinal]
  | record hkind hslots ih =>
    obtain ⟨info, hinfo, hkind⟩ := hkind
    have hlength := hslots.length_eq.1
    rw [List.length_map] at hlength
    rw [writeValue.eq_def, hinfo]
    simp [hkind, hlength, ih, Except.map]
  | sequence hkind helements ih =>
    obtain ⟨info, hinfo, hkind⟩ := hkind
    rw [writeValue.eq_def, hinfo]
    simp [hkind, writeAll_eq, ih, Except.map]
  | _ hkind =>
    obtain ⟨info, hinfo, hkind⟩ := hkind
    rw [writeValue.eq_def, hinfo]
    simp [hkind]

mutual

/-- The field that a value is written as represents it. -/
theorem represents_of_writeValue {id : TypeId} {value : Value} {field : Field}
    (h : m.writeValue id value = .ok field) : m.Represents id value field := by
  rw [writeValue.eq_def] at h
  split at h
  · contradiction
  · next info hinfo =>
    split at h
    · next hkind =>
      cases h
      exact .bool ⟨info, hinfo, hkind⟩ _
    · next hkind =>
      cases h
      exact .int ⟨info, hinfo, hkind⟩ _
    · next hkind =>
      cases h
      exact .float ⟨info, hinfo, hkind⟩ _
    · next hkind =>
      cases h
      exact .string ⟨info, hinfo, hkind⟩ _
    · next hkind =>
      split at h
      · next hordinal =>
        cases h
        exact .enum ⟨info, hinfo, hkind⟩ (by simpa using hordinal)
      · contradiction
    · next slots values hkind =>
      split at h
      · next hlength =>
        obtain ⟨fields, hfields, rfl⟩ := map_eq_ok_iff.mp h
        exact .record ⟨info, hinfo, hkind⟩
          (representEach_of_writeEach (by rw [List.length_map, hlength]) hfields)
      · contradiction
    · next element values hkind =>
      obtain ⟨fields, hfields, rfl⟩ := map_eq_ok_iff.mp h
      rw [writeAll_eq] at hfields
      exact .sequence ⟨info, hinfo, hkind⟩
        (representEach_of_writeEach List.length_replicate hfields)
    · next hkind =>
      cases h
      exact .object ⟨info, hinfo, hkind⟩ _
    · next hkind =>
      cases h
      exact .any ⟨info, hinfo, hkind⟩ _
    · contradiction

theorem representEach_of_writeEach {ids : List TypeId} {values : List Value} {fields : List Field}
    (hlength : ids.length = values.length) (h : m.writeEach ids values = .ok fields) :
    m.RepresentEach ids values fields := by
  match values, ids with
  | [], [] =>
    cases h
    exact .nil
  | value :: values, id :: ids =>
    rw [writeEach] at h
    split at h
    · contradiction
    · next field hfield =>
      obtain ⟨fields, hfields, rfl⟩ := map_eq_ok_iff.mp h
      exact .cons (represents_of_writeValue hfield)
        (representEach_of_writeEach (Nat.succ.inj hlength) hfields)

end

/-- Writing a value gives the one field that represents it. -/
theorem writeValue_eq_ok_iff {id : TypeId} {value : Value} {field : Field} :
    m.writeValue id value = .ok field ↔ m.Represents id value field :=
  ⟨represents_of_writeValue, Represents.writeValue_eq⟩

/-! ## Reading -/

theorem readAll_eq (id : TypeId) (position : Nat) (fields : List Field) :
    m.readAll id position fields =
      m.readEach (List.replicate fields.length id) position fields := by
  induction fields generalizing position with
  | nil => rfl
  | cons field fields ih =>
    rw [readAll, ih, List.length_cons, List.replicate_succ, readEach]

/-- A field is read as any value that it represents, wherever it stands. -/
theorem Represents.readField_eq {id : TypeId} {value : Value} {field : Field}
    (h : m.Represents id value field) (position : Nat) :
    m.readField id position field = .ok value := by
  induction h using Represents.rec
    (motive_2 := fun ids values fields _ =>
      ∀ position, m.readEach ids position fields = .ok values)
    generalizing position with
  | nil => rfl
  | cons hfirst hrest ihfirst ihrest =>
    rename_i position
    simp [readEach, ihfirst position, ihrest (position + 1), Except.map]
  | enum hkind hordinal =>
    obtain ⟨info, hinfo, hkind⟩ := hkind
    rw [readField.eq_def, hinfo]
    simp [hkind, TypeKind.fieldKind?, hordinal]
  | record hkind hslots ih =>
    obtain ⟨info, hinfo, hkind⟩ := hkind
    rw [readField.eq_def, hinfo]
    simp [hkind, TypeKind.fieldKind?, ih 0, Except.map]
  | sequence hkind helements ih =>
    obtain ⟨info, hinfo, hkind⟩ := hkind
    have hlength := helements.length_eq.2
    rw [List.length_replicate] at hlength
    rw [readField.eq_def, hinfo]
    simp [hkind, TypeKind.fieldKind?, readAll_eq, hlength, ih 0, Except.map]
  | _ hkind =>
    obtain ⟨info, hinfo, hkind⟩ := hkind
    rw [readField.eq_def, hinfo]
    simp [hkind, TypeKind.fieldKind?]

mutual

/-- A field represents the value that it is read as. -/
theorem represents_of_readField {id : TypeId} {position : Nat} {value : Value} {field : Field}
    (h : m.readField id position field = .ok value) : m.Represents id value field := by
  rw [readField.eq_def] at h
  split at h
  · contradiction
  · next info hinfo =>
    split at h
    · contradiction
    · split at h
      · next hkind =>
        cases h
        exact .bool ⟨info, hinfo, hkind⟩ _
      · next hkind =>
        cases h
        exact .int ⟨info, hinfo, hkind⟩ _
      · next hkind =>
        cases h
        exact .float ⟨info, hinfo, hkind⟩ _
      · next hkind =>
        cases h
        exact .string ⟨info, hinfo, hkind⟩ _
      · next hkind =>
        split at h
        · next hordinal =>
          cases h
          exact .enum ⟨info, hinfo, hkind⟩ (by simpa using hordinal)
        · contradiction
      · next slots fields hkind =>
        obtain ⟨values, hvalues, rfl⟩ := map_eq_ok_iff.mp h
        exact .record ⟨info, hinfo, hkind⟩ (representEach_of_readEach hvalues)
      · next element fields hkind =>
        obtain ⟨values, hvalues, rfl⟩ := map_eq_ok_iff.mp h
        rw [readAll_eq] at hvalues
        have hitems := representEach_of_readEach hvalues
        have hlength := hitems.length_eq.1
        rw [List.length_replicate] at hlength
        exact .sequence ⟨info, hinfo, hkind⟩ (hlength ▸ hitems)
      · next hkind =>
        cases h
        exact .object ⟨info, hinfo, hkind⟩ _
      · next hkind =>
        cases h
        exact .any ⟨info, hinfo, hkind⟩ _
      · contradiction

theorem representEach_of_readEach {ids : List TypeId} {position : Nat} {values : List Value}
    {fields : List Field} (h : m.readEach ids position fields = .ok values) :
    m.RepresentEach ids values fields := by
  match fields, ids with
  | [], [] =>
    cases h
    exact .nil
  | [], _ :: _ | _ :: _, [] =>
    rw [readEach] at h
    contradiction
  | field :: fields, id :: ids =>
    rw [readEach] at h
    split at h
    · contradiction
    · next value hvalue =>
      obtain ⟨values, hvalues, rfl⟩ := map_eq_ok_iff.mp h
      exact .cons (represents_of_readField hvalue) (representEach_of_readEach hvalues)

end

/-- Reading a field gives the one value that it represents, wherever the field stands. -/
theorem readField_eq_ok_iff {id : TypeId} {position : Nat} {value : Value} {field : Field} :
    m.readField id position field = .ok value ↔ m.Represents id value field :=
  ⟨represents_of_readField, fun h => h.readField_eq position⟩

/-- A reader gives a value exactly when it stands at a field that represents it, and then moves
past that field. -/
theorem read_eq_ok_iff {id : TypeId} {value : Value} {r r' : Reader} :
    m.read id r = (.ok value, r') ↔
      ∃ field, r.fields[r.position]? = some field ∧ m.Represents id value field ∧
        r' = { r with position := r.position + 1 } := by
  unfold read
  cases hfield : r.fields[r.position]? with
  | none => simp
  | some field =>
    simp only [Prod.mk.injEq, readField_eq_ok_iff, Option.some.injEq, exists_eq_left']
    refine and_congr_right fun h => ?_
    obtain ⟨info, hinfo, hkind⟩ := h.fieldKind_eq
    have haccepts : m.accepts id field = true := by simp [accepts, hinfo, hkind]
    rw [if_pos haccepts, eq_comm]

/-! ## There and back -/

/-- **Writing and reading are inverse to one another.** A value that can be written appends one
field, of the kind that the values of its type take, and every reader that stands at such a field
reads the value back and moves on by one. A value that can be read took one field, and writing it
appends that very field to whatever is there. -/
theorem write_read_inverse (m : Model) (id : TypeId) (value : Value) :
    (∀ fields fields', m.write fields id value = .ok fields' →
      ∃ field, fields' = fields ++ [field] ∧ m.fieldKind id = .ok (some field.kind) ∧
        ∀ r : Reader, r.fields[r.position]? = some field →
          m.read id r = (.ok value, { r with position := r.position + 1 })) ∧
    (∀ r r' : Reader, m.read id r = (.ok value, r') →
      ∃ field, r.fields[r.position]? = some field ∧
        r' = { r with position := r.position + 1 } ∧
        ∀ fields, m.write fields id value = .ok (fields ++ [field])) := by
  constructor
  · intro fields fields' hwrite
    obtain ⟨field, hvalue, rfl⟩ := map_eq_ok_iff.mp hwrite
    have h := writeValue_eq_ok_iff.mp hvalue
    obtain ⟨info, hinfo, hkind⟩ := h.fieldKind_eq
    have htype : m.type id = .ok info := by rw [type, hinfo]
    refine ⟨field, rfl, ?_, fun r hr => read_eq_ok_iff.mpr ⟨field, hr, h, rfl⟩⟩
    simp [fieldKind, htype, hkind, pure, bind, Except.bind, Except.pure]
  · intro r r' hread
    obtain ⟨field, hr, h, rfl⟩ := read_eq_ok_iff.mp hread
    refine ⟨field, hr, rfl, fun fields => ?_⟩
    rw [write, writeValue_eq_ok_iff.mpr h]
    rfl

/-! A stop of a timetable has a platform, a fare and further stops. -/

def stops : List Edit :=
  [.add "Rail" "Platform" (.enum [⟨"EAST", "", "", 1⟩, ⟨"WEST", "", "", -2⟩]),
   .declare "Rail" "Stop" .record,
   .add "Rail" "Stops" (.sequence { ident := "stop", type := ⟨8⟩ }),
   .define ⟨8⟩ (.record
    [{ ident := "platform", type := ⟨7⟩ }, { ident := "fare", type := .float },
     { ident := "next", type := ⟨9⟩ }])]

def timetable : Model := ⟨(Builder.build stops).types, (Builder.build stops).namespaces⟩

/-- One fare is a negative zero and the other one no number at all. -/
def westbound : Value :=
  .record [.enum (-2), .float 0x7FF8000000000001,
    .sequence [.record [.enum 1, .float 0x8000000000000000, .sequence []]]]

theorem write_read_inverse_westbound :
    (Builder.build stops).finish = .ok timetable ∧
      (∃ fields', timetable.write [.bool true] ⟨8⟩ westbound = .ok fields' ∧
        ∃ field, fields' = [.bool true] ++ [field] ∧
          timetable.fieldKind ⟨8⟩ = .ok (some field.kind) ∧
          ∀ r : Reader, r.fields[r.position]? = some field →
            timetable.read ⟨8⟩ r = (.ok westbound, { r with position := r.position + 1 })) ∧
      ∃ r r', timetable.read ⟨8⟩ r = (.ok westbound, r') ∧
        ∃ field, r.fields[r.position]? = some field ∧
          r' = { r with position := r.position + 1 } ∧
          ∀ fields, timetable.write fields ⟨8⟩ westbound = .ok (fields ++ [field]) := by
  have hwrite : timetable.write [.bool true] ⟨8⟩ westbound =
      .ok [.bool true, westbound.toField] := by cbv
  have hread : timetable.read ⟨8⟩ ⟨[.int 5, westbound.toField], 1⟩ =
      (.ok westbound, ⟨[.int 5, westbound.toField], 2⟩) := by cbv
  exact ⟨by cbv, ⟨_, hwrite, (write_read_inverse timetable ⟨8⟩ westbound).1 _ _ hwrite⟩,
    _, _, hread, (write_read_inverse timetable ⟨8⟩ westbound).2 _ _ hread⟩

end Model

end Remoting
