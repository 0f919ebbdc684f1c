import Remoting.Proofs.Closedness

/-!
# Remoting.Proofs.Conformance

Which values can be written, and what is left of a writing that fails. `Model.Conforms` says which
values are of a type, by the kinds of types alone: a value of a record has as many values as there
are slots, an ordinal is that of one of the values of the enumeration, interfaces have objects, and
void and functions have nothing at all.

Here values are also written in place, behind the fields that are there (`Model.put`). A writing
that fails has written whatever came before the failure, and does not take it back. But the values
of a record or of a sequence are written aside, on a list of their own, so that nothing of a value
that does not conform is ever on the list of the caller (`Model.perform_put`,
`Model.putsWhole_of_finish`).
-/

namespace Remoting

/-! ## Values of a type -/

namespace Model

variable {m : Model} {id : TypeId} {value : Value}

/-- A value is of a type. -/
inductive Conforms (m : Model) : TypeId → Value → Prop
  | bool {id : TypeId} (hkind : m.HasKind id .bool) (b : Bool) : Conforms m id (.bool b)
  | int {id : TypeId} (hkind : m.HasKind id .int) (i : Int64) : Conforms m id (.int i)
  | float {id : TypeId} (hkind : m.HasKind id .float) (bits : UInt64) : Conforms m id (.float bits)
  | string {id : TypeId} (hkind : m.HasKind id .string) (s : String) : Conforms m id (.string s)
  /-- The ordinal is declared. -/
  | enum {id : TypeId} {values : List EnumValue} (hkind : m.HasKind id (.enum values))
      {ordinal : Int64} (hordinal : ∃ v ∈ values, v.ordinal = ordinal) :
      Conforms m id (.enum ordinal)
  /-- There are as many values as slots, and each is of the type of its slot. -/
  | record {id : TypeId} {slots : List Slot} (hkind : m.HasKind id (.record slots))
      {values : List Value} (hlength : values.length = slots.length)
      (hvalues : ∀ x ∈ slots.zip values, Conforms m x.1.type x.2) :
      Conforms m id (.record values)
  /-- All values are of the type of the elements. -/
  | sequence {id : TypeId} {element : Slot} (hkind : m.HasKind id (.sequence element))
      {values : List Value} (hvalues : ∀ value ∈ values, Conforms m element.type value) :
      Conforms m id (.sequence values)
  | object {id : TypeId} {members : Interface} (hkind : m.HasKind id (.interface members))
      (object : ObjectId) : Conforms m id (.object object)
  | any {id : TypeId} (hkind : m.HasKind id .any) (bytes : Bytes) : Conforms m id (.any bytes)

theorem HasKind.unique {kind kind' : TypeKind} (h : m.HasKind id kind) (h' : m.HasKind id kind') :
    kind = kind' := by
  obtain ⟨info, hinfo, rfl⟩ := h
  obtain ⟨info', hinfo', rfl⟩ := h'
  rw [Option.some.inj (hinfo.symm.trans hinfo')]

/-- Types whose values take no field have no values. -/
theorem not_conforms_of_fieldKind?_eq_none {kind : TypeKind} (hkind : m.HasKind id kind)
    (hnone : kind.fieldKind? = none) : ¬ m.Conforms id value := by
  intro h
  cases h
  all_goals
    next hkind' =>
      obtain rfl := hkind.unique hkind'
      contradiction

theorem forall₂_replicate_left_iff {R : α → β → Prop} {a : α} {l : List β} :
    List.Forall₂ R (List.replicate l.length a) l ↔ ∀ b ∈ l, R a b := by
  induction l with
  | nil => simp
  | cons b l ih => simp [List.replicate_succ, ih]

theorem exists_representEach {ids : List TypeId} {values : List Value}
    (h : List.Forall₂ (fun id value => ∃ field, m.Represents id value field) ids values) :
    ∃ fields, m.RepresentEach ids values fields := by
  induction h with
  | nil => exact ⟨[], .nil⟩
  | cons hfirst _ ih =>
    obtain ⟨field, hfield⟩ := hfirst
    obtain ⟨fields, hfields⟩ := ih
    exact ⟨field :: fields, .cons hfield hfields⟩

/-- A value of a type is represented by a field. -/
theorem Conforms.exists_represents (h : m.Conforms id value) :
    ∃ field, m.Represents id value field := by
  induction h with
  | bool hkind b => exact ⟨_, .bool hkind b⟩
  | int hkind i => exact ⟨_, .int hkind i⟩
  | float hkind bits => exact ⟨_, .float hkind bits⟩
  | string hkind s => exact ⟨_, .string hkind s⟩
  | enum hkind hordinal => exact ⟨_, .enum hkind hordinal⟩
  | record hkind hlength _ ih =>
    obtain ⟨fields, hfields⟩ := exists_representEach (List.forall₂_map_left_iff.mpr
      (List.forall₂_iff_zip.mpr ⟨hlength.symm, fun hmem => ih _ hmem⟩))
    exact ⟨_, .record hkind hfields⟩
  | sequence hkind _ ih =>
    obtain ⟨fields, hfields⟩ := exists_representEach (forall₂_replicate_left_iff.mpr ih)
    exact ⟨_, .sequence hkind hfields⟩
  | object hkind object => exact ⟨_, .object hkind object⟩
  | any hkind bytes => exact ⟨_, .any hkind bytes⟩

/-- A value that is represented by a field is of the type. -/
theorem Represents.conforms {field : Field} (h : m.Represents id value field) :
    m.Conforms id value := by
  induction h using Represents.rec
    (motive_2 := fun ids values _ _ => List.Forall₂ m.Conforms ids values) with
  | nil => exact .nil
  | cons _ _ ihfirst ihrest => exact .cons ihfirst ihrest
  | bool hkind b => exact .bool hkind b
  | int hkind i => exact .int hkind i
  | float hkind bits => exact .float hkind bits
  | string hkind s => exact .string hkind s
  | enum hkind hordinal => exact .enum hkind hordinal
  | record hkind _ ih =>
    obtain ⟨hlength, hvalues⟩ := List.forall₂_iff_zip.mp (List.forall₂_map_left_iff.mp ih)
    exact .record hkind hlength.symm fun x hx => hvalues hx
  | sequence hkind _ ih => exact .sequence hkind (forall₂_replicate_left_iff.mp ih)
  | object hkind object => exact .object hkind object
  | any hkind bytes => exact .any hkind bytes

/-- Values of a type are those that a field represents. -/
theorem conforms_iff_exists_represents :
    m.Conforms id value ↔ ∃ field, m.Represents id value field :=
  ⟨Conforms.exists_represents, fun ⟨_, h⟩ => h.conforms⟩

end Model

/-! ## Writing in place -/

/-- Writing behind the fields that are there; what has been written survives a failure. -/
abbrev Writing := ExceptT ValueError (StateM (List Field))

namespace Writing

/-- Perform a writing behind the given fields. -/
def perform (x : Writing α) (fields : List Field) : Except ValueError α × List Field :=
  x.run.run fields

/-- Write one field. -/
def push (field : Field) : Writing Unit := modify (· ++ [field])

/-- What is written on a list of its own. If that fails, the list is lost. -/
def aside (x : Writing Unit) : Writing (List Field) := fun fields =>
  match x.perform [] with
  | (.ok (), nested) => (.ok nested, fields)
  | (.error e, _) => (.error e, fields)

@[simp] theorem perform_pure (a : α) (fields : List Field) :
    (pure a : Writing α).perform fields = (.ok a, fields) := rfl

/-- A writing that fails ends there. -/
theorem perform_bind_of_error {x : Writing α} {f : α → Writing β} {e : ValueError}
    {fields fields' : List Field} (h : x.perform fields = (.error e, fields')) :
    (x >>= f).perform fields = (.error e, fields') := by
  have hx : x fields = (.error e, fields') := h
  simp [perform, ExceptT.run, StateT.run, bind, ExceptT.bind, ExceptT.mk, StateT.bind, hx,
    ExceptT.bindCont]
  rfl

theorem perform_bind_of_ok {x : Writing α} {f : α → Writing β} {a : α}
    {fields fields' : List Field} (h : x.perform fields = (.ok a, fields')) :
    (x >>= f).perform fields = (f a).perform fields' := by
  have hx : x fields = (.ok a, fields') := h
  simp [perform, ExceptT.run, StateT.run, bind, ExceptT.bind, ExceptT.mk, StateT.bind, hx,
    ExceptT.bindCont]

/-- A writing gives the fields of a computation, one behind the other, or the error of it. -/
structure Gives (x : Writing Unit) (r : Except ValueError (List Field)) : Prop where
  ok : ∀ written, r = .ok written → ∀ fields, x.perform fields = (.ok (), fields ++ written)
  error : ∀ e, r = .error e → ∀ fields, ∃ left, x.perform fields = (.error e, left)

theorem Gives.nothing : Gives (pure ()) (.ok []) where
  ok := by simp
  error := by simp

theorem Gives.of_error {x : Writing α} {f : α → Writing Unit} {e : ValueError}
    (hx : ∀ fields, x.perform fields = (.error e, fields)) : (x >>= f).Gives (.error e) where
  ok := by simp
  error := by
    intro e' he fields
    cases he
    exact ⟨fields, perform_bind_of_error (hx fields)⟩

theorem Gives.cons {x y : Writing Unit} {field : Field} {r : Except ValueError (List Field)}
    (hx : ∀ fields, x.perform fields = (.ok (), fields ++ [field])) (hy : y.Gives r) :
    (x >>= fun _ => y).Gives (r.map (field :: ·)) where
  ok := by
    intro written hwritten fields
    obtain ⟨rest, hrest, rfl⟩ := map_eq_ok_iff.mp hwritten
    rw [perform_bind_of_ok (hx fields), hy.ok rest hrest, List.append_assoc, List.singleton_append]
  error := by
    intro e he fields
    rw [perform_bind_of_ok (hx fields)]
    exact hy.error e (map_eq_error_iff.mp he) _

/-- What is written aside is written at once, or not at all. -/
theorem Gives.perform_aside {x : Writing Unit} {r : Except ValueError (List Field)}
    (h : x.Gives r) (fields : List Field) : (aside x).perform fields = (r, fields) := by
  have haside : (aside x).perform fields = aside x fields := rfl
  rw [haside, aside]
  cases hr : r with
  | ok written => rw [h.ok written hr, List.nil_append]
  | error e =>
    obtain ⟨left, hleft⟩ := h.error e hr []
    rw [hleft]

end Writing

namespace Model

open Writing (push aside)

mutual

/-- Write a value of a type. -/
def put (m : Model) (id : TypeId) (value : Value) : Writing Unit :=
  match m.type? id with
  | none => throw (.absent id)
  | some info =>
    match info.kind, value with
    | .bool, .bool b => push (.bool b)
    | .int, .int i => push (.int i)
    | .float, .float bits => push (.float bits)
    | .string, .string s => push (.string s)
    | .enum values, .enum ordinal =>
      if values.any (·.ordinal == ordinal) then push (.enum ordinal)
      else throw (.noOrdinal info.qualifiedName ordinal)
    | .record slots, .record values =>
      if slots.length = values.length then do
        let nested ← aside (m.putEach (slots.map (·.type)) values)
        push (.record nested)
      else throw (.wrongLength info.qualifiedName slots.length values.length)
    | .sequence element, .sequence values => do
      let nested ← aside (m.putAll element.type values)
      push (.sequence nested)
    | .interface _, .object id => push (.object id)
    | .any, .any bytes => push (.any bytes)
    | _, _ => throw (.mismatch value.kindName info.qualifiedName)
termination_by structural value

/-- Write values one after the other, each of its own type. -/
def putEach (m : Model) (ids : List TypeId) (values : List Value) : Writing Unit :=
  match values with
  | [] => pure ()
  | value :: values =>
    match ids with
    | [] => pure ()
    | id :: ids => do
      m.put id value
      m.putEach ids values
termination_by structural values

/-- Write values of one type one after the other. -/
def putAll (m : Model) (id : TypeId) (values : List Value) : Writing Unit :=
  match values with
  | [] => pure ()
  | value :: values => do
    m.put id value
    m.putAll id values
termination_by structural values

end

/-- What is done as a whole or not at all. -/
def atOnce (fields : List Field) : Except ε (List Field) → Except ε Unit × List Field
  | .ok fields' => (.ok (), fields')
  | .error e => (.error e, fields)

theorem atOnce_eq_error_iff {r : Except ε (List Field)} {e : ε} {fields fields' : List Field} :
    atOnce fields r = (.error e, fields') ↔ r = .error e ∧ fields' = fields := by
  cases r with
  | ok written => simp [atOnce]
  | error e' => simp [atOnce, eq_comm]

theorem putAll_eq (m : Model) (id : TypeId) (values : List Value) :
    m.putAll id values = m.putEach (List.replicate values.length id) values := by
  induction values with
  | nil => rfl
  | cons value values ih =>
    rw [putAll, ih, List.length_cons, List.replicate_succ, putEach]

theorem perform_aside_push {x : Writing Unit} {r : Except ValueError (List Field)} (h : x.Gives r)
    (make : List Field → Field) (fields : List Field) :
    (do let nested ← aside x; push (make nested)).perform fields =
      atOnce fields ((r.map make).map (fields ++ [·])) := by
  have haside := h.perform_aside fields
  cases r with
  | ok written => exact Writing.perform_bind_of_ok haside
  | error e => exact Writing.perform_bind_of_error haside

mutual

/-- A value is written behind the fields that are there, or they stay as they are. -/
theorem perform_put (m : Model) (id : TypeId) (value : Value) (fields : List Field) :
    (m.put id value).perform fields = atOnce fields (m.write fields id value) := by
  rw [put.eq_def, write, writeValue.eq_def]
  cases m.type? id with
  | none => rfl
  | some info =>
    dsimp only
    generalize info.kind = kind
    split
    · rfl
    · rfl
    · rfl
    · rfl
    · next values ordinal =>
      by_cases hordinal : values.any (·.ordinal == ordinal) = true
      · simp only [if_pos hordinal]
        rfl
      · simp only [if_neg hordinal]
        rfl
    · next slots values =>
      have hslots := gives_putEach m (slots.map (·.type)) values
      by_cases hlength : slots.length = values.length
      · simp only [if_pos hlength]
        exact perform_aside_push hslots .record fields
      · simp only [if_neg hlength]
        rfl
    · next element values =>
      have helements := gives_putEach m (List.replicate values.length element.type) values
      simp only [putAll_eq, writeAll_eq]
      exact perform_aside_push helements .sequence fields
    · rfl
    · rfl
    · -- the value is of another kind, and falls through on both sides
      try simp only [*]
      rfl

/-- Values in a row are written one by one. -/
theorem gives_putEach (m : Model) (ids : List TypeId) (values : List Value) :
    (m.putEach ids values).Gives (m.writeEach ids values) := by
  match values, ids with
  | [], _ | _ :: _, [] => exact .nothing
  | value :: values, id :: ids =>
    have hfirst := perform_put m id value
    simp only [write] at hfirst
    simp only [putEach, writeEach]
    cases hvalue : m.writeValue id value with
    | error e => exact .of_error fun fields => by rw [hfirst, hvalue]; rfl
    | ok field =>
      exact .cons (fun fields => by rw [hfirst, hvalue]; rfl) (gives_putEach m ids values)

end

/-! ## All or nothing -/

/-- Exactly the values of a type can be written. -/
theorem exists_write_eq_ok_iff {m : Model} {id : TypeId} {value : Value} {fields : List Field} :
    (∃ fields', m.write fields id value = .ok fields') ↔ m.Conforms id value := by
  rw [conforms_iff_exists_represents]
  constructor
  · rintro ⟨fields', hwrite⟩
    obtain ⟨field, hfield, -⟩ := map_eq_ok_iff.mp hwrite
    exact ⟨field, writeValue_eq_ok_iff.mp hfield⟩
  · rintro ⟨field, hfield⟩
    exact ⟨fields ++ [field], map_eq_ok_iff.mpr ⟨field, writeValue_eq_ok_iff.mpr hfield, rfl⟩⟩

/-- Writing a value in place gives all of it or nothing. -/
structure PutsWhole (m : Model) (id : TypeId) (value : Value) (fields : List Field) : Prop where
  /-- What is written in place is what is written at once. -/
  agrees : (m.put id value).perform fields = atOnce fields (m.write fields id value)
  /-- Values of the type can be written, and nothing else. -/
  succeeds : (∃ fields', m.write fields id value = .ok fields') ↔ m.Conforms id value
  /-- A value that can be written takes one field. -/
  appends : m.Conforms id value → ∃ field, m.Represents id value field ∧
    (m.put id value).perform fields = (.ok (), fields ++ [field])
  /-- A writing that fails leaves the fields as they were. -/
  untouched : ∀ e fields', (m.put id value).perform fields = (.error e, fields') →
    fields' = fields
  /-- It does not fail for the lack of a type. -/
  present : id.Within m.types → ∀ t fields',
    (m.put id value).perform fields ≠ (.error (.absent t), fields')
  /-- Void and functions have no values. -/
  bare : ∀ kind, m.HasKind id kind → kind.storage = .void ∨ kind.storage = .function →
    ¬ m.Conforms id value

/-- **A value is written whole or not at all.** In a finished model, writing a value succeeds
exactly when the value is of the type. When it fails, however deep inside the value, the fields are
what they were before. -/
theorem putsWhole_of_finish {edits : List Edit} {m : Model}
    (hm : (Builder.build edits).finish = .ok m) (id : TypeId) (value : Value)
    (fields : List Field) : PutsWhole m id value fields where
  agrees := perform_put m id value fields
  succeeds := exists_write_eq_ok_iff
  appends h := by
    obtain ⟨field, hfield⟩ := h.exists_represents
    refine ⟨field, hfield, ?_⟩
    rw [perform_put, write, writeValue_eq_ok_iff.mpr hfield]
    rfl
  untouched e fields' h := by
    rw [perform_put, atOnce_eq_error_iff] at h
    exact h.2
  present hid t fields' h := by
    rw [perform_put, atOnce_eq_error_iff] at h
    exact (write_absent_iff (closed_of_finish hm) fields value).mp ⟨t, h.1⟩ hid
  bare kind hkind hstorage := by
    refine not_conforms_of_fieldKind?_eq_none hkind ?_
    cases kind <;> simp_all [TypeKind.storage, TypeKind.fieldKind?]

/-- A stop whose second stop to come has an ordinal that no platform has. -/
def derailed : Value :=
  .record [.enum 1, .float 0, .sequence
    [.record [.enum 1, .float 0, .sequence []], .record [.enum 3, .float 0, .sequence []]]]

theorem putsWhole_derailed :
    (Builder.build stops).finish = .ok timetable ∧
      PutsWhole timetable ⟨8⟩ derailed [.bool true] ∧ ¬ timetable.Conforms ⟨8⟩ derailed ∧
      (timetable.put ⟨8⟩ derailed).perform [.bool true] =
        (.error (.noOrdinal "Rail::Platform" 3), [.bool true]) := by
  have hfinish : (Builder.build stops).finish = .ok timetable := by cbv
  have hputs := putsWhole_of_finish hfinish ⟨8⟩ derailed [.bool true]
  have hwrite : timetable.write [.bool true] ⟨8⟩ derailed =
      .error (.noOrdinal "Rail::Platform" 3) := by cbv
  refine ⟨hfinish, hputs, ?_, ?_⟩
  · intro hconforms
    obtain ⟨fields', hok⟩ := hputs.succeeds.mpr hconforms
    rw [hwrite] at hok
    contradiction
  · rw [hputs.agrees, hwrite]
    rfl

end Model

end Remoting
