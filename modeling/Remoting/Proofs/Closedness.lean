import Remoting.Proofs.ClassHierarchy
import Remoting.Proofs.ValueCodec

/-!
# Remoting.Proofs.Closedness

A finished model is closed: what is asked about its types never leads to a type that it does not
have. A lookup that does would be answered with `absent`, and nothing that looks up types goes on
after that. So it is enough to see what comes out in the end (`Model.selfContained_of_finish`).

Values are written and read along the parts of their types, and types are digested along the same
parts (`Model.Closed`). Operations are digested along the signatures of the members of interfaces,
and what interfaces inherit is found along their prerequisites (`Model.Founded`).
-/

namespace Remoting.Model

variable {m : Model} {i : TypeId}

/-! ## Values -/

mutual

/-- Writing a value of a type of the model asks for no other types. -/
theorem writeValue_ne_absent (hclosed : m.Closed) {i : TypeId} (hi : i.Within m.types)
    (value : Value) (id : TypeId) : m.writeValue i value ≠ .error (.absent id) := by
  obtain ⟨info, hinfo⟩ := exists_type?_of_within hi
  rw [writeValue.eq_def, hinfo]
  have hmembers := hclosed i info hinfo
  simp only
  split
  · simp
  · simp
  · simp
  · simp
  · split <;> simp
  · next slots values hkind =>
    rw [hkind] at hmembers
    split
    · rw [ne_eq, map_eq_error_iff]
      exact writeEach_ne_absent hclosed hmembers values id
    · simp
  · next element values hkind =>
    rw [hkind] at hmembers
    rw [ne_eq, map_eq_error_iff, writeAll_eq]
    refine writeEach_ne_absent hclosed (fun i hi => ?_) values id
    rw [List.eq_of_mem_replicate hi]
    exact hmembers element.type List.mem_cons_self
  · simp
  · simp
  · simp

/-- Writing values of types of the model meets no type outside it. -/
theorem writeEach_ne_absent (hclosed : m.Closed) {ids : List TypeId}
    (hids : ∀ i ∈ ids, i.Within m.types) (values : List Value) (id : TypeId) :
    m.writeEach ids values ≠ .error (.absent id) := by
  match values, ids with
  | [], _ => simp [writeEach]
  | _ :: _, [] => simp [writeEach]
  | value :: values, i :: ids =>
    obtain ⟨hi, hids⟩ := List.forall_mem_cons.mp hids
    have hfirst := writeValue_ne_absent hclosed hi value id
    have hrest := writeEach_ne_absent hclosed hids values id
    rw [writeEach]
    cases hvalue : m.writeValue i value with
    | error e =>
      rw [hvalue] at hfirst
      simpa using hfirst
    | ok field => rwa [ne_eq, map_eq_error_iff]

end

/-- Nor does reading where no field is left. -/
theorem readNothing_ne_absent (hi : i.Within m.types) (position : Nat) (id : TypeId) :
    m.readNothing i position ≠ .absent id := by
  obtain ⟨info, hinfo⟩ := exists_type?_of_within hi
  simp only [readNothing, hinfo]
  cases info.kind.fieldKind? <;> simp

mutual

/-- Reading a value of a type of the model asks for no other types. -/
theorem readField_ne_absent (hclosed : m.Closed) {i : TypeId} (hi : i.Within m.types)
    (position : Nat) (field : Field) (id : TypeId) :
    m.readField i position field ≠ .error (.absent id) := by
  obtain ⟨info, hinfo⟩ := exists_type?_of_within hi
  rw [readField.eq_def, hinfo]
  have hmembers := hclosed i info hinfo
  simp only
  split
  · simp
  · split
    · simp
    · simp
    · simp
    · simp
    · split <;> simp
    · next slots fields hkind =>
      rw [hkind] at hmembers
      rw [ne_eq, map_eq_error_iff]
      exact readEach_ne_absent hclosed hmembers 0 fields id
    · next element fields hkind =>
      rw [hkind] at hmembers
      rw [ne_eq, map_eq_error_iff, readAll_eq]
      refine readEach_ne_absent hclosed (fun i hi => ?_) 0 fields id
      rw [List.eq_of_mem_replicate hi]
      exact hmembers element.type List.mem_cons_self
    · simp
    · simp
    · simp

/-- Reading values in a row asks for no other types. -/
theorem readEach_ne_absent (hclosed : m.Closed) {ids : List TypeId}
    (hids : ∀ i ∈ ids, i.Within m.types) (position : Nat) (fields : List Field) (id : TypeId) :
    m.readEach ids position fields ≠ .error (.absent id) := by
  match fields, ids with
  | [], [] => simp [readEach]
  | [], i :: ids =>
    have hi := hids i List.mem_cons_self
    simp [readEach, readNothing_ne_absent hi position id]
  | _ :: _, [] => simp [readEach]
  | field :: fields, i :: ids =>
    obtain ⟨hi, hids⟩ := List.forall_mem_cons.mp hids
    have hfirst := readField_ne_absent hclosed hi position field id
    have hrest := readEach_ne_absent hclosed hids (position + 1) fields id
    rw [readEach]
    cases hvalue : m.readField i position field with
    | error e =>
      rw [hvalue] at hfirst
      simpa using hfirst
    | ok value => rwa [ne_eq, map_eq_error_iff]

end

/-! ## Digests -/

theorem Correspondence.refl (m : Model) (i : TypeId) : m.Correspondence m id i where
  injective := Set.injOn_id _
  alike j info _ hinfo := by
    refine ⟨info, hinfo, rfl, rfl, ?_⟩
    cases info.kind <;> simp [TypeKind.Alike]

/-- Every type of a closed model has a digest. -/
theorem exists_typeDigest_of_within (hclosed : m.Closed) (hi : i.Within m.types) :
    ∃ d, m.typeDigest i = .ok d := by
  obtain ⟨d, hd, -⟩ := agree_typeDigest hclosed (.refl m i) hi
  exact ⟨d, hd⟩

/-- So has every operation on types of the model. -/
theorem exists_operationDigest (hclosed : m.Closed) (role : Role) (hi : i.Within m.types)
    (member : String) {args : List TypeId} {result : TypeId}
    (hargs : ∀ a ∈ args, a.Within m.types) (hresult : result.Within m.types) :
    ∃ d, m.operationDigest role i member args result = .ok d := by
  obtain ⟨info, hinfo⟩ := exists_type?_of_within hi
  obtain ⟨digests, hdigests⟩ :=
    exists_mapM_eq_ok fun a ha => exists_typeDigest_of_within hclosed (hargs a ha)
  obtain ⟨d, hd⟩ := exists_typeDigest_of_within hclosed hresult
  refine ⟨.ofTokens (operationTokens role info.qualifiedName member digests d), ?_⟩
  rw [operationDigest, type_eq_ok_iff.mpr hinfo, hdigests, hd]
  rfl

theorem exists_operationDigest_of_signature (hclosed : m.Closed) (role : Role)
    (hi : i.Within m.types) (member : String) {s : Signature} (hs : s.WellFormed m.types) :
    ∃ d, m.operationDigest role i member (s.parameters.map (·.type)) s.result = .ok d := by
  refine exists_operationDigest hclosed role hi member (fun a ha => ?_) hs.result
  obtain ⟨p, hp, rfl⟩ := List.mem_map.mp ha
  exact hs.parameters p hp

section Finished

variable {edits : List Edit}

/-- Every member of an interface has a digest in each of its roles. -/
theorem exists_memberDigest (hm : (Builder.build edits).finish = .ok m) {info : TypeInfo}
    {members : Interface} (hinfo : m.type? i = some info) (hkind : info.kind = .interface members)
    {x : Role × String} (hx : x ∈ memberRoles i members) :
    ∃ d, m.memberDigest x.1 i x.2 = .ok d := by
  have hclosed := closed_of_finish hm
  have hw : members.WellFormed m.types := wellFormed_of_interface hm hinfo hkind
  have hi : i.Within m.types := (List.getElem?_eq_some_iff.mp hinfo).1
  simp only [memberRoles, List.mem_append, List.mem_map, List.mem_flatMap] at hx
  rcases hx with ((⟨x, hx, rfl⟩ | ⟨x, hx, hrole⟩) | ⟨x, hx, rfl⟩) | hquestion
  · rw [memberDigest, methodDigest_of_mem hw hinfo hkind hx]
    exact exists_operationDigest_of_signature hclosed .call hi x.name (hw.methods x hx)
  · have hproperty := hw.properties x hx
    rcases List.mem_pair.mp hrole with rfl | rfl
    · rw [memberDigest, getterDigest_of_mem hw hinfo hkind hx]
      exact exists_operationDigest hclosed .get hi x.ident (by simp) hproperty
    · have hvoid : TypeId.void.Within m.types :=
        (List.getElem?_eq_some_iff.mp (type?_of_finish hm rfl)).1
      rw [memberDigest, setterDigest_of_mem hw hinfo hkind hx]
      exact exists_operationDigest hclosed .set hi x.ident (by simpa using hproperty) hvoid
  · rw [memberDigest, connectDigest_of_mem hw hinfo hkind hx]
    exact exists_operationDigest_of_signature hclosed .connect hi x.name (hw.signals x hx)
  · obtain ⟨d, hd, -⟩ := agree_typeListDigest hm
    have hx : x = (.typeList, typeListMember) := by
      split at hquestion
      · exact List.mem_singleton.mp hquestion
      · contradiction
    rw [hx]
    exact ⟨d, hd⟩

/-- The operations of an interface can be listed. -/
theorem exists_operations (hm : (Builder.build edits).finish = .ok m) (hi : m.HasInterface i) :
    ∃ all, m.operations i = .ok all := by
  obtain ⟨info, members, hinfo, hkind⟩ := hi.exists_members
  have hdescribe : ∀ x ∈ memberRoles i members, ∃ operation,
      (do return ⟨x.1, info.qualifiedName, x.2, ← m.memberDigest x.1 i x.2⟩ :
        Except SchemaError Operation) = .ok operation := by
    intro x hx
    obtain ⟨d, hd⟩ := exists_memberDigest hm hinfo hkind hx
    rw [hd]
    exact ⟨_, rfl⟩
  obtain ⟨all, hall⟩ := exists_mapM_eq_ok hdescribe
  refine ⟨all, ?_⟩
  rw [operations, interface_eq_ok hinfo hkind, type_eq_ok_iff.mpr hinfo]
  exact hall

end Finished

/-! ## Interfaces -/

/-- A question about an interface is answered; about any other type it is refused. -/
def Settles (m : Model) (i : TypeId) (r : Except SchemaError α) : Prop :=
  (m.HasInterface i ∧ ∃ a, r = .ok a) ∨
    (¬ m.HasInterface i ∧ ∃ name, r = .error (.wrongKind name .interface))

/-- A type that is no interface is refused as one. -/
theorem interface_eq_error (hi : i.Within m.types) (h : ¬ m.HasInterface i) :
    ∃ name, m.interface i = .error (.wrongKind name .interface) := by
  obtain ⟨info, hinfo⟩ := exists_type?_of_within hi
  have hnone : info.interface? = none := by
    by_contra hsome
    exact h ⟨info, hinfo, by simpa [TypeInfo.isInterface, Option.isSome_iff_ne_none] using hsome⟩
  exact ⟨info.qualifiedName, by simp [Model.interface, hinfo, hnone]⟩

/-- What is refused where there are no members of an interface, and succeeds on interfaces. -/
theorem settles_of_interface {r : Except SchemaError α} (hi : i.Within m.types)
    (hanswered : m.HasInterface i → ∃ a, r = .ok a)
    (hrefused : ∀ e, m.interface i = .error e → r = .error e) : m.Settles i r := by
  by_cases hinterface : m.HasInterface i
  · exact .inl ⟨hinterface, hanswered hinterface⟩
  · obtain ⟨name, hname⟩ := interface_eq_error hi hinterface
    exact .inr ⟨hinterface, name, hrefused _ hname⟩

/-- What can come of collecting operations: all of them, or a type that is no interface, or two
operations with the same digest. -/
def Collects (r : Except SchemaError (List Operation)) : Prop :=
  (∃ all, r = .ok all) ∨ (∃ name, r = .error (.wrongKind name .interface)) ∨
    ∃ first second, r = .error (.digestCollision first second)

/-- What settles fails by a wrong kind only. -/
theorem Settles.collects {r : Except SchemaError (List Operation)} (h : m.Settles i r) :
    Collects r := by
  rcases h with ⟨-, hanswered⟩ | ⟨-, hrefused⟩
  · exact .inl hanswered
  · exact .inr (.inl hrefused)

/-- Adding operations fails by a collision only. -/
theorem collects_addDistinct (seen new : List Operation) : Collects (addDistinct seen new) := by
  induction new generalizing seen with
  | nil => exact .inl ⟨seen, rfl⟩
  | cons operation new ih =>
    rw [addDistinct]
    split
    · next first hfirst => exact .inr (.inr ⟨first, operation, rfl⟩)
    · exact ih (seen ++ [operation])

/-- Failures of that sort add up. -/
theorem Collects.bind {x : Except SchemaError (List Operation)}
    {f : List Operation → Except SchemaError (List Operation)} (hx : Collects x)
    (hf : ∀ all, Collects (f all)) : Collects (x >>= f) := by
  rcases hx with ⟨all, rfl⟩ | ⟨name, rfl⟩ | ⟨first, second, rfl⟩
  · exact hf all
  · exact .inr (.inl ⟨name, rfl⟩)
  · exact .inr (.inr ⟨first, second, rfl⟩)

/-! ## Inside and outside -/

/-- A type is within the model exactly if it is found there. -/
theorem within_iff_type : i.Within m.types ↔ ∃ info, m.type i = .ok info := by
  simp only [type_eq_ok_iff]
  constructor
  · exact exists_type?_of_within
  · rintro ⟨info, hinfo⟩
    exact (List.getElem?_eq_some_iff.mp hinfo).1

theorem type?_eq_none (h : ¬ i.Within m.types) : m.type? i = none :=
  List.getElem?_eq_none (Nat.not_lt.mp h)

/-- What begins by looking a type up cannot succeed outside the model. -/
theorem within_of_type_bind {f : TypeInfo → Except SchemaError α} {a : α}
    (h : (m.type i >>= f) = .ok a) : i.Within m.types := by
  obtain ⟨info, hinfo, -⟩ := bind_eq_ok_iff.mp h
  exact within_iff_type.mpr ⟨info, hinfo⟩

/-- Types of the model have an answer about their fields, and no others do. -/
theorem exists_fieldKind_iff : (∃ kind, m.fieldKind i = .ok kind) ↔ i.Within m.types := by
  constructor
  · rintro ⟨kind, hkind⟩
    exact within_of_type_bind hkind
  · intro hi
    obtain ⟨info, hinfo⟩ := within_iff_type.mp hi
    exact ⟨info.kind.fieldKind?, bind_eq_ok_iff.mpr ⟨info, hinfo, rfl⟩⟩

/-- Writing meets a missing type exactly if its own type is missing. -/
theorem write_absent_iff (hclosed : m.Closed) (fields : List Field) (value : Value) :
    (∃ id, m.write fields i value = .error (.absent id)) ↔ ¬ i.Within m.types := by
  simp only [write, map_eq_error_iff]
  constructor
  · rintro ⟨id, habsent⟩ hi
    exact writeValue_ne_absent hclosed hi value id habsent
  · intro hi
    exact ⟨i, by rw [writeValue.eq_def, type?_eq_none hi]⟩

/-- So does reading. -/
theorem read_absent_iff (hclosed : m.Closed) (reader : Reader) :
    (∃ id, (m.read i reader).1 = .error (.absent id)) ↔ ¬ i.Within m.types := by
  rw [read]
  constructor
  · rintro ⟨id, habsent⟩ hi
    split at habsent
    · exact readNothing_ne_absent hi _ id (Except.error.inj habsent)
    · exact readField_ne_absent hclosed hi _ _ id habsent
  · intro hi
    refine ⟨i, ?_⟩
    split
    · simp [readNothing, type?_eq_none hi]
    · simp [readField.eq_def, type?_eq_none hi]

/-- Types of the model have digests, and no others do. -/
theorem exists_typeDigest_iff (hclosed : m.Closed) :
    (∃ d, m.typeDigest i = .ok d) ↔ i.Within m.types := by
  constructor
  · rintro ⟨d, hd⟩
    obtain ⟨tokens, htokens, -⟩ := bind_eq_ok_iff.mp hd
    exact within_of_type_bind htokens
  · exact exists_typeDigest_of_within hclosed

/-- Ancestors are told of types of the model, and of no others. -/
theorem exists_hasAncestor_iff (hfounded : m.Founded) (t : TypeId) :
    (∃ b, m.hasAncestor i t = .ok b) ↔ i.Within m.types := by
  constructor
  · rintro ⟨b, hb⟩
    exact within_of_type_bind hb
  · intro hi
    obtain ⟨b, hb, -⟩ := exists_hasAncestor hfounded hi t
    exact ⟨b, hb⟩

/-- So are closures. -/
theorem exists_closure_iff (hfounded : m.Founded) :
    (∃ ids, m.closure i = .ok ids) ↔ i.Within m.types := by
  constructor
  · rintro ⟨ids, hids⟩
    by_contra hi
    rw [closure, walk, dif_neg List.not_mem_nil] at hids
    split at hids
    · contradiction
    · next info hinfo =>
      rw [type?_eq_none hi] at hinfo
      contradiction
  · intro hi
    obtain ⟨ids, hids, -⟩ := exists_closure hfounded hi
    exact ⟨ids, hids⟩

/-- Bases are told of interfaces, and refused for all else. -/
theorem settles_classBases (hfounded : m.Founded) (hacyclic : m.Acyclic) (hi : i.Within m.types) :
    m.Settles i (m.classBases i) := by
  refine settles_of_interface hi (fun hinterface => ?_) fun e he => ?_
  · obtain ⟨info, members, hinfo, hkind⟩ := hinterface.exists_members
    exact ⟨_, classBases_eq hfounded hacyclic hinfo hkind⟩
  · rw [classBases, he]
    rfl

section Finished

variable {edits : List Edit}

/-- So are type lists. -/
theorem settles_typeList (hm : (Builder.build edits).finish = .ok m) (hi : i.Within m.types) :
    m.Settles i (m.typeList i) := by
  refine settles_of_interface hi (fun hinterface => ?_) fun e he => ?_
  · obtain ⟨digests, hdigests, -⟩ := exists_typeList hm hinterface
    exact ⟨digests, hdigests⟩
  · rw [typeList, objectTypes, he]
    rfl

/-- So are operations. -/
theorem settles_operations (hm : (Builder.build edits).finish = .ok m) (hi : i.Within m.types) :
    m.Settles i (m.operations i) := by
  refine settles_of_interface hi (exists_operations hm) fun e he => ?_
  rw [operations, he]
  rfl

/-- The check fails by a wrong kind or a collision only. -/
theorem collects_distinctOperations (hm : (Builder.build edits).finish = .ok m)
    {interfaces : List TypeId} (hinterfaces : ∀ i ∈ interfaces, i.Within m.types) :
    Collects (m.distinctOperations interfaces) := by
  have hfold (targets : List TypeId) (htargets : ∀ i ∈ targets, i.Within m.types) (seen) :
      Collects (targets.foldlM (fun seen id => do addDistinct seen (← m.operations id)) seen) := by
    induction targets generalizing seen with
    | nil => exact .inl ⟨seen, rfl⟩
    | cons i targets ih =>
      obtain ⟨hi, htargets⟩ := List.forall_mem_cons.mp htargets
      rw [List.foldlM_cons]
      have hfirst := (settles_operations hm hi).collects.bind (collects_addDistinct seen)
      exact hfirst.bind (ih htargets)
  have hbase := (hasInterface_implicitBase hm).within
  refine hfold _ ?_ []
  split
  · exact hinterfaces
  · rw [List.forall_mem_append, List.forall_mem_singleton]
    exact ⟨hinterfaces, hbase⟩

/-- What is asked about the types of a model never leads to a type that the model does not have. -/
structure SelfContained (m : Model) : Prop where
  /-- Only a type outside the model has no kind of field. -/
  fieldKind : ∀ i, (∃ kind, m.fieldKind i = .ok kind) ↔ i.Within m.types
  /-- Writing fails for want of a type only if the type itself is outside the model. -/
  write : ∀ fields i value,
    (∃ id, m.write fields i value = .error (.absent id)) ↔ ¬ i.Within m.types
  /-- So does reading, whatever the fields are. -/
  read : ∀ i reader, (∃ id, (m.read i reader).1 = .error (.absent id)) ↔ ¬ i.Within m.types
  typeDigest : ∀ i, (∃ d, m.typeDigest i = .ok d) ↔ i.Within m.types
  operationDigest : ∀ role i member args result, i.Within m.types →
    (∀ a ∈ args, a.Within m.types) → result.Within m.types →
    ∃ d, m.operationDigest role i member args result = .ok d
  operations : ∀ i, i.Within m.types → m.Settles i (m.operations i)
  distinctOperations : ∀ interfaces, (∀ i ∈ interfaces, i.Within m.types) →
    Collects (m.distinctOperations interfaces)
  hasAncestor : ∀ i t, (∃ b, m.hasAncestor i t = .ok b) ↔ i.Within m.types
  reduce : ∀ ids, (∀ i ∈ ids, i.Within m.types) → ∃ kept, m.reduce ids = .ok kept
  closure : ∀ i, (∃ ids, m.closure i = .ok ids) ↔ i.Within m.types
  classBases : ∀ i, i.Within m.types → m.Settles i (m.classBases i)
  typeList : ∀ i, i.Within m.types → m.Settles i (m.typeList i)

/-- **A finished model is closed.** Nothing that is asked about its types, or about values of them,
leads to a type that it does not have. -/
theorem selfContained_of_finish (hm : (Builder.build edits).finish = .ok m) :
    m.SelfContained := by
  have hclosed := closed_of_finish hm
  have hfounded := founded_of_finish hm
  have hacyclic := acyclic_of_finish hm
  exact {
    fieldKind := fun _ => exists_fieldKind_iff
    write := fun fields _ value => write_absent_iff hclosed fields value
    read := fun _ reader => read_absent_iff hclosed reader
    typeDigest := fun _ => exists_typeDigest_iff hclosed
    operationDigest := fun role _ member _ _ hi hargs hresult =>
      exists_operationDigest hclosed role hi member hargs hresult
    operations := fun _ => settles_operations hm
    distinctOperations := fun _ => collects_distinctOperations hm
    hasAncestor := fun _ t => exists_hasAncestor_iff hfounded t
    reduce := fun ids hids => ⟨m.needed [] ids, reduce_eq hfounded hacyclic hids⟩
    closure := fun _ => exists_closure_iff hfounded
    classBases := fun _ => settles_classBases hfounded hacyclic
    typeList := fun _ => settles_typeList hm }

end Finished

theorem selfContained_outline :
    (Builder.build outline).finish = .ok (declared outline) ∧ (declared outline).SelfContained := by
  have hfinish : (Builder.build outline).finish = .ok (declared outline) := by cbv
  exact ⟨hfinish, selfContained_of_finish hfinish⟩

end Remoting.Model
