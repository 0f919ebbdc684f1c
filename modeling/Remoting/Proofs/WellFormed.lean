import Remoting.Proofs.Fallible
import Remoting.Proofs.Prerequisites
import Remoting.Schema.Builder

/-!
# Remoting.Proofs.WellFormed

A builder gives a model exactly when its declarations are well-formed (`Builder.finish_eq_ok_iff`).

What is well-formed is said here without the checks: names that have to differ are lists without
repetition, references lead to types, prerequisites are interfaces, and no interface needs itself.
For every check there is one lemma that says when it succeeds, from names and references up to the
shape of a type (`Schema.checkShape_eq_ok_iff`).
-/

namespace Remoting

/-! ## Rules -/

/-- A reference leads to one of the types. -/
def TypeId.Within (id : TypeId) (types : List TypeInfo) : Prop := id.index < types.length

/-- The parameters of a signature have different names, and its types exist. -/
structure Signature.WellFormed (types : List TypeInfo) (s : Signature) : Prop where
  names : (s.parameters.map (·.ident)).Nodup
  parameters : ∀ p ∈ s.parameters, p.type.Within types
  result : s.result.Within types

/-- The members of an interface have different names, whatever they are; its prerequisites are
interfaces, and its types exist. -/
structure Interface.WellFormed (types : List TypeInfo) (i : Interface) : Prop where
  prerequisites : ∀ id ∈ i.prerequisites,
    ∃ info, types[id.index]? = some info ∧ info.isInterface = true
  names :
    (i.properties.map (·.ident) ++ i.methods.map (·.name) ++ i.signals.map (·.name)).Nodup
  properties : ∀ s ∈ i.properties, s.type.Within types
  methods : ∀ m ∈ i.methods, m.signature.WellFormed types
  signals : ∀ m ∈ i.signals, m.signature.WellFormed types

/-- The rules for the parts that types of each kind have. -/
def TypeKind.WellFormed (types : List TypeInfo) : TypeKind → Prop
  | .void | .bool | .int | .float | .string | .any => True
  | .enum values => (values.map (·.ident)).Nodup ∧ (values.map (·.ordinal)).Nodup
  | .record slots => (slots.map (·.ident)).Nodup ∧ ∀ s ∈ slots, s.type.Within types
  | .sequence element => element.type.Within types ∧ element.type ≠ .void
  | .function signature => signature.WellFormed types
  | .interface members => members.WellFormed types

/-- Every declared type is defined and obeys the rules for its kind, and no interface needs itself,
directly or through others. -/
structure Builder.WellFormed (b : Builder) : Prop where
  defined : ∀ d ∈ b.declarations, d.defined = true
  kinds : ∀ info ∈ b.types, info.kind.WellFormed b.types
  acyclic : ∀ id, ¬ Relation.TransGen (Schema.Needs b.types) id id

/-! ## Checks -/

namespace Schema

variable {types : List TypeInfo} {owner info : TypeInfo}

theorem firstRepeat_eq_none_iff [DecidableEq β] {key : α → β} {seen : List β} {l : List α} :
    firstRepeat key seen l = none ↔ (l.map key).Nodup ∧ ∀ a ∈ l, key a ∉ seen := by
  induction l generalizing seen with
  | nil => simp [firstRepeat]
  | cons a l ih =>
    rw [firstRepeat]
    split
    · next ha => simp [ha]
    · next ha =>
      rw [ih, List.map_cons, List.nodup_cons, List.forall_mem_cons]
      constructor
      · rintro ⟨hl, hrest⟩
        refine ⟨⟨fun hmem => ?_, hl⟩, ha, fun x hx hx' => hrest x hx (List.mem_cons_of_mem _ hx')⟩
        obtain ⟨x, hx, heq⟩ := List.mem_map.mp hmem
        exact hrest x hx (heq ▸ List.mem_cons_self)
      · rintro ⟨⟨hfresh, hl⟩, -, hrest⟩
        refine ⟨hl, fun x hx hmem => ?_⟩
        rcases List.mem_cons.mp hmem with heq | hmem
        · exact hfresh (heq ▸ List.mem_map_of_mem hx)
        · exact hrest x hx hmem

theorem firstRepeat_nil_eq_none_iff [DecidableEq β] (key : α → β) (l : List α) :
    firstRepeat key [] l = none ↔ (l.map key).Nodup := by
  simp [firstRepeat_eq_none_iff]

theorem checkDistinct_eq_ok_iff {names : List String} :
    checkDistinct owner names = .ok () ↔ names.Nodup := by
  have h : firstRepeat id [] names = none ↔ names.Nodup := by
    simpa using firstRepeat_nil_eq_none_iff id names
  rw [← h, checkDistinct]
  cases firstRepeat id [] names <;> simp

/-- A reference passes if its type is there. -/
theorem checkReference_eq_ok_iff {id : TypeId} :
    checkReference types owner id = .ok () ↔ id.Within types := by
  unfold checkReference TypeId.Within
  split <;> simp_all

/-- A prerequisite passes if it is an interface. -/
theorem checkPrerequisite_eq_ok_iff {id : TypeId} :
    checkPrerequisite types owner id = .ok () ↔
      ∃ info, types[id.index]? = some info ∧ info.isInterface = true := by
  unfold checkPrerequisite
  cases types[id.index]? with
  | none => simp
  | some info => cases h : info.isInterface <;> simp [h]

theorem checkSignature_eq_ok_iff {s : Signature} :
    checkSignature types owner s = .ok () ↔ s.WellFormed types := by
  simp only [checkSignature, check_bind_eq_ok_iff, forM_eq_ok_iff, checkDistinct_eq_ok_iff,
    checkReference_eq_ok_iff]
  exact ⟨fun ⟨hnames, hparameters, hresult⟩ => ⟨hnames, hparameters, hresult⟩,
    fun h => ⟨h.names, h.parameters, h.result⟩⟩

/-- The check of a type succeeds exactly when the type obeys the rules for its kind. -/
theorem checkShape_eq_ok_iff : checkShape types info = .ok () ↔ info.kind.WellFormed types := by
  unfold checkShape TypeKind.WellFormed
  cases info.kind with
  | void | bool | int | float | string | any => simp
  | enum values =>
    simp only [check_bind_eq_ok_iff, checkDistinct_eq_ok_iff]
    rw [← firstRepeat_nil_eq_none_iff EnumValue.ordinal]
    cases firstRepeat EnumValue.ordinal [] values <;> simp
  | record slots =>
    simp only [check_bind_eq_ok_iff, checkDistinct_eq_ok_iff, forM_eq_ok_iff,
      checkReference_eq_ok_iff]
  | sequence element =>
    simp only [check_bind_eq_ok_iff, checkReference_eq_ok_iff]
    by_cases hvoid : element.type = .void <;> simp [hvoid]
  | function signature => exact checkSignature_eq_ok_iff
  | interface members =>
    simp only [check_bind_eq_ok_iff, forM_eq_ok_iff, checkDistinct_eq_ok_iff,
      checkPrerequisite_eq_ok_iff, checkReference_eq_ok_iff, checkSignature_eq_ok_iff,
      List.forall_mem_append]
    exact ⟨fun ⟨hneeds, hnames, hslots, hmethods, hsignals⟩ =>
        ⟨hneeds, hnames, hslots, hmethods, hsignals⟩,
      fun h => ⟨h.prerequisites, h.names, h.properties, h.methods, h.signals⟩⟩

end Schema

/-! ## Finishing -/

namespace Builder

variable {b : Builder} {m : Model}

/-- All declared types must be defined. -/
theorem checkDefined_eq_ok_iff :
    b.checkDefined = .ok () ↔ ∀ d ∈ b.declarations, d.defined = true := by
  have h : b.declarations.find? (!·.defined) = none ↔ ∀ d ∈ b.declarations, d.defined = true := by
    simp
  rw [← h, checkDefined]
  cases b.declarations.find? (!·.defined) <;> simp

/-- A builder gives a model exactly when it is well-formed, and the model holds its types and its
namespaces. -/
theorem finish_eq_ok_iff :
    b.finish = .ok m ↔ b.WellFormed ∧ m = ⟨b.types, b.namespaces⟩ := by
  simp only [finish, check_bind_eq_ok_iff, forM_eq_ok_iff, checkDefined_eq_ok_iff,
    Schema.checkShape_eq_ok_iff, Schema.checkAcyclic_eq_ok_iff, pure, Except.pure,
    Except.ok.injEq]
  constructor
  · rintro ⟨hdefined, hkinds, hacyclic, rfl⟩
    exact ⟨⟨hdefined, hkinds, hacyclic⟩, rfl⟩
  · rintro ⟨h, rfl⟩
    exact ⟨h.defined, h.kinds, h.acyclic, rfl⟩

/-- **Finishing succeeds exactly on well-formed declarations**, and the model then holds all the
types and namespaces of the builder and no others. -/
theorem finish_succeeds_iff (b : Builder) :
    ((∃ m, b.finish = .ok m) ↔ b.WellFormed) ∧
      ∀ m, b.finish = .ok m → m.types = b.types ∧ m.namespaces = b.namespaces := by
  refine ⟨⟨fun ⟨m, h⟩ => (finish_eq_ok_iff.mp h).1, fun h => ⟨_, finish_eq_ok_iff.mpr ⟨h, rfl⟩⟩⟩, ?_⟩
  intro m h
  obtain ⟨-, rfl⟩ := finish_eq_ok_iff.mp h
  exact ⟨rfl, rfl⟩

end Builder

end Remoting
