import Remoting.Proofs.Reduction

/-!
# Remoting.Proofs.ClassHierarchy

Classes and types of objects. In a class hierarchy an interface derives from what is left of its
prerequisites when those are dropped that others bring along, or, when it has no prerequisites, from
the interface that every object has. Going along these bases leads to the same interfaces as the
prerequisites do, and to the interface that every object has, so to the types that an object tells
when it is asked for them (`Model.class_hierarchy_agrees`).

Neither direction is local. A prerequisite that was dropped is reached through a base that needs it,
and the interface that every object has is met only at the end, where there are no prerequisites. So
the proof goes up from an interface to its bases, which ends because no interface needs itself.
-/

namespace Remoting.Model

open Relation (ReflTransGen TransGen)
open Schema (Needs)

variable {m : Model} {i t b : TypeId}

/-- An interface has another one as a base. -/
def DerivesFrom (m : Model) (i b : TypeId) : Prop :=
  ∃ bases, m.classBases i = .ok bases ∧ b ∈ bases

/-- An interface is reached from another one by going from interfaces to their bases. -/
def Inherits (m : Model) : TypeId → TypeId → Prop := ReflTransGen m.DerivesFrom

/-! ## Bases -/

section Bases

variable {info : TypeInfo} {members : Interface}

theorem needs_iff_of_interface (hinfo : m.type? i = some info)
    (hkind : info.kind = .interface members) :
    Needs m.types i t ↔ t ∈ members.prerequisites := by
  rw [needs_iff hinfo, TypeInfo.prerequisites, hkind]

/-- The bases of an interface. -/
theorem classBases_eq (hfounded : m.Founded) (hacyclic : m.Acyclic)
    (hinfo : m.type? i = some info) (hkind : info.kind = .interface members) :
    m.classBases i = .ok (
      if members.prerequisites = [] then if i = .implicitBase then [] else [.implicitBase]
      else m.needed [] members.prerequisites) := by
  have hwithin : ∀ id ∈ members.prerequisites, id.Within m.types := fun id hid =>
    (hfounded i id ((needs_iff_of_interface hinfo hkind).mpr hid)).within
  have hreduce := reduce_eq hfounded hacyclic hwithin
  rw [classBases, interface_eq_ok hinfo hkind]
  by_cases hnone : members.prerequisites = []
  · simp [hnone, bind, Except.bind, pure, Except.pure]
  · simp [hnone, hreduce, bind, Except.bind]

theorem derivesFrom_iff (hfounded : m.Founded) (hacyclic : m.Acyclic)
    (hinfo : m.type? i = some info) (hkind : info.kind = .interface members) :
    m.DerivesFrom i b ↔ b ∈ m.needed [] members.prerequisites ∨
      (members.prerequisites = [] ∧ i ≠ .implicitBase ∧ b = .implicitBase) := by
  have hnil : m.needed [] [] = [] := rfl
  simp only [DerivesFrom, classBases_eq hfounded hacyclic hinfo hkind, Except.ok.injEq,
    exists_eq_left']
  by_cases hnone : members.prerequisites = []
  · by_cases hbase : i = .implicitBase <;> simp [hnone, hbase, hnil]
  · simp [hnone]

end Bases

/-! ## Along the bases -/

theorem IsTypeOf.of_reflTransGen {p : TypeId} (h : m.IsTypeOf t p)
    (hreach : ReflTransGen (Needs m.types) b p) : m.IsTypeOf t b := by
  rw [← reflTransGen_or_base_iff] at h ⊢
  exact h.imp_left hreach.trans

theorem finite_within (types : List TypeInfo) : {id : TypeId | id.Within types}.Finite :=
  (Set.finite_lt_nat types.length).preimage fun _ _ _ _ => congrArg TypeId.mk

/-- Going on from a type to what it needs comes to an end. -/
theorem Acyclic.wellFoundedOn_needs (h : m.Acyclic) :
    {id : TypeId | id.Within m.types}.WellFoundedOn
      (Function.swap (TransGen (Needs m.types))) := by
  have hstrict := h.isStrictOrder
  exact (finite_within m.types).wellFoundedOn

section Finished

variable {edits : List Edit}

/-- The interface that every object has needs no other. -/
theorem not_needs_implicitBase (hm : (Builder.build edits).finish = .ok m) :
    ¬ Needs m.types .implicitBase t := by
  rintro ⟨info, hinfo, ht⟩
  have hinitial : m.type? .implicitBase = some _ := type?_of_finish hm rfl
  rw [← Option.some.inj (hinitial.symm.trans hinfo)] at ht
  contradiction

section Finished

variable (hm : (Builder.build edits).finish = .ok m) (hi : m.HasInterface i)
include hm hi

/-- A base is a prerequisite, or the interface that every object has. -/
theorem DerivesFrom.needs_or_eq (h : m.DerivesFrom i b) :
    Needs m.types i b ∨ b = .implicitBase := by
  obtain ⟨info, members, hinfo, hkind⟩ := hi.exists_members
  rw [derivesFrom_iff (founded_of_finish hm) (acyclic_of_finish hm) hinfo hkind] at h
  rcases h with hneeded | ⟨-, -, heq⟩
  · exact .inl ((needs_iff_of_interface hinfo hkind).mpr (mem_needed_nil_iff.mp hneeded).1)
  · exact .inr heq

/-- What is reached by going from interfaces to bases are types of objects. -/
theorem Inherits.isTypeOf (h : m.Inherits i t) : m.IsTypeOf t i := by
  induction h with
  | refl => exact .inl rfl
  | tail _ hderives ih =>
    rcases hderives.needs_or_eq hm (ih.hasInterface hm hi) with hneeds | rfl
    · rcases ih with rfl | htrans | rfl
      · exact .inr (.inl (.single hneeds))
      · exact .inr (.inl (htrans.tail hneeds))
      · exact absurd hneeds (not_needs_implicitBase hm)
    · exact .inr (.inr rfl)

/-- Every prerequisite is a base, or a base needs it. -/
theorem exists_derivesFrom_of_needs (h : Needs m.types i t) :
    ∃ b, m.DerivesFrom i b ∧ Needs m.types i b ∧ ReflTransGen (Needs m.types) b t := by
  obtain ⟨info, members, hinfo, hkind⟩ := hi.exists_members
  rw [needs_iff_of_interface hinfo hkind] at h
  obtain ⟨b, hb, hcover⟩ := exists_cover (acyclic_of_finish hm) h
  refine ⟨b, ?_, (needs_iff_of_interface hinfo hkind).mpr (mem_needed_nil_iff.mp hb).1, hcover⟩
  exact (derivesFrom_iff (founded_of_finish hm) (acyclic_of_finish hm) hinfo hkind).mpr (.inl hb)

/-- An interface without prerequisites has the one that every object has as its base. -/
theorem inherits_implicitBase_of_not_needs (h : ∀ t, ¬ Needs m.types i t) :
    m.Inherits i .implicitBase := by
  obtain ⟨info, members, hinfo, hkind⟩ := hi.exists_members
  by_cases hbase : i = .implicitBase
  · exact hbase ▸ .refl
  · have hnone : members.prerequisites = [] := by
      simpa [needs_iff_of_interface hinfo hkind, List.eq_nil_iff_forall_not_mem] using h
    have hderives : m.DerivesFrom i .implicitBase :=
      (derivesFrom_iff (founded_of_finish hm) (acyclic_of_finish hm) hinfo hkind).mpr
        (.inr ⟨hnone, hbase, rfl⟩)
    exact .single hderives

/-- All types of the objects of an interface are reached by going from interfaces to bases. -/
theorem inherits_of_isTypeOf (h : m.IsTypeOf t i) : m.Inherits i t := by
  have hwellFounded := (acyclic_of_finish hm).wellFoundedOn_needs
  -- from an interface to its bases, which are among those that it needs
  refine hwellFounded.induction
    (P := fun i => m.HasInterface i → m.IsTypeOf t i → m.Inherits i t) hi.within ?_ hi h
  intro i _ ih hi h
  have hstep {p : TypeId} (hp : Needs m.types i p) (ht : m.IsTypeOf t p) : m.Inherits i t := by
    obtain ⟨b, hderives, hb, hcover⟩ := exists_derivesFrom_of_needs hm hi hp
    have hbase : m.HasInterface b := founded_of_finish hm i b hb
    exact .head hderives (ih b hbase.within (.single hb) hbase (ht.of_reflTransGen hcover))
  rcases h with rfl | htrans | rfl
  · exact .refl
  · obtain ⟨p, hp, hreach⟩ := Relation.TransGen.head'_iff.mp htrans
    exact hstep hp (reflTransGen_or_base_iff.mp (.inl hreach))
  · by_cases hnone : ∀ t, ¬ Needs m.types i t
    · exact inherits_implicitBase_of_not_needs hm hi hnone
    · obtain ⟨p, hp⟩ := not_forall_not.mp hnone
      exact hstep hp (.inr (.inr rfl))

theorem inherits_iff_isTypeOf : m.Inherits i t ↔ m.IsTypeOf t i :=
  ⟨Inherits.isTypeOf hm hi, inherits_of_isTypeOf hm hi⟩

end Finished

/-- The classes that an interface inherits from, its closure and its type list agree. -/
structure HierarchyAgrees (m : Model) (i : TypeId) : Prop where
  /-- What is reached along the bases is the closure, and the interface that every object has. -/
  closure : ∃ ids, m.closure i = .ok ids ∧ ∀ t, m.Inherits i t ↔ t ∈ ids ∨ t = .implicitBase
  /-- The type list gives the digests of what is reached, one for each. -/
  typeList : ∃ (types : List TypeId) (digests : List Digest), m.typeList i = .ok digests ∧
    types.map m.typeDigest = digests.map .ok ∧ types.Nodup ∧ ∀ t, t ∈ types ↔ m.Inherits i t
  /-- Where interfaces have different digests, the type list tells which ones are reached. -/
  distinct : m.Distinct → ∀ digests t d, m.typeList i = .ok digests → m.HasInterface t →
    m.typeDigest t = .ok d → (d ∈ digests ↔ m.Inherits i t)
  /-- Only interfaces are reached, and they have bases to go on with. -/
  interfaces : ∀ t, m.Inherits i t → m.HasInterface t ∧ ∃ bases, m.classBases t = .ok bases
  /-- The interface that every object has is reached. -/
  base : m.Inherits i .implicitBase
  /-- Whatever is needed is reached, also where it is not a base. -/
  ancestors : ∀ t, TransGen (Needs m.types) i t → m.Inherits i t

/-- **The class hierarchy and the type list agree.** From every interface of a finished model, going
along the bases leads to exactly those interfaces that its objects tell as their types. -/
theorem class_hierarchy_agrees (hm : (Builder.build edits).finish = .ok m)
    (hi : m.HasInterface i) : m.HierarchyAgrees i where
  closure := by
    obtain ⟨ids, hclosure, hids⟩ := exists_closure (founded_of_finish hm) hi.within
    refine ⟨ids, hclosure, fun t => ?_⟩
    rw [inherits_iff_isTypeOf hm hi, ← reflTransGen_or_base_iff, hids]
  typeList := by
    obtain ⟨types, htypes, hmem⟩ := exists_objectTypes (founded_of_finish hm) hi
    obtain ⟨digests, hdigests, -⟩ := exists_typeList hm hi
    have hmap : types.map m.typeDigest = digests.map .ok := by
      rw [Model.typeList, htypes] at hdigests
      exact mapM_eq_ok_iff.mp hdigests
    refine ⟨types, digests, hdigests, hmap, nodup_of_objectTypes htypes, fun t => ?_⟩
    rw [hmem, inherits_iff_isTypeOf hm hi]
  distinct hdistinct digests t d hdigests ht hd := by
    rw [mem_typeList_iff hm hdistinct hi hdigests ht hd, inherits_iff_isTypeOf hm hi]
  interfaces t ht := by
    have hinterface := (ht.isTypeOf hm hi).hasInterface hm hi
    obtain ⟨info, members, hinfo, hkind⟩ := hinterface.exists_members
    exact ⟨hinterface, _,
      classBases_eq (founded_of_finish hm) (acyclic_of_finish hm) hinfo hkind⟩
  base := inherits_of_isTypeOf hm hi (.inr (.inr rfl))
  ancestors _ ht := inherits_of_isTypeOf hm hi (.inr (.inl ht))

end Finished

/-! A badge needs nodes, shapes and labels, and both shapes and labels need nodes. So it derives
from shapes and labels alone. -/

def badges : List Edit :=
  [.add "Draw" "Node" (.interface {}),
   .add "Draw" "Shape" (.interface { prerequisites := [⟨7⟩] }),
   .add "Draw" "Label" (.interface { prerequisites := [⟨7⟩] }),
   .add "Draw" "Badge" (.interface { prerequisites := [⟨7⟩, ⟨8⟩, ⟨9⟩] })]

theorem class_hierarchy_agrees_badge :
    (declared badges).classBases ⟨10⟩ = .ok [⟨8⟩, ⟨9⟩] ∧
      (declared badges).HierarchyAgrees ⟨10⟩ := by
  have hfinish : (Builder.build badges).finish = .ok (declared badges) := by cbv
  have hbadge : (declared badges).HasInterface ⟨10⟩ := ⟨_, rfl, rfl⟩
  have hbases : (declared badges).classBases ⟨10⟩ = .ok [⟨8⟩, ⟨9⟩] := by cbv
  exact ⟨hbases, class_hierarchy_agrees hfinish hbadge⟩

end Remoting.Model
