import Remoting.Proofs.ClassHierarchy
import Remoting.Proofs.LeastCover

/-!
# Remoting.Proofs.BaseLists

Which bases of an interface others lead to. What one prerequisite needs of another is dropped from
the bases. But an interface without prerequisites derives from the one that every object has, and
no prerequisite tells so. Every base leads to that one, and when an interface needs it by name, it
may stay in the list beside bases that lead to it.

This is the only base that others ever lead to (`Model.inherits_base_iff`). The theorem
`Model.bases_minimal_iff` says when it happens, and that the list is minimal without that base and
leads to the same interfaces.
-/

namespace Remoting.Model

open Relation (ReflTransGen TransGen)
open Schema (Needs)

/-- No entry of a list of bases is reached from another entry. -/
def MinimalBases (m : Model) (bases : List TypeId) : Prop :=
  bases.Pairwise fun a b => ¬ m.Inherits a b ∧ ¬ m.Inherits b a

/-- The bases without the interface that every object has, if there are others. -/
def trimmed (bases : List TypeId) : List TypeId :=
  if ∀ b ∈ bases, b = .implicitBase then bases else bases.filter (· ≠ .implicitBase)

variable {m : Model} {i a b t : TypeId} {bases : List TypeId} {edits : List Edit}

/-! ## The bases of an interface -/

section Finished

variable (hm : (Builder.build edits).finish = .ok m)
include hm

theorem nodup_of_classBases (hi : m.HasInterface i) (hbases : m.classBases i = .ok bases) :
    bases.Nodup := by
  obtain ⟨info, members, hinfo, hkind⟩ := hi.exists_members
  rw [classBases_eq (founded_of_finish hm) (acyclic_of_finish hm) hinfo hkind] at hbases
  cases hbases
  split
  · split <;> simp
  · exact nodup_needed_nil m members.prerequisites

theorem DerivesFrom.hasInterface (hi : m.HasInterface i) (h : m.DerivesFrom i b) :
    m.HasInterface b := by
  rcases h.needs_or_eq hm hi with hneeds | rfl
  · exact founded_of_finish hm i b hneeds
  · exact hasInterface_implicitBase hm

theorem not_transGen_implicitBase : ¬ TransGen (Needs m.types) .implicitBase t := by
  intro h
  obtain ⟨p, hp, -⟩ := Relation.TransGen.head'_iff.mp h
  exact not_needs_implicitBase hm hp

/-- No base needs another one. -/
theorem DerivesFrom.not_transGen (hi : m.HasInterface i) (ha : m.DerivesFrom i a)
    (hb : m.DerivesFrom i b) : ¬ TransGen (Needs m.types) a b := by
  intro h
  obtain ⟨info, members, hinfo, hkind⟩ := hi.exists_members
  have hiff {x : TypeId} := derivesFrom_iff (b := x) (founded_of_finish hm) (acyclic_of_finish hm)
    hinfo hkind
  rcases hiff.mp ha with hneeded | ⟨-, -, rfl⟩
  · rcases hiff.mp hb with hneeded' | ⟨hnone, -, -⟩
    · exact (mem_needed_nil_iff.mp hneeded').2 ⟨a, (mem_needed_nil_iff.mp hneeded).1, h⟩
    · simp [hnone, mem_needed_nil_iff] at hneeded
  · exact not_transGen_implicitBase hm h

theorem inherits_base_iff (hi : m.HasInterface i) (ha : m.DerivesFrom i a) (hb : m.DerivesFrom i b)
    (hne : a ≠ b) : m.Inherits a b ↔ b = .implicitBase := by
  rw [inherits_iff_isTypeOf hm (ha.hasInterface hm hi), IsTypeOf]
  simp [hne.symm, ha.not_transGen hm hi hb]

/-! ## Minimal lists -/

/-- Some bases are minimal when the one that every object has stands alone or not among them. -/
theorem minimal_iff (hi : m.HasInterface i) (hderives : ∀ b ∈ bases, m.DerivesFrom i b)
    (hnodup : bases.Nodup) :
    m.MinimalBases bases ↔ (.implicitBase ∈ bases → ∀ b ∈ bases, b = .implicitBase) := by
  constructor
  · intro hminimal hbase b hb
    have hsymm : Std.Symm fun a b => ¬ m.Inherits a b ∧ ¬ m.Inherits b a := ⟨fun _ _ h => h.symm⟩
    by_contra hne
    have hreach := (inherits_base_iff hm hi (hderives b hb) (hderives _ hbase) hne).mpr rfl
    exact (hminimal.forall hb hbase hne).1 hreach
  · intro honly
    have hnot : ∀ a ∈ bases, ∀ b ∈ bases, a ≠ b → ¬ m.Inherits a b := by
      intro a ha b hb hne hreach
      obtain rfl := (inherits_base_iff hm hi (hderives a ha) (hderives b hb) hne).mp hreach
      exact hne (honly hb a ha)
    exact hnodup.pairwise_of_forall_ne fun a ha b hb hne =>
      ⟨hnot a ha b hb hne, hnot b hb a ha hne.symm⟩

end Finished

theorem trimmed_sublist (bases : List TypeId) : (trimmed bases).Sublist bases := by
  unfold trimmed
  split
  · exact .refl bases
  · exact List.filter_sublist

theorem mem_trimmed_of_ne (hb : b ∈ bases) (hne : b ≠ .implicitBase) : b ∈ trimmed bases := by
  unfold trimmed
  split
  · exact hb
  · simp [hb, hne]

theorem eq_implicitBase_of_mem_trimmed (h : .implicitBase ∈ trimmed bases) :
    ∀ b ∈ bases, b = .implicitBase := by
  unfold trimmed at h
  split at h
  · assumption
  · simp at h

section Bases

variable (hm : (Builder.build edits).finish = .ok m) (hi : m.HasInterface i)
include hm hi

/-- What is left out is reached from what is left. -/
theorem exists_mem_trimmed_inherits_iff (hderives : ∀ b ∈ bases, m.DerivesFrom i b) :
    (∃ b ∈ trimmed bases, m.Inherits b t) ↔ ∃ b ∈ bases, m.Inherits b t := by
  constructor
  · rintro ⟨b, hb, hreach⟩
    exact ⟨b, (trimmed_sublist bases).mem hb, hreach⟩
  · rintro ⟨b, hb, hreach⟩
    by_cases honly : ∀ b ∈ bases, b = .implicitBase
    · refine ⟨b, ?_, hreach⟩
      rwa [trimmed, if_pos honly]
    · push Not at honly
      obtain ⟨b', hb', hne⟩ := honly
      by_cases hbase : b = .implicitBase
      · have hother : m.Inherits b' b :=
          inherits_of_isTypeOf hm ((hderives b' hb').hasInterface hm hi) (.inr (.inr hbase))
        exact ⟨b', mem_trimmed_of_ne hb' hne, hother.trans hreach⟩
      · exact ⟨b, mem_trimmed_of_ne hb hbase, hreach⟩

/-- The bases of an interface with prerequisites are among these. -/
theorem DerivesFrom.needs (h : m.DerivesFrom i b) (hsome : Needs m.types i t) :
    Needs m.types i b := by
  obtain ⟨info, members, hinfo, hkind⟩ := hi.exists_members
  rw [needs_iff_of_interface hinfo hkind] at hsome ⊢
  rw [derivesFrom_iff (founded_of_finish hm) (acyclic_of_finish hm) hinfo hkind] at h
  rcases h with hneeded | ⟨hnone, -, -⟩
  · exact (mem_needed_nil_iff.mp hneeded).1
  · simp [hnone] at hsome

/-- A prerequisite is a base unless another prerequisite needs it. -/
theorem derivesFrom_iff_of_needs (hneeds : Needs m.types i t) :
    m.DerivesFrom i t ↔ ∀ p, Needs m.types i p → ¬ TransGen (Needs m.types) p t := by
  obtain ⟨info, members, hinfo, hkind⟩ := hi.exists_members
  rw [derivesFrom_iff (founded_of_finish hm) (acyclic_of_finish hm) hinfo hkind, mem_needed_nil_iff]
  simp only [needs_iff_of_interface hinfo hkind] at hneeds ⊢
  simp [hneeds, List.ne_nil_of_mem hneeds, Brings]

/-- The interface that every object has is a base beside others exactly if it is a prerequisite
beside others and none of them needs it. -/
theorem sole_base_iff :
    (m.DerivesFrom i .implicitBase → ∀ b, m.DerivesFrom i b → b = .implicitBase) ↔
      (Needs m.types i .implicitBase → (∀ t, Needs m.types i t → t = .implicitBase) ∨
        ∃ t, Needs m.types i t ∧ TransGen (Needs m.types) t .implicitBase) := by
  constructor
  · intro hsole hneeds
    by_contra! hothers
    obtain ⟨⟨t, ht, hne⟩, hnone⟩ := hothers
    have hbase : m.DerivesFrom i .implicitBase := (derivesFrom_iff_of_needs hm hi hneeds).mpr hnone
    obtain ⟨b, hb, -, hcover⟩ := exists_derivesFrom_of_needs hm hi ht
    obtain rfl := hsole hbase b hb
    rcases Relation.reflTransGen_iff_eq_or_transGen.mp hcover with heq | htrans
    · exact hne heq
    · exact not_transGen_implicitBase hm htrans
  · intro hneeded hbase b hb
    rcases hb.needs_or_eq hm hi with hneeds | heq
    · have hneeds_base := hbase.needs hm hi hneeds
      rcases hneeded hneeds_base with honly | ⟨t, ht, htrans⟩
      · exact honly b hneeds
      · exact absurd htrans ((derivesFrom_iff_of_needs hm hi hneeds_base).mp hbase t ht)
    · exact heq

end Bases

/-- **Bases are minimal** exactly when the interface does not need the one that every object has by
name, or needs no other, or one of those that it needs also needs it. In any case the bases without
the one that every object has are minimal, and the same interfaces are reached from them. -/
theorem bases_minimal_iff (hm : (Builder.build edits).finish = .ok m) (hi : m.HasInterface i) :
    ∃ bases, m.classBases i = .ok bases ∧
      (m.MinimalBases bases ↔ (Needs m.types i .implicitBase →
        (∀ t, Needs m.types i t → t = .implicitBase) ∨
          ∃ t, Needs m.types i t ∧ TransGen (Needs m.types) t .implicitBase)) ∧
      m.MinimalBases (trimmed bases) ∧
      ∀ t, (∃ b ∈ trimmed bases, m.Inherits b t) ↔ ∃ b ∈ bases, m.Inherits b t := by
  obtain ⟨info, members, hinfo, hkind⟩ := hi.exists_members
  have hbases := classBases_eq (founded_of_finish hm) (acyclic_of_finish hm) hinfo hkind
  generalize (if members.prerequisites = [] then _ else _) = bases at hbases
  have hderives : ∀ b, m.DerivesFrom i b ↔ b ∈ bases := fun b => by simp [DerivesFrom, hbases]
  have hnodup := nodup_of_classBases hm hi hbases
  refine ⟨bases, hbases, ?_, ?_, fun t => ?_⟩
  · rw [minimal_iff hm hi (fun b => (hderives b).mpr) hnodup, ← sole_base_iff hm hi]
    simp only [hderives]
  · have hsublist := trimmed_sublist bases
    rw [minimal_iff hm hi (fun b hb => (hderives b).mpr (hsublist.mem hb))
      (hnodup.sublist hsublist)]
    exact fun hbase b hb => eq_implicitBase_of_mem_trimmed hbase b (hsublist.mem hb)
  · exact exists_mem_trimmed_inherits_iff hm hi fun b => (hderives b).mpr

/-- A badge needs the interface that every object has, nodes, and labels. Labels need the first one
as well, so it is not a base of badges. -/
def tags : List Edit :=
  [.add "Draw" "Node" (.interface {}),
   .add "Draw" "Label" (.interface { prerequisites := [.implicitBase] }),
   .add "Draw" "Badge" (.interface { prerequisites := [.implicitBase, ⟨7⟩, ⟨8⟩] })]

theorem bases_minimal_tags :
    (declared tags).classBases ⟨9⟩ = .ok [⟨7⟩, ⟨8⟩] ∧ (declared tags).MinimalBases [⟨7⟩, ⟨8⟩] := by
  have hfinish : (Builder.build tags).finish = .ok (declared tags) := by cbv
  have hbadge : (declared tags).HasInterface ⟨9⟩ := ⟨_, rfl, rfl⟩
  have hbases : (declared tags).classBases ⟨9⟩ = .ok [⟨7⟩, ⟨8⟩] := by cbv
  obtain ⟨bases, hbases', hminimal, -⟩ := bases_minimal_iff hfinish hbadge
  obtain rfl := Except.ok.inj (hbases'.symm.trans hbases)
  have hlabel : Needs (declared tags).types ⟨9⟩ ⟨8⟩ := ⟨_, rfl, by decide⟩
  have hbase : Needs (declared tags).types ⟨8⟩ .implicitBase := ⟨_, rfl, by decide⟩
  exact ⟨hbases, hminimal.mpr fun _ => .inr ⟨⟨8⟩, hlabel, .single hbase⟩⟩

/-- A shape needs nodes, and before them the interface that every object has. -/
def figures : List Edit :=
  [.add "Draw" "Node" (.interface {}),
   .add "Draw" "Shape" (.interface { prerequisites := [.implicitBase, ⟨7⟩] })]

/-- Both are bases of the shape, although the second one leads to the first. -/
theorem shape_base_reached :
    (Builder.build figures).finish = .ok (declared figures) ∧
      (declared figures).classBases ⟨8⟩ = .ok [.implicitBase, ⟨7⟩] ∧
      (declared figures).classBases ⟨7⟩ = .ok [.implicitBase] ∧
      ¬ (declared figures).MinimalBases [.implicitBase, ⟨7⟩] := by
  have hnode : (declared figures).classBases ⟨7⟩ = .ok [.implicitBase] := by cbv
  refine ⟨by cbv, by cbv, hnode, fun hminimal => ?_⟩
  have hderives : (declared figures).DerivesFrom ⟨7⟩ .implicitBase :=
    ⟨[.implicitBase], hnode, List.mem_singleton_self _⟩
  obtain ⟨hnot, -⟩ := List.pairwise_cons.mp hminimal
  exact (hnot ⟨7⟩ List.mem_cons_self).2 (.single hderives)

end Remoting.Model
