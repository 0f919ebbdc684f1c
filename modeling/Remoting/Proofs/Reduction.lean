import Remoting.Proofs.History
import Remoting.Proofs.Lineage

/-!
# Remoting.Proofs.Reduction

What is left of a list of types when those are dropped that the others bring along. A type brings
along what it needs, directly or through others; `Model.hasAncestor` tells whether it does
(`Model.exists_hasAncestor`).

The reduction looks at one candidate after the other and holds it against those that are left. This
comes to the same as holding all of them against the whole list (`Model.reduce_eq`), because
what was dropped is brought along by what is left. Nothing is lost that way: where no type needs
itself, every type of a list is kept or brought along by one that is kept (`Model.exists_cover`).
-/

namespace Remoting.Model

open Relation (ReflTransGen TransGen)
open Schema (Needs)

variable {m : Model} {i t : TypeId} {ids kept : List TypeId}

/-- Types bring another one along: one of them needs it, directly or through others. -/
def Brings (m : Model) (ids : List TypeId) (t : TypeId) : Prop :=
  ∃ x ∈ ids, TransGen (Needs m.types) x t

/-- No type needs itself, directly or through others. -/
def Acyclic (m : Model) : Prop := ∀ id, ¬ TransGen (Needs m.types) id id

theorem acyclic_of_finish {b : Builder} (h : b.finish = .ok m) : m.Acyclic := by
  obtain ⟨hb, rfl⟩ := Builder.finish_eq_ok_iff.mp h
  exact hb.acyclic

/-! ## Ancestors -/

theorem needs_iff {info : TypeInfo} (hinfo : m.type? i = some info) :
    Needs m.types i t ↔ t ∈ info.prerequisites := by
  constructor
  · rintro ⟨info', hinfo', ht⟩
    rwa [Option.some.inj (hinfo.symm.trans hinfo')]
  · exact fun ht => ⟨info, hinfo, ht⟩

/-- Every type of the model is told from its ancestors. -/
theorem exists_hasAncestor (hfounded : m.Founded) (hi : i.Within m.types) (t : TypeId) :
    ∃ b, m.hasAncestor i t = .ok b ∧ (b = true ↔ TransGen (Needs m.types) i t) := by
  obtain ⟨info, hinfo⟩ := exists_type?_of_within hi
  have hwithin : ∀ parent ∈ info.prerequisites, parent.Within m.types := fun parent hparent =>
    (hfounded i parent ⟨info, hinfo, hparent⟩).within
  obtain ⟨met, hwalk, hwalked⟩ := exists_walk hfounded [] info.prerequisites hwithin
  refine ⟨decide (t ∈ met), ?_, ?_⟩
  · have hmet : (m.walk [] info.prerequisites >>= fun ancestors =>
        pure (decide (t ∈ ancestors))) = .ok (decide (t ∈ met)) :=
      bind_eq_ok_iff.mpr ⟨met, hwalk, rfl⟩
    exact bind_eq_ok_iff.mpr ⟨info, type_eq_ok_iff.mpr hinfo, hmet⟩
  · rw [decide_eq_true_iff, hwalked.mem_iff]
    simp only [Relation.TransGen.head'_iff, needs_iff hinfo]

theorem exists_isSubsumed (hfounded : m.Founded) (candidate : TypeId) {others : List TypeId}
    (hothers : ∀ id ∈ others, id.Within m.types) :
    ∃ b, m.isSubsumed candidate others = .ok b ∧
      (b = true ↔ candidate ∈ others ∨ m.Brings others candidate) := by
  induction others with
  | nil => exact ⟨false, rfl, by simp [Brings]⟩
  | cons other others ih =>
    obtain ⟨hother, hothers⟩ := List.forall_mem_cons.mp hothers
    obtain ⟨rest, hrest, hrest_iff⟩ := ih hothers
    obtain ⟨b, hb, hb_iff⟩ := exists_hasAncestor hfounded hother candidate
    simp only [Brings, List.mem_cons, exists_eq_or_imp] at hrest_iff ⊢
    by_cases hsame : other = candidate
    · refine ⟨true, ?_, by simp [hsame]⟩
      rw [isSubsumed, if_pos hsame]
      rfl
    · have hstep : m.isSubsumed candidate (other :: others) =
          if b = true then .ok true else m.isSubsumed candidate others := by
        rw [isSubsumed, if_neg hsame, hb]
        cases b <;> rfl
      rw [hstep]
      by_cases hancestor : b = true
      · exact ⟨true, if_pos hancestor, by simp [hb_iff.mp hancestor]⟩
      · refine ⟨rest, (if_neg hancestor).trans hrest, ?_⟩
        rw [hb_iff] at hancestor
        simp only [hrest_iff, hancestor, Ne.symm hsame, false_or]

/-! ## What is kept -/

/-- A type of a list is superfluous next to types that are kept: it is one of these, or they bring
it along together with the list. -/
def Superfluous (m : Model) (kept ids : List TypeId) (t : TypeId) : Prop :=
  t ∈ kept ∨ m.Brings (ids ++ kept) t

/-- The types of a list that are not superfluous, each once. -/
noncomputable def needed (m : Model) (kept ids : List TypeId) : List TypeId :=
  open scoped Classical in ids.eraseDups.filter fun t => ¬ m.Superfluous kept ids t

theorem mem_needed_nil_iff : t ∈ m.needed [] ids ↔ t ∈ ids ∧ ¬ m.Brings ids t := by
  have hmem : t ∈ m.needed [] ids ↔ t ∈ ids ∧ ¬ m.Superfluous [] ids t := by
    simp [needed, List.mem_eraseDups]
  simpa [Superfluous] using hmem

/-- A candidate that is one of the other types, or brought along by them, makes nothing superfluous
that they do not. -/
theorem superfluous_concat_iff {candidate : TypeId}
    (h : candidate ∈ ids ++ kept ∨ m.Brings (ids ++ kept) candidate) :
    m.Superfluous kept (ids ++ [candidate]) t ↔ m.Superfluous kept ids t := by
  have hbrings : m.Brings (ids ++ [candidate] ++ kept) t ↔ m.Brings (ids ++ kept) t := by
    constructor
    · rintro ⟨x, hx, hreach⟩
      by_cases hother : x ∈ ids ++ kept
      · exact ⟨x, hother, hreach⟩
      · have hself : x = candidate := by
          simp only [List.mem_append, List.mem_singleton] at hx hother
          tauto
        rcases h with hmem | ⟨other, hmem, hcandidate⟩
        · exact absurd (hself ▸ hmem) hother
        · exact ⟨other, hmem, hcandidate.trans (hself ▸ hreach)⟩
    · rintro ⟨x, hx, hreach⟩
      refine ⟨x, ?_, hreach⟩
      simp only [List.mem_append] at hx ⊢
      tauto
  rw [Superfluous, Superfluous, hbrings]

/-- A candidate is dropped that is one of the other types or brought along by them. -/
theorem needed_concat_of_subsumed {candidate : TypeId}
    (h : candidate ∈ ids ++ kept ∨ m.Brings (ids ++ kept) candidate) :
    m.needed kept (ids ++ [candidate]) = m.needed kept ids := by
  have hdropped (hmem : candidate ∉ ids) : m.Superfluous kept (ids ++ [candidate]) candidate := by
    rw [superfluous_concat_iff h, Superfluous]
    rw [List.mem_append] at h
    tauto
  calc m.needed kept (ids ++ [candidate])
      = open scoped Classical in
          ids.eraseDups.filter fun t => ¬ m.Superfluous kept (ids ++ [candidate]) t := by
        by_cases hmem : candidate ∈ ids
        · simp [needed, eraseDups_concat, hmem]
        · simp [needed, eraseDups_concat, hmem, hdropped hmem]
    _ = m.needed kept ids := List.filter_congr fun t _ => by simp [superfluous_concat_iff h]

/-- A candidate is kept that is not superfluous. Then the types before it are held against it as one
of those that are kept. -/
theorem needed_concat_of_not_subsumed (hacyclic : m.Acyclic) {candidate : TypeId}
    (h : ¬ (candidate ∈ ids ++ kept ∨ m.Brings (ids ++ kept) candidate)) :
    m.needed kept (ids ++ [candidate]) = m.needed (candidate :: kept) ids ++ [candidate] := by
  obtain ⟨hnew, hbrings⟩ := not_or.mp h
  rw [List.mem_append, not_or] at hnew
  have hneeded : ¬ m.Superfluous kept (ids ++ [candidate]) candidate := by
    rintro (hkept | ⟨x, hx, hreach⟩)
    · exact hnew.2 hkept
    · by_cases hself : x = candidate
      · exact hacyclic candidate (hself ▸ hreach)
      · exact hbrings ⟨x, by simpa [hself] using hx, hreach⟩
  have hothers : ∀ t ∈ ids.eraseDups,
      (m.Superfluous kept (ids ++ [candidate]) t ↔ m.Superfluous (candidate :: kept) ids t) := by
    intro t ht
    have hne : t ≠ candidate := fun heq => hnew.1 (heq ▸ List.mem_eraseDups.mp ht)
    simp [Superfluous, hne]
  simp only [needed, eraseDups_concat, hnew.1, if_false, List.filter_append]
  congr 1
  · exact List.filter_congr fun t ht => by simp [hothers t ht]
  · simp [hneeded]

theorem reduceFrom_eq (hfounded : m.Founded) (hacyclic : m.Acyclic) (kept pending : List TypeId)
    (hkept : ∀ id ∈ kept, id.Within m.types) (hpending : ∀ id ∈ pending, id.Within m.types) :
    m.reduceFrom kept pending = .ok (m.needed kept pending.reverse ++ kept) := by
  -- the candidates come in reverse, so that each step takes the last type off the list
  induction pending generalizing kept with
  | nil => simp [reduceFrom, needed]
  | cons candidate pending ih =>
    obtain ⟨hcandidate, hpending⟩ := List.forall_mem_cons.mp hpending
    have hothers : ∀ id ∈ pending.reverse ++ kept, id.Within m.types := by
      simp only [List.mem_append, List.mem_reverse]
      rintro id (hid | hid)
      · exact hpending id hid
      · exact hkept id hid
    obtain ⟨b, hb, hb_iff⟩ := exists_isSubsumed hfounded candidate hothers
    rw [reduceFrom, hb, List.reverse_cons]
    by_cases hsubsumed : b = true
    · rw [needed_concat_of_subsumed (hb_iff.mp hsubsumed), ← ih kept hkept hpending, hsubsumed]
      rfl
    · have hkept' : ∀ id ∈ candidate :: kept, id.Within m.types :=
        List.forall_mem_cons.mpr ⟨hcandidate, hkept⟩
      have hneeded := needed_concat_of_not_subsumed hacyclic (mt hb_iff.mpr hsubsumed)
      rw [hneeded, List.append_assoc, List.singleton_append, ← ih _ hkept' hpending]
      exact if_neg hsubsumed

/-- The reduction of a list holds each type of the list once that the list does not bring along. -/
theorem reduce_eq (hfounded : m.Founded) (hacyclic : m.Acyclic)
    (hids : ∀ id ∈ ids, id.Within m.types) : m.reduce ids = .ok (m.needed [] ids) := by
  have hreverse : ∀ id ∈ ids.reverse, id.Within m.types := by simpa using hids
  rw [reduce, reduceFrom_eq hfounded hacyclic [] ids.reverse (by simp) hreverse,
    List.reverse_reverse, List.append_nil]

/-! ## Nothing is lost -/

theorem Acyclic.isStrictOrder (h : m.Acyclic) :
    IsStrictOrder TypeId (TransGen (Needs m.types)) where
  irrefl := h
  trans _ _ _ := TransGen.trans

/-- Every type of a list is needed by one that is kept, or kept itself. -/
theorem exists_cover (hacyclic : m.Acyclic) (ht : t ∈ ids) :
    ∃ k ∈ m.needed [] ids, ReflTransGen (Needs m.types) k t := by
  have hstrict := hacyclic.isStrictOrder
  have hwellFounded : {x | x ∈ ids}.WellFoundedOn (TransGen (Needs m.types)) :=
    (List.finite_toSet ids).wellFoundedOn
  -- from a type to one of the list that brings it along, which cannot go on for ever
  refine hwellFounded.induction
    (P := fun t => ∃ k ∈ m.needed [] ids, ReflTransGen (Needs m.types) k t) ht ?_
  intro t ht ih
  by_cases hbrings : m.Brings ids t
  · obtain ⟨x, hx, hreach⟩ := hbrings
    obtain ⟨k, hk, hcover⟩ := ih x hx hreach
    exact ⟨k, hk, hcover.trans hreach.to_reflTransGen⟩
  · exact ⟨t, mem_needed_nil_iff.mpr ⟨ht, hbrings⟩, .refl⟩

end Remoting.Model
