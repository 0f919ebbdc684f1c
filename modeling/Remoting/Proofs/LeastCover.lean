import Remoting.Proofs.Reduction

/-!
# Remoting.Proofs.LeastCover

What the reduction of a list of types amounts to in a finished model. It is the list without
repetitions and without the types that others of the list need
(`Model.reduce_eq_eraseDups_filter`).

Types cover a list when each type of the list is one of them, or needed by one of them
(`Model.Covers`). The reduction is the least cover among the types of the list, so it depends
neither on their order nor on repetitions, and nothing of it is dropped when it is reduced again
(`Model.reduce_least_cover`).
-/

namespace Remoting.Model

variable {m : Model} {t : TypeId} {ids ids' : List TypeId}

/-! ## Without repetitions -/

theorem eraseDups_of_nodup (h : ids.Nodup) : ids.eraseDups = ids := by
  induction ids using List.reverseRecOn with
  | nil => rfl
  | append_singleton ids t ih =>
    obtain ⟨hids, -, hdisjoint⟩ := List.nodup_append.mp h
    have hnew : t ∉ ids := fun ht => hdisjoint t ht t List.mem_cons_self rfl
    rw [eraseDups_concat, if_neg hnew, ih hids]

/-! ## What is needed of a list -/

theorem needed_nil_eq (m : Model) (ids : List TypeId) :
    m.needed [] ids = open scoped Classical in ids.eraseDups.filter fun t => ¬ m.Brings ids t := by
  refine List.filter_congr fun t _ => ?_
  rw [decide_eq_decide]
  simp [Superfluous]

/-- No type is kept twice. -/
theorem nodup_needed_nil (m : Model) (ids : List TypeId) : (m.needed [] ids).Nodup := by
  rw [needed_nil_eq]
  exact (nodup_eraseDups ids).filter _

/-- Nothing is dropped from types that stand in the list once and do not need one another. -/
theorem needed_nil_of_independent (hnodup : ids.Nodup) (h : ∀ t ∈ ids, ¬ m.Brings ids t) :
    m.needed [] ids = ids := by
  rw [needed_nil_eq, eraseDups_of_nodup hnodup, List.filter_eq_self]
  simpa using h

theorem brings_congr (h : ∀ t, t ∈ ids' ↔ t ∈ ids) : m.Brings ids' t ↔ m.Brings ids t := by
  simp only [Brings, h]

/-! ## Covers -/

/-- Types cover a list: each type of the list is one of them, or they bring it along. -/
def Covers (m : Model) (cover ids : List TypeId) : Prop := ∀ t ∈ ids, t ∈ cover ∨ m.Brings cover t

/-- Types are the least cover of a list. -/
structure LeastCover (m : Model) (ids kept : List TypeId) : Prop where
  subset : kept ⊆ ids
  nodup : kept.Nodup
  covers : m.Covers kept ids
  /-- No type of the cover needs another. -/
  independent : ∀ t ∈ kept, ¬ m.Brings kept t
  /-- Whatever types of the list cover it, those of the least cover are among them. -/
  least : ∀ cover ⊆ ids, m.Covers cover ids → kept ⊆ cover

theorem leastCover_needed (hacyclic : m.Acyclic) (ids : List TypeId) :
    m.LeastCover ids (m.needed [] ids) where
  subset _ ht := (mem_needed_nil_iff.mp ht).1
  nodup := nodup_needed_nil m ids
  covers t ht := by
    obtain ⟨k, hk, hreach⟩ := exists_cover hacyclic ht
    rcases Relation.reflTransGen_iff_eq_or_transGen.mp hreach with rfl | htrans
    · exact .inl hk
    · exact .inr ⟨k, hk, htrans⟩
  independent t ht := by
    rintro ⟨k, hk, hreach⟩
    exact (mem_needed_nil_iff.mp ht).2 ⟨k, (mem_needed_nil_iff.mp hk).1, hreach⟩
  least cover hcover hcovers t ht := by
    obtain ⟨hmem, hnone⟩ := mem_needed_nil_iff.mp ht
    rcases hcovers t hmem with hin | ⟨k, hk, hreach⟩
    · exact hin
    · exact absurd ⟨k, hcover hk, hreach⟩ hnone

section Finished

variable {edits : List Edit}

/-- In a finished model a list is reduced to what is needed. -/
theorem reduce_of_finish (hm : (Builder.build edits).finish = .ok m)
    (hids : ∀ id ∈ ids, id.Within m.types) : m.reduce ids = .ok (m.needed [] ids) :=
  reduce_eq (founded_of_finish hm) (acyclic_of_finish hm) hids

/-- **The reduction of a list drops exactly the repetitions and what the list brings along.** Of
each type the first one is kept, unless some type of the list needs it, directly or through others;
the order stays the same. -/
theorem reduce_eq_eraseDups_filter (hm : (Builder.build edits).finish = .ok m)
    (hids : ∀ id ∈ ids, id.Within m.types) :
    m.reduce ids =
      .ok (open scoped Classical in ids.eraseDups.filter fun t => ¬ m.Brings ids t) := by
  rw [reduce_of_finish hm hids, needed_nil_eq]

/-- A button is a view and a widget, and a view is a widget. -/
def buttonViews : List Edit :=
  [.add "Ui" "Widget" (.interface {}),
   .add "Ui" "View" (.interface { prerequisites := [⟨7⟩] }),
   .add "Ui" "Button" (.interface { prerequisites := [⟨8⟩, ⟨7⟩] })]

/-- Widgets, buttons, numbers and views, and the buttons again in between. -/
def controls : List TypeId := [⟨7⟩, ⟨9⟩, ⟨2⟩, ⟨9⟩, ⟨8⟩]

theorem finish_buttonViews :
    (Builder.build buttonViews).finish = .ok (declared buttonViews) := by
  cbv

theorem within_controls : ∀ id ∈ controls, id.Within (declared buttonViews).types := by
  unfold TypeId.Within
  decide

theorem reduce_controls : (declared buttonViews).reduce controls = .ok [⟨9⟩, ⟨2⟩] := by
  cbv

/-- The buttons stay where they come first, and the numbers. -/
theorem reduce_eq_eraseDups_filter_controls :
    (∀ id ∈ controls, id.Within (declared buttonViews).types) ∧
      (declared buttonViews).reduce controls = .ok [⟨9⟩, ⟨2⟩] ∧
      (open scoped Classical in controls.eraseDups.filter fun t =>
        ¬ (declared buttonViews).Brings controls t) = [⟨9⟩, ⟨2⟩] := by
  have hreduce := reduce_eq_eraseDups_filter finish_buttonViews within_controls
  exact ⟨within_controls, reduce_controls, Except.ok.inj (hreduce.symm.trans reduce_controls)⟩

/-- **The reduction of a list is the least cover among its types.** It covers the list, none of its
types needs another, and it is part of every cover. Reducing it again changes nothing, and the same
types are kept of every list of the same types, whatever their order and repetitions. -/
theorem reduce_least_cover (hm : (Builder.build edits).finish = .ok m)
    (hids : ∀ id ∈ ids, id.Within m.types) :
    ∃ kept, m.reduce ids = .ok kept ∧ m.LeastCover ids kept ∧ m.reduce kept = .ok kept ∧
      ∀ ids', (∀ t, t ∈ ids' ↔ t ∈ ids) →
        ∃ kept', m.reduce ids' = .ok kept' ∧ kept'.Perm kept := by
  have hleast := leastCover_needed (acyclic_of_finish hm) ids
  refine ⟨m.needed [] ids, reduce_of_finish hm hids, hleast, ?_, fun ids' hsame => ?_⟩
  · have hwithin : ∀ id ∈ m.needed [] ids, id.Within m.types := fun id hid =>
      hids id (hleast.subset hid)
    rw [reduce_of_finish hm hwithin, needed_nil_of_independent hleast.nodup hleast.independent]
  · have hwithin : ∀ id ∈ ids', id.Within m.types := fun id hid => hids id ((hsame id).mp hid)
    refine ⟨m.needed [] ids', reduce_of_finish hm hwithin, ?_⟩
    rw [List.perm_ext_iff_of_nodup (nodup_needed_nil m ids') hleast.nodup]
    intro t
    rw [mem_needed_nil_iff, mem_needed_nil_iff, hsame, brings_congr hsame]

/-- The buttons and the numbers are the least cover. In another order of the list they change
places. -/
theorem reduce_least_cover_controls :
    (∀ id ∈ controls, id.Within (declared buttonViews).types) ∧
      (declared buttonViews).LeastCover controls [⟨9⟩, ⟨2⟩] ∧
      (declared buttonViews).reduce [⟨9⟩, ⟨2⟩] = .ok [⟨9⟩, ⟨2⟩] ∧
      (declared buttonViews).reduce [⟨8⟩, ⟨2⟩, ⟨7⟩, ⟨2⟩, ⟨9⟩] = .ok [⟨2⟩, ⟨9⟩] := by
  obtain ⟨kept, hkept, hleast, hagain, -⟩ := reduce_least_cover finish_buttonViews within_controls
  obtain rfl := Except.ok.inj (hkept.symm.trans reduce_controls)
  exact ⟨within_controls, hleast, hagain, by cbv⟩

end Finished

end Remoting.Model
