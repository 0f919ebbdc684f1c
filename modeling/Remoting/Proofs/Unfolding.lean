import Remoting.Proofs.ClassHierarchy

/-!
# Remoting.Proofs.Unfolding

What a type needs, written out in full: the type, and after it what each of its prerequisites
unfolds to, one after the other (`Model.Unfolds`). A type that is needed in several ways is written
out as often. In a finished model nothing unfolds for ever (`Model.exists_unfolds`).

A walk passes by what it has seen, and so leaves out not only the types that it meets again but all
that they would unfold to. Still nothing gets lost, and the order stays the same: the walk meets the
types of the unfolding where each of them comes first (`Model.walk_append_of_unfolds`). The
invariant is that a type which was seen and will be met again has been walked through to the end
(`Model.Explored`). It holds because no type needs itself: what is being walked through at the
moment is not met again before that is done. So the closure of an interface is its unfolding without
repetitions (`Model.closure_eq_eraseDups_unfolding`).
-/

namespace Remoting.Model

open Relation (ReflTransGen TransGen)
open Schema (Needs)

variable {m : Model} {i t : TypeId} {ids ids' full above later seen : List TypeId}

/-- The types that some types unfold to, depth first and without regard to what was met before. -/
inductive Unfolds (m : Model) : List TypeId → List TypeId → Prop
  | nil : m.Unfolds [] []
  | cons {id : TypeId} {info : TypeInfo} {rest above later : List TypeId}
      (hinfo : m.type? id = some info) (habove : m.Unfolds info.prerequisites above)
      (hlater : m.Unfolds rest later) : m.Unfolds (id :: rest) (id :: (above ++ later))

/-! ## There is one unfolding -/

theorem Unfolds.unique (h : m.Unfolds ids above) (h' : m.Unfolds ids later) : above = later := by
  induction h generalizing later with
  | nil =>
    cases h'
    rfl
  | cons hinfo _ _ ihabove ihlater =>
    cases h' with
    | cons hinfo' habove' hlater' =>
      obtain rfl := Option.some.inj (hinfo.symm.trans hinfo')
      rw [ihabove habove', ihlater hlater']

/-- Types unfold when each of them does. -/
theorem exists_unfolds_of_each (h : ∀ id ∈ ids, ∃ l, m.Unfolds [id] l) : ∃ l, m.Unfolds ids l := by
  induction ids with
  | nil => exact ⟨[], .nil⟩
  | cons id ids ih =>
    obtain ⟨hid, hids⟩ := List.forall_mem_cons.mp h
    obtain ⟨_, hfirst⟩ := hid
    obtain ⟨later, hlater⟩ := ih hids
    cases hfirst with
    | cons hinfo habove _ => exact ⟨_, .cons hinfo habove hlater⟩

/-- Where prerequisites are interfaces and no type needs itself, every type unfolds. -/
theorem exists_unfolds (hfounded : m.Founded) (hacyclic : m.Acyclic) (hi : i.Within m.types) :
    ∃ l, m.Unfolds [i] l := by
  refine hacyclic.wellFoundedOn_needs.induction (P := fun i => ∃ l, m.Unfolds [i] l) hi ?_
  intro i hi ih
  obtain ⟨info, hinfo⟩ := exists_type?_of_within hi
  have heach : ∀ id ∈ info.prerequisites, ∃ l, m.Unfolds [id] l := by
    intro id hid
    have hneeds : Needs m.types i id := ⟨info, hinfo, hid⟩
    exact ih id (hfounded i id hneeds).within (.single hneeds)
  obtain ⟨above, habove⟩ := exists_unfolds_of_each heach
  exact ⟨_, .cons hinfo habove .nil⟩

/-! ## What is in it -/

/-- Types unfold to themselves and to what they need. -/
theorem Unfolds.mem_iff (h : m.Unfolds ids full) :
    t ∈ full ↔ ∃ start ∈ ids, ReflTransGen (Needs m.types) start t := by
  induction h with
  | nil => simp
  | @cons id info rest above later hinfo _ _ ihabove ihlater =>
    have hstart : ReflTransGen (Needs m.types) id t ↔
        t = id ∨ ∃ start ∈ info.prerequisites, ReflTransGen (Needs m.types) start t := by
      rw [Relation.ReflTransGen.cases_head_iff]
      simp only [needs_iff hinfo, eq_comm]
    simp only [List.mem_cons, List.mem_append, ihabove, ihlater, exists_eq_or_imp, hstart,
      or_assoc]

/-- What the prerequisites of a type unfold to is what the type needs. -/
theorem Unfolds.mem_iff_transGen {info : TypeInfo} (h : m.Unfolds info.prerequisites full)
    (hinfo : m.type? i = some info) : t ∈ full ↔ TransGen (Needs m.types) i t := by
  rw [h.mem_iff, Relation.TransGen.head'_iff]
  simp only [needs_iff hinfo]

/-! ## Types that are met for the first time -/

/-- The types of a list that were not seen before, each where it comes first. -/
def unmet (seen ids : List TypeId) : List TypeId := (ids.filter (· ∉ seen)).eraseDups

theorem mem_unmet_iff : t ∈ unmet seen ids ↔ t ∈ ids ∧ t ∉ seen := by
  simp [unmet, List.mem_eraseDups]

theorem unmet_nil (ids : List TypeId) : unmet [] ids = ids.eraseDups := by
  simp [unmet]

theorem unmet_of_subset (h : ids ⊆ seen) : unmet seen ids = [] := by
  have hnone : ids.filter (· ∉ seen) = [] := by
    simpa [List.filter_eq_nil_iff] using fun t ht => h ht
  rw [unmet, hnone, List.eraseDups_nil]

theorem unmet_cons_of_not_mem (h : i ∉ seen) :
    unmet seen (i :: ids) = i :: unmet (i :: seen) ids := by
  have hrest : (ids.filter (· ∉ seen)).filter (fun t => !t == i) = ids.filter (· ∉ i :: seen) := by
    rw [List.filter_filter]
    refine List.filter_congr fun t _ => ?_
    grind
  rw [unmet, List.filter_cons_of_pos (by simpa using h), List.eraseDups_cons, hrest]
  rfl

/-- What was met in the first part of a list is passed by in the second. -/
theorem unmet_append (seen ids ids' : List TypeId) :
    unmet seen (ids ++ ids') = unmet seen ids ++ unmet ((unmet seen ids).reverse ++ seen) ids' := by
  have hlater : (ids'.filter (· ∉ seen)).removeAll (ids.filter (· ∉ seen)) =
      ids'.filter (· ∉ (unmet seen ids).reverse ++ seen) := by
    rw [List.removeAll, List.filter_filter]
    refine List.filter_congr fun t _ => ?_
    simp only [List.mem_append, List.mem_reverse, mem_unmet_iff]
    grind
  rw [unmet, List.filter_append, List.eraseDups_append, hlater]
  rfl

/-! ## Walking through an unfolding -/

/-- Of the types that were seen, those that come up in a list have been walked through. -/
def Explored (m : Model) (seen ids : List TypeId) : Prop :=
  ∀ s ∈ seen, s ∈ ids → ∀ t, TransGen (Needs m.types) s t → t ∈ seen

theorem Explored.mono (h : m.Explored seen ids) (hsubset : ids' ⊆ ids) : m.Explored seen ids' :=
  fun s hs hmem => h s hs (hsubset hmem)

/-- A type that is not needed by itself does not come up again while it is walked through. -/
theorem Explored.enter {info : TypeInfo} (hacyclic : m.Acyclic) (hinfo : m.type? i = some info)
    (habove : m.Unfolds info.prerequisites above) (h : m.Explored seen above) :
    m.Explored (i :: seen) above := by
  intro s hs hmem t hneeds
  rcases List.mem_cons.mp hs with rfl | hs
  · exact absurd ((habove.mem_iff_transGen hinfo).mp hmem) (hacyclic s)
  · exact List.mem_cons_of_mem i (h s hs hmem t hneeds)

/-- A type has been walked through to the end when what its prerequisites unfold to has been met. -/
theorem Explored.leave {info : TypeInfo} (hinfo : m.type? i = some info)
    (habove : m.Unfolds info.prerequisites above) (h : m.Explored seen later) :
    m.Explored ((unmet (i :: seen) above).reverse ++ i :: seen) later := by
  intro s hs hmem t hneeds
  have hcome (ht : t ∈ above ∨ t ∈ seen) : t ∈ (unmet (i :: seen) above).reverse ++ i :: seen := by
    simp only [List.mem_append, List.mem_reverse, mem_unmet_iff, List.mem_cons]
    tauto
  simp only [List.mem_append, List.mem_reverse, mem_unmet_iff, List.mem_cons] at hs
  rcases hs with ⟨habove', -⟩ | rfl | hseen
  · have hreach := (habove.mem_iff_transGen hinfo).mp habove'
    exact hcome (.inl ((habove.mem_iff_transGen hinfo).mpr (hreach.trans hneeds)))
  · exact hcome (.inl ((habove.mem_iff_transGen hinfo).mpr hneeds))
  · exact hcome (.inr (h s hseen hmem t hneeds))

theorem walk_cons_of_mem {rest : List TypeId} (h : i ∈ seen) :
    m.walk seen (i :: rest) = m.walk seen rest := by
  rw [walk, dif_pos h]

theorem walk_cons_of_not_mem {info : TypeInfo} {rest : List TypeId} (h : i ∉ seen)
    (hinfo : m.type? i = some info) :
    m.walk seen (i :: rest) = (m.walk (i :: seen) (info.prerequisites ++ rest)).map (i :: ·) := by
  rw [walk, dif_neg h]
  split
  · next hnone =>
    rw [hnone] at hinfo
    contradiction
  · next info' hinfo' =>
    obtain rfl := Option.some.inj (hinfo'.symm.trans hinfo)
    cases m.walk (i :: seen) (info'.prerequisites ++ rest) <;> rfl

/-- A walk meets the types of an unfolding where each of them comes first, and then goes on with
what is behind. -/
theorem walk_append_of_unfolds (hacyclic : m.Acyclic) (h : m.Unfolds ids full)
    (hexplored : m.Explored seen full) (rest : List TypeId) :
    m.walk seen (ids ++ rest) =
      (m.walk ((unmet seen full).reverse ++ seen) rest).map (unmet seen full ++ ·) := by
  -- the induction is on the unfolding: what a type needs comes before what stands behind the type
  induction h generalizing seen rest with
  | nil =>
    have hnone : unmet seen [] = [] := unmet_of_subset (List.nil_subset seen)
    simp only [hnone, List.nil_append, List.reverse_nil]
    cases m.walk seen rest <;> rfl
  | @cons id info behind above later hinfo habove hlater ihabove ihlater =>
    have hsubset : later ⊆ id :: (above ++ later) := by simp
    by_cases hseen : id ∈ seen
    · have hmet : id :: above ⊆ seen := by
        refine List.cons_subset.mpr ⟨hseen, fun t ht => ?_⟩
        exact hexplored id hseen List.mem_cons_self t ((habove.mem_iff_transGen hinfo).mp ht)
      have hunmet : unmet seen (id :: (above ++ later)) = unmet seen later := by
        rw [← List.cons_append, unmet_append, unmet_of_subset hmet]
        rfl
      rw [List.cons_append, walk_cons_of_mem hseen, hunmet]
      exact ihlater (hexplored.mono hsubset) rest
    · have hunmet : unmet seen (id :: (above ++ later)) = id :: (unmet (id :: seen) above ++
          unmet ((unmet (id :: seen) above).reverse ++ id :: seen) later) := by
        rw [unmet_cons_of_not_mem hseen, unmet_append]
      have hwithin : above ⊆ id :: (above ++ later) := by simp
      have henter := (hexplored.mono hwithin).enter hacyclic hinfo habove
      have hleave := (hexplored.mono hsubset).leave hinfo habove
      rw [List.cons_append, walk_cons_of_not_mem hseen hinfo, ihabove henter,
        ihlater hleave, hunmet]
      simp only [List.reverse_cons, List.reverse_append, List.append_assoc,
        List.singleton_append]
      cases m.walk _ rest <;> simp [Except.map]

/-- The closure of a type holds what the type unfolds to, each where it comes first. -/
theorem closure_of_unfolds (hacyclic : m.Acyclic) (h : m.Unfolds [i] full) :
    m.closure i = .ok full.eraseDups := by
  have hexplored : m.Explored [] full := by simp [Explored]
  have hwalk := walk_append_of_unfolds hacyclic h hexplored []
  rw [unmet_nil] at hwalk
  rw [closure, ← List.append_nil [i], hwalk, walk]
  simp [Except.map]

/-- **The closure of an interface is its unfolding without repetitions.** In a finished model every
interface unfolds to exactly one list, and its closure is that list with each type where it comes
first. So the closure starts with the interface, and it holds each of the types once that the
interface needs, directly or through others. -/
theorem closure_eq_eraseDups_unfolding {edits : List Edit}
    (hm : (Builder.build edits).finish = .ok m) (hi : m.HasInterface i) :
    ∃ unfolding ids, (∀ l, m.Unfolds [i] l ↔ l = unfolding) ∧
      m.closure i = .ok ids ∧ ids = unfolding.eraseDups ∧
      ids.head? = some i ∧ ids.Nodup ∧ ∀ t, t ∈ ids ↔ t = i ∨ TransGen (Needs m.types) i t := by
  have hacyclic := acyclic_of_finish hm
  obtain ⟨unfolding, hunfolds⟩ := exists_unfolds (founded_of_finish hm) hacyclic hi.within
  have hclosure := closure_of_unfolds hacyclic hunfolds
  refine ⟨unfolding, _, fun l => ⟨fun hl => hl.unique hunfolds, fun hl => hl ▸ hunfolds⟩,
    hclosure, rfl, ?_, (nodup_of_walk hclosure).1, fun t => ?_⟩
  · cases hunfolds
    simp [List.eraseDups_cons]
  · rw [List.mem_eraseDups, hunfolds.mem_iff]
    simp [Relation.reflTransGen_iff_eq_or_transGen]

/-! A badge needs nodes in three ways, and they are listed once, behind the badge. -/

theorem closure_eq_eraseDups_unfolding_badge :
    (Builder.build badges).finish = .ok (declared badges) ∧
      (declared badges).HasInterface ⟨10⟩ ∧
      (declared badges).Unfolds [⟨10⟩] [⟨10⟩, ⟨7⟩, ⟨8⟩, ⟨7⟩, ⟨9⟩, ⟨7⟩] ∧
      (declared badges).closure ⟨10⟩ = .ok [⟨10⟩, ⟨7⟩, ⟨8⟩, ⟨9⟩] := by
  have hfinish : (Builder.build badges).finish = .ok (declared badges) := by cbv
  have hbadge : (declared badges).HasInterface ⟨10⟩ := ⟨_, rfl, rfl⟩
  have hnode : (declared badges).Unfolds [⟨7⟩] [⟨7⟩] := @Unfolds.cons _ _ _ _ [] [] rfl .nil .nil
  have hlabel : (declared badges).Unfolds [⟨9⟩] [⟨9⟩, ⟨7⟩] :=
    @Unfolds.cons _ _ _ _ [⟨7⟩] [] rfl hnode .nil
  have hneeded : (declared badges).Unfolds [⟨7⟩, ⟨8⟩, ⟨9⟩] [⟨7⟩, ⟨8⟩, ⟨7⟩, ⟨9⟩, ⟨7⟩] :=
    @Unfolds.cons _ _ _ _ [] _ rfl .nil (@Unfolds.cons _ _ _ _ [⟨7⟩] _ rfl hnode hlabel)
  have hunfolds : (declared badges).Unfolds [⟨10⟩] [⟨10⟩, ⟨7⟩, ⟨8⟩, ⟨7⟩, ⟨9⟩, ⟨7⟩] :=
    @Unfolds.cons _ _ _ _ [⟨7⟩, ⟨8⟩, ⟨7⟩, ⟨9⟩, ⟨7⟩] [] rfl hneeded .nil
  obtain ⟨unfolding, ids, hunique, hclosure, hids, -⟩ :=
    closure_eq_eraseDups_unfolding hfinish hbadge
  obtain rfl := (hunique _).mp hunfolds
  exact ⟨hfinish, hbadge, hunfolds, hclosure.trans (congrArg Except.ok hids)⟩

end Remoting.Model
