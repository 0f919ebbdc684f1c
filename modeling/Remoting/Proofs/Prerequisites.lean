import Mathlib
import Remoting.Schema.Check

/-!
# Remoting.Proofs.Prerequisites

The search for cycles of prerequisites is right: it finds a cycle exactly when some type needs
itself, directly or through others (`findCycle_eq_none_iff`), and what it finds is a cycle
(`isCycle_of_findCycle`).

The search has two results, and each has its invariant.

* While it goes down, the types on its path need one another in turn (`Trail`). So a type that is
  met again on the path closes a cycle.
* The types that are done with are listed with everything they need behind them (`Settled`). A type
  in such a list cannot need itself, and in the end every type is in the list.
-/

namespace Remoting.Schema

open Relation (TransGen)

variable {types : List TypeInfo} {path done done' : List TypeId} {id : TypeId}

/-- A type has another one among its prerequisites. -/
def Needs (types : List TypeInfo) (child parent : TypeId) : Prop :=
  ∃ info, types[child.index]? = some info ∧ parent ∈ info.prerequisites

theorem mem_prerequisitesOf_iff {child parent : TypeId} :
    parent ∈ prerequisitesOf types child ↔ Needs types child parent := by
  unfold prerequisitesOf Needs
  cases types[child.index]? <;> simp

theorem Needs.index_lt {child parent : TypeId} (h : Needs types child parent) :
    child.index < types.length := by
  obtain ⟨info, hinfo, -⟩ := h
  exact (List.getElem?_eq_some_iff.mp hinfo).1

/-! ## Cycles -/

/-- Types each of which needs the next one, all different but the first and the last, which are the
same. -/
def IsCycle (types : List TypeInfo) (cycle : List TypeId) : Prop :=
  ∃ first between, cycle = first :: between ++ [first] ∧ (first :: between).Nodup ∧
    cycle.IsChain (Needs types)

theorem transGen_of_isChain {R : α → α → Prop} {a b : α} {l : List α}
    (h : (a :: l ++ [b]).IsChain R) : TransGen R a b := by
  induction l generalizing a with
  | nil => exact .single (List.isChain_pair.mp h)
  | cons c l ih =>
    obtain ⟨hac, hcb⟩ := List.isChain_cons_cons.mp h
    exact .head hac (ih hcb)

/-- In a chain every entry but the last one is followed by another. -/
theorem exists_of_isChain_concat {R : α → α → Prop} {a b : α} {l : List α}
    (h : (l ++ [b]).IsChain R) (ha : a ∈ l) : ∃ c, R a c := by
  obtain ⟨before, behind, rfl⟩ := List.append_of_mem ha
  cases behind with
  | nil =>
    have hpair : [a, b].IsChain R := h.suffix ⟨before, by simp⟩
    exact ⟨b, List.isChain_pair.mp hpair⟩
  | cons c behind =>
    have hrest : (a :: c :: behind ++ [b]).IsChain R := h.suffix ⟨before, by simp⟩
    exact ⟨c, (List.isChain_cons_cons.mp hrest).1⟩

/-- The types of a cycle exist. -/
theorem IsCycle.index_lt {cycle : List TypeId} (h : IsCycle types cycle) (hid : id ∈ cycle) :
    id.index < types.length := by
  obtain ⟨first, between, rfl, -, hchain⟩ := h
  have hmem : id ∈ first :: between := by
    rcases List.mem_append.mp hid with hmem | hlast
    · exact hmem
    · exact List.mem_singleton.mp hlast ▸ List.mem_cons_self
  obtain ⟨parent, hneeds⟩ := exists_of_isChain_concat hchain hmem
  exact hneeds.index_lt

/-- The first type of a cycle needs itself. -/
theorem IsCycle.transGen {cycle : List TypeId} (h : IsCycle types cycle) :
    ∃ id, TransGen (Needs types) id id := by
  obtain ⟨first, between, rfl, -, hchain⟩ := h
  exact ⟨first, transGen_of_isChain hchain⟩

/-! ## The way down -/

/-- The types on the path are different, and each needs the one in front of it; the first one needs
the type that the search has come to. -/
structure Trail (types : List TypeInfo) (path : List TypeId) (id : TypeId) : Prop where
  nodup : path.Nodup
  chain : (id :: path).IsChain fun parent child => Needs types child parent

theorem Trail.start (types : List TypeInfo) (id : TypeId) : Trail types [] id :=
  ⟨List.nodup_nil, List.isChain_singleton id⟩

theorem Trail.descend (h : Trail types path id) (hpath : id ∉ path) {parent : TypeId}
    (hneeds : Needs types id parent) : Trail types (id :: path) parent :=
  ⟨List.nodup_cons.mpr ⟨hpath, h.nodup⟩, List.isChain_cons_cons.mpr ⟨hneeds, h.chain⟩⟩

theorem takeWhile_ne_append_cons {since before : List TypeId} (h : id ∉ since) :
    (since ++ id :: before).takeWhile (· ≠ id) = since := by
  rw [List.takeWhile_append_of_pos]
  · simp
  · intro other hother
    exact decide_eq_true (fun heq => h (heq ▸ hother))

/-- A type that is met again closes a cycle: the part of the path since it was met first. -/
theorem Trail.isCycle (h : Trail types path id) (hpath : id ∈ path) :
    IsCycle types (id :: (path.takeWhile (· ≠ id)).reverse ++ [id]) := by
  obtain ⟨since, before, rfl, hsince⟩ := List.eq_append_cons_of_mem hpath
  have hreverse : id :: since.reverse ++ [id] = (id :: since ++ [id]).reverse := by simp
  rw [takeWhile_ne_append_cons hsince]
  refine ⟨id, since.reverse, rfl, ?_, ?_⟩
  · have hnodup : since.Nodup := (List.nodup_append.mp h.nodup).1
    exact List.nodup_cons.mpr ⟨by simpa using hsince, List.nodup_reverse.mpr hnodup⟩
  · rw [hreverse, List.isChain_reverse]
    exact h.chain.prefix ⟨before, by simp⟩

mutual

/-- What a visit reports is a cycle. -/
theorem isCycle_of_visit {types : List TypeInfo} {path done cycle : List TypeId} {id : TypeId}
    (htrail : Trail types path id) (h : visit types path done id = .error cycle) :
    IsCycle types cycle := by
  rw [visit] at h
  split at h
  · contradiction
  · split at h
    · next hpath =>
      cases h
      exact htrail.isCycle hpath
    · next hpath =>
      split at h
      · next hlt =>
        cases hsearch : visitEach types (id :: path) done (prerequisitesOf types id) with
        | ok done' =>
          rw [hsearch] at h
          contradiction
        | error cycle' =>
          rw [hsearch] at h
          cases h
          refine isCycle_of_visitEach _ (fun parent hparent => ?_) hsearch
          exact htrail.descend hpath (mem_prerequisitesOf_iff.mp hparent)
      · contradiction
termination_by (unseen types.length path, 0)
decreasing_by
  exact Prod.Lex.left _ _ (unseen_cons_lt ‹_› ‹_›)

theorem isCycle_of_visitEach {types : List TypeInfo} {path done cycle : List TypeId} :
    (ids : List TypeId) → (∀ id ∈ ids, Trail types path id) →
      visitEach types path done ids = .error cycle → IsCycle types cycle
  | [], _, h => by
    rw [visitEach] at h
    contradiction
  | id :: ids, htrail, h => by
    rw [visitEach] at h
    split at h
    · next cycle' hvisit =>
      cases h
      exact isCycle_of_visit (htrail id List.mem_cons_self) hvisit
    · exact isCycle_of_visitEach ids (fun id' hid' => htrail id' (List.mem_cons_of_mem id hid')) h
termination_by ids => (unseen types.length path, ids.length + 1)
decreasing_by
  · exact Prod.Lex.right _ (by simp)
  · exact Prod.Lex.right _ (by simp)

end

/-- What the search finds is a cycle. -/
theorem isCycle_of_findCycle {cycle : List TypeId} (h : findCycle types = some cycle) :
    IsCycle types cycle := by
  unfold findCycle at h
  split at h
  · next cycle' hsearch =>
    cases h
    exact isCycle_of_visitEach _ (fun id _ => .start types id) hsearch
  · contradiction

/-! ## What is done with -/

/-- Every type comes once, in front of everything it needs. Numbers without a type need not be
listed. -/
inductive Settled (types : List TypeInfo) : List TypeId → Prop where
  | nil : Settled types []
  | cons {id : TypeId} {done : List TypeId} (tail : Settled types done) (fresh : id ∉ done)
      (behind : ∀ parent, Needs types id parent → parent.index < types.length → parent ∈ done) :
      Settled types (id :: done)

theorem Settled.mem_of_needs {child parent : TypeId} (h : Settled types done) (hchild : child ∈ done)
    (hneeds : Needs types child parent) (hparent : parent.index < types.length) :
    parent ∈ done := by
  induction h with
  | nil => contradiction
  | cons tail fresh behind ih =>
    refine List.mem_cons_of_mem _ ?_
    rcases List.mem_cons.mp hchild with rfl | hmem
    · exact behind parent hneeds hparent
    · exact ih hmem

/-- All ancestors of a type that is done with are done with. -/
theorem Settled.mem_of_transGen {child ancestor : TypeId} (h : Settled types done)
    (hchild : child ∈ done) (hneeds : TransGen (Needs types) child ancestor)
    (hancestor : ancestor.index < types.length) : ancestor ∈ done := by
  induction hneeds with
  | single hstep => exact h.mem_of_needs hchild hstep hancestor
  | tail _ hstep ih => exact h.mem_of_needs (ih hstep.index_lt) hstep hancestor

/-- No type that is done with needs itself: what it needs is listed behind it. -/
theorem Settled.acyclic (h : Settled types done) (hid : id ∈ done) :
    ¬ TransGen (Needs types) id id := by
  induction h with
  | nil => contradiction
  | cons tail fresh behind ih =>
    rcases List.mem_cons.mp hid with rfl | hmem
    · intro hloop
      obtain ⟨parent, hneeds, hback⟩ := TransGen.head'_iff.mp hloop
      rcases Relation.reflTransGen_iff_eq_or_transGen.mp hback with rfl | hback
      · exact fresh (behind _ hneeds hneeds.index_lt)
      · obtain ⟨next, hnext, -⟩ := TransGen.head'_iff.mp hback
        have hparent := behind parent hneeds hnext.index_lt
        exact fresh (tail.mem_of_transGen hparent hback hneeds.index_lt)
    · exact ih hmem

/-- A search from a path adds to what is done with, but nothing of the path. -/
structure Advances (types : List TypeInfo) (path done done' : List TypeId) : Prop where
  settled : Settled types done'
  keeps : ∀ id ∈ done, id ∈ done'
  apart : ∀ id ∈ path, id ∈ done' → id ∈ done

theorem Advances.refl (h : Settled types done) : Advances types path done done :=
  ⟨h, fun _ hid => hid, fun _ _ hid => hid⟩

theorem Advances.trans {done'' : List TypeId} (h : Advances types path done done')
    (h' : Advances types path done' done'') : Advances types path done done'' :=
  ⟨h'.settled, fun id hid => h'.keeps id (h.keeps id hid),
    fun id hpath hid => h.apart id hpath (h'.apart id hpath hid)⟩

mutual

/-- A visit without a report gets a type done. -/
theorem advances_of_visit {types : List TypeInfo} {path done done' : List TypeId} {id : TypeId}
    (hsettled : Settled types done) (h : visit types path done id = .ok done') :
    Advances types path done done' ∧ (id.index < types.length → id ∈ done') := by
  rw [visit] at h
  split at h
  · next hdone =>
    cases h
    exact ⟨.refl hsettled, fun _ => hdone⟩
  · next hdone =>
    split at h
    · contradiction
    · next hpath =>
      split at h
      · next hlt =>
        cases hsearch : visitEach types (id :: path) done (prerequisitesOf types id) with
        | error cycle =>
          rw [hsearch] at h
          contradiction
        | ok behind =>
          rw [hsearch] at h
          cases h
          obtain ⟨hadvances, hall⟩ := advances_of_visitEach _ hsettled hsearch
          -- `id` is on the path of the search below it, so that search has not listed it
          have hfresh : id ∉ behind := fun hmem =>
            hdone (hadvances.apart id List.mem_cons_self hmem)
          refine ⟨⟨.cons hadvances.settled hfresh fun parent hneeds hparent => ?_, ?_, ?_⟩,
            fun _ => List.mem_cons_self⟩
          · exact hall parent (mem_prerequisitesOf_iff.mpr hneeds) hparent
          · exact fun id' hid' => List.mem_cons_of_mem id (hadvances.keeps id' hid')
          · intro id' hid' hmem
            rcases List.mem_cons.mp hmem with rfl | hmem
            · exact absurd hid' hpath
            · exact hadvances.apart id' (List.mem_cons_of_mem id hid') hmem
      · next hlt =>
        cases h
        exact ⟨.refl hsettled, fun hlt' => absurd hlt' hlt⟩
termination_by (unseen types.length path, 0)
decreasing_by
  exact Prod.Lex.left _ _ (unseen_cons_lt ‹_› ‹_›)

theorem advances_of_visitEach {types : List TypeInfo} {path done done' : List TypeId} :
    (ids : List TypeId) → Settled types done → visitEach types path done ids = .ok done' →
      Advances types path done done' ∧ ∀ id ∈ ids, id.index < types.length → id ∈ done'
  | [], hsettled, h => by
    rw [visitEach] at h
    cases h
    exact ⟨.refl hsettled, by simp⟩
  | id :: ids, hsettled, h => by
    rw [visitEach] at h
    split at h
    · contradiction
    · next done₁ hvisit =>
      obtain ⟨hfirst, hid⟩ := advances_of_visit hsettled hvisit
      obtain ⟨hrest, hids⟩ := advances_of_visitEach ids hfirst.settled h
      refine ⟨hfirst.trans hrest, fun id' hid' hlt => ?_⟩
      rcases List.mem_cons.mp hid' with rfl | hmem
      · exact hrest.keeps _ (hid hlt)
      · exact hids id' hmem hlt
termination_by ids => (unseen types.length path, ids.length + 1)
decreasing_by
  · exact Prod.Lex.right _ (by simp)
  · exact Prod.Lex.right _ (by simp)

end

/-! ## The search -/

/-- No cycle is found exactly when no type needs itself, directly or through others. -/
theorem findCycle_eq_none_iff :
    findCycle types = none ↔ ∀ id, ¬ TransGen (Needs types) id id := by
  constructor
  · intro h id hloop
    unfold findCycle at h
    split at h
    · contradiction
    · next done hsearch =>
      obtain ⟨parent, hneeds, -⟩ := TransGen.head'_iff.mp hloop
      obtain ⟨hadvances, hall⟩ := advances_of_visitEach _ .nil hsearch
      have hid : id ∈ (List.range types.length).map TypeId.mk :=
        List.mem_map.mpr ⟨id.index, List.mem_range.mpr hneeds.index_lt, rfl⟩
      exact hadvances.settled.acyclic (hall id hid hneeds.index_lt) hloop
  · intro h
    by_contra hsome
    obtain ⟨cycle, hcycle⟩ := Option.ne_none_iff_exists'.mp hsome
    obtain ⟨id, hloop⟩ := (isCycle_of_findCycle hcycle).transGen
    exact h id hloop

/-- The check passes if no type needs itself. -/
theorem checkAcyclic_eq_ok_iff :
    checkAcyclic types = .ok () ↔ ∀ id, ¬ TransGen (Needs types) id id := by
  rw [← findCycle_eq_none_iff, checkAcyclic]
  cases findCycle types <;> simp

end Remoting.Schema
