import Remoting.Proofs.LeastCover
import Remoting.Proofs.Stepwise

/-!
# Remoting.Proofs.AncestorSearch

The search for an ancestor, round by round. It keeps a list of types that it has still to look at,
to which it adds the prerequisites of every type that it meets for the first time. It stops as soon
as it comes to the type that it looks for, or when nothing is left in the list.

Whatever the search has seen, an ancestor has been met or can be reached from a type that is still
in the list (`AncestorSearch.Sound.mem_or_exists`). So in a finished model the search ends, and it
tells the same as `Model.hasAncestor`: whether a type is needed, directly or through others. This is
a strict order of the types (`Model.hasAncestor_iff_reachable`).
-/

namespace Remoting

open Relation (ReflTransGen TransGen)
open Schema (Needs)
open StateTransition (eval mem_eval)

/-- A search for an ancestor on its way: the types that it has still to look at, the next one first,
and the types that it has met. A type can be waiting several times, also when it has been met. -/
structure AncestorSearch where
  pending : List TypeId
  visited : List TypeId
  deriving DecidableEq, Repr

namespace AncestorSearch

variable {m : Model} {child parent t : TypeId} {s s' : AncestorSearch}

/-- The search from a type begins with its prerequisites, of which the last one is the next. -/
def start (info : TypeInfo) : AncestorSearch := ⟨info.prerequisites.reverse, []⟩

/-- One round. There is none when the search has come to the type that it looks for, or has nothing
left to look at, or does not find the next type in the model. -/
def round (m : Model) (parent : TypeId) (s : AncestorSearch) : Option AncestorSearch :=
  match s.pending with
  | [] => none
  | next :: rest =>
    if next = parent then none
    else if next ∈ s.visited then some ⟨rest, s.visited⟩
    else (m.type? next).map fun info => ⟨info.prerequisites.reverse ++ rest, next :: s.visited⟩

/-- What a search tells that goes no further. -/
def answer? (parent : TypeId) (s : AncestorSearch) : Option Bool :=
  match s.pending with
  | [] => some false
  | next :: _ => if next = parent then some true else none

/-- A round takes the next type off the list, and adds what it needs if it was not met before. -/
theorem round_eq_some (h : round m parent s = some s') :
    ∃ next rest, s.pending = next :: rest ∧ next ≠ parent ∧
      ((next ∈ s.visited ∧ s' = ⟨rest, s.visited⟩) ∨
        (next ∉ s.visited ∧ ∃ info, m.type? next = some info ∧
          s' = ⟨info.prerequisites.reverse ++ rest, next :: s.visited⟩)) := by
  unfold round at h
  split at h
  · contradiction
  · next next rest hpending =>
    split at h
    · contradiction
    · next hother =>
      refine ⟨next, rest, hpending, hother, ?_⟩
      split at h
      · next hvisited => exact .inl ⟨hvisited, (Option.some.inj h).symm⟩
      · next hvisited =>
        obtain ⟨info, hinfo, hs'⟩ := Option.map_eq_some_iff.mp h
        exact .inr ⟨hvisited, info, hinfo, hs'.symm⟩

/-! ## The search ends -/

/-- How much a search has still to do: the types that it has not met, and after that the length of
its list. -/
def work (m : Model) (s : AncestorSearch) : Nat ×ₗ Nat :=
  toLex (Schema.unseen m.types.length s.visited, s.pending.length)

theorem work_round_lt (h : round m parent s = some s') : s'.work m < s.work m := by
  obtain ⟨next, rest, hpending, -, ⟨-, rfl⟩ | ⟨hvisited, info, hinfo, rfl⟩⟩ := round_eq_some h
  · refine Prod.Lex.right _ ?_
    simp [hpending]
  · exact Prod.Lex.left _ _
      (Schema.unseen_cons_lt (List.getElem?_eq_some_iff.mp hinfo).1 hvisited)

theorem exists_mem_eval_round (m : Model) (parent : TypeId) (s : AncestorSearch) :
    ∃ s', s' ∈ eval (round m parent) s :=
  exists_mem_eval (InvImage.wf (work m) wellFounded_lt) (fun _ _ => work_round_lt) s

/-! ## The answer is right -/

/-- What is true of a search from a type at any time: it has looked at ancestors only and has not
met the one that it looks for, and of the types that it has met, and of the type that it began with,
all prerequisites have been met or are waiting. -/
structure Sound (m : Model) (child parent : TypeId) (s : AncestorSearch) : Prop where
  reached : ∀ t ∈ s.pending, TransGen (Needs m.types) child t
  missed : parent ∉ s.visited
  noted : ∀ id ∈ child :: s.visited, ∀ t, Needs m.types id t → t ∈ s.pending ∨ t ∈ s.visited

theorem Sound.start {info : TypeInfo} (hinfo : m.type? child = some info) (parent : TypeId) :
    Sound m child parent (.start info) where
  reached t ht := .single ⟨info, hinfo, List.mem_reverse.mp ht⟩
  missed := List.not_mem_nil
  noted id hid t ht := by
    rw [List.mem_singleton.mp hid, Model.needs_iff hinfo] at ht
    exact .inl (List.mem_reverse.mpr ht)

theorem Sound.round (h : Sound m child parent s) (hs' : round m parent s = some s') :
    Sound m child parent s' := by
  obtain ⟨next, rest, hpending, hother, hcase⟩ := round_eq_some hs'
  obtain ⟨hreached, hmissed, hnoted⟩ := h
  simp only [hpending, List.forall_mem_cons] at hreached
  simp only [hpending, List.mem_cons] at hnoted
  rcases hcase with ⟨hvisited, rfl⟩ | ⟨hvisited, info, hinfo, rfl⟩
  · -- what was met before needs no second look
    refine ⟨hreached.2, hmissed, fun id hid t ht => ?_⟩
    rcases hnoted id (List.mem_cons.mp hid) t ht with (rfl | hrest) | hmet
    · exact .inr hvisited
    · exact .inl hrest
    · exact .inr hmet
  · have hneeds : ∀ t, Needs m.types next t ↔ t ∈ info.prerequisites := fun t =>
      Model.needs_iff hinfo
    refine ⟨?_, ?_, ?_⟩
    · simp only [List.mem_append, List.mem_reverse]
      rintro t (ht | ht)
      · exact hreached.1.tail ((hneeds t).mpr ht)
      · exact hreached.2 t ht
    · simp [hmissed, Ne.symm hother]
    · simp only [List.mem_cons, List.mem_append, List.mem_reverse]
      rintro id (rfl | rfl | hmet) t ht
      · grind
      · exact .inl (.inl ((hneeds t).mp ht))
      · grind

/-- At any time an ancestor has been met, or it can be reached from a type that is waiting. -/
theorem Sound.mem_or_exists (h : Sound m child parent s) (ht : TransGen (Needs m.types) child t) :
    t ∈ s.visited ∨ ∃ start ∈ s.pending, ReflTransGen (Needs m.types) start t := by
  induction ht with
  | single hneeds =>
    rcases h.noted child List.mem_cons_self _ hneeds with hpending | hvisited
    · exact .inr ⟨_, hpending, .refl⟩
    · exact .inl hvisited
  | tail _ hneeds ih =>
    rcases ih with hvisited | ⟨start, hstart, hreach⟩
    · rcases h.noted _ (List.mem_cons_of_mem child hvisited) _ hneeds with hpending | hvisited
      · exact .inr ⟨_, hpending, .refl⟩
      · exact .inl hvisited
    · exact .inr ⟨start, hstart, hreach.tail hneeds⟩

/-- A search that goes no further answers, and its answer is right. -/
theorem Sound.exists_answer (hfounded : m.Founded) (h : Sound m child parent s)
    (hend : AncestorSearch.round m parent s = none) :
    ∃ b, s.answer? parent = some b ∧ (b = true ↔ TransGen (Needs m.types) child parent) := by
  unfold answer?
  cases hpending : s.pending with
  | nil =>
    refine ⟨false, rfl, iff_of_false Bool.false_ne_true fun hancestor => ?_⟩
    rcases h.mem_or_exists hancestor with hvisited | ⟨start, hstart, -⟩
    · exact h.missed hvisited
    · rw [hpending] at hstart
      contradiction
  | cons next rest =>
    have hreach : TransGen (Needs m.types) child next := h.reached next (by simp [hpending])
    by_cases hfound : next = parent
    · exact ⟨true, if_pos hfound, iff_of_true rfl (hfound ▸ hreach)⟩
    · -- an ancestor is a type of the model, so the search would have gone on
      obtain ⟨id, -, hneeds⟩ := TransGen.tail'_iff.mp hreach
      obtain ⟨info, hinfo, -⟩ := hfounded id next hneeds
      simp only [AncestorSearch.round, hpending, if_neg hfound, hinfo] at hend
      split at hend <;> contradiction

end AncestorSearch

namespace Model

variable {m : Model} {i t : TypeId}

/-- What the search tells from a type for another one. It tells nothing where it does not end, or
comes to a number without a type. -/
noncomputable def searchAncestor (m : Model) (child parent : TypeId) : Part Bool := do
  let info ← Part.ofOption (m.type? child)
  let s ← eval (AncestorSearch.round m parent) (.start info)
  Part.ofOption (s.answer? parent)

theorem exists_searchAncestor (hfounded : m.Founded) (hi : i.Within m.types) (t : TypeId) :
    ∃ b, m.searchAncestor i t = Part.some b ∧ (b = true ↔ TransGen (Needs m.types) i t) := by
  obtain ⟨info, hinfo⟩ := exists_type?_of_within hi
  obtain ⟨s, hs⟩ := AncestorSearch.exists_mem_eval_round m t (.start info)
  obtain ⟨hreaches, hend⟩ := mem_eval.mp hs
  have hsound : AncestorSearch.Sound m i t s :=
    keeps_of_reaches (fun _ _ hs => hs.round) (.start hinfo t) hreaches
  obtain ⟨b, hb, hright⟩ := hsound.exists_answer hfounded hend
  refine ⟨b, ?_, hright⟩
  simp [searchAncestor, hinfo, eval_eq_some hreaches hend, hb]

theorem hasAncestor_eq_ok_true_iff (hfounded : m.Founded) :
    m.hasAncestor i t = .ok true ↔ TransGen (Needs m.types) i t := by
  by_cases hi : i.Within m.types
  · obtain ⟨b, hb, hb_iff⟩ := exists_hasAncestor hfounded hi t
    rw [hb, ← hb_iff, Except.ok.injEq]
  · refine iff_of_false (fun h => ?_) fun h => ?_
    · obtain ⟨info, hinfo, -⟩ := bind_eq_ok_iff.mp h
      exact hi (List.getElem?_eq_some_iff.mp (type_eq_ok_iff.mp hinfo)).1
    · obtain ⟨next, hneeds, -⟩ := TransGen.head'_iff.mp h
      exact hi hneeds.index_lt

/-- **Ancestors are what can be reached.** In a finished model it can be told of every type whether
it needs another one, directly or through others, and the search from the one for the other ends
with the same answer. No type is its own ancestor, and the ancestors of an ancestor are ancestors
too. -/
theorem hasAncestor_iff_reachable {edits : List Edit} (hm : (Builder.build edits).finish = .ok m) :
    (∀ c p, c.Within m.types → ∃ b, m.hasAncestor c p = .ok b ∧
      m.searchAncestor c p = Part.some b ∧ (b = true ↔ TransGen (Needs m.types) c p)) ∧
    (∀ c, c.Within m.types → m.hasAncestor c c = .ok false) ∧
    ∀ c p q, m.hasAncestor c p = .ok true → m.hasAncestor p q = .ok true →
      m.hasAncestor c q = .ok true := by
  have hfounded := founded_of_finish hm
  refine ⟨fun c p hc => ?_, fun c hc => ?_, fun c p q hcp hpq => ?_⟩
  · obtain ⟨b, hb, hb_iff⟩ := exists_hasAncestor hfounded hc p
    obtain ⟨b', hb', hb'_iff⟩ := exists_searchAncestor hfounded hc p
    have hsame : b = b' := Bool.eq_iff_iff.mpr (hb_iff.trans hb'_iff.symm)
    exact ⟨b, hb, hsame ▸ hb', hb_iff⟩
  · obtain ⟨b, hb, hb_iff⟩ := exists_hasAncestor hfounded hc c
    have hfalse : b = false := by
      simpa using mt hb_iff.mp (acyclic_of_finish hm c)
    rw [hb, hfalse]
  · rw [hasAncestor_eq_ok_true_iff hfounded] at hcp hpq ⊢
    exact hcp.trans hpq

/-- A button is a widget, in two ways, and a widget is no button. -/
theorem hasAncestor_iff_reachable_button :
    (Builder.build buttonViews).finish = .ok (declared buttonViews) ∧
      (declared buttonViews).searchAncestor ⟨9⟩ ⟨7⟩ = Part.some true ∧
      (declared buttonViews).searchAncestor ⟨7⟩ ⟨9⟩ = Part.some false ∧
      TransGen (Needs (declared buttonViews).types) ⟨9⟩ ⟨7⟩ ∧
      ¬ TransGen (Needs (declared buttonViews).types) ⟨7⟩ ⟨9⟩ := by
  obtain ⟨hsearch, -⟩ := hasAncestor_iff_reachable finish_buttonViews
  obtain ⟨b, hb, hsearch_b, hb_iff⟩ := hsearch ⟨9⟩ ⟨7⟩ (within_controls _ (by decide))
  obtain ⟨c, hc, hsearch_c, hc_iff⟩ := hsearch ⟨7⟩ ⟨9⟩ (within_controls _ (by decide))
  have hup : (declared buttonViews).hasAncestor ⟨9⟩ ⟨7⟩ = .ok true := by cbv
  have hdown : (declared buttonViews).hasAncestor ⟨7⟩ ⟨9⟩ = .ok false := by cbv
  obtain rfl := Except.ok.inj (hb.symm.trans hup)
  obtain rfl := Except.ok.inj (hc.symm.trans hdown)
  exact ⟨finish_buttonViews, hsearch_b, hsearch_c, hb_iff.mp rfl, fun h => by simp [h] at hc_iff⟩

end Model

end Remoting
