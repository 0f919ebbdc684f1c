import Remoting.Ident

/-!
# Remoting.Schema.Unseen

The measure of a search through types: how many of them it has not seen yet. It shrinks whenever
a type is seen for the first time (`unseen_cons_lt`).
-/

namespace Remoting.Schema

/-- How many of the first `size` types are not in the list. -/
def unseen (size : Nat) (seen : List TypeId) : Nat :=
  (List.range size).countP fun i => TypeId.mk i ∉ seen

/-- A list has fewer entries of a narrower property, if one entry tells the two apart. -/
theorem countP_lt_countP {p q : α → Bool} {l : List α} (h : ∀ x ∈ l, p x = true → q x = true)
    {a : α} (ha : a ∈ l) (hp : p a = false) (hq : q a = true) : l.countP p < l.countP q := by
  induction l with
  | nil => simp at ha
  | cons x l ih =>
    have hl : l.countP p ≤ l.countP q :=
      List.countP_mono_left fun y hy => h y (List.mem_cons_of_mem _ hy)
    rcases List.mem_cons.1 ha with rfl | hmem
    · simp only [List.countP_cons, hp, hq]
      simp
      omega
    · have hlt := ih (fun y hy => h y (List.mem_cons_of_mem _ hy)) hmem
      have hx : (if p x = true then 1 else 0) ≤ (if q x = true then 1 else 0) := by
        cases hpx : p x with
        | false => simp
        | true => simp [h x List.mem_cons_self hpx]
      simp only [List.countP_cons]
      omega

theorem unseen_cons_lt {size : Nat} {seen : List TypeId} {id : TypeId} (hlt : id.index < size)
    (hmem : id ∉ seen) : unseen size (id :: seen) < unseen size seen := by
  refine countP_lt_countP (fun i _ => ?_) (List.mem_range.2 hlt) ?_ ?_
  · simp only [List.mem_cons, not_or, decide_eq_true_eq]
    exact fun h => h.2
  · simp
  · simpa using hmem

end Remoting.Schema
