import Mathlib

/-!
# Remoting.Proofs.Stepwise

Computations that go on step by step until there is no further step. A computation ends when every
step of it leads down in a well-founded order (`exists_mem_eval`), and what every step keeps is true
at any time (`keeps_of_reaches`). A computation that goes along with another one, step by step, comes
to the same states in its own form (`reaches_map_iff`).
-/

namespace Remoting

open StateTransition (eval mem_eval reaches_eval Reaches)

variable {σ : Type} {step : σ → Option σ} {s s' : σ}

theorem exists_mem_eval {below : σ → σ → Prop} (hbelow : WellFounded below)
    (hstep : ∀ s s', step s = some s' → below s' s) (s : σ) : ∃ s', s' ∈ eval step s := by
  induction s using hbelow.induction with
  | _ s ih =>
    cases hs : step s with
    | none => exact ⟨s, mem_eval.mpr ⟨.refl, hs⟩⟩
    | some next =>
      obtain ⟨s', hs'⟩ := ih next (hstep s next hs)
      exact ⟨s', by rwa [reaches_eval (.single hs)]⟩

/-- A computation has one end, the first state that it comes to without a further step. -/
theorem eval_eq_some (hreaches : Reaches step s s') (hend : step s' = none) :
    eval step s = Part.some s' :=
  Part.eq_some_iff.mpr (mem_eval.mpr ⟨hreaches, hend⟩)

theorem keeps_of_reaches {P : σ → Prop} (hstep : ∀ s s', P s → step s = some s' → P s')
    (hs : P s) (hreaches : Reaches step s s') : P s' := by
  induction hreaches with
  | refl => exact hs
  | tail _ hnext ih => exact hstep _ _ ih hnext

/-- A state that a computation comes to at its end is the only one. -/
theorem eq_of_ends {t : σ} (hreaches : Reaches step s s') (hend : step s' = none)
    (ht : Reaches step s t) (htend : step t = none) : t = s' :=
  Part.mem_unique (mem_eval.mpr ⟨ht, htend⟩) (mem_eval.mpr ⟨hreaches, hend⟩)

theorem reaches_map_iff {τ : Type} {step' : τ → Option τ} {f : σ → τ}
    (h : ∀ s', Reaches step s s' → step' (f s') = (step s').map f) (t : τ) :
    Reaches step' (f s) t ↔ ∃ s', Reaches step s s' ∧ t = f s' := by
  constructor
  · intro ht
    induction ht with
    | refl => exact ⟨s, .refl, rfl⟩
    | tail _ hnext ih =>
      obtain ⟨s', hs', rfl⟩ := ih
      rw [Option.mem_def, h s' hs', Option.map_eq_some_iff] at hnext
      obtain ⟨s'', hs'', rfl⟩ := hnext
      exact ⟨s'', hs'.tail hs'', rfl⟩
  · rintro ⟨s', hs', rfl⟩
    induction hs' with
    | refl => exact .refl
    | @tail s' s'' hs' hnext ih =>
      refine ih.tail ?_
      rw [Option.mem_def, h s' hs', Option.mem_def.mp hnext]
      rfl

end Remoting
