import Mathlib

/-!
# Remoting.Proofs.History

What a history tells. A history is a list of what was done, the latest at the end. `Since` says that
something was done at a time when it counted, and that only certain things were done after it;
`Happened` says only that it was done. Both are decided by the last entry and what was before it
(`since_concat`, `happened_concat`), so that they can be followed along a run.

What entries contribute, each with regard to those before it, is put together by `gathered`. Without
repetitions, an entry stands where it came first (`eraseDups_concat`).
-/

namespace Remoting

open List

variable {α β : Type} {Start P : List α → α → Prop} {Passes : α → Prop} {history : List α} {a : α}

/-- An entry came when `Start` was so of it and of those before it, and only such entries came after
it as `Passes` allows. -/
def Since (Start : List α → α → Prop) (Passes : α → Prop) (history : List α) : Prop :=
  ∃ before a since, history = before ++ a :: since ∧ Start before a ∧ ∀ b ∈ since, Passes b

/-- An entry came when `P` was so of it and of those before it. -/
def Happened (P : List α → α → Prop) (history : List α) : Prop :=
  ∃ before a since, history = before ++ a :: since ∧ P before a

theorem since_iff_exists_fin :
    Since Start Passes history ↔
      ∃ i : Fin history.length,
        Start (history.take i) history[i] ∧ ∀ b ∈ history.drop (i + 1), Passes b := by
  constructor
  · rintro ⟨before, a, since, rfl, hstart, hsince⟩
    exact ⟨⟨before.length, by simp⟩, by simpa using ⟨hstart, hsince⟩⟩
  · rintro ⟨i, hstart, hsince⟩
    exact ⟨_, _, _, by simp, hstart, hsince⟩

instance [∀ before a, Decidable (Start before a)] [DecidablePred Passes] :
    Decidable (Since Start Passes history) :=
  decidable_of_iff _ since_iff_exists_fin.symm

theorem since_nil : ¬ Since Start Passes [] := by
  simp [Since]

/-- A state begins with the last entry, or lasts through it. -/
theorem since_concat :
    Since Start Passes (history ++ [a]) ↔
      Start history a ∨ (Since Start Passes history ∧ Passes a) := by
  constructor
  · rintro ⟨before, b, since, heq, hstart, hsince⟩
    cases since using reverseRecOn with
    | nil =>
      obtain ⟨rfl, hb⟩ := append_inj' heq rfl
      obtain rfl : a = b := by simpa using hb
      exact .inl hstart
    | append_singleton since c =>
      rw [← cons_append, ← append_assoc] at heq
      obtain ⟨rfl, hc⟩ := append_inj' heq rfl
      obtain rfl : a = c := by simpa using hc
      rw [forall_mem_append, forall_mem_singleton] at hsince
      exact .inr ⟨⟨before, b, since, rfl, hstart, hsince.1⟩, hsince.2⟩
  · rintro (hstart | ⟨⟨before, b, since, rfl, hstart, hsince⟩, ha⟩)
    · exact ⟨history, a, [], rfl, hstart, by simp⟩
    · refine ⟨before, b, since ++ [a], by simp, hstart, ?_⟩
      rw [forall_mem_append, forall_mem_singleton]
      exact ⟨hsince, ha⟩

theorem happened_iff_since : Happened P history ↔ Since P (fun _ => True) history := by
  simp [Happened, Since]

theorem happened_nil : ¬ Happened P [] := by
  simp [Happened]

/-- Something happened with the last entry or before. -/
theorem happened_concat : Happened P (history ++ [a]) ↔ Happened P history ∨ P history a := by
  rw [happened_iff_since, since_concat, ← happened_iff_since, and_true, or_comm]

/-- What entries contribute one after the other, when there were others before them. -/
def gatheredAfter (note : List α → α → List β) (before : List α) : List α → List β
  | [] => []
  | a :: history => note before a ++ gatheredAfter note (before ++ [a]) history

/-- What the entries of a history contribute one after the other. -/
def gathered (note : List α → α → List β) (history : List α) : List β :=
  gatheredAfter note [] history

theorem gatheredAfter_concat (note : List α → α → List β) (before history : List α) (a : α) :
    gatheredAfter note before (history ++ [a]) =
      gatheredAfter note before history ++ note (before ++ history) a := by
  induction history generalizing before with
  | nil => simp [gatheredAfter]
  | cons b history ih => simp [gatheredAfter, ih]

@[simp] theorem gathered_nil (note : List α → α → List β) : gathered note [] = [] := rfl

/-- What the last entry adds comes last. -/
theorem gathered_concat (note : List α → α → List β) (history : List α) (a : α) :
    gathered note (history ++ [a]) = gathered note history ++ note history a :=
  gatheredAfter_concat note [] history a

section Repetitions

variable [BEq α] [LawfulBEq α]

/-- A last entry counts if it is new. -/
theorem eraseDups_concat (history : List α) (a : α) :
    (history ++ [a]).eraseDups =
      if a ∈ history then history.eraseDups else history.eraseDups ++ [a] := by
  by_cases h : a ∈ history <;> simp [eraseDups_append, removeAll, h, eraseDups_cons]

theorem nodup_eraseDups (history : List α) : history.eraseDups.Nodup := by
  induction history using reverseRecOn with
  | nil => exact .nil
  | append_singleton history a ih =>
    rw [eraseDups_concat]
    split
    · exact ih
    · next hnew =>
      rw [← concat_eq_append, nodup_concat]
      exact ⟨fun h => hnew (mem_eraseDups.mp h), ih⟩

end Repetitions

end Remoting
