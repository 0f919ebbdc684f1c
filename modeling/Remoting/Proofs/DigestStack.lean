import Remoting.Proofs.Correspondence
import Remoting.Proofs.Stepwise

/-!
# Remoting.Proofs.DigestStack

Digesting a type step by step, with a stack of the types that are being digested. A type is put on
the stack when it is begun and taken off when its tokens are complete. A part that is on the stack
already counts by its name; any other part is digested in between, and the type around it waits.

Types may refer to each other in circles, so it is the stack that brings digesting to an end. No
type is on it twice, and all are types of the model (`Digesting.Sound`), so it has at most as many
entries as the model has types. When a part is done with, the stack is what it was when the part was
begun (`Digesting.exists_reaches_answer`). That is what `Model.memberToken` takes for granted, which
hands a stack of its own to every part, so both come to the same digest
(`Digesting.orderly_of_finish`).
-/

namespace Remoting

open StateTransition (eval Reaches)

/-- A type that is being digested: its tokens so far, and the parts that are still to come. -/
structure Draft where
  type : TypeId
  tokens : List Token
  parts : List StructurePart
  deriving DecidableEq, Repr

/-- What digesting does next. -/
inductive DigestTask where
  /-- Begin with a type. -/
  | start (type : TypeId)
  /-- Go on with a type. -/
  | resume (draft : Draft)
  /-- Hand a digest to the type around. -/
  | answer (digest : Digest)
  deriving DecidableEq, Repr

/-- Digesting on its way. -/
structure Digesting where
  task : DigestTask
  /-- The stack of the types that are being digested, the last one first. -/
  active : List TypeId
  /-- The types that wait for the one at hand, the innermost first. -/
  around : List Draft
  deriving DecidableEq, Repr

namespace Digesting

variable {m : Model} {id t : TypeId} {s s' : Digesting} {active : List TypeId}
  {around : List Draft} {tokens : List Token} {parts : List StructurePart}

/-- One step. There is none after the digest of the outermost type, or where a type is not in the
model. -/
def step (m : Model) : Digesting → Option Digesting
  | ⟨.start id, active, around⟩ => (m.type? id).map fun info =>
    ⟨.resume ⟨id, info.tokens [], info.kind.structureParts⟩, id :: active, around⟩
  | ⟨.resume ⟨_, tokens, []⟩, active, around⟩ =>
    some ⟨.answer (.ofTokens tokens), active.tail, around⟩
  | ⟨.resume ⟨id, tokens, .text text :: parts⟩, active, around⟩ =>
    some ⟨.resume ⟨id, tokens ++ [.text text], parts⟩, active, around⟩
  | ⟨.resume ⟨id, tokens, .member t :: parts⟩, active, around⟩ =>
    if t ∈ active then (m.type? t).map fun info =>
      ⟨.resume ⟨id, tokens ++ [.backReference info.qualifiedName], parts⟩, active, around⟩
    else some ⟨.start t, active, ⟨id, tokens, parts⟩ :: around⟩
  | ⟨.answer d, active, draft :: around⟩ =>
    some ⟨.resume ⟨draft.type, draft.tokens ++ [.digest d], draft.parts⟩, active, around⟩
  | ⟨.answer _, _, []⟩ => none

/-- Digesting a type from the beginning. -/
def begin (id : TypeId) : Digesting := ⟨.start id, [], []⟩

/-! ## A type from beginning to end -/

/-- The parts of a type are written one after the other, when each of those that are not on the
stack can be digested and leaves the stack as it was. -/
theorem exists_reaches_resume (id : TypeId) (active : List TypeId) (around : List Draft)
    (tokens : List Token) (parts : List StructurePart)
    (hactive : ∀ t, .member t ∈ parts → t ∈ active → ∃ info, m.type? t = some info)
    (hdigest : ∀ t, .member t ∈ parts → t ∉ active → ∀ around, ∃ d,
      m.memberToken active t = .ok (.digest d) ∧
        Reaches (step m) ⟨.start t, active, around⟩ ⟨.answer d, active, around⟩) :
    ∃ ts, parts.mapM (m.partToken active) = .ok ts ∧
      Reaches (step m) ⟨.resume ⟨id, tokens, parts⟩, active, around⟩
        ⟨.resume ⟨id, tokens ++ ts, []⟩, active, around⟩ := by
  induction parts generalizing tokens with
  | nil =>
    refine ⟨[], rfl, ?_⟩
    rw [List.append_nil]
    exact .refl
  | cons part parts ih =>
    -- the token of the first part, and the steps that write it
    obtain ⟨token, htoken, hwrite⟩ : ∃ token, m.partToken active part = .ok token ∧
        Reaches (step m) ⟨.resume ⟨id, tokens, part :: parts⟩, active, around⟩
          ⟨.resume ⟨id, tokens ++ [token], parts⟩, active, around⟩ := by
      cases part with
      | text text => exact ⟨.text text, rfl, .single rfl⟩
      | member t =>
        by_cases hmem : t ∈ active
        · obtain ⟨info, hinfo⟩ := hactive t List.mem_cons_self hmem
          refine ⟨_, Model.memberToken_of_mem hinfo hmem, .single ?_⟩
          simp [step, hmem, hinfo]
        · obtain ⟨d, hd, hreaches⟩ :=
            hdigest t List.mem_cons_self hmem (⟨id, tokens, parts⟩ :: around)
          refine ⟨.digest d, hd, .head ?_ (hreaches.tail rfl)⟩
          simp [step, hmem]
    obtain ⟨ts, hts, hrest⟩ := ih (tokens ++ [token])
      (fun t ht => hactive t (List.mem_cons_of_mem part ht))
      (fun t ht => hdigest t (List.mem_cons_of_mem part ht))
    refine ⟨token :: ts, ?_, ?_⟩
    · rw [List.mapM_cons, htoken, hts]
      rfl
    · rw [List.append_cons]
      exact hwrite.trans hrest

/-- Digesting a type that is not on the stack comes to an end, with the digest that it has inside
the types on the stack. The stack and what waits are then what they were. -/
theorem exists_reaches_answer (hclosed : m.Closed) {active : List TypeId} {id : TypeId}
    (hwithin : id.Within m.types) (hmem : id ∉ active) (around : List Draft) :
    ∃ d, m.memberToken active id = .ok (.digest d) ∧
      Reaches (step m) ⟨.start id, active, around⟩ ⟨.answer d, active, around⟩ := by
  obtain ⟨info, hinfo⟩ := Model.exists_type?_of_within hwithin
  have hparts : ∀ t, .member t ∈ info.kind.structureParts → t.Within m.types := fun t ht =>
    hclosed id info hinfo t (TypeKind.mem_members_of_mem_structureParts ht)
  obtain ⟨ts, hts, hreaches⟩ := exists_reaches_resume id (id :: active) around (info.tokens [])
    info.kind.structureParts
    (fun t ht _ => Model.exists_type?_of_within (hparts t ht))
    (fun t ht hnew around => exists_reaches_answer hclosed (hparts t ht) hnew around)
  refine ⟨.ofTokens (info.tokens ts), ?_, .head ?_ (hreaches.tail rfl)⟩
  · rw [Model.memberToken_of_not_mem hmem, Model.typeTokens_of_type? hinfo, hts]
    rfl
  · simp [step, hinfo]
termination_by Schema.unseen m.types.length active
decreasing_by
  exact Schema.unseen_cons_lt hwithin hmem

/-! ## The stack on the way -/

/-- The types that have been begun and are not done with, the last one first. -/
def drafts (s : Digesting) : List Draft :=
  match s.task with
  | .resume draft => draft :: s.around
  | _ => s.around

/-- What is true at any time: on the stack are the types that have been begun and are not done with,
each once, and a type that is to be begun is not among them. All are types of the model, and so are
the parts that are still to come. -/
structure Sound (m : Model) (s : Digesting) : Prop where
  active : s.active = s.drafts.map (·.type)
  nodup : s.active.Nodup
  within : ∀ id ∈ s.active, id.Within m.types
  fresh : ∀ id, s.task = .start id → id ∉ s.active ∧ id.Within m.types
  parts : ∀ draft ∈ s.drafts, ∀ t, .member t ∈ draft.parts → t.Within m.types

theorem Sound.begin (hid : id.Within m.types) : Sound m (.begin id) where
  active := rfl
  nodup := List.nodup_nil
  within := by simp [Digesting.begin]
  fresh t ht := by
    obtain rfl := DigestTask.start.inj ht
    exact ⟨List.not_mem_nil, hid⟩
  parts := by simp [Digesting.begin, drafts]

/-- A token is written in the place of a part. -/
theorem Sound.write {token : Token} {part : StructurePart}
    (h : Sound m ⟨.resume ⟨id, tokens, part :: parts⟩, active, around⟩) :
    Sound m ⟨.resume ⟨id, tokens ++ [token], parts⟩, active, around⟩ where
  active := h.active
  nodup := h.nodup
  within := h.within
  fresh := by simp
  parts := by
    have hparts := h.parts
    simp only [drafts, List.forall_mem_cons] at hparts ⊢
    exact ⟨fun t ht => hparts.1 t (List.mem_cons_of_mem part ht), hparts.2⟩

theorem Sound.step (hclosed : m.Closed) (h : Sound m s) (hs' : step m s = some s') :
    Sound m s' := by
  unfold Digesting.step at hs'
  split at hs'
  · -- a type is put on the stack
    next id active around =>
    obtain ⟨info, hinfo, rfl⟩ := Option.map_eq_some_iff.mp hs'
    obtain ⟨hfresh, hwithin⟩ := h.fresh id rfl
    refine ⟨congrArg (id :: ·) h.active, List.nodup_cons.mpr ⟨hfresh, h.nodup⟩,
      List.forall_mem_cons.mpr ⟨hwithin, h.within⟩, by simp, ?_⟩
    refine List.forall_mem_cons.mpr ⟨fun t ht => ?_, h.parts⟩
    exact hclosed id info hinfo t (TypeKind.mem_members_of_mem_structureParts ht)
  · -- a type is taken off the stack
    next id tokens active around =>
    cases hs'
    obtain rfl : active = id :: around.map (·.type) := h.active
    exact ⟨rfl, h.nodup.of_cons, fun t ht => h.within t (List.mem_cons_of_mem id ht), by simp,
      fun draft hdraft => h.parts draft (List.mem_cons_of_mem _ hdraft)⟩
  · cases hs'
    exact h.write
  · next id tokens t parts active around =>
    split at hs'
    · obtain ⟨info, -, rfl⟩ := Option.map_eq_some_iff.mp hs'
      exact h.write
    · -- the type at hand waits for a part of it
      next hnew =>
      cases hs'
      have hparts := h.parts
      simp only [drafts, List.forall_mem_cons] at hparts
      refine ⟨h.active, h.nodup, h.within, fun t' ht' => ?_, ?_⟩
      · obtain rfl := DigestTask.start.inj ht'
        exact ⟨hnew, hparts.1 t List.mem_cons_self⟩
      · exact List.forall_mem_cons.mpr
          ⟨fun t' ht' => hparts.1 t' (List.mem_cons_of_mem _ ht'), hparts.2⟩
  · -- the digest of a part is a token of the type around it
    next d active draft around =>
    cases hs'
    have hparts := h.parts
    simp only [drafts, List.forall_mem_cons] at hparts
    exact ⟨h.active, h.nodup, h.within, by simp, List.forall_mem_cons.mpr hparts⟩
  · contradiction

/-- There are no more types on the stack than in the model. -/
theorem Sound.length_le (h : Sound m s) : s.active.length ≤ m.types.length := by
  have hnodup : (s.active.map (·.index)).Nodup :=
    h.nodup.map fun _ _ => congrArg TypeId.mk
  have hsubset : s.active.map (·.index) ⊆ List.range m.types.length := by
    intro i hi
    obtain ⟨id, hid, rfl⟩ := List.mem_map.mp hi
    exact List.mem_range.mpr (h.within id hid)
  simpa using (hnodup.subperm hsubset).length_le

/-! ## Every type -/

/-- Digesting a type keeps its stack in order. -/
structure Orderly (m : Model) (i : TypeId) : Prop where
  /-- It ends, with the digest of the type and an empty stack. -/
  ends : ∃ d, m.typeDigest i = .ok d ∧
    eval (Digesting.step m) (begin i) = Part.some ⟨.answer d, [], []⟩
  /-- No type is on the stack twice. -/
  once : ∀ s, Reaches (Digesting.step m) (begin i) s → s.active.Nodup
  /-- The stack does not grow beyond the number of types. -/
  bounded : ∀ s, Reaches (Digesting.step m) (begin i) s → s.active.length ≤ m.types.length
  /-- Whatever type is begun is brought to an end, with the stack as it was at the beginning. -/
  returns : ∀ s t, Reaches (Digesting.step m) (begin i) s → s.task = .start t →
    ∃ d, Reaches (Digesting.step m) s ⟨.answer d, s.active, s.around⟩
  /-- Whenever a digest is handed back, the stack is what it was when its type was begun. -/
  restored : ∀ s s' t d, Reaches (Digesting.step m) (begin i) s → s.task = .start t →
    Reaches (Digesting.step m) s s' → s'.task = .answer d → s'.around = s.around →
    s'.active = s.active

/-- **Digesting ends.** In a finished model every type is digested in finitely many steps, however
types refer to each other. The stack of the types that are being digested never holds one of them
twice, so it never has more entries than there are types, and every part leaves it as it was. -/
theorem orderly_of_finish {edits : List Edit} {i : TypeId}
    (hm : (Builder.build edits).finish = .ok m) (hi : i.Within m.types) : Orderly m i := by
  have hclosed := Model.closed_of_finish hm
  have hsound {s : Digesting} (hs : Reaches (Digesting.step m) (begin i) s) : s.Sound m :=
    keeps_of_reaches (fun _ _ hs => hs.step hclosed) (.begin hi) hs
  refine ⟨?_, fun s hs => (hsound hs).nodup, fun s hs => (hsound hs).length_le, ?_, ?_⟩
  · obtain ⟨d, hd, hreaches⟩ := exists_reaches_answer hclosed hi List.not_mem_nil []
    refine ⟨d, ?_, eval_eq_some hreaches rfl⟩
    rw [Model.memberToken_of_not_mem List.not_mem_nil] at hd
    obtain ⟨ts, hts, heq⟩ := map_eq_ok_iff.mp hd
    rw [Model.typeDigest, hts, ← Token.digest.inj heq]
    rfl
  · rintro ⟨task, active, around⟩ t hs rfl
    obtain ⟨hfresh, hwithin⟩ := (hsound hs).fresh t rfl
    obtain ⟨d, -, hreaches⟩ := exists_reaches_answer hclosed hwithin hfresh around
    exact ⟨d, hreaches⟩
  · intro s s' t d hs hstart hs' hanswer haround
    have hbefore := (hsound hs).active
    have hafter := (hsound (hs.trans hs')).active
    simp only [drafts, hstart] at hbefore
    simp only [drafts, hanswer] at hafter
    rw [hafter, haround, hbefore]

/-- Nodes refer to themselves, to lists of nodes and to functions from nodes to such functions. -/
def thicket : List Edit :=
  [.declare "Graph" "Node" .record,
   .add "Graph" "Nodes" (.sequence { ident := "node", type := ⟨7⟩ }),
   .declare "Graph" "Visit" .function,
   .define ⟨9⟩ (.function ⟨[{ ident := "node", type := ⟨7⟩ }], ⟨9⟩⟩),
   .define ⟨7⟩ (.record [{ ident := "self", type := ⟨7⟩ }, { ident := "next", type := ⟨8⟩ },
    { ident := "visit", type := ⟨9⟩ }])]

theorem orderly_thicket :
    (Builder.build thicket).finish = .ok (.declared thicket) ∧
      (⟨8⟩ : TypeId).Within (Model.declared thicket).types ∧
      Orderly (.declared thicket) ⟨8⟩ := by
  have hfinish : (Builder.build thicket).finish = .ok (.declared thicket) := by cbv
  have hwithin : (⟨8⟩ : TypeId).Within (Model.declared thicket).types := by
    unfold TypeId.Within
    decide
  exact ⟨hfinish, hwithin, orderly_of_finish hfinish hwithin⟩

end Digesting

end Remoting
