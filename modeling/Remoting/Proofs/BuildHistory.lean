import Remoting.Proofs.History
import Remoting.Proofs.InPlace

/-!
# Remoting.Proofs.BuildHistory

The tables of a builder against the edits that made them. What a type is called and where it stands
is settled when it is declared, and what it is made of when it is defined, once; both can be told
from the edits that were accepted (`Tables.DeclaredAs`, `Tables.DefinedAs`). The tables agree with
this after any edits in place, and an edit that is refused changes nothing (`Tables.steady_after`).

All that an edit can do to the declarations of a builder is said once (`Builder.does_edit`).
-/

namespace Remoting

open List Option

variable {d : Declaration}

/-- The type that an edit declares, with the kind that it has until it is defined. -/
def Edit.declaration? : Edit → Option TypeInfo
  | .declare path name storage => some ⟨name, Schema.splitPath path, .placeholder storage⟩
  | .add path name kind => some ⟨name, Schema.splitPath path, .placeholder kind.storage⟩
  | .openNamespace _ | .bind _ _ _ | .define _ _ => none

namespace Builder

variable {b b' b'' : Builder} {e : Edit}

/-! ## What an edit does -/

/-- What an edit may answer, with the declarations that there are then. -/
inductive Does (b : Builder) :
    Edit → Except SchemaError (Option TypeId) → List Declaration → Prop where
  | refuse (e : Edit) (error : SchemaError) : Does b e (.error error) b.declarations
  | openNamespace (path : String) : Does b (.openNamespace path) (.ok none) b.declarations
  | bind (path name : String) (binding : Binding) :
      Does b (.bind path name binding) (.ok none) b.declarations
  | declare (path name : String) (storage : Storage) :
      Does b (.declare path name storage) (.ok (some ⟨b.declarations.length⟩))
        (b.declarations ++ [⟨⟨name, Schema.splitPath path, .placeholder storage⟩, false⟩])
  | define {id : TypeId} {d : Declaration} (kind : TypeKind)
      (hd : b.declarations[id.index]? = some d) (hundefined : d.defined = false) :
      Does b (.define id kind) (.ok none)
        (b.declarations.set id.index ⟨{ d.info with kind }, true⟩)
  | add (path name : String) (kind : TypeKind) :
      Does b (.add path name kind) (.ok (some ⟨b.declarations.length⟩))
        (b.declarations ++ [⟨⟨name, Schema.splitPath path, kind⟩, true⟩])

/-- An edit that is refused changes nothing. -/
theorem edit_of_answer_error {error : SchemaError} (h : b.answer e = .error error) :
    b.edit e = b := by
  rw [edit, ← map_snd_request]
  rw [answer] at h
  cases hrequest : b.request e with
  | error error' => rfl
  | ok x =>
    rw [hrequest] at h
    contradiction

/-- What an edit answers, and what it declares. -/
theorem does_edit (b : Builder) (e : Edit) : b.Does e (b.answer e) (b.edit e).declarations := by
  cases hanswer : b.answer e with
  | error error =>
    rw [edit_of_answer_error hanswer]
    exact .refuse e error
  | ok a =>
    rw [answer] at hanswer
    obtain ⟨x, hrequest, rfl⟩ := map_eq_ok_iff.mp hanswer
    have hedit : b.edit e = x.2 := by
      rw [edit, ← map_snd_request, hrequest]
      rfl
    rw [hedit]
    cases e with
    | openNamespace path =>
      cases hrequest
      exact .openNamespace path
    | bind path name binding =>
      obtain ⟨b', hbind, rfl⟩ := map_eq_ok_iff.mp hrequest
      simp only [declarations_of_bind hbind]
      exact .bind path name binding
    | declare path name storage =>
      obtain ⟨⟨id, b'⟩, hdeclare, rfl⟩ := map_eq_ok_iff.mp hrequest
      obtain ⟨rfl, hdeclarations⟩ := declarations_of_declare hdeclare
      simp only [hdeclarations]
      exact .declare path name storage
    | define id kind =>
      obtain ⟨b', hdefine, rfl⟩ := map_eq_ok_iff.mp hrequest
      obtain ⟨d, hd, hundefined, hdeclarations⟩ := declarations_of_define hdefine
      simp only [hdeclarations]
      exact .define kind hd hundefined
    | add path name kind =>
      obtain ⟨⟨id, b'⟩, hadd, rfl⟩ := map_eq_ok_iff.mp hrequest
      obtain ⟨⟨id', b₁⟩, hdeclare, hrest⟩ := bind_eq_ok_iff.mp hadd
      obtain ⟨b₂, hdefine, hlast⟩ := bind_eq_ok_iff.mp hrest
      cases hlast
      rw [define_of_declare hdeclare] at hdefine
      cases hdefine
      obtain ⟨rfl, -⟩ := declarations_of_declare hdeclare
      exact .add path name kind

/-! ## What stays -/

/-- A declaration later on. Its name and its place stay, and it changes only when it is defined. -/
structure Becomes (d d' : Declaration) : Prop where
  name : d'.info.name = d.info.name
  path : d'.info.path = d.info.path
  same : d.defined = true ∨ d'.defined = false → d' = d

theorem Becomes.refl (d : Declaration) : Becomes d d := ⟨rfl, rfl, fun _ => rfl⟩

theorem Becomes.trans {d' d'' : Declaration} (h : Becomes d d') (h' : Becomes d' d'') :
    Becomes d d'' where
  name := h'.name.trans h.name
  path := h'.path.trans h.path
  same := by
    rintro (hdefined | hundefined)
    · obtain rfl := h.same (.inl hdefined)
      exact h'.same (.inl hdefined)
    · obtain rfl := h'.same (.inr hundefined)
      exact h.same (.inr hundefined)

/-- The declarations of the first builder are those of the second one, earlier on. -/
def Continues (b b' : Builder) : Prop :=
  ∀ (i : Nat) (d : Declaration), b.declarations[i]? = some d →
    ∃ d', b'.declarations[i]? = some d' ∧ Becomes d d'

/-- Declarations are there after an edit. -/
theorem continues_edit (b : Builder) (e : Edit) : b.Continues (b.edit e) := by
  intro i d hd
  have hlt : i < b.declarations.length := (List.getElem?_eq_some_iff.mp hd).1
  have hdoes := does_edit b e
  generalize b.answer e = a, (b.edit e).declarations = declarations at hdoes ⊢
  cases hdoes with
  | refuse | openNamespace | bind => exact ⟨d, hd, .refl d⟩
  | declare | add => exact ⟨d, by rw [getElem?_append_left hlt, hd], .refl d⟩
  | @define id d₀ kind hd₀ hundefined =>
    by_cases hi : id.index = i
    · subst hi
      obtain rfl := some.inj (hd.symm.trans hd₀)
      exact ⟨_, getElem?_set_self hlt, rfl, rfl, by simp [hundefined]⟩
    · exact ⟨d, by rw [getElem?_set_ne hi, hd], .refl d⟩

theorem build_concat (edits : List Edit) (e : Edit) :
    build (edits ++ [e]) = (build edits).edit e := by
  simp [build, foldl_append]

/-- Declarations are there after all further edits. -/
theorem continues_build (before since : List Edit) :
    (build before).Continues (build (before ++ since)) := by
  induction since using reverseRecOn with
  | nil =>
    rw [append_nil]
    exact fun i d hd => ⟨d, hd, .refl d⟩
  | append_singleton since e ih =>
    intro i d hd
    obtain ⟨d', hd', hbecomes⟩ := ih i d hd
    obtain ⟨d'', hd'', hbecomes'⟩ := continues_edit (build (before ++ since)) e i d' hd'
    rw [← append_assoc, build_concat]
    exact ⟨d'', hd'', hbecomes.trans hbecomes'⟩

end Builder

/-! ## What the edits tell -/

namespace Tables

open Builder (build)

variable {edits before since : List Edit} {e : Edit} {id : TypeId} {i : Nat} {info : TypeInfo}
  {kind : TypeKind}

/-- What an edit answers after others. -/
def answerAfter (edits : List Edit) (e : Edit) : Except SchemaError (Option TypeId) :=
  ((after edits).perform e).1

/-- The answers are those of the builder. -/
theorem answerAfter_eq (edits : List Edit) (e : Edit) :
    answerAfter edits e = (build edits).answer e := by
  rw [answerAfter, after_eq, Builder.perform_tables]

theorem does_answerAfter (edits : List Edit) (e : Edit) :
    (build edits).Does e (answerAfter edits e) (build (edits ++ [e])).declarations := by
  rw [answerAfter_eq, Builder.build_concat]
  exact Builder.does_edit (build edits) e

/-- An edit declares the type of a number. -/
def Declares (id : TypeId) (info : TypeInfo) (before : List Edit) (e : Edit) : Prop :=
  e.declaration? = some info ∧ answerAfter before e = .ok (some id)

/-- An edit defines the type of a number, which it may just have declared. -/
def Defines (id : TypeId) (kind : TypeKind) (before : List Edit) (e : Edit) : Prop :=
  (e = .define id kind ∧ answerAfter before e = .ok none) ∨
    ∃ path name, e = .add path name kind ∧ answerAfter before e = .ok (some id)

/-- The type of a number was declared like this. -/
def DeclaredAs (edits : List Edit) (id : TypeId) (info : TypeInfo) : Prop :=
  Happened (Declares id info) edits

/-- The type of a number was defined with this kind. -/
def DefinedAs (edits : List Edit) (id : TypeId) (kind : TypeKind) : Prop :=
  Happened (Defines id kind) edits

theorem Declares.exists_declaration (h : Declares id info before e) :
    ∃ d, (build (before ++ [e])).declarations[id.index]? = some d ∧ d.info.name = info.name ∧
      d.info.path = info.path ∧ (d.defined = false → d.info.kind = info.kind) := by
  obtain ⟨hinfo, hanswer⟩ := h
  have hdoes := does_answerAfter before e
  rw [hanswer] at hdoes
  generalize (build (before ++ [e])).declarations = declarations at hdoes ⊢
  cases hdoes with
  | declare path name storage =>
    cases hinfo
    exact ⟨_, getElem?_concat_length, rfl, rfl, fun _ => rfl⟩
  | add path name kind =>
    cases hinfo
    exact ⟨_, getElem?_concat_length, rfl, rfl, by simp⟩

theorem Defines.exists_declaration (h : Defines id kind before e) :
    ∃ d, (build (before ++ [e])).declarations[id.index]? = some d ∧ d.defined = true ∧
      d.info.kind = kind := by
  have hdoes := does_answerAfter before e
  generalize (build (before ++ [e])).declarations = declarations at hdoes ⊢
  rcases h with ⟨rfl, hanswer⟩ | ⟨path, name, rfl, hanswer⟩
  · rw [hanswer] at hdoes
    cases hdoes with
    | define kind hd hundefined =>
      exact ⟨_, getElem?_set_self (List.getElem?_eq_some_iff.mp hd).1, rfl, rfl⟩
  · rw [hanswer] at hdoes
    cases hdoes with
    | add path name kind => exact ⟨_, getElem?_concat_length, rfl, rfl⟩

/-- A type is still called what it was called when it was declared, and stands where it stood. As
long as it is not defined, it also is what it was then. -/
theorem DeclaredAs.exists_declaration (h : DeclaredAs edits id info) :
    ∃ d, (build edits).declarations[id.index]? = some d ∧ d.info.name = info.name ∧
      d.info.path = info.path ∧ (d.defined = false → d.info.kind = info.kind) := by
  obtain ⟨before, e, since, rfl, hdeclares⟩ := h
  obtain ⟨d, hd, hname, hpath, hkind⟩ := hdeclares.exists_declaration
  obtain ⟨d', hd', hbecomes⟩ := Builder.continues_build (before ++ [e]) since id.index d hd
  rw [append_assoc, singleton_append] at hd'
  refine ⟨d', hd', hbecomes.name.trans hname, hbecomes.path.trans hpath, fun hundefined => ?_⟩
  obtain rfl := hbecomes.same (.inr hundefined)
  exact hkind hundefined

/-- A type that was defined is still what it was defined to be. -/
theorem DefinedAs.exists_declaration (h : DefinedAs edits id kind) :
    ∃ d, (build edits).declarations[id.index]? = some d ∧ d.defined = true ∧
      d.info.kind = kind := by
  obtain ⟨before, e, since, rfl, hdefines⟩ := h
  obtain ⟨d, hd, hdefined, hkind⟩ := hdefines.exists_declaration
  obtain ⟨d', hd', hbecomes⟩ := Builder.continues_build (before ++ [e]) since id.index d hd
  rw [append_assoc, singleton_append] at hd'
  obtain rfl := hbecomes.same (.inl hdefined)
  exact ⟨d', hd', hdefined, hkind⟩

/-- No type is defined twice. -/
theorem DefinedAs.not_defines {kind' : TypeKind} (h : DefinedAs edits id kind) :
    ¬ Defines id kind' edits e := by
  intro hdefines
  obtain ⟨d, hd, hdefined, -⟩ := h.exists_declaration
  have hdoes := does_answerAfter edits e
  generalize (build (edits ++ [e])).declarations = declarations at hdoes
  rcases hdefines with ⟨rfl, hanswer⟩ | ⟨path, name, rfl, hanswer⟩
  · rw [hanswer] at hdoes
    cases hdoes with
    | define kind hd' hundefined =>
      rw [← some.inj (hd.symm.trans hd'), hdefined] at hundefined
      contradiction
  · rw [hanswer] at hdoes
    cases hdoes with
    | add path name kind =>
      have hlt := (List.getElem?_eq_some_iff.mp hd).1
      exact Nat.lt_irrefl _ hlt

/-- What the edits tell of the declaration in a place: how it came there, and what it was defined
with, if it is defined. -/
def Told (edits : List Edit) (i : Nat) (d : Declaration) : Prop :=
  (∃ info, DeclaredAs edits ⟨i⟩ info) ∧ (d.defined = true → DefinedAs edits ⟨i⟩ d.info.kind)

/-- What was told stays so after one more edit. -/
theorem Told.concat (h : Told edits i d) : Told (edits ++ [e]) i d := by
  obtain ⟨⟨info, hdeclared⟩, hdefined⟩ := h
  exact ⟨⟨info, happened_concat.mpr (.inl hdeclared)⟩,
    fun h => happened_concat.mpr (.inl (hdefined h))⟩

theorem getElem?_concat_eq_some {xs : List Declaration} {x : Declaration}
    (h : (xs ++ [x])[i]? = some d) : xs[i]? = some d ∨ (i = xs.length ∧ x = d) := by
  by_cases hlt : i < xs.length
  · rw [getElem?_append_left hlt] at h
    exact .inl h
  · have hle : xs.length ≤ i := by omega
    rw [getElem?_append_right hle, getElem?_singleton] at h
    grind

/-- Every declaration that was not there at the beginning is told of. -/
theorem told (hi : Builder.initial.declarations.length ≤ i)
    (hd : (build edits).declarations[i]? = some d) : Told edits i d := by
  induction edits using reverseRecOn generalizing d with
  | nil =>
    have hlt : i < Builder.initial.declarations.length := (List.getElem?_eq_some_iff.mp hd).1
    omega
  | append_singleton edits e ih =>
    have hdoes := does_answerAfter edits e
    generalize hanswer : answerAfter edits e = a at hdoes
    generalize (build (edits ++ [e])).declarations = declarations at hdoes hd
    cases hdoes with
    | refuse | openNamespace | bind => exact (ih hd).concat
    | declare path name storage =>
      rcases getElem?_concat_eq_some hd with hd | ⟨rfl, rfl⟩
      · exact (ih hd).concat
      · exact ⟨⟨_, happened_concat.mpr (.inr ⟨rfl, hanswer⟩)⟩, by simp⟩
    | @define id d₀ kind hd₀ hundefined =>
      by_cases hi : id.index = i
      · subst hi
        rw [getElem?_set_self (List.getElem?_eq_some_iff.mp hd₀).1] at hd
        cases hd
        exact ⟨(ih hd₀).concat.1, fun _ => happened_concat.mpr (.inr (.inl ⟨rfl, hanswer⟩))⟩
      · rw [getElem?_set_ne hi] at hd
        exact (ih hd).concat
    | add path name kind =>
      rcases getElem?_concat_eq_some hd with hd | ⟨rfl, rfl⟩
      · exact (ih hd).concat
      · exact ⟨⟨_, happened_concat.mpr (.inr ⟨rfl, hanswer⟩)⟩,
          fun _ => happened_concat.mpr (.inr (.inr ⟨path, name, rfl, hanswer⟩))⟩

/-! ## The tables -/

theorem types_after (edits : List Edit) :
    (after edits).types = (build edits).declarations.map (·.info) := by
  rw [after_eq]
  rfl

theorem defined_after (edits : List Edit) :
    (after edits).defined = (build edits).declarations.map (·.defined) := by
  rw [after_eq]
  rfl

theorem types_after_of_declaration (h : (build edits).declarations[i]? = some d) :
    (after edits).types[i]? = some d.info := by
  rw [types_after, getElem?_map, h]
  rfl

theorem defined_after_of_declaration (h : (build edits).declarations[i]? = some d) :
    (after edits).defined[i]? = some d.defined := by
  rw [defined_after, getElem?_map, h]
  rfl

/-- An edit that declares a type answers with the next number, and there is one more type then. -/
theorem next_of_answerAfter {a : Option TypeId} (hinfo : e.declaration? = some info)
    (ha : answerAfter edits e = .ok a) :
    a = some ⟨(after edits).types.length⟩ ∧
      (after (edits ++ [e])).types.length = (after edits).types.length + 1 := by
  simp only [types_after, length_map]
  have hdoes := does_answerAfter edits e
  rw [ha] at hdoes
  generalize (build (edits ++ [e])).declarations = declarations at hdoes ⊢
  cases hdoes with
  | openNamespace | bind | define => contradiction
  | declare | add => simp

/-- A type that was declared was not there at the beginning. -/
theorem DeclaredAs.le_index (h : DeclaredAs edits id info) :
    Builder.initial.declarations.length ≤ id.index := by
  obtain ⟨before, e, since, rfl, hinfo, hanswer⟩ := h
  obtain ⟨hid, -⟩ := next_of_answerAfter hinfo hanswer
  rw [some.inj hid, types_after, length_map]
  by_contra! hlt
  have hd := Builder.getElem?_build before (getElem?_eq_getElem hlt)
  exact Nat.lt_irrefl _ (List.getElem?_eq_some_iff.mp hd).1

/-- An edit that is refused leaves the tables alone. -/
theorem after_concat_of_error {error : SchemaError} (h : answerAfter edits e = .error error) :
    after (edits ++ [e]) = after edits := by
  rw [answerAfter_eq] at h
  rw [after_eq, after_eq, Builder.build_concat, Builder.edit_of_answer_error h]

/-- What can be told of the tables after some edits. -/
structure Steady (edits : List Edit) : Prop where
  /-- They are the tables of the builder, and the next edit is answered like there. -/
  builder : after edits = (build edits).tables ∧
    ∀ e, answerAfter edits e = (build edits).answer e
  /-- There is a flag for every type. -/
  aligned : (after edits).defined.length = (after edits).types.length
  /-- A type that is declared gets the next number. -/
  next : ∀ e info a, e.declaration? = some info → answerAfter edits e = .ok a →
    a = some ⟨(after edits).types.length⟩ ∧
      (after (edits ++ [e])).types.length = (after edits).types.length + 1
  /-- A type that was declared has its name and its place, and until it is defined it is the
  placeholder that was declared. -/
  declared : ∀ id info, DeclaredAs edits id info →
    ∃ info', (after edits).types[id.index]? = some info' ∧ info'.name = info.name ∧
      info'.path = info.path ∧
      ((∀ kind, ¬ DefinedAs edits id kind) →
        info'.kind = info.kind ∧ (after edits).defined[id.index]? = some false)
  /-- A type that was defined is what it was defined to be. -/
  defined : ∀ id kind, DefinedAs edits id kind →
    ∃ info, (after edits).types[id.index]? = some info ∧ info.kind = kind ∧
      (after edits).defined[id.index]? = some true
  /-- A type that was defined cannot be defined again. -/
  once : ∀ id kind kind' e, DefinedAs edits id kind → ¬ Defines id kind' edits e
  /-- The types of the beginning are there, and they count as defined. -/
  builtins : ∀ (i : Nat) info, Builder.initial.types[i]? = some info →
    (after edits).types[i]? = some info ∧ (after edits).defined[i]? = some true
  /-- Every other type was declared. -/
  origin : ∀ i, Builder.initial.types.length ≤ i → i < (after edits).types.length →
    ∃ info, DeclaredAs edits ⟨i⟩ info
  /-- An edit that is refused changes nothing. -/
  refused : ∀ e error, answerAfter edits e = .error error → after (edits ++ [e]) = after edits

/-- **Building is steady**, whatever edits come in whatever order. -/
theorem steady_after (edits : List Edit) : Steady edits where
  builder := ⟨after_eq edits, answerAfter_eq edits⟩
  aligned := by simp [types_after, defined_after]
  next _ _ _ := next_of_answerAfter
  declared id info h := by
    obtain ⟨d, hd, hname, hpath, hkind⟩ := h.exists_declaration
    refine ⟨d.info, types_after_of_declaration hd, hname, hpath, fun hnot => ?_⟩
    have hundefined : d.defined = false := by
      by_contra hdefined
      exact hnot _ ((told h.le_index hd).2 (by simpa using hdefined))
    rw [defined_after_of_declaration hd, hundefined]
    exact ⟨hkind hundefined, rfl⟩
  defined id kind h := by
    obtain ⟨d, hd, hdefined, hkind⟩ := h.exists_declaration
    rw [defined_after_of_declaration hd, hdefined]
    exact ⟨d.info, types_after_of_declaration hd, hkind, rfl⟩
  once _ _ _ _ h := h.not_defines
  builtins i info h := by
    obtain ⟨d, hd, rfl⟩ : ∃ d, Builder.initial.declarations[i]? = some d ∧ d.info = info := by
      simpa [Builder.types] using h
    have hbuild := Builder.getElem?_build edits hd
    have hdefined := Builder.defined_of_mem_initial d (List.mem_of_getElem? hd)
    rw [defined_after_of_declaration hbuild, hdefined]
    exact ⟨types_after_of_declaration hbuild, rfl⟩
  origin i hle hlt := by
    simp only [Builder.types, types_after, List.length_map] at hle hlt
    exact (told hle (List.getElem?_eq_getElem hlt)).1
  refused _ _ := after_concat_of_error

/-- There are seven types at the beginning. -/
example : Builder.initial.types.length = 7 := rfl

end Tables

end Remoting
