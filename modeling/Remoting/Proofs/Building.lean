import Remoting.Proofs.Fallible
import Remoting.Schema.Builder

/-!
# Remoting.Proofs.Building

Builders as they come to be. Whatever can be done to a builder is an `Edit`; one that is refused
leaves the builder as it was, and `Builder.build` does one after the other from the beginning.

A type that is defined stays what it is under its number, whatever is done later
(`Builder.keeps_edit`, `Builder.keeps_edits`). So every builder has the types that it began with
(`Builder.getElem?_build`).
-/

namespace Remoting

/-- Something that can be done to a builder. -/
inductive Edit where
  | openNamespace (path : String)
  /-- Bind a name to a constant or to any type number. -/
  | bind (path name : String) (binding : Binding)
  | declare (path name : String) (storage : Storage)
  | define (id : TypeId) (kind : TypeKind)
  /-- Declare and define at once. -/
  | add (path name : String) (kind : TypeKind)
  deriving DecidableEq, Repr

namespace Builder

variable {b b' b'' : Builder} {path name : String} {storage : Storage} {id i : TypeId}
  {kind : TypeKind} {info : TypeInfo}

/-- What an edit makes of a builder, if it is not refused. -/
def tryEdit (b : Builder) : Edit → Except SchemaError Builder
  | .openNamespace path => .ok (b.openNamespace path)
  | .bind path name binding => b.bind path name binding
  | .declare path name storage => (b.declare path name storage).map (·.2)
  | .define id kind => b.define id kind
  | .add path name kind => (b.add path name kind).map (·.2)

/-- The builder after an edit. -/
def edit (b : Builder) (e : Edit) : Builder :=
  match b.tryEdit e with
  | .ok b' => b'
  | .error _ => b

/-- The builder after one edit after the other, from the beginning. -/
def build (edits : List Edit) : Builder := edits.foldl edit initial

/-! ## What each edit does -/

/-- Binding a name declares nothing. -/
theorem declarations_of_bind {binding : Binding}
    (h : b.bind path name binding = .ok b') : b'.declarations = b.declarations := by
  obtain ⟨namespaces, -, hb'⟩ := bind_eq_ok_iff.mp h
  rw [← Except.ok.inj hb']

/-- A type that is declared comes last, without a definition. -/
theorem declarations_of_declare (h : b.declare path name storage = .ok (id, b')) :
    id = ⟨b.declarations.length⟩ ∧
      b'.declarations =
        b.declarations ++ [⟨⟨name, Schema.splitPath path, .placeholder storage⟩, false⟩] := by
  obtain ⟨b₁, hbind, hdeclare⟩ := bind_eq_ok_iff.mp h
  obtain ⟨hid, hb'⟩ := Prod.mk.inj (Except.ok.inj hdeclare)
  rw [← hid, ← hb', declarations_of_bind hbind]
  exact ⟨rfl, rfl⟩

/-- Only a type without a definition is defined. -/
theorem declarations_of_define (h : b.define id kind = .ok b') :
    ∃ d, b.declarations[id.index]? = some d ∧ d.defined = false ∧
      b'.declarations = b.declarations.set id.index ⟨{ d.info with kind }, true⟩ := by
  unfold define at h
  split at h
  · contradiction
  · next d hd =>
    split at h
    · contradiction
    · next hdefined =>
      split at h
      · have hb' := Except.ok.inj h
        exact ⟨d, hd, by simpa using hdefined, by rw [← hb']⟩
      · contradiction

/-! ## What stays -/

/-- What the first builder has defined, the second one has under the same number. -/
def Keeps (b b' : Builder) : Prop :=
  ∀ (i : Nat) (d : Declaration), b.declarations[i]? = some d → d.defined = true →
    b'.declarations[i]? = some d

theorem Keeps.refl (b : Builder) : b.Keeps b := fun _ _ hd _ => hd

theorem Keeps.trans (h : b.Keeps b') (h' : b'.Keeps b'') : b.Keeps b'' :=
  fun i d hd hdefined => h' i d (h i d hd hdefined) hdefined

theorem keeps_of_declarations_eq (h : b'.declarations = b.declarations) : b.Keeps b' := by
  intro i d hd _
  rw [h, hd]

/-- Declaring keeps what is defined. -/
theorem keeps_declare (h : b.declare path name storage = .ok (id, b')) : b.Keeps b' := by
  intro i d hd _
  rw [(declarations_of_declare h).2, List.getElem?_append_left, hd]
  exact (List.getElem?_eq_some_iff.mp hd).1

/-- So does defining another type. -/
theorem keeps_define (h : b.define id kind = .ok b') : b.Keeps b' := by
  intro i d hd hdefined
  obtain ⟨d', hd', hundefined, hdeclarations⟩ := declarations_of_define h
  have hne : id.index ≠ i := by
    intro heq
    rw [heq, hd] at hd'
    rw [← Option.some.inj hd', hdefined] at hundefined
    contradiction
  rw [hdeclarations, List.getElem?_set_ne hne, hd]

theorem keeps_tryEdit {e : Edit} (h : b.tryEdit e = .ok b') : b.Keeps b' := by
  cases e with
  | openNamespace path =>
    have hb' : b.openNamespace path = b' := Except.ok.inj h
    exact keeps_of_declarations_eq (by rw [← hb']; rfl)
  | bind path name binding => exact keeps_of_declarations_eq (declarations_of_bind h)
  | declare path name storage =>
    obtain ⟨⟨id, b₁⟩, hdeclare, rfl⟩ := map_eq_ok_iff.mp h
    exact keeps_declare hdeclare
  | define id kind => exact keeps_define h
  | add path name kind =>
    obtain ⟨⟨id, b₁⟩, hadd, rfl⟩ := map_eq_ok_iff.mp h
    obtain ⟨⟨id', b₂⟩, hdeclare, hrest⟩ := bind_eq_ok_iff.mp hadd
    obtain ⟨b₃, hdefine, hlast⟩ := bind_eq_ok_iff.mp hrest
    obtain ⟨-, rfl⟩ := Prod.mk.inj (Except.ok.inj hlast)
    exact (keeps_declare hdeclare).trans (keeps_define hdefine)

/-- Edits keep what is defined. -/
theorem keeps_edit (b : Builder) (e : Edit) : b.Keeps (b.edit e) := by
  unfold edit
  split
  · next b' h => exact keeps_tryEdit h
  · exact .refl b

/-- So do any number of them. -/
theorem keeps_edits (b : Builder) (edits : List Edit) : b.Keeps (edits.foldl edit b) := by
  induction edits generalizing b with
  | nil => exact .refl b
  | cons e edits ih => exact (keeps_edit b e).trans (ih (b.edit e))

/-- All types that are there from the beginning are defined. -/
theorem defined_of_mem_initial : ∀ d ∈ initial.declarations, d.defined = true := by decide

theorem getElem?_of_keeps (h : initial.Keeps b)
    (hinfo : initial.type? i = some info) : b.declarations[i.index]? = some ⟨info, true⟩ := by
  rw [type?, types, List.getElem?_map] at hinfo
  obtain ⟨d, hd, rfl⟩ := Option.map_eq_some_iff.mp hinfo
  have hdefined := defined_of_mem_initial d (List.mem_of_getElem? hd)
  rw [h i.index d hd hdefined, ← hdefined]

theorem type?_of_keeps (h : initial.Keeps b)
    (hinfo : initial.type? i = some info) : b.type? i = some info := by
  simp [type?, types, getElem?_of_keeps h hinfo]

/-- What is there at the beginning is the same in every builder. -/
theorem getElem?_build (edits : List Edit) {i : Nat} {d : Declaration}
    (h : initial.declarations[i]? = some d) : (build edits).declarations[i]? = some d :=
  keeps_edits initial edits i d h (defined_of_mem_initial d (List.mem_of_getElem? h))

end Builder

end Remoting
