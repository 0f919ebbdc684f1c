import Remoting.Client.Request
import Remoting.Proofs.Lineage

/-!
# Remoting.Proofs.TypesQuestion

The question for the types of an object is asked by its digest. A client computes the digest from
the model without declarations of its own, and the other side computes it from the model that it
serves. Both are the same (`Builder.typeListDigest_unaffected`), because the digest is made of two
types that every model has, and nothing that is done to a builder changes these: they have been
defined from the beginning, and what is defined stays what it is (`Builder.keeps_treated`).

It does not matter either which names there are. The two types are found by their numbers, and so
any number of other types may go by the same names.
-/

namespace Remoting

namespace Builder

variable {b : Builder} {i : TypeId} {info : TypeInfo}

/-- Something that is done to a builder: an edit, or its namespaces are exchanged for others. A
builder hands its namespaces out to be changed in place, so they may become anything. -/
inductive Treatment where
  | edit (e : Edit)
  | exchange (namespaces : List Namespace)
  deriving DecidableEq, Repr

/-- The builder after a treatment. -/
def treat (b : Builder) : Treatment → Builder
  | .edit e => b.edit e
  | .exchange namespaces => { b with namespaces }

/-- The builder after one treatment after the other, from the beginning. -/
def treated (treatments : List Treatment) : Builder := treatments.foldl treat initial

/-! ## What every builder has -/

theorem keeps_treat (b : Builder) (t : Treatment) : b.Keeps (b.treat t) := by
  cases t with
  | edit e => exact keeps_edit b e
  | exchange namespaces => exact keeps_of_declarations_eq rfl

theorem keeps_treated (treatments : List Treatment) : initial.Keeps (treated treatments) := by
  have hfoldl (b : Builder) : b.Keeps (treatments.foldl treat b) := by
    induction treatments generalizing b with
    | nil => exact .refl b
    | cons t treatments ih => exact (keeps_treat b t).trans (ih (b.treat t))
  exact hfoldl initial

/-- The types of the beginning cannot be defined again. -/
theorem define_of_keeps (h : initial.Keeps b) (hinfo : initial.type? i = some info)
    (kind : TypeKind) :
    b.define i kind = .error (.duplicate (Schema.joinPath info.path) info.name) := by
  simp [define, getElem?_of_keeps h hinfo]

/-! ## The question -/

/-- **Nothing changes the question for types.** Whatever is done to a builder, the types that every
model has keep their numbers, names, places and kinds, and attempts to define them again are
refused. So the question for the types of an object has one digest in all models that come of it,
and it is the one that clients know from the model without declarations. -/
theorem typeListDigest_unaffected (treatments : List Treatment) :
    (∀ i info, initial.type? i = some info →
      (treated treatments).type? i = some info ∧
        ∀ kind, (treated treatments).define i kind =
          .error (.duplicate (Schema.joinPath info.path) info.name)) ∧
    initial.finish = .ok .initial ∧
    ∀ m, (treated treatments).finish = .ok m →
      ∃ d, m.typeListDigest = .ok d ∧ typeListQuery = .ok d := by
  have hkeeps := keeps_treated treatments
  refine ⟨fun i info hinfo => ⟨type?_of_keeps hkeeps hinfo, define_of_keeps hkeeps hinfo⟩,
    Model.finish_initial, fun m hm => ?_⟩
  obtain ⟨d, hd, hinitial⟩ := Model.agree_typeListDigest_of_types
    (Model.type?_of_keeps hkeeps hm rfl) (Model.type?_of_keeps hkeeps hm rfl)
  refine ⟨d, hd, ?_⟩
  rw [typeListQuery, hinitial]
  rfl

/-- Attempts on the interface that every object has. It is not defined again, but when its name has
been lost, another one of the same name with a member of the name of the question is declared. -/
def impostors : List Treatment :=
  [.edit (.define .implicitBase (.interface { prerequisites := [.implicitBase] })),
   .edit (.add "Aida" "ImplicitBase" (.interface {})),
   .exchange [],
   .edit (.add "Aida" "ImplicitBase" (.interface {
    methods := [⟨Model.typeListMember, ⟨[], .int⟩⟩] })),
   .edit (.add "" "void" (.record []))]

theorem typeListDigest_unaffected_impostors :
    ∃ m d, (treated impostors).finish = .ok m ∧
      (m.type? ⟨7⟩).map (·.qualifiedName) = (m.type? .implicitBase).map (·.qualifiedName) ∧
      (m.type? ⟨8⟩).map (·.qualifiedName) = (m.type? .void).map (·.qualifiedName) ∧
      m.typeListDigest = .ok d ∧ typeListQuery = .ok d := by
  have hfinish : (treated impostors).finish =
      .ok ⟨(treated impostors).types, (treated impostors).namespaces⟩ := by cbv
  obtain ⟨-, -, hdigest⟩ := typeListDigest_unaffected impostors
  obtain ⟨d, hd, hquery⟩ := hdigest _ hfinish
  exact ⟨_, d, hfinish, by cbv, by cbv, hd, hquery⟩

end Builder

end Remoting
