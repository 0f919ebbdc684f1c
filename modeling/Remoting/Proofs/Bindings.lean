import Remoting.Proofs.BuildHistory
import Remoting.Proofs.Paths

/-!
# Remoting.Proofs.Bindings

What names stand for. The namespaces of a builder are seen through `Schema.binding?` here, which
tells what a name stands for under the written path of its namespace; where a name leads from a
scope can be told from that (`Schema.resolveIn_of_binding?`, `Schema.exists_binding?_of_resolveIn`).

An edit that is accepted binds at most one name, which was free, and changes nothing else
(`Builder.gains_edit`, `Builder.binding?_edit`). So whatever is bound stays bound to the same thing
(`Builder.binding?_build_append`), and was bound at the beginning or by one of the edits
(`Builder.origin_of_binding?`).
-/

namespace Remoting

namespace Schema

variable {spaces spaces' : List Namespace} {path : List String} {name key n : String}
  {binding : Binding}

/-! ## Namespaces -/

/-- What a name stands for in the namespace with the given written path. -/
def binding? (spaces : List Namespace) (key name : String) : Option Binding :=
  (namespace? spaces key).bind (·.find? name)

theorem binding?_cons (ns : Namespace) (rest : List Namespace) (key name : String) :
    binding? (ns :: rest) key name =
      if ns.name = key then ns.find? name else binding? rest key name := by
  by_cases hname : ns.name = key <;> simp [binding?, namespace?, hname]

theorem binding?_openAt (path : List String) (spaces : List Namespace) (key name : String) :
    binding? (openAt path spaces) key name = binding? spaces key name := by
  induction spaces with
  | nil => simp [openAt, Namespace.find?, binding?, namespace?]
  | cons ns rest ih =>
    rw [openAt]
    split
    · rfl
    · rw [binding?_cons, binding?_cons, ih]

/-- One name is bound that was free, and every other name stands for what it stood for. -/
structure Gains (spaces spaces' : List Namespace) (key name : String) (binding : Binding) :
    Prop where
  free : binding? spaces key name = none
  bound : binding? spaces' key name = some binding
  other : ∀ key' name', (key', name') ≠ (key, name) →
    binding? spaces' key' name' = binding? spaces key' name'

theorem find?_of_bind {ns ns' : Namespace} (h : ns.bind name binding = .ok ns') :
    ns'.name = ns.name ∧ ns.find? name = none ∧ ns'.find? name = some binding ∧
      ∀ n, n ≠ name → ns'.find? n = ns.find? n := by
  unfold Namespace.bind at h
  split at h
  · next hunknown =>
    cases h
    have hfree : ns.find? name = none := by simpa [Namespace.isUnknown] using hunknown
    refine ⟨rfl, hfree, ?_, fun n hne => ?_⟩
    · simp only [Namespace.find?, Option.map_eq_none_iff] at hfree
      simp [Namespace.find?, List.find?_append, hfree]
    · simp [Namespace.find?, List.find?_append, hne.symm]
  · contradiction

theorem Gains.cons {ns : Namespace} (hname : ns.name ≠ key)
    (h : Gains spaces spaces' key name binding) :
    Gains (ns :: spaces) (ns :: spaces') key name binding where
  free := by rw [binding?_cons, if_neg hname, h.free]
  bound := by rw [binding?_cons, if_neg hname, h.bound]
  other key' name' hne := by rw [binding?_cons, binding?_cons, h.other key' name' hne]

theorem gains_insertAt (hopen : ∃ ns ∈ spaces, ns.name = key)
    (h : insertAt key name binding spaces = .ok spaces') :
    Gains spaces spaces' key name binding := by
  induction spaces generalizing spaces' with
  | nil => simp at hopen
  | cons ns rest ih =>
    rw [insertAt] at h
    split at h
    · next hname =>
      obtain ⟨ns', hbind, rfl⟩ := map_eq_ok_iff.mp h
      obtain ⟨hname', hfree, hbound, hother⟩ := find?_of_bind hbind
      refine ⟨by rw [binding?_cons, if_pos hname, hfree],
        by rw [binding?_cons, if_pos (hname'.trans hname), hbound], fun key' n hne => ?_⟩
      rw [binding?_cons, binding?_cons, hname', hname]
      split
      · next hkey => exact hother n fun hn => hne (by rw [hkey, hn])
      · rfl
    · next hname =>
      obtain ⟨rest', hrest, rfl⟩ := map_eq_ok_iff.mp h
      have hopen' : ∃ ns ∈ rest, ns.name = key := by simpa [hname] using hopen
      exact (ih hopen' hrest).cons hname

theorem exists_mem_openAt (path : List String) (spaces : List Namespace) :
    ∃ ns ∈ openAt path spaces, ns.name = joinPath path := by
  induction spaces with
  | nil => exact ⟨⟨path, []⟩, List.mem_cons_self, rfl⟩
  | cons ns rest ih =>
    rw [openAt]
    split
    · next hname => exact ⟨ns, List.mem_cons_self, hname⟩
    · obtain ⟨ns', hmem, hname'⟩ := ih
      exact ⟨ns', List.mem_cons_of_mem ns hmem, hname'⟩

theorem gains_bindAt (h : bindAt path name binding spaces = .ok spaces') :
    Gains spaces spaces' (joinPath path) name binding := by
  rw [bindAt_eq_insertAt] at h
  obtain ⟨hfree, hbound, hother⟩ := gains_insertAt (exists_mem_openAt path spaces) h
  simp only [binding?_openAt] at hfree hother
  exact ⟨hfree, hbound, hother⟩

/-! ## Resolution -/

section Resolution

variable {scope leaf : String} {segments : List String} {id : TypeId}

theorem resolveIn_type?_eq_ok_iff :
    resolveIn spaces Namespace.type? scope name = .ok id ↔
      ((candidates scope name).findSome? fun c =>
        (binding? spaces c.1 c.2).bind Binding.type?) = some id := by
  have hask : (fun c : String × String => (namespace? spaces c.1).bind (·.type? c.2)) =
      fun c => (binding? spaces c.1 c.2).bind Binding.type? := by
    funext c
    rw [binding?, Option.bind_assoc]
    rfl
  rw [resolveIn, hask]
  cases (candidates scope name).findSome? fun c =>
    (binding? spaces c.1 c.2).bind Binding.type? <;> simp

theorem exists_candidates_eq (hname : splitPath name = segments ++ [leaf]) :
    ∃ rest, candidates scope name = (joinPath (splitPath scope ++ segments), leaf) :: rest := by
  simp [candidates, hname, List.range_succ]

/-- A name leads to the type that it stands for in the innermost namespace. -/
theorem resolveIn_of_binding? (hname : splitPath name = segments ++ [leaf])
    (h : binding? spaces (joinPath (splitPath scope ++ segments)) leaf = some (.type id)) :
    resolveIn spaces Namespace.type? scope name = .ok id := by
  obtain ⟨rest, hcandidates⟩ := exists_candidates_eq hname
  rw [resolveIn_type?_eq_ok_iff, hcandidates, List.findSome?_cons, h]
  rfl

/-- A name leads to a type only where its last segment stands for the type. -/
theorem exists_binding?_of_resolveIn
    (h : resolveIn spaces Namespace.type? scope name = .ok id) :
    ∃ key leaf, splitPath leaf = [leaf] ∧ binding? spaces key leaf = some (.type id) := by
  rw [resolveIn_type?_eq_ok_iff] at h
  obtain ⟨c, hc, hid⟩ := List.exists_of_findSome?_eq_some h
  obtain ⟨binding, hbinding, htype⟩ := Option.bind_eq_some_iff.mp hid
  have hleaf : (splitPath name).getLast? = some c.2 := by
    cases hlast : (splitPath name).getLast? with
    | none => simp [candidates, hlast] at hc
    | some leaf =>
      simp only [candidates, hlast] at hc
      obtain ⟨depth, -, rfl⟩ := List.mem_map.mp hc
      rfl
  refine ⟨c.1, c.2, splitPath_of_isPath (isPath_of_getLast? (isPath_splitPath name) hleaf), ?_⟩
  cases binding with
  | type id' =>
    cases htype
    exact hbinding
  | constant value => contradiction

end Resolution

end Schema

/-! ## Edits -/

/-- What an edit binds if it is accepted: the written path of a namespace, a name in it, and what it
is to stand for. The next type that is declared gets the given number. -/
def Edit.binding? (next : TypeId) : Edit → Option (String × String × Binding)
  | .bind path name binding => some (Schema.joinPath (Schema.splitPath path), name, binding)
  | .declare path name _ | .add path name _ =>
    some (Schema.joinPath (Schema.splitPath path), name, .type next)
  | .openNamespace _ | .define _ _ => none

namespace Builder

open Schema (Gains)

variable {b b' : Builder} {e : Edit} {key name : String} {binding : Binding} {a : Option TypeId}
  {edits : List Edit}

/-- The number of the next type. -/
def next (b : Builder) : TypeId := ⟨b.declarations.length⟩

/-- What a name stands for in the namespace with the given written path. -/
def binding? (b : Builder) (key name : String) : Option Binding :=
  Schema.binding? b.namespaces key name

theorem gains_bind {path : String} (h : b.bind path name binding = .ok b') :
    Gains b.namespaces b'.namespaces (Schema.joinPath (Schema.splitPath path)) name binding := by
  obtain ⟨namespaces, hbind, hb'⟩ := bind_eq_ok_iff.mp h
  rw [← Except.ok.inj hb']
  exact Schema.gains_bindAt hbind

theorem gains_declare {path : String} {storage : Storage} {id : TypeId}
    (h : b.declare path name storage = .ok (id, b')) :
    Gains b.namespaces b'.namespaces (Schema.joinPath (Schema.splitPath path)) name
      (.type b.next) := by
  obtain ⟨b₁, hbind, hdeclare⟩ := bind_eq_ok_iff.mp h
  obtain ⟨-, hb'⟩ := Prod.mk.inj (Except.ok.inj hdeclare)
  have hgains := gains_bind hbind
  rwa [← hb']

theorem namespaces_of_define {id : TypeId} {kind : TypeKind} (h : b.define id kind = .ok b') :
    b'.namespaces = b.namespaces := by
  unfold define at h
  grind

theorem tryEdit_of_answer (h : b.answer e = .ok a) : b.tryEdit e = .ok (b.edit e) := by
  rw [answer] at h
  obtain ⟨x, hrequest, -⟩ := map_eq_ok_iff.mp h
  rw [edit, ← map_snd_request, hrequest]
  rfl

/-- An edit that is accepted binds its name. -/
theorem gains_edit (ha : b.answer e = .ok a) (he : e.binding? b.next = some (key, name, binding)) :
    Gains b.namespaces (b.edit e).namespaces key name binding := by
  have htry := tryEdit_of_answer ha
  generalize b.edit e = b' at htry
  cases e with
  | openNamespace | define => contradiction
  | bind path name binding =>
    obtain ⟨rfl, rfl, rfl⟩ := by simpa [Edit.binding?] using he
    exact gains_bind htry
  | declare path name storage =>
    obtain ⟨rfl, rfl, rfl⟩ := by simpa [Edit.binding?] using he
    obtain ⟨⟨id, b₁⟩, hdeclare, rfl⟩ := map_eq_ok_iff.mp htry
    exact gains_declare hdeclare
  | add path name kind =>
    obtain ⟨rfl, rfl, rfl⟩ := by simpa [Edit.binding?] using he
    obtain ⟨⟨id, b₁⟩, hadd, rfl⟩ := map_eq_ok_iff.mp htry
    obtain ⟨⟨id', b₂⟩, hdeclare, hrest⟩ := bind_eq_ok_iff.mp hadd
    obtain ⟨b₃, hdefine, hlast⟩ := bind_eq_ok_iff.mp hrest
    obtain ⟨-, rfl⟩ := Prod.mk.inj (Except.ok.inj hlast)
    rw [namespaces_of_define hdefine]
    exact gains_declare hdeclare

/-- An edit that binds no name changes none. -/
theorem binding?_edit (he : e.binding? b.next = none) (key name : String) :
    (b.edit e).binding? key name = b.binding? key name := by
  cases e with
  | bind | declare | add => contradiction
  | openNamespace path =>
    exact Schema.binding?_openAt (Schema.splitPath path) b.namespaces key name
  | define id kind =>
    unfold edit
    split
    · next b' hdefine => rw [binding?, binding?, namespaces_of_define hdefine]
    · rfl

/-! ## Bindings and the edits that made them -/

/-- An edit binds a name to something and is accepted. -/
def Binds (key name : String) (binding : Binding) (before : List Edit) (e : Edit) : Prop :=
  e.binding? (build before).next = some (key, name, binding) ∧
    ∃ a, (build before).answer e = .ok a

/-- What one more edit does to a name: it binds it, or leaves it as it is. -/
theorem binding?_edit_cases (edits : List Edit) (e : Edit) (key name : String) :
    (∃ binding, Binds key name binding edits e ∧ (build edits).binding? key name = none ∧
        (build (edits ++ [e])).binding? key name = some binding) ∨
      (build (edits ++ [e])).binding? key name = (build edits).binding? key name := by
  rw [build_concat]
  cases ha : (build edits).answer e with
  | error error => exact .inr (by rw [edit_of_answer_error ha])
  | ok a =>
    cases he : e.binding? (build edits).next with
    | none => exact .inr (binding?_edit he key name)
    | some x =>
      obtain ⟨key', name', binding⟩ := x
      have hgains := gains_edit ha he
      by_cases hsame : (key, name) = (key', name')
      · cases hsame
        exact .inl ⟨binding, ⟨he, a, ha⟩, hgains.free, hgains.bound⟩
      · exact .inr (hgains.other key name hsame)

/-- Whatever is bound stays bound to the same thing. -/
theorem binding?_build_append {before : List Edit}
    (h : (build before).binding? key name = some binding) (since : List Edit) :
    (build (before ++ since)).binding? key name = some binding := by
  induction since using List.reverseRecOn with
  | nil => rwa [List.append_nil]
  | append_singleton since e ih =>
    rw [← List.append_assoc]
    rcases binding?_edit_cases (before ++ since) e key name with ⟨_, -, hfree, -⟩ | hsame
    · rw [ih] at hfree
      contradiction
    · rw [hsame, ih]

/-- Whatever is bound was bound at the beginning or by an edit. -/
theorem origin_of_binding? (h : (build edits).binding? key name = some binding) :
    initial.binding? key name = some binding ∨ Happened (Binds key name binding) edits := by
  induction edits using List.reverseRecOn with
  | nil => exact .inl h
  | append_singleton edits e ih =>
    rw [happened_concat]
    rcases binding?_edit_cases edits e key name with ⟨binding', hbinds, -, hbound⟩ | hsame
    · obtain rfl := Option.some.inj (hbound.symm.trans h)
      exact .inr (.inr hbinds)
    · rw [hsame] at h
      exact (ih h).imp_right .inl

/-- What an edit has bound is bound ever after. -/
theorem binding?_of_happened (h : Happened (Binds key name binding) edits) :
    (build edits).binding? key name = some binding := by
  obtain ⟨before, e, since, rfl, he, a, ha⟩ := h
  have hbound : (build (before ++ [e])).binding? key name = some binding := by
    rw [build_concat]
    exact (gains_edit ha he).bound
  have hlater := binding?_build_append hbound since
  rwa [List.append_assoc] at hlater

end Builder

end Remoting
