import Remoting.Proofs.Bindings
import Remoting.Proofs.WellFormed

/-!
# Remoting.Proofs.Spellings

Paths in different spellings. A text is cut at its separators from the left (`Schema.Cut`), and its
parts are its segments, except for the empty ones. Segments that are written and cut again are the
same, so two texts are written alike exactly if they have the same segments.

A builder finds its namespaces by what their paths are when they are written. To see that this is
enough, the namespaces are kept under keys here that are never computed again (`Catalogue`). They
are the namespaces of the builder, each under its own written path (`Catalogue.after_eq`), one for
every path that an edit has named (`Builder.paths_build`).
-/

namespace Remoting

open List Option

namespace Schema

variable {spaces spaces' : List Namespace} {key name : String} {binding : Binding}

/-! ## Parts -/

/-- The parts of a text that is cut at its first separator, then at the first one behind that, and
so on. -/
inductive Cut : List Char → List (List Char) → Prop where
  | whole {cs : List Char} (h : ¬ separator <:+: cs) : Cut cs [cs]
  | parts {xs ys : List Char} {parts : List (List Char)} (h : ¬ separator <:+: xs ++ [':'])
      (hys : Cut ys parts) : Cut (xs ++ separator ++ ys) (xs :: parts)

theorem cut_iff {cs : List Char} {parts : List (List Char)} :
    Cut cs parts ↔ parts = pathParts [] cs := by
  constructor
  · intro h
    induction h with
    | whole h => rw [pathParts_of_whole h, reverse_nil, nil_append]
    | parts h _ ih => rw [pathParts_append h, ← ih, reverse_nil, nil_append]
  · rintro rfl
    induction cs using leftmost_induction with
    | whole cs h =>
      rw [pathParts_of_whole h]
      exact .whole h
    | parts xs ys h ih =>
      rw [pathParts_append h]
      exact .parts h ih

/-- Different paths are spelled differently. -/
theorem joinPath_inj {path path' : List String} (h : IsPath path) (h' : IsPath path') :
    joinPath path = joinPath path' ↔ path = path' := by
  refine ⟨fun heq => ?_, congrArg joinPath⟩
  rw [← splitPath_joinPath h, heq, splitPath_joinPath h']

theorem paths_openAt {path : List String} (hpath : IsPath path)
    (hspaces : ∀ ns ∈ spaces, IsPath ns.path) :
    (openAt path spaces).map (·.path) =
      if path ∈ spaces.map (·.path) then spaces.map (·.path)
      else spaces.map (·.path) ++ [path] := by
  induction spaces with
  | nil => rfl
  | cons ns rest ih =>
    obtain ⟨hns, hrest⟩ := List.forall_mem_cons.mp hspaces
    have hname : ns.name = joinPath path ↔ ns.path = path := joinPath_inj hns hpath
    by_cases heq : ns.path = path
    · simp [openAt, hname, heq]
    · simp [openAt, hname, heq, ih hrest, Ne.symm heq, apply_ite (ns.path :: ·)]

/-- Each namespace is found under its own written path. -/
theorem namespace?_of_mem (hspaces : ∀ ns ∈ spaces, IsPath ns.path)
    (hdistinct : (spaces.map (·.path)).Nodup) {ns : Namespace}
    (hns : ns ∈ spaces) : namespace? spaces ns.name = some ns := by
  have hsome : (namespace? spaces ns.name).isSome := by
    rw [namespace?, find?_isSome]
    exact ⟨ns, hns, beq_self_eq_true ns.name⟩
  obtain ⟨ns', hns'⟩ := isSome_iff_exists.mp hsome
  have hmem := mem_of_find?_eq_some hns'
  have hname : ns'.name = ns.name := by simpa using List.find?_some hns'
  have hpath := (joinPath_inj (hspaces ns' hmem) (hspaces ns hns)).mp hname
  rw [hns', List.inj_on_of_nodup_map hdistinct hmem hns hpath]

/-! ## Keys -/

/-- Open a namespace under a key. -/
def enter (key : String) (path : List String) :
    List (String × Namespace) → List (String × Namespace)
  | [] => [(key, ⟨path, []⟩)]
  | entry :: rest => if entry.1 = key then entry :: rest else entry :: enter key path rest

/-- Bind a name in the namespace under a key. -/
def put (key name : String) (binding : Binding) :
    List (String × Namespace) → Except SchemaError (List (String × Namespace))
  | [] => .ok []
  | entry :: rest =>
    if entry.1 = key then (entry.2.bind name binding).map fun ns => (key, ns) :: rest
    else (put key name binding rest).map (entry :: ·)

/-- Namespaces, each under its written path. -/
def keyed (spaces : List Namespace) : List (String × Namespace) :=
  spaces.map fun ns => (ns.name, ns)

theorem keyed_cons (ns : Namespace) (rest : List Namespace) :
    keyed (ns :: rest) = (ns.name, ns) :: keyed rest := rfl

theorem enter_keyed (path : List String) (spaces : List Namespace) :
    enter (joinPath path) path (keyed spaces) = keyed (openAt path spaces) := by
  induction spaces with
  | nil => rfl
  | cons ns rest ih =>
    rw [openAt, apply_ite keyed, keyed_cons, keyed_cons, enter, ih]

theorem path_of_bind {ns ns' : Namespace} (h : ns.bind name binding = .ok ns') :
    ns'.path = ns.path := by
  unfold Namespace.bind at h
  split at h
  · rw [← Except.ok.inj h]
  · contradiction

theorem put_keyed (key name : String) (binding : Binding) (spaces : List Namespace) :
    put key name binding (keyed spaces) = (insertAt key name binding spaces).map keyed := by
  induction spaces with
  | nil => rfl
  | cons ns rest ih =>
    rw [keyed_cons, put, insertAt, ih]
    by_cases hkey : ns.name = key
    · rw [if_pos hkey, if_pos hkey]
      cases hbind : ns.bind name binding with
      | error e => rfl
      | ok ns' =>
        have hname : ns'.name = key := (find?_of_bind hbind).1.trans hkey
        simp [Except.map, keyed_cons, hname]
    · rw [if_neg hkey, if_neg hkey]
      cases insertAt key name binding rest <;> rfl

theorem paths_put {entries entries' : List (String × Namespace)}
    (h : put key name binding entries = .ok entries') :
    entries'.map (·.2.path) = entries.map (·.2.path) := by
  induction entries generalizing entries' with
  | nil => rw [← Except.ok.inj h]
  | cons entry rest ih =>
    rw [put] at h
    split at h
    · obtain ⟨ns, hbind, rfl⟩ := map_eq_ok_iff.mp h
      simp [path_of_bind hbind]
    · obtain ⟨rest', hrest, rfl⟩ := map_eq_ok_iff.mp h
      simp [ih hrest]

theorem namespace?_cons (ns : Namespace) (rest : List Namespace) : namespace? (ns :: rest) key =
      if ns.name = key then some ns else namespace? rest key := by
  by_cases hname : ns.name = key <;> simp [namespace?, hname]

/-- A namespace is found under its spelling. -/
theorem lookup_keyed (key : String) (spaces : List Namespace) :
    (keyed spaces).lookup key = namespace? spaces key := by
  induction spaces with
  | nil => rfl
  | cons ns rest ih =>
    rw [namespace?_cons, ← ih, keyed_cons, lookup_cons]
    by_cases hkey : ns.name = key
    · simp [hkey]
    · simp [hkey, beq_false_of_ne (Ne.symm hkey)]

end Schema

/-! ## Catalogues -/

/-- The path that an edit names. -/
def Edit.path? : Edit → Option String
  | .openNamespace path | .bind path _ _ | .declare path _ _ | .add path _ _ => some path
  | .define _ _ => none

open Schema

/-- Namespaces under keys, and how many types there are. -/
structure Catalogue where
  declared : Nat
  entries : List (String × Namespace)
  deriving DecidableEq

/-- The namespaces of tables, each under its written path. -/
def Tables.catalogue (t : Tables) : Catalogue := ⟨t.types.length, keyed t.namespaces⟩

namespace Catalogue

/-- Open a namespace. -/
def openNamespace (c : Catalogue) (path : String) : Catalogue :=
  { c with entries := enter (joinPath (splitPath path)) (splitPath path) c.entries }

/-- An edit opens the namespace that it names. Then it binds its name, and if that can be done, it
may declare a type. -/
def perform (c : Catalogue) (e : Edit) : Catalogue :=
  let c := e.path?.elim c c.openNamespace
  match e.binding? ⟨c.declared⟩ with
  | none => c
  | some (key, name, binding) =>
    match put key name binding c.entries with
    | .error _ => c
    | .ok entries => ⟨c.declared + e.declaration?.toList.length, entries⟩

/-- The catalogue after one edit after the other, from the beginning. -/
def after (edits : List Edit) : Catalogue :=
  edits.foldl perform
    ⟨Builder.initial.declarations.length, ["", "Aida"].zip Builder.initial.namespaces⟩

theorem define_catalogue (t : Tables) (id : TypeId) (kind : TypeKind) :
    (t.define id kind).2.catalogue = t.catalogue := by
  unfold Tables.define
  split <;> try rfl
  split <;> simp [Tables.catalogue]

theorem openNamespace_catalogue (t : Tables) (path : String) :
    t.catalogue.openNamespace path = (t.openNamespace path).catalogue := by
  rw [openNamespace, Tables.catalogue, enter_keyed]
  rfl

theorem declare_catalogue (t : Tables) (path name : String) (storage : Storage) :
    t.catalogue.perform (.declare path name storage) =
      (t.declare path name storage).2.catalogue := by
  simp only [perform, Edit.path?, elim_some, openNamespace_catalogue, Edit.binding?,
    Tables.declare, Tables.bind]
  simp only [Tables.catalogue, put_keyed]
  have htypes : (t.openNamespace path).types = t.types := rfl
  rw [htypes]
  cases insertAt (joinPath (splitPath path)) name (.type ⟨t.types.length⟩)
      (t.openNamespace path).namespaces with
  | error => rfl
  | ok spaces => simp [Except.map, Edit.declaration?]

/-- The catalogue follows the tables. -/
theorem perform_catalogue (t : Tables) (e : Edit) :
    t.catalogue.perform e = (t.perform e).2.catalogue := by
  cases e with
  | openNamespace path => exact openNamespace_catalogue t path
  | bind path name binding =>
    simp only [perform, Edit.path?, elim_some, openNamespace_catalogue, Edit.binding?,
      Tables.perform, Tables.bind]
    simp only [Tables.catalogue, put_keyed]
    cases insertAt (joinPath (splitPath path)) name binding (t.openNamespace path).namespaces <;>
      rfl
  | declare path name storage => exact declare_catalogue t path name storage
  | define id kind => exact (define_catalogue t id kind).symm
  | add path name kind =>
    have hdeclare := declare_catalogue t path name kind.storage
    rw [Tables.perform, Tables.add]
    refine hdeclare.trans ?_
    rcases t.declare path name kind.storage with ⟨_ | id, t'⟩
    · rfl
    · have hdefine := define_catalogue t' id kind
      rcases h : t'.define id kind with ⟨_ | _, t''⟩ <;> simpa [h] using hdefine.symm

/-- The catalogue has the namespaces of the builder, each under its written path. -/
theorem after_eq (edits : List Edit) : after edits = (Builder.build edits).tables.catalogue := by
  induction edits using reverseRecOn with
  | nil => decide
  | append_singleton edits e ih =>
    rw [after, foldl_concat, ← after, ih, perform_catalogue, Builder.perform_tables,
      Builder.build_concat]

/-- The paths of the namespaces. -/
def paths (c : Catalogue) : List (List String) := c.entries.map (·.2.path)

theorem paths_perform (c : Catalogue) (e : Edit) :
    (c.perform e).paths = (e.path?.elim c c.openNamespace).paths := by
  simp only [perform]
  split
  · rfl
  · split
    · rfl
    · next hput => exact paths_put hput

end Catalogue

/-! ## Builders -/

namespace Builder

variable {b : Builder} {edits : List Edit} {ns : Namespace} {s t : String}

/-- The paths that are named in edits, behind those that every builder has. -/
def namedPaths (edits : List Edit) : List (List String) :=
  [[], ["Aida"]] ++ edits.filterMap fun e => e.path?.map splitPath

theorem isPath_of_mem_namedPaths {path : List String} (h : path ∈ namedPaths edits) :
    IsPath path := by
  rcases mem_append.mp h with hfirst | hnamed
  · obtain rfl | rfl : path = [] ∨ path = ["Aida"] := by simpa using hfirst
    · trivial
    · exact isPath_splitPath "Aida"
  · obtain ⟨e, -, he⟩ := List.mem_filterMap.mp hnamed
    obtain ⟨s, -, rfl⟩ := map_eq_some_iff.mp he
    exact isPath_splitPath s

theorem isPath_of_mem (h : b.namespaces.map (·.path) = (namedPaths edits).eraseDups)
    (hns : ns ∈ b.namespaces) : IsPath ns.path := by
  have hmem : ns.path ∈ b.namespaces.map (·.path) := List.mem_map_of_mem hns
  rw [h, mem_eraseDups] at hmem
  exact isPath_of_mem_namedPaths hmem

theorem paths_tables (b : Builder) : b.tables.catalogue.paths = b.namespaces.map (·.path) := by
  simp [Catalogue.paths, Tables.catalogue, keyed, tables]

theorem paths_edit (b : Builder) (e : Edit) :
    (b.edit e).namespaces.map (·.path) =
      (e.path?.elim b b.openNamespace).namespaces.map (·.path) := by
  have hperform := b.tables.catalogue.paths_perform e
  rw [Catalogue.perform_catalogue, perform_tables, paths_tables] at hperform
  rw [hperform, ← paths_tables]
  cases e.path? with
  | none => rfl
  | some path =>
    exact congrArg Catalogue.paths (Catalogue.openNamespace_catalogue b.tables path)

/-- The namespaces of a builder stand in the order in which their paths were first named. -/
theorem paths_build (edits : List Edit) :
    (build edits).namespaces.map (·.path) = (namedPaths edits).eraseDups := by
  induction edits using reverseRecOn with
  | nil => decide
  | append_singleton edits e ih =>
    rw [build_concat, paths_edit, namedPaths, filterMap_append, ← append_assoc,
      ← namedPaths]
    cases he : e.path? with
    | none => simpa [he] using ih
    | some path =>
      have hopen := paths_openAt (isPath_splitPath path) fun ns => isPath_of_mem ih
      rw [elim_some, openNamespace, hopen, ih]
      simp [he, eraseDups_concat]

/-- No two namespaces have one path. -/
theorem nodup_paths (edits : List Edit) : ((build edits).namespaces.map (·.path)).Nodup := by
  rw [paths_build]
  exact nodup_eraseDups (namedPaths edits)

/-- A namespace is found by the spellings of its path and by no others. -/
theorem namespace?_eq_some_iff (hns : ns ∈ (build edits).namespaces) :
    (build edits).namespace? s = some ns ↔ splitPath s = ns.path := by
  have hspaces : ∀ ns ∈ (build edits).namespaces, IsPath ns.path :=
    fun ns => isPath_of_mem (paths_build edits)
  constructor
  · intro h
    have hname : ns.name = joinPath (splitPath s) := by simpa using List.find?_some h
    exact ((joinPath_inj (hspaces ns hns) (isPath_splitPath s)).mp hname).symm
  · intro h
    rw [namespace?, h]
    exact namespace?_of_mem hspaces (nodup_paths edits) hns

/-- A path that has been named has a namespace. -/
theorem exists_namespace? (h : splitPath s ∈ namedPaths edits) :
    ∃ ns, (build edits).namespace? s = some ns ∧ ns.path = splitPath s := by
  rw [← mem_eraseDups, ← paths_build] at h
  obtain ⟨ns, hns, hpath⟩ := List.mem_map.mp h
  exact ⟨ns, (namespace?_eq_some_iff hns).mpr hpath.symm, hpath⟩

/-- Two texts open the same namespace exactly if they have the same segments. -/
theorem namespace?_eq_namespace?_iff (hs : splitPath s ∈ namedPaths edits)
    (ht : splitPath t ∈ namedPaths edits) :
    (build edits).namespace? s = (build edits).namespace? t ↔ splitPath s = splitPath t := by
  obtain ⟨ns, hs, hpath⟩ := exists_namespace? hs
  obtain ⟨ns', ht, hpath'⟩ := exists_namespace? ht
  refine ⟨fun h => ?_, fun h => by rw [namespace?, h, namespace?]⟩
  rw [hs, ht, some.injEq] at h
  rw [← hpath, h, hpath']

/-- What the spellings of paths come to in the builder after some edits. -/
structure FiledByPath (edits : List Edit) : Prop where
  /-- A text can be cut in one way only, and its segments are the parts that are not empty. -/
  segments (s : String) : ∃ parts, (∀ cut, Cut s.toList cut ↔ cut = parts) ∧
    splitPath s = (parts.filter (!·.isEmpty)).map String.ofList
  /-- Segments that are written and cut again are the same. -/
  again (s : String) : splitPath (joinPath (splitPath s)) = splitPath s
  /-- The namespace that a text opens has the segments of the text as its path. -/
  path (s : String) :
    ∃ ns, (build (edits ++ [.openNamespace s])).namespace? s = some ns ∧ ns.path = splitPath s
  /-- Two texts open the same namespace exactly if they have the same segments. -/
  opened (s t : String) :
    let b := build (edits ++ [.openNamespace s, .openNamespace t])
    b.namespace? s = b.namespace? t ↔ splitPath s = splitPath t
  /-- A name that is bound in the namespace of a text is bound in that of another text exactly if
  the two have the same segments. -/
  bound (s t name n : String) (binding : Binding) (b : Builder) :
    (build edits).bind s name binding = .ok b →
      (b.namespace? t).bind (·.find? n) = if splitPath s = splitPath t ∧ name = n then some binding
        else ((build edits).namespace? t).bind (·.find? n)
  /-- Kept under keys, each namespace is under its own written path. -/
  stored : (Catalogue.after edits).entries =
    (build edits).namespaces.map fun ns => (joinPath ns.path, ns)
  /-- The namespace of a text is the one under the key of the text. -/
  looked (s : String) : (build edits).namespace? s =
    (Catalogue.after edits).entries.lookup (joinPath (splitPath s))
  /-- A namespace is found by the texts with the segments of its path, and by no others. -/
  found : ∀ ns ∈ (build edits).namespaces, ∀ s,
    (build edits).namespace? s = some ns ↔ splitPath s = ns.path
  /-- The namespaces stand in the order in which their paths were first named. -/
  named : (build edits).namespaces.map (·.path) = (namedPaths edits).eraseDups
  /-- No two namespaces have the same path. -/
  distinct : ((build edits).namespaces.map (·.path)).Nodup
  /-- A model has the namespaces of its builder. -/
  finished (m : Model) :
    (build edits).finish = .ok m → ∀ s, m.namespace? s = (build edits).namespace? s

/-- Two spellings stand for the same namespace exactly if they have the same segments, in every
builder that edits come to. To overwrite a namespace that was handed out with another one as a whole
(`Treatment.exchange` of `Remoting.Proofs.TypesQuestion`) is no edit, and it breaks the law: after it
namespaces need not have the paths that were named, and two of them may have the same path. -/
theorem filedByPath_build (edits : List Edit) : FiledByPath edits where
  segments s := ⟨pathParts [] s.toList, fun _ => cut_iff, rfl⟩
  again s := splitPath_joinPath (isPath_splitPath s)
  path s := exists_namespace? (by simp [namedPaths, Edit.path?])
  opened s t := namespace?_eq_namespace?_iff (by simp [namedPaths, Edit.path?])
    (by simp [namedPaths, Edit.path?])
  bound s t name n binding b h := by
    have hgains := gains_bind h
    have hkey := joinPath_inj (isPath_splitPath s) (isPath_splitPath t)
    split
    · next heq =>
      rw [namespace?, ← heq.1, ← heq.2]
      exact hgains.bound
    · next hne =>
      refine hgains.other _ _ fun heq => hne ?_
      obtain ⟨hpath, rfl⟩ := Prod.mk.inj heq
      exact ⟨hkey.mp hpath.symm, rfl⟩
  stored := by
    rw [Catalogue.after_eq]
    rfl
  looked s := by
    rw [Catalogue.after_eq, Tables.catalogue, lookup_keyed]
    rfl
  found ns hns s := namespace?_eq_some_iff hns
  named := paths_build edits
  distinct := nodup_paths edits
  finished m h s := by
    obtain ⟨-, rfl⟩ := finish_eq_ok_iff.mp h
    rfl

end Builder

end Remoting
