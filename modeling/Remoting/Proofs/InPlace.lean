import Remoting.Proofs.Building

/-!
# Remoting.Proofs.InPlace

Building in place. Here a builder is kept in tables, one for the types, one for whether they are
defined, and one for the namespaces, and edits change the tables step by step. A step that fails
ends its edit, and what the steps before it have changed stays.

Still an edit that is refused leaves no trace: a namespace that was opened for a name cannot refuse
the name, and a type that was just declared can be defined. So edits in place do to the tables what
they do to the builder as a whole (`Builder.perform_tables`, `Tables.after_eq`).
-/

namespace Remoting

/-- A builder, laid out in tables. -/
structure Tables where
  types : List TypeInfo
  defined : List Bool
  namespaces : List Namespace
  deriving DecidableEq, Repr

/-- Bind a name in the namespace with the given written path. -/
def Schema.insertAt (path name : String) (binding : Binding) :
    List Namespace → Except SchemaError (List Namespace)
  | [] => .ok []
  | ns :: rest =>
    if ns.name = path then (ns.bind name binding).map (· :: rest)
    else (insertAt path name binding rest).map (ns :: ·)

/-! ## Edits step by step

An edit gives its answer together with the tables as they are when it ends, also when it fails. -/

namespace Tables

/-- Open a namespace. -/
def openNamespace (t : Tables) (path : String) : Tables :=
  { t with namespaces := Schema.openAt (Schema.splitPath path) t.namespaces }

/-- Open a namespace, and then bind a name in it. -/
def bind (t : Tables) (path name : String) (binding : Binding) :
    Except SchemaError Unit × Tables :=
  let t := t.openNamespace path
  match Schema.insertAt (Schema.joinPath (Schema.splitPath path)) name binding t.namespaces with
  | .ok namespaces => (.ok (), { t with namespaces })
  | .error e => (.error e, t)

/-- Bind the name of a type, then append the type, and then append that it is not defined. -/
def declare (t : Tables) (path name : String) (storage : Storage) :
    Except SchemaError TypeId × Tables :=
  let id : TypeId := ⟨t.types.length⟩
  match t.bind path name (.type id) with
  | (.error e, t) => (.error e, t)
  | (.ok (), t) =>
    let info : TypeInfo := ⟨name, Schema.splitPath path, .placeholder storage⟩
    let t := { t with types := t.types ++ [info] }
    let t := { t with defined := t.defined ++ [false] }
    (.ok id, t)

/-- Look a type up in both tables, then change it, and then note that it is defined. -/
def define (t : Tables) (id : TypeId) (kind : TypeKind) : Except SchemaError Unit × Tables :=
  match t.types[id.index]?, t.defined[id.index]? with
  | none, _ => (.error (.unknownType id), t)
  | some _, none => (.error (.absent id), t)
  | some info, some true => (.error (.duplicate (Schema.joinPath info.path) info.name), t)
  | some info, some false =>
    if info.storage = kind.storage then
      let t := { t with types := t.types.set id.index { info with kind } }
      let t := { t with defined := t.defined.set id.index true }
      (.ok (), t)
    else (.error (.wrongKind info.qualifiedName info.storage), t)

/-- Declare a type, and then define it. -/
def add (t : Tables) (path name : String) (kind : TypeKind) : Except SchemaError TypeId × Tables :=
  match t.declare path name kind.storage with
  | (.error e, t) => (.error e, t)
  | (.ok id, t) =>
    match t.define id kind with
    | (.error e, t) => (.error e, t)
    | (.ok (), t) => (.ok id, t)

/-- An edit. The answer is the number of the type that it declares, if any. -/
def perform (t : Tables) : Edit → Except SchemaError (Option TypeId) × Tables
  | .openNamespace path => (.ok none, t.openNamespace path)
  | .bind path name binding => (t.bind path name binding).map (·.map fun _ => none) id
  | .declare path name storage => (t.declare path name storage).map (·.map some) id
  | .define type kind => (t.define type kind).map (·.map fun _ => none) id
  | .add path name kind => (t.add path name kind).map (·.map some) id

end Tables

/-! ## Namespaces -/

namespace Schema

variable {path : List String} {name : String} {binding : Binding}

/-- To bind a name is to open the namespace and then to bind the name in it. -/
theorem bindAt_eq_insertAt (spaces : List Namespace) :
    bindAt path name binding spaces =
      insertAt (joinPath path) name binding (openAt path spaces) := by
  induction spaces with
  | nil =>
    simp only [bindAt, openAt, insertAt, Namespace.name, if_true]
    rfl
  | cons ns rest ih =>
    by_cases hname : ns.name = joinPath path
    · simp only [bindAt, openAt, hname, if_true, insertAt]
      rfl
    · simp only [bindAt, openAt, hname, if_false, insertAt, ih]
      rfl

/-- A namespace that refuses a name was there before. -/
theorem openAt_eq_of_insertAt_error {spaces : List Namespace} {e : SchemaError}
    (h : insertAt (joinPath path) name binding (openAt path spaces) = .error e) :
    openAt path spaces = spaces := by
  induction spaces generalizing e with
  | nil =>
    have hbind : (Namespace.mk path []).bind name binding =
        .ok ⟨path, [(name, binding)]⟩ := rfl
    simp [openAt, insertAt, Namespace.name, hbind, Except.map] at h
  | cons ns rest ih =>
    by_cases hname : ns.name = joinPath path
    · simp [openAt, hname]
    · simp only [openAt, hname, if_false, insertAt] at h ⊢
      cases hrest : insertAt (joinPath path) name binding (openAt path rest) with
      | ok spaces =>
        rw [hrest] at h
        contradiction
      | error e' => rw [ih hrest]

end Schema

/-! ## All or nothing -/

namespace Builder

variable (b : Builder)

/-- The tables of a builder. -/
def tables (b : Builder) : Tables := ⟨b.types, b.declarations.map (·.defined), b.namespaces⟩

/-- The answer and the tables after something that is done to a builder as a whole or not at all. -/
def settle (b : Builder) : Except SchemaError (α × Builder) → Except SchemaError α × Tables
  | .ok x => (.ok x.1, x.2.tables)
  | .error e => (.error e, b.tables)

theorem bind_tables (path name : String) (binding : Binding) :
    b.tables.bind path name binding =
      b.settle ((b.bind path name binding).map fun b' => ((), b')) := by
  have hbind : b.bind path name binding =
      (Schema.insertAt (Schema.joinPath (Schema.splitPath path)) name binding
        (Schema.openAt (Schema.splitPath path) b.namespaces)).map
          fun namespaces => { b with namespaces } := by
    rw [Builder.bind, Schema.bindAt_eq_insertAt]
    rfl
  rw [hbind]
  cases hinsert : Schema.insertAt (Schema.joinPath (Schema.splitPath path)) name binding
      (Schema.openAt (Schema.splitPath path) b.namespaces) with
  | ok namespaces =>
    simp [Tables.bind, Tables.openNamespace, tables, settle, hinsert, Except.map]
    rfl
  | error e =>
    have hopen := Schema.openAt_eq_of_insertAt_error hinsert
    rw [hopen] at hinsert
    simp [Tables.bind, Tables.openNamespace, tables, settle, hopen, hinsert, Except.map]

theorem declare_tables (path name : String) (storage : Storage) :
    b.tables.declare path name storage = b.settle (b.declare path name storage) := by
  have hlength : b.tables.types.length = b.declarations.length := by simp [tables, types]
  rw [Tables.declare, bind_tables, hlength, Builder.declare]
  cases hbind : b.bind path name (.type ⟨b.declarations.length⟩) with
  | ok b' =>
    simp [settle, tables, types, Except.map, Bind.bind, Except.bind, pure, Except.pure]
  | error e => rfl

theorem define_tables (id : TypeId) (kind : TypeKind) :
    b.tables.define id kind = b.settle ((b.define id kind).map fun b' => ((), b')) := by
  simp only [Tables.define, Builder.define, tables, types, List.getElem?_map]
  cases b.declarations[id.index]? with
  | none => rfl
  | some d =>
    cases hdefined : d.defined with
    | true => simp [settle, Except.map, tables, types, hdefined]
    | false =>
      by_cases hstorage : d.info.storage = kind.storage <;>
        simp [settle, Except.map, hdefined, hstorage, tables, types]

/-- A type that was just declared can be defined. -/
theorem define_of_declare {b b' : Builder} {path name : String} {kind : TypeKind} {id : TypeId}
    (h : b.declare path name kind.storage = .ok (id, b')) :
    b'.define id kind = .ok { b' with
      declarations := b.declarations ++ [⟨⟨name, Schema.splitPath path, kind⟩, true⟩] } := by
  obtain ⟨rfl, hdeclarations⟩ := declarations_of_declare h
  simp [define, hdeclarations, TypeInfo.storage]

theorem add_tables (path name : String) (kind : TypeKind) :
    b.tables.add path name kind = b.settle (b.add path name kind) := by
  rw [Tables.add, declare_tables, Builder.add]
  cases hdeclare : b.declare path name kind.storage with
  | error e => rfl
  | ok x =>
    have hdefine := define_of_declare hdeclare
    simp [settle, define_tables, hdefine, Bind.bind, Except.bind, Except.map, pure, Except.pure]

/-- What an edit answers, and what it makes of a builder. -/
def request (b : Builder) : Edit → Except SchemaError (Option TypeId × Builder)
  | .openNamespace path => .ok (none, b.openNamespace path)
  | .bind path name binding => (b.bind path name binding).map fun b' => (none, b')
  | .declare path name storage => (b.declare path name storage).map fun x => (some x.1, x.2)
  | .define id kind => (b.define id kind).map fun b' => (none, b')
  | .add path name kind => (b.add path name kind).map fun x => (some x.1, x.2)

/-- What an edit answers. -/
def answer (b : Builder) (e : Edit) : Except SchemaError (Option TypeId) := (b.request e).map (·.1)

theorem map_snd_request (e : Edit) : (b.request e).map (·.2) = b.tryEdit e := by
  cases e with
  | openNamespace path => rfl
  | bind path name binding =>
    simp only [request, tryEdit]
    cases b.bind path name binding <;> rfl
  | declare path name storage =>
    simp only [request, tryEdit]
    cases b.declare path name storage <;> rfl
  | define id kind =>
    simp only [request, tryEdit]
    cases b.define id kind <;> rfl
  | add path name kind =>
    simp only [request, tryEdit]
    cases b.add path name kind <;> rfl

theorem settle_request (e : Edit) : b.settle (b.request e) = (b.answer e, (b.edit e).tables) := by
  rw [answer, edit, ← map_snd_request]
  cases b.request e <;> rfl

theorem settle_map (r : Except SchemaError (α × Builder)) (f : α → β) :
    (b.settle r).map (·.map f) id = b.settle (r.map fun x => (f x.1, x.2)) := by
  cases r <;> rfl

theorem settle_map_unit (r : Except SchemaError Builder) (x : α) :
    (b.settle (r.map fun b' => ((), b'))).map (·.map fun _ => x) id =
      b.settle (r.map fun b' => (x, b')) := by
  cases r <;> rfl

/-- An edit in place gives the same answer as an edit of the builder, and the tables of what becomes
of the builder. -/
theorem perform_tables (e : Edit) : b.tables.perform e = (b.answer e, (b.edit e).tables) := by
  rw [← settle_request]
  cases e with
  | openNamespace path => rfl
  | bind path name binding => rw [Tables.perform, bind_tables, settle_map_unit, request]
  | declare path name storage => rw [Tables.perform, declare_tables, settle_map, request]
  | define id kind => rw [Tables.perform, define_tables, settle_map_unit, request]
  | add path name kind => rw [Tables.perform, add_tables, settle_map, request]

end Builder

/-! ## One edit after another -/

namespace Tables

/-- The tables after one edit after the other, from the beginning. -/
def after (edits : List Edit) : Tables :=
  edits.foldl (fun t e => (t.perform e).2) Builder.initial.tables

/-- The tables are at any time those of the builder. -/
theorem after_eq (edits : List Edit) : after edits = (Builder.build edits).tables := by
  have hfoldl (b : Builder) : edits.foldl (fun t e => (t.perform e).2) b.tables =
      (edits.foldl Builder.edit b).tables := by
    induction edits generalizing b with
    | nil => rfl
    | cons e edits ih => rw [List.foldl_cons, Builder.perform_tables, ih, List.foldl_cons]
  exact hfoldl Builder.initial

end Tables

end Remoting
