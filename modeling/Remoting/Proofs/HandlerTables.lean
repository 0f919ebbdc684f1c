import Remoting.Host.Registry
import Remoting.Proofs.Fallible

/-!
# Remoting.Proofs.HandlerTables

A registry in two tables. Here handlers are collected in one table, sealing moves them to another
one, and a flag says which of the two phases has been reached. Registering looks at the flag and at
the first table, and looking up at the second one; every action changes the tables in place and ends
with its first failure, and what it has changed before that stays.

Both tables together are never more than one list of handlers: the actions do to the tables what
they do to a `Registry`, and they are answered in the same way (`HandlerTables.perform_tables`).
-/

namespace Remoting

/-- Something that is done with a registry, or asked of it. -/
inductive RegistryAction (η : Type) where
  | register (digest : Digest) (name : String) (handler : η)
  | registerMember (m : Model) (interface : TypeId) (role : Role) (member : String) (handler : η)
  | registerInterface (m : Model) (interface : TypeId) (handlers : List (Role × String × η))
  | registerTypeList (m : Model) (handler : η)
  | close
  | lookup (digest : Digest)
  | nameOf (digest : Digest)
  | size

/-- What is answered to an action. -/
inductive RegistryAnswer (η : Type) where
  | done
  | digest (digest : Digest)
  | digests (digests : List Digest)
  | count (n : Nat)
  | handler (handler? : Option η)
  | name (name? : Option String)
  | failed (error : RegistryError)

variable {η α : Type}

/-- The answer that tells a result. -/
def RegistryAnswer.telling (tell : α → RegistryAnswer η) : Except RegistryError α → RegistryAnswer η
  | .ok a => tell a
  | .error e => .failed e

/-! ## Actions on registries -/

namespace Registry

/-- What comes of an action that gives a new registry or fails. -/
def settle (r : Registry η) (tell : α → RegistryAnswer η)
    (result : Except RegistryError (α × Registry η)) : RegistryAnswer η × Registry η :=
  match result with
  | .ok (a, r') => (tell a, r')
  | .error e => (.failed e, r)

/-- What comes of an action. -/
def act (r : Registry η) : RegistryAction η → RegistryAnswer η × Registry η
  | .register digest name handler =>
    r.settle (fun _ => .done) ((r.register digest name handler).map ((), ·))
  | .registerMember m interface role member handler =>
    r.settle .digest (r.registerMember m interface role member handler)
  | .registerInterface m interface handlers =>
    (r.registerInterface m interface handlers).map (.telling .digests) id
  | .registerTypeList m handler => r.settle .digest (r.registerTypeList m handler)
  | .close => r.settle .count r.close
  | .lookup digest => (.telling .handler (r.lookup digest), r)
  | .nameOf digest => (.name (r.nameOf? digest), r)
  | .size => (.count r.size, r)

end Registry

/-! ## Actions on tables -/

/-- A registry, laid out in tables. -/
structure HandlerTables (η : Type) where
  /-- Whether the phase of collecting is over. -/
  sealed : Bool := false
  collecting : List (Registered η) := []
  serving : Option (List (Registered η)) := none

namespace HandlerTables

/-- The entry of a table under a digest. -/
def ofDigest? (table : List (Registered η)) (digest : Digest) : Option (Registered η) :=
  table.find? (·.digest == digest)

/-- Look at the phase, then for the digest, and then add the handler. -/
def register (t : HandlerTables η) (digest : Digest) (name : String) (handler : η) :
    Except RegistryError Unit × HandlerTables η :=
  if t.sealed then (.error .closedToHandlers, t)
  else
    match ofDigest? t.collecting digest with
    | some existing => (.error (.collision digest existing.name name), t)
    | none => (.ok (), { t with collecting := t.collecting ++ [⟨digest, name, handler⟩] })

/-- Compute a digest and a name, and then register the handler under them. -/
def registerUnder (t : HandlerTables η) (under : Except SchemaError (Digest × String))
    (handler : η) : Except RegistryError Digest × HandlerTables η :=
  match under with
  | .error e => (.error (.schema e), t)
  | .ok (digest, name) =>
    match t.register digest name handler with
    | (.error e, t) => (.error e, t)
    | (.ok (), t) => (.ok digest, t)

/-- The digest and the name of the question for an object's types. -/
def typeListName (m : Model) : Except SchemaError (Digest × String) :=
  m.typeListDigest.map fun digest => (digest, "type list")

/-- The digest and the name of a member of an interface in a role. -/
def memberName (m : Model) (interface : TypeId) (role : Role) (member : String) :
    Except SchemaError (Digest × String) := do
  let digest ← m.memberDigest role interface member
  let info ← m.type interface
  return (digest, (Operation.mk role info.qualifiedName member digest).render)

/-- Register handlers of members one after another, up to the first that fails. -/
def registerInterface (t : HandlerTables η) (m : Model) (interface : TypeId) :
    List (Role × String × η) → Except RegistryError (List Digest) × HandlerTables η
  | [] => (.ok [], t)
  | (role, member, handler) :: rest =>
    match t.registerUnder (memberName m interface role member) handler with
    | (.error e, t) => (.error e, t)
    | (.ok digest, t) => (t.registerInterface m interface rest).map (·.map (digest :: ·)) id

/-- Move the handlers to the table that is served from, and then change the phase. -/
def close (t : HandlerTables η) : Except RegistryError Nat × HandlerTables η :=
  if t.sealed then (.error .closedToHandlers, t)
  else
    match t.serving with
    | some _ => (.error .closedToHandlers, t)
    | none =>
      let t := { t with serving := some t.collecting }
      let count := t.collecting.length
      let t := { t with collecting := [] }
      (.ok count, { t with sealed := true })

/-- The handler of an operation. -/
def lookup (t : HandlerTables η) (digest : Digest) : Except RegistryError (Option η) :=
  match t.serving with
  | none => .error .stillCollecting
  | some table => .ok ((ofDigest? table digest).map (·.handler))

/-- The table that names and numbers are taken from. -/
def current (t : HandlerTables η) : List (Registered η) :=
  match t.serving with
  | some table => table
  | none => t.collecting

/-- What comes of an action. -/
def perform (t : HandlerTables η) : RegistryAction η → RegistryAnswer η × HandlerTables η
  | .register digest name handler =>
    (t.register digest name handler).map (.telling fun _ => .done) id
  | .registerMember m interface role member handler =>
    (t.registerUnder (memberName m interface role member) handler).map (.telling .digest) id
  | .registerInterface m interface handlers =>
    (t.registerInterface m interface handlers).map (.telling .digests) id
  | .registerTypeList m handler =>
    (t.registerUnder (typeListName m) handler).map (.telling .digest) id
  | .close => t.close.map (.telling .count) id
  | .lookup digest => (.telling .handler (t.lookup digest), t)
  | .nameOf digest => (.name ((ofDigest? t.current digest).map (·.name)), t)
  | .size => (.count t.current.length, t)

end HandlerTables

/-! ## Tables of registries -/

/-- The tables of a registry. -/
def Registry.tables (r : Registry η) : HandlerTables η :=
  if r.serving then { sealed := true, serving := some r.entries }
  else { collecting := r.entries }

/-- What comes of an action that gives a new registry or fails, with the registry in tables. -/
def Registry.inTables (r : Registry η) :
    Except RegistryError (α × Registry η) → Except RegistryError α × HandlerTables η
  | .ok (a, r') => (.ok a, r'.tables)
  | .error e => (.error e, r.tables)

namespace HandlerTables

variable (r : Registry η)

/-- An action in tables is settled like the one on registries. -/
theorem map_inTables (tell : α → RegistryAnswer η)
    (result : Except RegistryError (α × Registry η)) :
    (r.inTables result).map (.telling tell) id =
      (r.settle tell result).map id Registry.tables := by
  cases result <;> rfl

/-- Registering in the tables is registering. -/
theorem register_tables (digest : Digest) (name : String) (handler : η) :
    r.tables.register digest name handler =
      r.inTables ((r.register digest name handler).map ((), ·)) := by
  unfold register Registry.register Registry.tables Registry.find? ofDigest?
  cases hserving : r.serving with
  | true => simp [Except.map, Registry.inTables, Registry.tables, hserving]
  | false =>
    cases hfind : r.entries.find? (·.digest == digest) with
    | some existing => simp [hfind, Except.map, Registry.inTables, Registry.tables, hserving]
    | none => simp [hfind, Except.map, Registry.inTables, Registry.tables]

/-- Registering under a digest and a name that have to be computed first. -/
theorem registerUnder_tables (under : Except SchemaError (Digest × String)) (handler : η) :
    r.tables.registerUnder under handler =
      r.inTables (do
        let x ← under.mapError .schema
        return (x.1, ← r.register x.1 x.2 handler)) := by
  cases under with
  | error e => rfl
  | ok x =>
    simp only [registerUnder, register_tables, Except.mapError, bind, Except.bind]
    cases r.register x.1 x.2 handler <;> rfl

/-- Registering a member in the tables is registering it. -/
theorem registerMember_tables (m : Model) (interface : TypeId) (role : Role) (member : String)
    (handler : η) :
    r.tables.registerUnder (memberName m interface role member) handler =
      r.inTables (r.registerMember m interface role member handler) := by
  rw [registerUnder_tables, memberName, Registry.registerMember]
  cases m.memberDigest role interface member with
  | error e => rfl
  | ok digest => cases m.type interface <;> rfl

/-- So it is for the question for types. -/
theorem registerTypeList_tables (m : Model) (handler : η) :
    r.tables.registerUnder (typeListName m) handler =
      r.inTables (r.registerTypeList m handler) := by
  rw [registerUnder_tables, typeListName, Registry.registerTypeList]
  cases m.typeListDigest <;> rfl

/-- So it is for the members of an interface. -/
theorem registerInterface_tables (m : Model) (interface : TypeId)
    (handlers : List (Role × String × η)) :
    r.tables.registerInterface m interface handlers =
      (r.registerInterface m interface handlers).map id Registry.tables := by
  induction handlers generalizing r with
  | nil => rfl
  | cons x rest ih =>
    rw [registerInterface, registerMember_tables, Registry.registerInterface]
    cases r.registerMember m interface x.1 x.2.1 x.2.2 with
    | error e => rfl
    | ok added =>
      simp only [Registry.inTables, ih]
      rfl

/-- Sealing the tables is sealing the registry. -/
theorem close_tables : r.tables.close = r.inTables r.close := by
  unfold close Registry.close Registry.tables
  cases hserving : r.serving <;>
    simp [Registry.inTables, Registry.tables, Registry.size, hserving]

theorem current_tables : r.tables.current = r.entries := by
  unfold current Registry.tables
  cases r.serving <;> rfl

/-- The tables find what the registry finds. -/
theorem lookup_tables (digest : Digest) : r.tables.lookup digest = r.lookup digest := by
  unfold lookup Registry.lookup Registry.tables
  cases r.serving <;> rfl

/-- An action does to the tables of a registry what it does to the registry, and gets the same
answer. -/
theorem perform_tables (a : RegistryAction η) :
    r.tables.perform a = (r.act a).map id Registry.tables := by
  cases a with
  | register digest name handler => rw [perform, register_tables, map_inTables]; rfl
  | registerMember m interface role member handler =>
    rw [perform, registerMember_tables, map_inTables]
    rfl
  | registerInterface m interface handlers =>
    rw [perform, registerInterface_tables]
    rfl
  | registerTypeList m handler => rw [perform, registerTypeList_tables, map_inTables]; rfl
  | close => rw [perform, close_tables, map_inTables]; rfl
  | lookup digest => rw [perform, lookup_tables]; rfl
  | nameOf digest => rw [perform, current_tables]; rfl
  | size => rw [perform, current_tables]; rfl

end HandlerTables

end Remoting
