import Remoting.Schema.Fingerprint

/-!
# Remoting.Host.Registry

Handlers by the digest of their operation. Handlers are collected first; sealing the registry ends
that, and only a sealed registry is asked for handlers.
-/

namespace Remoting

/-- Why a handler cannot be registered or looked up. -/
inductive RegistryError where
  /-- The digest has a handler. -/
  | collision (digest : Digest) (existing incoming : String)
  /-- The registry takes no handlers any more. -/
  | closedToHandlers
  /-- The registry still takes handlers. -/
  | stillCollecting
  /-- The operation has no digest. -/
  | schema (error : SchemaError)
  deriving DecidableEq, Repr

/-- The wording of a cause. -/
def RegistryError.message : RegistryError → String
  | .collision digest existing incoming =>
    "digest " ++ digest.render ++ " registered twice: " ++ existing ++ " and " ++ incoming
  | .closedToHandlers => "registry is sealed"
  | .stillCollecting => "registry is still collecting handlers"
  | .schema error => error.message

/-- A handler under the digest of its operation, with a name for messages. -/
structure Registered (η : Type) where
  digest : Digest
  name : String
  handler : η

/-- Handlers by digest, in the order of their registration. -/
structure Registry (η : Type) where
  entries : List (Registered η) := []
  /-- Whether the registry is sealed. -/
  serving : Bool := false

namespace Registry

variable {η : Type}

/-- What is registered under a digest. -/
def find? (r : Registry η) (digest : Digest) : Option (Registered η) :=
  r.entries.find? (·.digest == digest)

/-- The number of handlers. -/
def size (r : Registry η) : Nat := r.entries.length

/-- The name of the operation with the given digest. -/
def nameOf? (r : Registry η) (digest : Digest) : Option String := (r.find? digest).map (·.name)

/-- Register a handler under a digest. -/
def register (r : Registry η) (digest : Digest) (name : String) (handler : η) :
    Except RegistryError (Registry η) :=
  if r.serving then .error .closedToHandlers
  else
    match r.find? digest with
    | some existing => .error (.collision digest existing.name name)
    | none => .ok { r with entries := r.entries ++ [⟨digest, name, handler⟩] }

/-- Register the handler that answers the question for an object's types. -/
def registerTypeList (r : Registry η) (m : Model) (handler : η) :
    Except RegistryError (Digest × Registry η) := do
  let digest ← m.typeListDigest.mapError .schema
  return (digest, ← r.register digest "type list" handler)

/-- Register the handler of a member of an interface. -/
def registerMember (r : Registry η) (m : Model) (interface : TypeId) (role : Role)
    (member : String) (handler : η) : Except RegistryError (Digest × Registry η) := do
  let digest ← (m.memberDigest role interface member).mapError .schema
  let info ← (m.type interface).mapError .schema
  let name := (Operation.mk role info.qualifiedName member digest).render
  return (digest, ← r.register digest name handler)

/-- Register handlers of an interface one after another, up to the first that fails. Those before
it stay registered. -/
def registerInterface (r : Registry η) (m : Model) (interface : TypeId) :
    List (Role × String × η) → Except RegistryError (List Digest) × Registry η
  | [] => (.ok [], r)
  | (role, member, handler) :: rest =>
    match r.registerMember m interface role member handler with
    | .error e => (.error e, r)
    | .ok (digest, r) =>
      let (result, r) := r.registerInterface m interface rest
      (result.map (digest :: ·), r)

/-- End the collection of handlers. The answer is how many there are. -/
def close (r : Registry η) : Except RegistryError (Nat × Registry η) :=
  if r.serving then .error .closedToHandlers else .ok (r.size, { r with serving := true })

/-- The handler of an operation. -/
def lookup (r : Registry η) (digest : Digest) : Except RegistryError (Option η) :=
  if r.serving then .ok ((r.find? digest).map (·.handler)) else .error .stillCollecting

/-- The registry as text. -/
def render (r : Registry η) : String :=
  "MethodRegistry \x7b phase: " ++ (if r.serving then "Serving" else "Collecting") ++
    ", operations: " ++ toString r.size ++ " \x7d"

end Registry

end Remoting
