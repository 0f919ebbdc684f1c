import Remoting.Schema.Type
import Remoting.Schema.Unseen

/-!
# Remoting.Schema.Check

The rules that the types of a model obey: members of a type have different names, references lead
to types, elements are not void, prerequisites are interfaces, and no interface needs itself.

`checkShape` looks at one type. `findCycle` searches the prerequisites depth first and gives the
first cycle that it meets.
-/

namespace Remoting.Schema

/-! ## The shape of a type -/

/-- The first entry whose key came before, in the list or in `seen`. -/
def firstRepeat [DecidableEq β] (key : α → β) (seen : List β) : List α → Option α
  | [] => none
  | a :: as => if key a ∈ seen then some a else firstRepeat key (key a :: seen) as

/-- Names must differ. -/
def checkDistinct (owner : TypeInfo) (names : List String) : Except SchemaError Unit :=
  match firstRepeat id [] names with
  | some name => .error (.duplicateMember owner.qualifiedName name)
  | none => .ok ()

/-- A reference must lead to one of the types. -/
def checkReference (types : List TypeInfo) (owner : TypeInfo) (id : TypeId) :
    Except SchemaError Unit :=
  if id.index < types.length then .ok ()
  else .error (.danglingReference id owner.qualifiedName)

/-- A prerequisite must be an interface. -/
def checkPrerequisite (types : List TypeInfo) (owner : TypeInfo) (id : TypeId) :
    Except SchemaError Unit :=
  match types[id.index]? with
  | none => .error (.danglingReference id owner.qualifiedName)
  | some info =>
    if info.isInterface then .ok () else .error (.wrongKind info.qualifiedName .interface)

/-- The rules for a signature. -/
def checkSignature (types : List TypeInfo) (owner : TypeInfo) (s : Signature) :
    Except SchemaError Unit := do
  checkDistinct owner (s.parameters.map (·.ident))
  s.parameters.forM fun p => checkReference types owner p.type
  checkReference types owner s.result

/-- The rules for one type. -/
def checkShape (types : List TypeInfo) (info : TypeInfo) : Except SchemaError Unit :=
  match info.kind with
  | .void | .bool | .int | .float | .string | .any => .ok ()
  | .enum values => do
    checkDistinct info (values.map (·.ident))
    match firstRepeat EnumValue.ordinal [] values with
    | some v => .error (.duplicateOrdinal info.qualifiedName v.ident v.ordinal)
    | none => .ok ()
  | .record slots => do
    checkDistinct info (slots.map (·.ident))
    slots.forM fun s => checkReference types info s.type
  | .sequence element => do
    checkReference types info element.type
    if element.type = .void then .error (.voidElement info.qualifiedName) else .ok ()
  | .function signature => checkSignature types info signature
  | .interface members => do
    members.prerequisites.forM (checkPrerequisite types info)
    checkDistinct info members.memberNames
    members.properties.forM fun s => checkReference types info s.type
    (members.methods ++ members.signals).forM fun m => checkSignature types info m.signature

/-! ## Cycles -/

/-- The prerequisites of the type with the given number; a number without a type has none. -/
def prerequisitesOf (types : List TypeInfo) (id : TypeId) : List TypeId :=
  match types[id.index]? with
  | some info => info.prerequisites
  | none => []

mutual

/-- Search from one type. `path` holds the types that lead to it, the last one first, and `done`
those from which no cycle can be reached. The answer is the new `done`, or a cycle. -/
def visit (types : List TypeInfo) (path done : List TypeId) (id : TypeId) :
    Except (List TypeId) (List TypeId) :=
  if id ∈ done then .ok done
  else if _ : id ∈ path then .error (id :: (path.takeWhile (· ≠ id)).reverse ++ [id])
  else if _ : id.index < types.length then
    (visitEach types (id :: path) done (prerequisitesOf types id)).map (id :: ·)
  else .ok done
termination_by (unseen types.length path, 0)
decreasing_by
  exact Prod.Lex.left _ _ (unseen_cons_lt ‹_› ‹_›)

/-- Search from several types, one after another. -/
def visitEach (types : List TypeInfo) (path done : List TypeId) :
    List TypeId → Except (List TypeId) (List TypeId)
  | [] => .ok done
  | id :: ids =>
    match visit types path done id with
    | .error cycle => .error cycle
    | .ok done => visitEach types path done ids
termination_by ids => (unseen types.length path, ids.length + 1)
decreasing_by
  · exact Prod.Lex.right _ (by simp)
  · exact Prod.Lex.right _ (by simp)

end

/-- The first cycle of prerequisites, if there is one; its first type stands at the end again. -/
def findCycle (types : List TypeInfo) : Option (List TypeId) :=
  match visitEach types [] [] ((List.range types.length).map TypeId.mk) with
  | .error cycle => some cycle
  | .ok _ => none

/-- The name of the type with the given number. -/
def nameOf (types : List TypeInfo) (id : TypeId) : String :=
  match types[id.index]? with
  | some info => info.qualifiedName
  | none => id.render

/-- No interface may need itself. -/
def checkAcyclic (types : List TypeInfo) : Except SchemaError Unit :=
  match findCycle types with
  | some cycle => .error (.cycle (cycle.map (nameOf types)))
  | none => .ok ()

end Remoting.Schema
