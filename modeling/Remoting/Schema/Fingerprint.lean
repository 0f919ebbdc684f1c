import Remoting.Digest.Sha256
import Remoting.Schema.Model
import Remoting.Schema.Unseen

/-!
# Remoting.Schema.Fingerprint

Digests of types and operations. What is digested is written as a list of tokens, of which every
one announces its kind and, where needed, its length; the digest is the first half of its SHA-256
hash. Two sides that were built apart agree on the digest of whatever they agree on.

The digest of a type takes in its storage class, its qualified name and its parts; parts count by
their own digests, and a part that is being digested already counts by its name. An interface
counts by its name alone. The digest of an operation takes in its role, the interface and member
it belongs to, and the types of its arguments and its result.
-/

namespace Remoting

/-! ## Tokens -/

/-- A token of what is digested. -/
inductive Token where
  | text (s : String)
  | digest (d : Digest)
  /-- A storage class. -/
  | storage (s : Storage)
  /-- A type that is being digested already, by its qualified name. -/
  | backReference (name : String)
  deriving DecidableEq, Repr

namespace Token

/-- A text after a byte that announces it and its length. -/
def announced (tag : UInt8) (s : String) : Bytes :=
  let bs := utf8 s
  tag :: bigEndian 4 bs.length ++ bs

/-- The bytes of a token. -/
def toBytes : Token → Bytes
  | .text s => announced 0x01 s
  | .digest d => 0x02 :: d.toBytes
  | .storage s => [0x03, s.tag]
  | .backReference name => announced 0x04 name

/-- The bytes of several tokens. -/
def bytes (ts : List Token) : Bytes := ts.flatMap toBytes

end Token

/-- The digest of a list of tokens. -/
def Digest.ofTokens (ts : List Token) : Digest := .ofBytes (Sha256.hash (Token.bytes ts))

/-! ## Types -/

/-- A piece of a type's structure: a text, or a reference to a type. -/
inductive StructurePart where
  | text (s : String)
  | member (type : TypeId)
  deriving DecidableEq, Repr

/-- A piece of structure, with texts and members seen through a view of each. -/
def StructurePart.seen (text : String → β) (member : TypeId → β) : StructurePart → β
  | .text s => text s
  | .member type => member type

/-- The structure of a type as far as it enters its digest. -/
def TypeKind.structureParts : TypeKind → List StructurePart
  | .enum values => values.flatMap fun v => [.text v.ident, .text (toString v.ordinal.toInt)]
  | .record slots => slots.flatMap fun s => [.text s.ident, .member s.type]
  | .sequence element => [.text element.ident, .member element.type]
  | .function s => s.parameters.map (fun p => .member p.type) ++ [.member s.result]
  | _ => []

/-- The tokens of a type, given those of its structure. -/
def TypeInfo.tokens (t : TypeInfo) (parts : List Token) : List Token :=
  .text "aida-type/1" :: .storage t.storage :: .text t.qualifiedName :: parts

namespace Model

/-- The token of a type inside another one; `active` holds the types that are being digested. -/
def memberToken (m : Model) (active : List TypeId) (id : TypeId) : Except SchemaError Token :=
  match _ : m.type? id with
  | none => .error (.absent id)
  | some info =>
    if _ : id ∈ active then .ok (.backReference info.qualifiedName)
    else do
      let parts ← info.kind.structureParts.mapM
        (StructurePart.seen (fun s => .ok (.text s)) fun type => memberToken m (id :: active) type)
      return .digest (.ofTokens (info.tokens parts))
termination_by Schema.unseen m.types.length active
decreasing_by
  exact Schema.unseen_cons_lt (List.getElem?_eq_some_iff.1 ‹_›).1 ‹_›

/-- The token of a piece of structure. -/
def partToken (m : Model) (active : List TypeId) : StructurePart → Except SchemaError Token :=
  StructurePart.seen (fun s => .ok (.text s)) (m.memberToken active)

/-- The tokens of a type that is digested inside those in `active`. -/
def typeTokens (m : Model) (active : List TypeId) (id : TypeId) :
    Except SchemaError (List Token) := do
  let info ← m.type id
  let parts ← info.kind.structureParts.mapM (m.partToken (id :: active))
  return info.tokens parts

/-- The digest of a type. -/
def typeDigest (m : Model) (id : TypeId) : Except SchemaError Digest := do
  return .ofTokens (← m.typeTokens [] id)

/-! ## Operations -/

/-- The tokens of an operation. -/
def operationTokens (role : Role) (interface member : String) (args : List Digest)
    (result : Digest) : List Token :=
  .text "aida-op/1" :: .text role.name :: .text interface :: .text member ::
    (args.map .digest ++ [.digest result])

/-- The digest of an operation with the given types of arguments and result. -/
def operationDigest (m : Model) (role : Role) (interface : TypeId) (member : String)
    (args : List TypeId) (result : TypeId) : Except SchemaError Digest := do
  let info ← m.type interface
  let args ← args.mapM m.typeDigest
  let result ← m.typeDigest result
  return .ofTokens (operationTokens role info.qualifiedName member args result)

/-- A member of an interface, found by `find?`. -/
def memberOf (m : Model) (interface : TypeId) (name : String)
    (find? : Interface → String → Option α) : Except SchemaError α := do
  let members ← m.interface interface
  match find? members name with
  | some a => return a
  | none => throw (.unknownMember (← m.type interface).qualifiedName name)

/-- The digest of a call of a method. -/
def methodDigest (m : Model) (interface : TypeId) (name : String) :
    Except SchemaError Digest := do
  let method ← m.memberOf interface name Interface.method?
  m.operationDigest .call interface name (method.signature.parameters.map (·.type))
    method.signature.result

/-- The digest of reading a property. -/
def getterDigest (m : Model) (interface : TypeId) (name : String) :
    Except SchemaError Digest := do
  let property ← m.memberOf interface name Interface.property?
  m.operationDigest .get interface name [] property.type

/-- The digest of writing a property. -/
def setterDigest (m : Model) (interface : TypeId) (name : String) :
    Except SchemaError Digest := do
  let property ← m.memberOf interface name Interface.property?
  m.operationDigest .set interface name [property.type] .void

/-- The digest of a subscription to a signal. -/
def connectDigest (m : Model) (interface : TypeId) (name : String) :
    Except SchemaError Digest := do
  let signal ← m.memberOf interface name Interface.signal?
  m.operationDigest .connect interface name (signal.signature.parameters.map (·.type))
    signal.signature.result

/-- The name of the question for an object's types. -/
def typeListMember : String := "__aida_typelist__"

/-- The digest of the question for an object's types. It belongs to the interface that every
object has, so it is the same for all objects. -/
def typeListDigest (m : Model) : Except SchemaError Digest :=
  m.operationDigest .typeList .implicitBase typeListMember [] .void

/-- The digest of a member of an interface in a role. -/
def memberDigest (m : Model) (role : Role) (interface : TypeId) (name : String) :
    Except SchemaError Digest :=
  match role with
  | .call => m.methodDigest interface name
  | .get => m.getterDigest interface name
  | .set => m.setterDigest interface name
  | .connect => m.connectDigest interface name
  | .typeList => m.typeListDigest

/-- The roles and members of an interface: methods, then reading and writing each property, then
signals; the interface that every object has also answers the question for types. -/
def memberRoles (interface : TypeId) (members : Interface) : List (Role × String) :=
  members.methods.map (fun x => (.call, x.name)) ++
    members.properties.flatMap (fun x => [(.get, x.ident), (.set, x.ident)]) ++
    members.signals.map (fun x => (.connect, x.name)) ++
    if interface = .implicitBase then [(.typeList, typeListMember)] else []

/-- The operations that an interface declares. -/
def operations (m : Model) (interface : TypeId) : Except SchemaError (List Operation) := do
  let members ← m.interface interface
  let info ← m.type interface
  (memberRoles interface members).mapM fun x => do
    return ⟨x.1, info.qualifiedName, x.2, ← m.memberDigest x.1 interface x.2⟩

/-- Operations added to those before them, as long as their digests differ. -/
def addDistinct (seen : List Operation) : List Operation → Except SchemaError (List Operation)
  | [] => .ok seen
  | op :: ops =>
    match seen.find? (·.digest = op.digest) with
    | some first => .error (.digestCollision first op)
    | none => addDistinct (seen ++ [op]) ops

/-- The operations of several interfaces, and of the one that every object has, if all their
digests differ. -/
def distinctOperations (m : Model) (interfaces : List TypeId) :
    Except SchemaError (List Operation) :=
  let targets :=
    if .implicitBase ∈ interfaces then interfaces else interfaces ++ [.implicitBase]
  targets.foldlM (fun seen id => do addDistinct seen (← m.operations id)) []

end Model

end Remoting
