import Remoting.JsonText.Tree
import Remoting.Schema.Type
import Remoting.Settings

/-!
# Remoting.JsonText.Codec

What has a JSON text: identifiers, digests, names of kinds, faults, operations, constants and
settings. Records are written with their keys in a fixed order and read in any order.
-/

namespace Remoting.JsonText

/-- Values with a JSON text. -/
class Codec (α : Type) where
  /-- The value that a tree says. -/
  read? : Tree → Option α
  /-- The text of a value. -/
  write : α → String

/-- The text of a value in the form in which it is written. -/
def normalize? (α : Type) [Codec α] (text : String) : Option String :=
  ((parse? text).bind (Codec.read? (α := α))).map Codec.write

/-! ## Words and texts -/

/-- A whole number below a bound. -/
def natBelow? (bound : Nat) : Tree → Option Nat
  | .number n => n.toNatBelow? bound
  | _ => none

instance : Codec UInt64 :=
  ⟨fun t => (natBelow? UInt64.size t).map .ofNat, fun w => toString w.toNat⟩

instance : Codec UInt16 :=
  ⟨fun t => (natBelow? UInt16.size t).map .ofNat, fun w => toString w.toNat⟩

instance : Codec String := ⟨Tree.text?, quote⟩

/-- The value of a key that must be there. -/
def required [Codec α] : Option Tree → Option α
  | some t => Codec.read? t
  | none => none

/-- The value of a key that may be missing. -/
def orDefault [Codec α] (fallback : α) : Option Tree → Option α
  | some t => Codec.read? t
  | none => some fallback

/-- The value of a key that may be missing or null. -/
def optional [Codec α] : Option Tree → Option (Option α)
  | some .null | none => some none
  | some t => (Codec.read? t).map some

/-! ## Identifiers and digests -/

instance : Codec ObjectId := ⟨fun t => (Codec.read? t).map ObjectId.mk, fun i => Codec.write i.val⟩

instance : Codec CallId := ⟨fun t => (Codec.read? t).map CallId.mk, fun i => Codec.write i.val⟩

instance : Codec ConnectionId :=
  ⟨fun t => (Codec.read? t).map ConnectionId.mk, fun i => Codec.write i.val⟩

instance : Codec TypeId :=
  ⟨fun t => (natBelow? UInt32.size t).map TypeId.mk, fun i => toString i.index⟩

instance : Codec Digest where
  read? t := do
    match ← t.record? ["hi", "lo"] false with
    | [hi, lo] => return ⟨← required hi, ← required lo⟩
    | _ => none
  write d := writeRecord [("hi", Codec.write d.hi), ("lo", Codec.write d.lo)]

/-! ## Names -/

/-- The one of several values that a tree names. -/
def named? (all : List α) (name : α → String) (t : Tree) : Option α :=
  t.name?.bind fun s => all.find? (name · == s)

instance : Codec FaultCode := ⟨named? FaultCode.all FaultCode.name, fun c => quote c.name⟩

instance : Codec Storage := ⟨named? Storage.all Storage.name, fun s => quote s.name⟩

instance : Codec MessageKind := ⟨named? MessageKind.all MessageKind.name, fun k => quote k.name⟩

instance : Codec Role := ⟨named? Role.all Role.key, fun r => quote r.key⟩

/-! ## Records -/

instance : Codec Fault where
  read? t := do
    match ← t.record? ["code", "message", "domain"] false with
    | [code, message, domain] => return ⟨← required code, ← required message, ← optional domain⟩
    | _ => none
  write f :=
    writeRecord ([("code", Codec.write f.code), ("message", Codec.write f.message)] ++
      match f.domain with
      | some domain => [("domain", Codec.write domain)]
      | none => [])

instance : Codec Operation where
  read? t := do
    match ← t.record? ["role", "interface", "member", "digest"] false with
    | [role, interface, member, digest] =>
      return ⟨← required role, ← required interface, ← required member, ← required digest⟩
    | _ => none
  write o :=
    writeRecord [("role", Codec.write o.role), ("interface", Codec.write o.interface),
      ("member", Codec.write o.member), ("digest", Codec.write o.digest)]

instance : Codec Constant where
  read? t := do
    match ← t.only? with
    | ("Int", .number n) => n.toInt64?.map .int
    | ("Float", .number n) => n.toFloat?.map .float
    | ("Str", t) => t.text?.map .text
    | _ => none
  write
    | .int i => writeRecord [("Int", toString i.toInt)]
    | .float bits => writeRecord [("Float", floatText bits)]
    | .text s => writeRecord [("Str", quote s)]

instance : Codec HostSettings where
  read? t := do
    let fallback : HostSettings := {}
    match ← t.record? ["port", "host", "max_in_flight", "max_frame_size"] true with
    | [port, address, inFlight, size] =>
      return ⟨← orDefault fallback.port port, ← orDefault fallback.address address,
        ← orDefault fallback.maxInFlight inFlight, ← orDefault fallback.maxFrameSize size⟩
    | _ => none
  write s :=
    writeRecord [("port", Codec.write s.port), ("host", Codec.write s.address),
      ("max_in_flight", Codec.write s.maxInFlight), ("max_frame_size", Codec.write s.maxFrameSize)]

instance : Codec ClientSettings where
  read? t := do
    let fallback : ClientSettings := {}
    match ← t.record? ["addr", "timeout_ms", "max_frame_size"] true with
    | [address, timeout, size] =>
      return ⟨← orDefault fallback.address address, ← orDefault fallback.timeout timeout,
        ← orDefault fallback.maxFrameSize size⟩
    | _ => none
  write s :=
    writeRecord [("addr", Codec.write s.address), ("timeout_ms", Codec.write s.timeout),
      ("max_frame_size", Codec.write s.maxFrameSize)]

end Remoting.JsonText
