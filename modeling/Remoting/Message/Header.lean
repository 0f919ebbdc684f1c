import Remoting.Field.Reader

/-!
# Remoting.Message.Header

The header of a message: its kind, the connection it was sent on, the object it concerns, the
digest of the operation, and the number that ties a response to its request. A header is written as
five fields; the first holds the kind in its top byte and the connection in its lowest two.
-/

namespace Remoting

/-- What stands before the payload of a message. -/
structure Header where
  kind : MessageKind
  connection : ConnectionId := ⟨0⟩
  target : ObjectId := .null
  digest : Digest := .zero
  callId : CallId := .none
  deriving DecidableEq, Repr, Inhabited

namespace Header

/-- The number of fields that every message starts with. -/
def fieldCount : Nat := 5

/-- Kind and connection in one word. -/
def word (h : Header) : UInt64 := h.kind.code.toUInt64 <<< 56 ||| h.connection.val.toUInt64

/-- The five fields of a header. -/
def fields (h : Header) : List Field :=
  [.int h.word.toInt64, .object h.target, .int h.digest.hi.toInt64, .int h.digest.lo.toInt64,
   .int h.callId.val.toInt64]

/-- Read a header from five fields. -/
def read : Reading Header := do
  let word ← Reading.word
  let code := (word >>> 56).toUInt8
  match MessageKind.ofCode? code with
  | none => throw (.unknownMessage code)
  | some kind =>
    let target ← Reading.object
    let hi ← Reading.word
    let lo ← Reading.word
    let callId ← Reading.word
    return ⟨kind, ⟨word.toUInt16⟩, target, ⟨hi, lo⟩, ⟨callId⟩⟩

/-- The header of an answer: all is kept but the kind. -/
def respond (h : Header) (kind : MessageKind) : Header := { h with kind := kind }

/-- The header as text. -/
def render (h : Header) : String :=
  h.kind.name ++ " target=" ++ toString h.target.val.toNat ++ " digest=" ++ h.digest.render ++
    " call=" ++ toString h.callId.val.toNat

end Header

end Remoting
