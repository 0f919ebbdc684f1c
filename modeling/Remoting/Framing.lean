import Remoting.Fault
import Remoting.Field.Basic
import Remoting.Message.Kind

/-!
# Remoting.Framing

Why bytes are no fields, or fields no message: one cause per rule of the format, and its wording.
-/

namespace Remoting

/-- The part of a field list that the bytes ended in. -/
inductive Piece where
  /-- The number of fields. -/
  | count
  /-- The byte that announces a field. -/
  | tag
  /-- What a field of the kind holds. -/
  | payload (kind : FieldKind)
  deriving DecidableEq, Repr

/-- The name of a part in messages. -/
def Piece.name : Piece → String
  | .count => "field count"
  | .tag => "field tag"
  | .payload kind => kind.name

/-- Why bytes are no fields, or fields no message. -/
inductive FramingError where
  /-- The bytes end inside a part. -/
  | truncated (piece : Piece) (need present : Nat)
  /-- More fields are announced than the bytes can hold. -/
  | countExceedsSize (count : Nat)
  /-- A byte announces no kind of field. -/
  | unknownTag (tag : UInt8)
  /-- A truth value is neither zero nor one. -/
  | invalidBool (byte : UInt8)
  /-- A text is not UTF-8. -/
  | invalidUtf8
  /-- Fields are nested too deep. -/
  | tooDeep
  /-- Bytes follow the last field. -/
  | trailing (count : Nat)
  /-- There are fewer fields than a header needs. -/
  | tooFewFields (count need : Nat)
  /-- A field is missing. -/
  | missingField (expected : FieldKind) (position total : Nat)
  /-- A field is of another kind. -/
  | wrongKind (expected : FieldKind) (position : Nat) (found : FieldKind)
  /-- Fields are left that nobody read. -/
  | unread (remaining position : Nat)
  /-- A header names no kind of message. -/
  | unknownMessage (code : UInt8)
  /-- A message is no response. -/
  | notResponse (kind : MessageKind)
  deriving DecidableEq, Repr

namespace FramingError

/-- The wording of a cause. -/
def message : FramingError → String
  | .truncated piece need present =>
    "truncated " ++ piece.name ++ ": need " ++ toString need ++ " bytes, have " ++ toString present
  | .countExceedsSize count => "field count " ++ toString count ++ " exceeds frame size"
  | .unknownTag tag => "unknown field tag 0x" ++ hexText [tag]
  | .invalidBool byte => "invalid bool byte " ++ toString byte.toNat
  | .invalidUtf8 => "string field is not valid UTF-8"
  | .tooDeep => "frame nesting too deep"
  | .trailing count => toString count ++ " trailing bytes after frame"
  | .tooFewFields count need =>
    "frame has " ++ toString count ++ " fields, expected at least " ++ toString need
  | .missingField expected position total =>
    "expected " ++ expected.name ++ " at field " ++ toString position ++ ", frame has only " ++
      toString total ++ " fields"
  | .wrongKind expected position found =>
    "expected " ++ expected.name ++ " at field " ++ toString position ++ ", found " ++ found.name
  | .unread remaining position =>
    toString remaining ++ " unread fields after field " ++ toString position
  | .unknownMessage code => "unknown message kind 0x" ++ Text.hexNumeral code.toNat
  | .notResponse kind => "expected a response frame, got " ++ kind.name

/-- A cause as a fault of the framing class. -/
def toFault (e : FramingError) : Fault := ⟨.framing, e.message, none⟩

end FramingError

end Remoting
