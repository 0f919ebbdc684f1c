import Remoting.Framing

/-!
# Remoting.Field.Codec

Field lists as bytes. A list is its number of fields in four bytes, then the fields; a field is the
tag of its kind and what it holds. Numbers take eight bytes, texts and opaque bytes stand after
their length in four bytes, and records and sequences are lists again.

Every decoder reads from the front of the bytes and returns what is left. Lists are nested at most
`maxNesting` deep below the outermost one.
-/

namespace Remoting.Field

/-- How deep records and sequences may be nested below the outermost list. -/
def maxNesting : Nat := 64

/-! ## Writing -/

/-- Bytes after their length in four bytes. -/
def sized (bs : Bytes) : Bytes := bigEndian 4 bs.length ++ bs

mutual
/-- A field as bytes. -/
def encode : Field → Bytes
  | .bool b => [FieldKind.bool.tag, if b then 1 else 0]
  | .int i => FieldKind.int.tag :: bigEndian 8 i.toUInt64.toNat
  | .enum i => FieldKind.enum.tag :: bigEndian 8 i.toUInt64.toNat
  | .float bits => FieldKind.float.tag :: bigEndian 8 bits.toNat
  | .string s => FieldKind.string.tag :: sized (utf8 s)
  | .record fs => FieldKind.record.tag :: (bigEndian 4 fs.length ++ encodeEach fs)
  | .sequence fs => FieldKind.sequence.tag :: (bigEndian 4 fs.length ++ encodeEach fs)
  | .object id => FieldKind.object.tag :: bigEndian 8 id.val.toNat
  | .any bs => FieldKind.any.tag :: sized bs
termination_by structural f => f

/-- Fields as bytes, one after the other. -/
def encodeEach : List Field → Bytes
  | [] => []
  | f :: fs => encode f ++ encodeEach fs
termination_by structural fs => fs
end

/-- A field list as bytes: its number of fields, then the fields. -/
def encodeList (fs : List Field) : Bytes := bigEndian 4 fs.length ++ encodeEach fs

mutual
/-- The number of bytes that a field takes. -/
def encodedLength : Field → Nat
  | .bool _ => 2
  | .int _ => 9
  | .enum _ => 9
  | .float _ => 9
  | .string s => 5 + s.utf8ByteSize
  | .record fs => 1 + (4 + encodedLengths fs)
  | .sequence fs => 1 + (4 + encodedLengths fs)
  | .object _ => 9
  | .any bs => 5 + bs.length
termination_by structural f => f

/-- The number of bytes that the fields take together. -/
def encodedLengths : List Field → Nat
  | [] => 0
  | f :: fs => encodedLength f + encodedLengths fs
termination_by structural fs => fs
end

/-- The number of bytes that a field list takes. -/
def listLength (fs : List Field) : Nat := 4 + encodedLengths fs

/-! ## Reading -/

/-- Reads a value from the front of the bytes and returns the rest. -/
abbrev Decoder (α : Type) := Bytes → Except FramingError (α × Bytes)

/-- The first `n` bytes, which belong to the given part. -/
def takeBytes (piece : Piece) (n : Nat) : Decoder Bytes := fun bs =>
  if bs.length < n then .error (.truncated piece n bs.length)
  else .ok (bs.take n, bs.drop n)

/-- The number in the first `width` bytes. -/
def takeWord (piece : Piece) (width : Nat) : Decoder Nat := fun bs => do
  let (w, bs) ← takeBytes piece width bs
  return (ofBigEndian w, bs)

/-- Bytes after their length. -/
def takeSized (piece : Piece) : Decoder Bytes := fun bs => do
  let (n, bs) ← takeWord piece 4 bs
  takeBytes piece n bs

/-- What a field of the given kind holds, where `nested` reads the lists inside records and
sequences. -/
def decodeBody (nested : Decoder (List Field)) : FieldKind → Decoder Field
  | .bool => fun bs => do
    let (b, bs) ← takeWord (.payload .bool) 1 bs
    match b with
    | 0 => return (.bool false, bs)
    | 1 => return (.bool true, bs)
    | other => throw (.invalidBool (UInt8.ofNat other))
  | .int => fun bs => do
    let (w, bs) ← takeWord (.payload .int) 8 bs
    return (.int (UInt64.ofNat w).toInt64, bs)
  | .enum => fun bs => do
    let (w, bs) ← takeWord (.payload .enum) 8 bs
    return (.enum (UInt64.ofNat w).toInt64, bs)
  | .float => fun bs => do
    let (w, bs) ← takeWord (.payload .float) 8 bs
    return (.float (UInt64.ofNat w), bs)
  | .string => fun bs => do
    let (text, bs) ← takeSized (.payload .string) bs
    match ofUtf8? text with
    | some s => return (.string s, bs)
    | none => throw .invalidUtf8
  | .record => fun bs => do
    let (fs, bs) ← nested bs
    return (.record fs, bs)
  | .sequence => fun bs => do
    let (fs, bs) ← nested bs
    return (.sequence fs, bs)
  | .object => fun bs => do
    let (w, bs) ← takeWord (.payload .object) 8 bs
    return (.object ⟨UInt64.ofNat w⟩, bs)
  | .any => fun bs => do
    let (payload, bs) ← takeSized (.payload .any) bs
    return (.any payload, bs)

/-- One field, where `nested` reads the lists inside records and sequences. -/
def decodeWith (nested : Decoder (List Field)) : Decoder Field := fun bs => do
  let (tag, bs) ← takeWord .tag 1 bs
  match FieldKind.ofTag? (UInt8.ofNat tag) with
  | none => throw (.unknownTag (UInt8.ofNat tag))
  | some kind => decodeBody nested kind bs

/-- `n` fields, one after the other. -/
def decodeMany (field : Decoder Field) : Nat → Decoder (List Field)
  | 0, bs => .ok ([], bs)
  | n + 1, bs => do
    let (f, bs) ← field bs
    let (fs, bs) ← decodeMany field n bs
    return (f :: fs, bs)

/-- The number of fields. Every field takes at least two bytes, so a number that the rest of the
bytes cannot hold is refused at once. -/
def decodeCount : Decoder Nat := fun bs => do
  let (count, bs) ← takeWord .count 4 bs
  if bs.length / 2 < count then throw (.countExceedsSize count)
  return (count, bs)

/-- A field list, where `field` reads one field. -/
def decodeLevel (field : Decoder Field) : Decoder (List Field) := fun bs => do
  let (count, bs) ← decodeCount bs
  decodeMany field count bs

/-- One field with at most `levels` lists nested in one another inside it. -/
def decodeField : (levels : Nat) → Decoder Field
  | 0 => decodeWith fun _ => .error .tooDeep
  | levels + 1 => decodeWith (decodeLevel (decodeField levels))

/-- Refuse bytes that are left over. -/
def noneLeft (bs : Bytes) : Except FramingError Unit :=
  if bs.isEmpty then .ok () else .error (.trailing bs.length)

/-- The field list that the bytes encode. -/
def decodeList (bs : Bytes) : Except FramingError (List Field) := do
  let (fs, rest) ← decodeLevel (decodeField maxNesting) bs
  noneLeft rest
  return fs

end Remoting.Field
