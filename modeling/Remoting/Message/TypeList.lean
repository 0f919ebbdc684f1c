import Remoting.Field.Reader

/-!
# Remoting.Message.TypeList

A list of type digests as a field: a sequence of records, each with the high and the low half.
-/

namespace Remoting.TypeList

/-- A digest as a record of its halves. -/
def digestField (d : Digest) : Field := .record [.int d.hi.toInt64, .int d.lo.toInt64]

/-- A digest list as the elements of a sequence. -/
def elements (ds : List Digest) : List Field := ds.map digestField

/-- A digest from the fields of its record. -/
def readDigest : Reading Digest := do
  let hi ← Reading.word
  let lo ← Reading.word
  Reading.finish
  return ⟨hi, lo⟩

/-- `n` digest records, one after the other. -/
def readDigests : Nat → Reading (List Digest)
  | 0 => return []
  | n + 1 => do
    let halves ← Reading.record
    let d ← readDigest.inside halves
    let ds ← readDigests n
    return d :: ds

/-- The next field, a sequence of digest records. -/
def read : Reading (List Digest) := do
  let elements ← Reading.sequence
  (readDigests elements.length).inside elements

end Remoting.TypeList
