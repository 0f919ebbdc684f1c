import Remoting.Decimal.Reading
import Remoting.Schema.Error
import Remoting.Text.Blank

/-!
# Remoting.Schema.Annotation

Annotations of a slot: texts under a closed set of keys. Which keys a slot takes depends on the
storage class of its type; whole numbers and floating-point numbers take all of them and have a
default of `0` when none is given, texts take some, and nothing else takes any.
-/

namespace Remoting

/-- The keys of annotations. -/
inductive AnnotationKey where
  | label
  | blurb
  | default
  | min
  | max
  | step
  | hints
  deriving DecidableEq, Repr, Inhabited

namespace AnnotationKey

/-- Every key, in the order in which annotations are listed. -/
def all : List AnnotationKey := [.label, .blurb, .default, .min, .max, .step, .hints]

/-- The name of a key. -/
def name : AnnotationKey → String
  | .label => "label"
  | .blurb => "blurb"
  | .default => "default"
  | .min => "min"
  | .max => "max"
  | .step => "step"
  | .hints => "hints"

/-- The key with the given name. -/
def ofName? (s : String) : Option AnnotationKey := all.find? (·.name == s)

/-- The keys that slots of a storage class take, in the order of their arguments. -/
def recognized : Storage → List AnnotationKey
  | .int | .float => all
  | .string => [.label, .blurb, .default, .hints]
  | _ => []

/-- What a key holds in slots of a storage class when nothing is given for it. -/
def fallback : AnnotationKey → Storage → Option String
  | .default, .int | .default, .float => some "0"
  | _, _ => none

end AnnotationKey

/-- The annotations of a slot. -/
structure Annotations where
  label : Option String := none
  blurb : Option String := none
  default : Option String := none
  min : Option String := none
  max : Option String := none
  step : Option String := none
  hints : Option String := none
  deriving DecidableEq, Repr, Inhabited

namespace Annotations

/-- The text under a key. -/
def get (a : Annotations) : AnnotationKey → Option String
  | .label => a.label
  | .blurb => a.blurb
  | .default => a.default
  | .min => a.min
  | .max => a.max
  | .step => a.step
  | .hints => a.hints

/-- Put a text under a key, in place of what it held. -/
def set (a : Annotations) (key : AnnotationKey) (text : String) : Annotations :=
  match key with
  | .label => { a with label := some text }
  | .blurb => { a with blurb := some text }
  | .default => { a with default := some text }
  | .min => { a with min := some text }
  | .max => { a with max := some text }
  | .step => { a with step := some text }
  | .hints => { a with hints := some text }

theorem get_set (a : Annotations) (key other : AnnotationKey) (text : String) :
    (a.set key text).get other = if other = key then some text else a.get other := by
  cases key <;> cases other <;> rfl

/-- The keys that hold a text, with their texts, in the order of the keys. -/
def entries (a : Annotations) : List (AnnotationKey × String) :=
  AnnotationKey.all.filterMap fun key => (a.get key).map (key, ·)

/-- Put the fallback of the storage class under every key that holds nothing. -/
def fill (a : Annotations) (storage : Storage) : Annotations :=
  (AnnotationKey.recognized storage).foldl (fun a key =>
    match a.get key, key.fallback storage with
    | none, some text => a.set key text
    | _, _ => a) a

/-- The keys that slots of a storage class take, if they take any. -/
def recognizedKeys (storage : Storage) : Except SchemaError (List AnnotationKey) :=
  match AnnotationKey.recognized storage with
  | [] => .error (.noAnnotations storage)
  | keys => .ok keys

/-- Put texts under keys, one after another. -/
def setAll (a : Annotations) (pairs : List (AnnotationKey × String)) : Annotations :=
  pairs.foldl (fun a p => a.set p.1 p.2) a

/-- Annotations given by position. -/
def ofPositional (storage : Storage) (args : List String) : Except SchemaError Annotations := do
  let keys ← recognizedKeys storage
  if args.length > keys.length then
    throw (.tooManyArguments storage args.length keys.length)
  return (({} : Annotations).setAll (keys.zip args)).fill storage

/-- A key by its name, if slots of the storage class take it. -/
def keyOf (storage : Storage) (name : String) : Except SchemaError AnnotationKey :=
  match (AnnotationKey.ofName? name).filter (· ∈ AnnotationKey.recognized storage) with
  | some key => .ok key
  | none => .error (.invalidKey name storage)

/-- Annotations given by the names of their keys; the last text given for a key counts. -/
def ofPairs (storage : Storage) (pairs : List (String × String)) :
    Except SchemaError Annotations := do
  let _ ← recognizedKeys storage
  let pairs ← pairs.mapM fun p => do return (← keyOf storage p.1, p.2)
  return (({} : Annotations).setAll pairs).fill storage

/-- The number that the text under a key denotes, blanks around it apart. -/
def number? (a : Annotations) (key : AnnotationKey) : Option UInt64 :=
  (a.get key).bind fun text => Decimal.read? (Text.trimBlanks text.toList)

end Annotations

end Remoting
