import Remoting.Schema.Type

/-!
# Remoting.Schema.Enumeration

Enumerations, value by value. A value without an ordinal of its own takes the one after the value
before it, and no two values share a name or an ordinal.
-/

namespace Remoting

/-- The values of an enumeration so far. -/
structure Enumeration where
  /-- The name of the enumeration in messages. -/
  owner : String
  values : List EnumValue := []
  /-- The ordinal of a value that comes without one. -/
  next : Int64 := 0
  deriving DecidableEq, Repr, Inhabited

namespace Enumeration

/-- The ordinal after the given one; the greatest is followed by itself. -/
def after (ordinal : Int64) : Int64 :=
  if ordinal = Int64.maxValue then ordinal else ordinal + 1

/-- Add a value. A name that is taken is refused before an ordinal that is taken. -/
def add (e : Enumeration) (ident label blurb : String) (ordinal : Option Int64) :
    Except SchemaError Enumeration :=
  let ordinal := ordinal.getD e.next
  if e.values.any (·.ident == ident) then .error (.duplicateMember e.owner ident)
  else if e.values.any (·.ordinal == ordinal) then
    .error (.duplicateOrdinal e.owner ident ordinal)
  else
    .ok { e with values := e.values ++ [⟨ident, label, blurb, ordinal⟩], next := after ordinal }

/-- The enumeration as a kind of type. -/
def toKind (e : Enumeration) : TypeKind := .enum e.values

end Enumeration

end Remoting
