/-!
# Remoting.Schema.Path

Paths of namespaces. A path is written with `::` between its segments; empty segments do not
count, so `::A::::B` and `A::B` are two spellings of one path.
-/

namespace Remoting.Schema

/-- The parts of a text between the separators, the first part with `part` in front of it (kept
in reverse). Separators are taken from the left and do not overlap. -/
def pathParts (part : List Char) : List Char → List (List Char)
  | [] => [part.reverse]
  | ':' :: ':' :: cs => part.reverse :: pathParts [] cs
  | c :: cs => pathParts (c :: part) cs

/-- The segments of a written path. -/
def splitPath (s : String) : List String :=
  ((pathParts [] s.toList).filter (!·.isEmpty)).map String.ofList

/-- A path, written. -/
def joinPath (path : List String) : String := "::".intercalate path

end Remoting.Schema
