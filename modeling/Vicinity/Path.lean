/-!
Texts that are made of parts with a separator between them.
-/

namespace Vicinity.Path

/-- The parts of a text; there is one more of them than separators. -/
def parts (separator : Char) : List Char → List (List Char)
  | [] => [[]]
  | c :: cs =>
    if c = separator then [] :: parts separator cs
    else
      match parts separator cs with
      | [] => [[c]]
      | part :: rest => (c :: part) :: rest

/-- The names in a path. Separators that follow each other count as one. -/
def names (separator : Char) (path : String) : List String :=
  ((parts separator path.toList).filter (!·.isEmpty)).map String.ofList

end Vicinity.Path
