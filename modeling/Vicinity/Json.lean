import Vicinity.Binary64

/-!
JSON values.

Numbers come in two kinds, because readers of a document tell them apart: an integer written without
point and exponent that fits 64 bits is `int`, every other number is `float`. An object is a list of
fields; where a name is repeated, `field?` answers with the last of them.
-/

namespace Vicinity

inductive Json where
  | null
  | bool (value : Bool)
  | int (value : Int)
  | float (value : Binary64)
  | string (value : String)
  | array (items : List Json)
  | object (fields : List (String × Json))
deriving Inhabited

namespace Json

/-- The value under a name in a list of fields; of several, the last. -/
def lookup (fields : List (String × Json)) (name : String) : Option Json :=
  (fields.reverse.find? (·.1 == name)).map (·.2)

/-- The value under a name, when this is an object that has it. -/
def field? (json : Json) (name : String) : Option Json :=
  match json with
  | .object fields => lookup fields name
  | _ => none

/-- An array of two, the shape of a pair. -/
def pair (a b : Json) : Json := .array [a, b]

/-- A natural number. -/
def nat (n : Nat) : Json := .int n

/-- A value or null. -/
def ofOption {α : Type} (f : α → Json) : Option α → Json
  | some a => f a
  | none => .null

mutual

/-- Put something else in the place of every number that is no integer. -/
def mapFloats (f : Binary64 → Json) : Json → Json
  | .float x => f x
  | .array items => .array (mapFloatsItems f items)
  | .object fields => .object (mapFloatsFields f fields)
  | json => json

def mapFloatsItems (f : Binary64 → Json) : List Json → List Json
  | [] => []
  | item :: items => mapFloats f item :: mapFloatsItems f items

def mapFloatsFields (f : Binary64 → Json) : List (String × Json) → List (String × Json)
  | [] => []
  | (name, item) :: fields => (name, mapFloats f item) :: mapFloatsFields f fields

end

end Json

end Vicinity
