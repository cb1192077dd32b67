import Vicinity.Json
import Vicinity.Numeral

/-!
Keys of settings, and what it means to put a value at one.

A key leads from a value to a part of it, by names of fields and by places in arrays, as in
`graph.weights[0]`. A text of another form is a name as a whole. Names are taken in lower case.
`Key.put` makes the objects and arrays that a key leads through where there are none.
-/

namespace Vicinity.Settings

/-- The lower case of a letter. The Kelvin sign is the one letter outside ASCII with a lower case
inside; others keep their form, because no setting has a name with such letters in it. -/
def lowerLetter (c : Char) : Char := if c = '\u212a' then 'k' else c.toLower

def lowerCase (name : String) : String := String.ofList (name.toList.map lowerLetter)

/-- One step of a key. -/
inductive Step where
  | field (name : String)
  /-- An item of an array, counted from its front, or from its end when negative. -/
  | item (place : Int)
deriving DecidableEq, Repr

/-- The steps that lead to a setting. -/
abbrev Key := List Step

namespace Key

/-! ### Reading keys -/

/-- A character of a name. -/
def isNameChar (c : Char) : Bool := c.isAlphanum || c = '_' || c = '-' || c = ' '

/-- A blank that may stand around a place; the ends of lines are none. -/
def isBlank (c : Char) : Bool := c = ' ' || c = '\t'

/-- A name at the front of a text. -/
def name? (cs : List Char) : Option (String × List Char) :=
  match cs.span isNameChar with
  | ([], _) => none
  | (name, rest) => some (String.ofList name, rest)

/-- A place and its closing bracket at the front of a text. -/
def place? (cs : List Char) : Option (Int × List Char) :=
  let (negative, cs) : Bool × List Char :=
    match cs.dropWhile isBlank with
    | '-' :: cs => (true, cs)
    | cs => (false, cs)
  let (digits, cs) := Numeral.spanDigits cs
  let place := Numeral.negateIf negative (Numeral.value digits)
  match cs.dropWhile isBlank with
  | ']' :: rest =>
    if digits.isEmpty || place < -0x8000000000000000 || 0x8000000000000000 ≤ place then none
    else some (place, rest)
  | _ => none

/-- The steps after the first. Each takes a character at least, so the length of the text is fuel
enough. -/
def steps? : (fuel : Nat) → List Char → Option Key
  | _, [] => some []
  | fuel + 1, '.' :: cs => do
    let (name, rest) ← name? cs
    return .field name :: (← steps? fuel rest)
  | fuel + 1, '[' :: cs => do
    let (place, rest) ← place? cs
    return .item place :: (← steps? fuel rest)
  | _, _ => none

/-- The key that a text stands for, when it has the form of one. -/
def parse? (text : String) : Option Key := do
  let (name, rest) ← name? text.toList
  return .field name :: (← steps? rest.length rest)

/-- The key that a text stands for. -/
def ofText (text : String) : Key := (parse? text).getD [.field text]

/-! ### Putting values -/

/-- Put a value at a field, after the others when it is new. -/
def setField (fields : List (String × Json)) (name : String) (value : Json) :
    List (String × Json) :=
  if fields.any (·.1 == name) then
    fields.map fun field => if field.1 == name then (name, value) else field
  else fields ++ [(name, value)]

/-- Put a value at a place, after nulls where the list is too short. -/
def setItem (items : List Json) (place : Nat) (value : Json) : List Json :=
  (items ++ List.replicate (place + 1 - items.length) Json.null).set place value

/-- The fields of an object; other values have none. -/
def fieldsOf : Json → List (String × Json)
  | .object fields => fields
  | _ => []

/-- The items of an array; other values have none. -/
def itemsOf : Json → List Json
  | .array items => items
  | _ => []

mutual

/-- Put a value at a field. An object is merged field by field into what is there, so an empty one
leaves that alone; anything else replaces it. -/
def merge (fields : List (String × Json)) (name : String) (value : Json) :
    List (String × Json) :=
  match value with
  | .object incoming =>
    let existing := (Json.lookup fields (lowerCase name)).getD (.object [])
    setField fields (lowerCase name) <|
      if incoming.isEmpty then existing
      else .object (mergeAll (fieldsOf existing) incoming)
  | value => setField fields (lowerCase name) value

def mergeAll (fields : List (String × Json)) : List (String × Json) → List (String × Json)
  | [] => fields
  | (name, value) :: rest => mergeAll (merge fields name value) rest

end

/-- The place from the front that a place means among `count` items. One counted from the end must
lie among them. -/
def fromFront? (place : Int) (count : Nat) : Option Nat :=
  if 0 ≤ place then some place.toNat
  else if place.natAbs ≤ count then some (count - place.natAbs)
  else none

/-- Put a value at a key. Only a place before the front of an array cannot be reached. -/
def put (root value : Json) : Key → Option Json
  | [] => some value
  | [.field name] => some (.object (merge (fieldsOf root) name value))
  | .field name :: key => do
    let fields := fieldsOf root
    let inner ← put ((Json.lookup fields (lowerCase name)).getD .null) value key
    return .object (setField fields (lowerCase name) inner)
  | .item place :: key => do
    let items := itemsOf root
    let place ← fromFront? place items.length
    let inner ← put (items[place]?.getD .null) value key
    return .array (setItem items place inner)

end Key

end Vicinity.Settings
