import Vicinity.Json
import Vicinity.Numeral.Shortest
import Vicinity.Numeral

/-!
Rules by which values are read from documents.

`Rules.strict` takes each value only in its own form. `Rules.lenient` is for settings that people
write in files and environments: numbers, switches and texts stand in for one another where that
makes sense. Both read a record from an object by the names of its fields, or from an array by their
order.
-/

namespace Vicinity.Document

/-- How scalars and records are read. -/
structure Rules where
  /-- An unsigned word. -/
  word? : Json → Option UInt64
  number? : Json → Option Binary64
  flag? : Json → Option Bool
  text? : Json → Option String
  /-- One of some names, for a choice that carries nothing. -/
  choice? : List String → Json → Option String
  /-- An array may have more items than the record has fields. -/
  allowsSurplus : Bool

namespace Rules

/-! ### Records -/

/-- The values of a record's fields, in the order of their names. An object may leave fields out; an
array may leave out the ones after the first `required`. -/
def fields? (rules : Rules) (required : Nat) (names : List String) (json : Json) :
    Option (List (Option Json)) :=
  match json with
  | .object fields => some (names.map (Json.lookup fields))
  | .array items =>
    if items.length < required || (names.length < items.length && !rules.allowsSurplus) then none
    else some (names.zipIdx.map fun (_, i) => items[i]?)
  | _ => none

/-- A field that has a default. -/
def orDefault {β : Type} (default : β) (read : Json → Option β) : Option Json → Option β
  | none => some default
  | some json => read json

/-- A field that must be there. -/
def needed {β : Type} (read : Json → Option β) : Option Json → Option β
  | none => none
  | some json => read json

/-- A field that may be absent or null. -/
def optional {β : Type} (read : Json → Option β) : Option Json → Option (Option β)
  | none | some .null => some none
  | some json => (read json).map some

/-! ### Strict rules -/

/-- An integer that fits an unsigned word. -/
def strictWord? : Json → Option UInt64
  | .int n => if 0 ≤ n ∧ n < UInt64.size then some (UInt64.ofNat n.toNat) else none
  | _ => none

/-- A number of either kind. -/
def strictNumber? : Json → Option Binary64
  | .int n => some (.ofInt n)
  | .float x => some x
  | _ => none

def strictFlag? : Json → Option Bool
  | .bool b => some b
  | _ => none

def strictText? : Json → Option String
  | .string s => some s
  | _ => none

/-- An array of items of one type. -/
def strictList? {β : Type} (read : Json → Option β) : Json → Option (List β)
  | .array items => items.mapM read
  | _ => none

/-- A name as text, or as the only field of an object with nothing in it. -/
def strictChoice? (names : List String) : Json → Option String
  | .string s => names.find? (· == s)
  | .object [(name, .null)] => names.find? (· == name)
  | _ => none

def strict : Rules where
  word? := strictWord?
  number? := strictNumber?
  flag? := strictFlag?
  text? := strictText?
  choice? := strictChoice?
  allowsSurplus := false

/-! ### Lenient rules -/

/-- Words that mean on or off, in any letter case. -/
def switch? (text : String) : Option Bool :=
  let lower := String.ofList (text.toList.map Char.toLower)
  if lower ∈ ["true", "on", "yes"] then some true
  else if lower ∈ ["false", "off", "no"] then some false
  else none

/-- Digits with an optional plus sign that make an unsigned word. -/
def wordText? (text : String) : Option UInt64 :=
  if text.toList.head? == some '-' then none
  else
    match Numeral.integer? text with
    | some n => if n < UInt64.size then some (UInt64.ofNat n.toNat) else none
    | none => none

/-- An integer beyond the signed words counts as the nearest double. -/
def widen (n : Int) : Json := if n < 0x8000000000000000 then .int n else .float (.ofInt n)

/-- A number is rounded; a text is a switch or digits; true is one. -/
def lenientWord? (json : Json) : Option UInt64 :=
  match json with
  | .int n =>
    match widen n with
    | .float x => some x.roundToWord
    | _ => if 0 ≤ n then some (UInt64.ofNat n.toNat) else none
  | .float x => some x.roundToWord
  | .bool b => some (if b then 1 else 0)
  | .string s =>
    match switch? s with
    | some b => some (if b then 1 else 0)
    | none => wordText? s
  | _ => none

/-- Any number; a text is a switch or a number; true is one. -/
def lenientNumber? (json : Json) : Option Binary64 :=
  match json with
  | .int n => some (.ofInt n)
  | .float x => some x
  | .bool b => some (if b then .one else .zero)
  | .string s =>
    match switch? s with
    | some b => some (if b then .one else .zero)
    | none => Numeral.double? s
  | _ => none

/-- A number is true unless it is zero; a text is a switch, with one and zero among them. -/
def lenientFlag? (json : Json) : Option Bool :=
  match json with
  | .bool b => some b
  | .int n => some (n != 0)
  | .float x => some (!x.isZero)
  | .string s => if s = "1" then some true else if s = "0" then some false else switch? s
  | _ => none

/-- Any scalar as it is written. -/
def lenientText? (json : Json) : Option String :=
  match json with
  | .string s => some s
  | .bool b => some (if b then "true" else "false")
  | .int n =>
    match widen n with
    | .float x => some (Numeral.display x)
    | _ => some (toString n)
  | .float x => some (Numeral.display x)
  | _ => none

/-- A name in any letter case, as text or as the only field of an object. -/
def lenientChoice? (names : List String) (json : Json) : Option String :=
  let lower (s : String) := s.toList.map Char.toLower
  let pick (s : String) := names.find? fun name => lower name == lower s
  match json with
  | .string s => pick s
  | .object [(name, _)] => pick name
  | _ => none

def lenient : Rules where
  word? := lenientWord?
  number? := lenientNumber?
  flag? := lenientFlag?
  text? := lenientText?
  choice? := lenientChoice?
  allowsSurplus := true

end Rules

end Vicinity.Document
