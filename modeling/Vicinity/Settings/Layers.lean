import Vicinity.Document.Record
import Vicinity.Json.Parser
import Vicinity.Settings.Key

/-!
Settings from several sources.

The defaults come first, then a file, then the environment; a later source overrides an earlier one
field by field. What they say together is read under lenient rules and must then be valid.
-/

namespace Vicinity.Settings

/-- The names of environment variables start with this, in any letter case. -/
def environmentPrefix : List Char := "vecsim_".toList

/-- Put what a source says over what the earlier ones say. -/
def overlay (root : Json) : (source : List (String × Json)) → Option Json
  | [] => some root
  | (key, value) :: source => do overlay (← Key.put root value (Key.ofText key)) source

/-! ### Sources -/

/-- What holds where no source says anything else. -/
def defaultSource : List (String × Json) :=
  [("block_size", .int 1024), ("log_level", .string "info")]

/-- The value of an environment variable: a truth value, an integer or a number if it reads as one,
otherwise text. -/
def environmentValue (text : String) : Json :=
  if lowerCase text = "true" then .bool true
  else if lowerCase text = "false" then .bool false
  else
    match Numeral.integer? text with
    | some n =>
      if -0x8000000000000000 ≤ n ∧ n < 0x8000000000000000 then .int n
      else .float (Binary64.ofInt n)
    | none =>
      match Numeral.double? text with
      | some x => .float x
      | none => .string text

/-- Two underscores separate the names of a path. -/
def pointed : List Char → List Char
  | '_' :: '_' :: cs => '.' :: pointed cs
  | c :: cs => c :: pointed cs
  | [] => []

/-- The setting that an environment variable stands for. -/
def environmentField? (setting : String × String) : Option (String × Json) :=
  let name := (lowerCase setting.1).toList
  if environmentPrefix.isPrefixOf name then
    some (String.ofList (pointed (name.drop environmentPrefix.length)),
      environmentValue setting.2)
  else none

/-- The fields of a settings file: one object. -/
def fileSource? (text : String) : Option (List (String × Json)) :=
  match Json.parse? text with
  | some (.object fields) => some fields
  | _ => none

/-- What the defaults, a file, if there is one, and the environment say together. -/
def layered? (file : Option (Option String)) (environment : List (String × String)) :
    Option Json := do
  let fromFile ← match file with
    | none => some []
    | some text? => text?.bind fileSource?
  let sources := [defaultSource, fromFile, environment.filterMap environmentField?]
  sources.foldlM overlay (.object [])

/-- The settings that a file, if there is one, and the environment make together. -/
def load (file : Option (Option String)) (environment : List (String × String)) :
    Except SettingsFault Settings :=
  match (layered? file environment).bind (ofJson? Document.Rules.lenient) with
  | none => .error .unreadable
  | some settings => settings.validate

end Vicinity.Settings
