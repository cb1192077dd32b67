import Vicinity.Hexadecimal
import Vicinity.Json
import Vicinity.Numeral.Shortest

/-!
Writing JSON text, without blanks and with the fields of an object in their order.
-/

namespace Vicinity.Json

/-- A character inside a string: quote, backslash and control characters are escaped. -/
def escapeChar (c : Char) : List Char :=
  match c with
  | '"' => ['\\', '"']
  | '\\' => ['\\', '\\']
  | '\n' => ['\\', 'n']
  | '\r' => ['\\', 'r']
  | '\t' => ['\\', 't']
  | c => if c < ' ' then ['\\', 'u', '0', '0'] ++ Hexadecimal.byte (UInt8.ofNat c.toNat) else [c]

/-- A string with its quotes. -/
def quote (s : String) : String :=
  String.ofList ('"' :: s.toList.flatMap escapeChar ++ ['"'])

/-- A finite double, always with a point; what JSON cannot write is null. -/
def renderFloat (x : Binary64) : String :=
  if x.isFinite then
    let text := Numeral.display x
    if text.toList.contains '.' then text else text ++ ".0"
  else "null"

mutual

def render : Json → String
  | .null => "null"
  | .bool true => "true"
  | .bool false => "false"
  | .int n => toString n
  | .float x => renderFloat x
  | .string s => quote s
  | .array items => "[" ++ ",".intercalate (renderItems items) ++ "]"
  | .object fields => "\x7b" ++ ",".intercalate (renderFields fields) ++ "\x7d"

def renderItems : List Json → List String
  | [] => []
  | item :: items => render item :: renderItems items

def renderFields : List (String × Json) → List String
  | [] => []
  | (name, item) :: fields => (quote name ++ ":" ++ render item) :: renderFields fields

end

end Vicinity.Json
