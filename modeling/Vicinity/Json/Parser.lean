import Vicinity.Hexadecimal
import Vicinity.Json
import Vicinity.Numeral

/-!
Reading JSON text.

The grammar is the standard one: no trailing commas, no leading zeros, no raw control characters in
strings, every escaped surrogate half of a pair. A number too large for a double is refused, and so
is a document nested deeper than `maxDepth`. Of fields with one name in an object the last counts.
`parse?` reads one value and blanks around it.
-/

namespace Vicinity.Json

/-- What is left of the text, in characters. -/
abbrev Rest := List Char

def isBlank (c : Char) : Bool := c = ' ' || c = '\t' || c = '\n' || c = '\r'

def skipBlanks (cs : Rest) : Rest := cs.dropWhile isBlank

/-- Nesting beyond this depth is refused. -/
def maxDepth : Nat := 127

/-! ### Numbers -/

/-- Integers that keep their kind: from the least signed to the greatest unsigned 64-bit one. -/
def isWordInteger (n : Int) : Bool := -0x8000000000000000 ≤ n && n < 0x10000000000000000

/-- A number at the front of the text. The whole part has no leading zero, and a point or an
exponent mark must be followed by digits. -/
def number? (cs : Rest) : Option (Json × Rest) := do
  let (negative, cs) := match cs with
    | '-' :: rest => (true, rest)
    | _ => (false, cs)
  let (whole, cs) := Numeral.spanDigits cs
  if whole.isEmpty || (whole.length > 1 && whole.head? == some '0') then none
  let (fraction, afterPoint) := Numeral.splitFraction cs
  if cs.head? == some '.' && fraction.isEmpty then none
  let (exponent, rest) := Numeral.splitExponent afterPoint
  if rest.head? == some 'e' || rest.head? == some 'E' then none
  let written := Numeral.negateIf negative (Numeral.value whole)
  if rest.length = cs.length && isWordInteger written && !(negative && written == 0) then
    return (.int written, rest)
  let x := Decimal.toBinary64
    ⟨negative, Numeral.value (whole ++ fraction), exponent - fraction.length⟩
  if x.isFinite then return (.float x, rest) else none

/-! ### Strings -/

open Hexadecimal in
/-- Four hexadecimal digits. -/
def hex4? (a b c d : Char) : Option Nat := do
  return (((← value? a) * 16 + (← value? b)) * 16 + (← value? c)) * 16 + (← value? d)

/-- The character that a one-letter escape stands for. -/
def escaped? : Char → Option Char
  | '"' => some '"'
  | '\\' => some '\\'
  | '/' => some '/'
  | 'b' => some '\x08'
  | 'f' => some '\x0c'
  | 'n' => some '\n'
  | 'r' => some '\r'
  | 't' => some '\t'
  | _ => none

/-- The rest of a string whose opening quote is read; `acc` holds its characters backwards. -/
def stringTail? (acc : List Char) : Rest → Option (String × Rest)
  | [] => none
  | '"' :: cs => some (String.ofList acc.reverse, cs)
  | '\\' :: 'u' :: a :: b :: c :: d :: '\\' :: 'u' :: e :: f :: g :: h :: cs => do
    let high ← hex4? a b c d
    let low ← hex4? e f g h
    if 0xD800 ≤ high ∧ high < 0xDC00 then
      if 0xDC00 ≤ low ∧ low < 0xE000 then
        stringTail? (Char.ofNat (0x10000 + (high - 0xD800) * 0x400 + (low - 0xDC00)) :: acc) cs
      else none
    else if 0xDC00 ≤ high ∧ high < 0xE000 then none
    else stringTail? (Char.ofNat high :: acc) ('\\' :: 'u' :: e :: f :: g :: h :: cs)
  | '\\' :: 'u' :: a :: b :: c :: d :: cs => do
    let code ← hex4? a b c d
    if 0xD800 ≤ code ∧ code < 0xE000 then none
    else stringTail? (Char.ofNat code :: acc) cs
  | '\\' :: c :: cs => do
    let plain ← escaped? c
    stringTail? (plain :: acc) cs
  | c :: cs => if c < ' ' then none else stringTail? (c :: acc) cs
termination_by cs => cs.length

/-! ### Values -/

/-- Note a field in front of the ones read before. Of fields with one name only the last stays. -/
def addField (acc : List (String × Json)) (name : String) (item : Json) : List (String × Json) :=
  (name, item) :: acc.filter (·.1 != name)

mutual

/-- A value at the front of the text, blanks before it allowed. Each call uses one unit of `fuel`;
`depth` counts the brackets that may still be opened. -/
def value? (fuel depth : Nat) (cs : Rest) : Option (Json × Rest) :=
  match fuel with
  | 0 => none
  | fuel + 1 =>
    match skipBlanks cs with
    | '"' :: rest => (stringTail? [] rest).map fun (s, rest) => (.string s, rest)
    | '[' :: rest =>
      match depth with
      | 0 => none
      | depth + 1 =>
        match skipBlanks rest with
        | ']' :: rest => some (.array [], rest)
        | rest => items? fuel depth [] rest
    | '\x7b' :: rest =>
      match depth with
      | 0 => none
      | depth + 1 =>
        match skipBlanks rest with
        | '\x7d' :: rest => some (.object [], rest)
        | rest => fields? fuel depth [] rest
    | 'n' :: 'u' :: 'l' :: 'l' :: rest => some (.null, rest)
    | 't' :: 'r' :: 'u' :: 'e' :: rest => some (.bool true, rest)
    | 'f' :: 'a' :: 'l' :: 's' :: 'e' :: rest => some (.bool false, rest)
    | rest => number? rest

/-- The items of an array up to its closing bracket; `acc` holds the ones read, backwards. -/
def items? (fuel depth : Nat) (acc : List Json) (cs : Rest) : Option (Json × Rest) :=
  match fuel with
  | 0 => none
  | fuel + 1 => do
    let (item, rest) ← value? fuel depth cs
    match skipBlanks rest with
    | ',' :: rest => items? fuel depth (item :: acc) rest
    | ']' :: rest => some (.array (item :: acc).reverse, rest)
    | _ => none

/-- The fields of an object up to its closing brace; `acc` holds the ones read, backwards. -/
def fields? (fuel depth : Nat) (acc : List (String × Json)) (cs : Rest) : Option (Json × Rest) :=
  match fuel with
  | 0 => none
  | fuel + 1 => do
    match skipBlanks cs with
    | '"' :: rest =>
      let (name, rest) ← stringTail? [] rest
      match skipBlanks rest with
      | ':' :: rest =>
        let (item, rest) ← value? fuel depth rest
        match skipBlanks rest with
        | ',' :: rest => fields? fuel depth (addField acc name item) rest
        | '\x7d' :: rest => some (.object (addField acc name item).reverse, rest)
        | _ => none
      | _ => none
    | _ => none

end

/-- Read a text that holds one value and nothing else. Each call reads a character or hands on to
one that does, so twice the length is fuel enough. -/
def parse? (text : String) : Option Json :=
  let cs := text.toList
  match value? (2 * cs.length + 2) maxDepth cs with
  | some (json, rest) => if (skipBlanks rest).isEmpty then some json else none
  | none => none

end Vicinity.Json
