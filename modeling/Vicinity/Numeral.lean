import Vicinity.Binary64

/-!
Numbers written in ASCII decimal digits.

`Numeral.integer?` reads an optional sign and digits. `Numeral.double?` reads the wider form with a
point and an exponent, and the spelled-out infinities and NaN. Both read the whole text or nothing,
so neither admits blanks, underscores or other bases.
-/

namespace Vicinity

/-- The number `± coefficient · 10 ^ exponent`. -/
structure Decimal where
  negative : Bool
  coefficient : Nat
  exponent : Int
deriving DecidableEq, Repr, Inhabited

/-- The nearest double. The two guards keep the powers of ten near the size of the text: beyond
them the answer is an infinity or a zero whatever the digits are. -/
def Decimal.toBinary64 (d : Decimal) : Binary64 :=
  let magnitude : Binary64 :=
    if d.coefficient = 0 then .zero
    else if 310 < d.exponent then .infinity
    else if d.exponent < -(331 + (d.coefficient.log2 : Int)) then .zero
    else .ofFloat (Float.ofScientific d.coefficient (d.exponent < 0) d.exponent.natAbs)
  if d.negative then ⟨magnitude.bits ||| 0x8000000000000000⟩ else magnitude

namespace Numeral

/-- The value of a run of ASCII digits, read after `acc`. -/
def valueFrom (acc : Nat) (digits : List Char) : Nat :=
  digits.foldl (fun n c => 10 * n + (c.toNat - '0'.toNat)) acc

/-- The value of a run of ASCII digits. -/
def value (digits : List Char) : Nat := valueFrom 0 digits

/-- Split off the leading digits. -/
def spanDigits (cs : List Char) : List Char × List Char := cs.span Char.isDigit

/-- Split off a leading sign; true means minus. -/
def splitSign : List Char → Bool × List Char
  | '-' :: cs => (true, cs)
  | '+' :: cs => (false, cs)
  | cs => (false, cs)

/-- Split off an exponent part, when a complete one is there. -/
def splitExponent (cs : List Char) : Int × List Char :=
  match cs with
  | c :: rest =>
    if c = 'e' ∨ c = 'E' then
      let (negative, rest) := splitSign rest
      match spanDigits rest with
      | ([], _) => (0, cs)
      | (digits, rest) => (if negative then -(value digits : Int) else value digits, rest)
    else (0, cs)
  | [] => (0, [])

/-- Split off a point and the digits after it, when there is a point. -/
def splitFraction : List Char → List Char × List Char
  | '.' :: rest => spanDigits rest
  | cs => ([], cs)

def negateIf (negative : Bool) (n : Nat) : Int := if negative then -(n : Int) else n

/-- An integer: an optional sign, then digits and nothing else. -/
def integer? (text : String) : Option Int :=
  let (negative, cs) := splitSign text.toList
  match spanDigits cs with
  | ([], _) => none
  | (digits, []) => some (negateIf negative (value digits))
  | _ => none

/-- The spelled-out doubles, in any letter case. -/
def named? (name : List Char) : Option Binary64 :=
  let lower := name.map Char.toLower
  if lower = "nan".toList then some .nan
  else if lower = "inf".toList ∨ lower = "infinity".toList then some .infinity
  else none

/-- A double: an optional sign, then either a name or digits with an optional point and exponent.
A point needs a digit on one side of it at least. -/
def double? (text : String) : Option Binary64 :=
  let (negative, cs) := splitSign text.toList
  let withSign (x : Binary64) : Binary64 :=
    if negative then ⟨x.bits ||| 0x8000000000000000⟩ else x
  match named? cs with
  | some x => some (withSign x)
  | none =>
    let (whole, rest) := spanDigits cs
    let (fraction, rest) := splitFraction rest
    let (exponent, rest) := splitExponent rest
    if (whole ++ fraction).isEmpty || !rest.isEmpty then none
    else some (Decimal.toBinary64
      ⟨negative, value (whole ++ fraction), exponent - fraction.length⟩)

end Numeral

end Vicinity
