/-!
Hexadecimal digits. They are written in lower case and read in either.
-/

namespace Vicinity.Hexadecimal

/-- The digit for a number below 16. -/
def digit (n : Nat) : Char := "0123456789abcdef".toList.getD n '0'

/-- The number that a digit stands for. -/
def value? (c : Char) : Option Nat :=
  if c.isDigit then some (c.toNat - '0'.toNat)
  else if 'a' ≤ c ∧ c ≤ 'f' then some (c.toNat - 'a'.toNat + 10)
  else if 'A' ≤ c ∧ c ≤ 'F' then some (c.toNat - 'A'.toNat + 10)
  else none

/-- Two digits. -/
def byte (b : UInt8) : List Char := [digit (b.toNat / 16), digit (b.toNat % 16)]

/-- Two digits for every byte. -/
def ofBytes (bytes : List UInt8) : String := String.ofList (bytes.flatMap byte)

/-- The bytes that pairs of digits stand for. -/
def toBytes? : List Char → Option (List UInt8)
  | [] => some []
  | high :: low :: rest => do
    let value := (← value? high) * 16 + (← value? low)
    return UInt8.ofNat value :: (← toBytes? rest)
  | [_] => none

end Vicinity.Hexadecimal
