import Vicinity.Binary64

/-!
The shortest decimal text of a double.

A finite positive double is read back from every real in an interval around it, which holds its ends
when the significand is even. `shortest` finds the coarsest decimal grid with a point inside that
interval and, of its points there, the nearest to the number, the larger one of two that are
equally near. `display` writes the digits in positional notation, whatever their number.
-/

namespace Vicinity

namespace Numeral

/-- A number and the interval that rounds to it, as numerators over one denominator. -/
structure Rounding where
  low : Nat
  middle : Nat
  high : Nat
  denominator : Nat
  closed : Bool

/-- The interval of reals that round to a positive finite double. Below a power of two the
neighbour is half as far away. -/
def Rounding.ofBinary64 (x : Binary64) : Rounding :=
  let m := x.significand
  let belowGap := if m = 1 <<< 52 ∧ 1 < x.exponentField then 1 else 2
  let scale := x.exponent - 2
  let up := 1 <<< scale.toNat
  { low := (4 * m - belowGap) * up
    middle := 4 * m * up
    high := (4 * m + 2) * up
    denominator := 1 <<< (-scale).toNat
    closed := m % 2 = 0 }

/-- The same interval in units of `10 ^ k`. -/
def Rounding.scale (r : Rounding) (k : Int) : Rounding :=
  let up := Nat.pow 10 (-k).toNat
  { r with
    low := r.low * up
    middle := r.middle * up
    high := r.high * up
    denominator := r.denominator * Nat.pow 10 k.toNat }

/-- The integer `n` lies in the interval. -/
def Rounding.holds (r : Rounding) (n : Nat) : Bool :=
  let v := n * r.denominator
  if r.closed then r.low ≤ v && v ≤ r.high else r.low < v && v < r.high

/-- The nearest integer in the interval, of the two around the number. Halfway between them the
larger one is taken. -/
def Rounding.nearest? (r : Rounding) : Option Nat :=
  let below := r.middle / r.denominator
  let above := below + 1
  let belowIsNearer : Bool := 2 * r.middle < (below + above) * r.denominator
  match r.holds below, r.holds above with
  | true, true => some (if belowIsNearer then below else above)
  | true, false => some below
  | false, true => some above
  | false, false => none

/-- Try the grids `10 ^ k`, `10 ^ (k - 1)`, … in turn. -/
def search (r : Rounding) : (steps : Nat) → (k : Int) → Option (Nat × Int)
  | 0, _ => none
  | steps + 1, k =>
    match (r.scale k).nearest? with
    | some n => some (n, k)
    | none => search r steps (k - 1)

/-- Digits and exponent of the shortest decimal that reads back as a positive finite double. The
first grid tried is coarser than the number, and 17 digits always suffice. -/
def shortest (x : Binary64) : Nat × Int :=
  let r := Rounding.ofBinary64 x
  let digitCount (n : Nat) : Int := (Nat.toDigits 10 n).length
  let k := digitCount r.middle - digitCount r.denominator + 1
  (search r 24 k).getD (0, 0)

/-- Digits with a point so that they stand for `digits · 10 ^ exponent`. -/
def positional (digits : List Char) (exponent : Int) : List Char :=
  if 0 ≤ exponent then digits ++ List.replicate exponent.toNat '0'
  else
    let places := (-exponent).toNat
    let padded := List.replicate (places + 1 - digits.length) '0' ++ digits
    padded.take (padded.length - places) ++ '.' :: padded.drop (padded.length - places)

/-- The text of a double: the shortest digits that read back, in positional notation, with a minus
sign for every negative word but the NaNs. -/
def display (x : Binary64) : String :=
  if x.isNaN then "NaN"
  else
    let sign := if x.isNegative then "-" else ""
    let body :=
      if !x.isFinite then "inf"
      else if x.isZero then "0"
      else
        let (digits, exponent) := shortest ⟨x.magnitude⟩
        String.ofList (positional (Nat.toDigits 10 digits) exponent)
    sign ++ body

end Numeral

end Vicinity
