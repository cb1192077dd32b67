import Vicinity.Binary64

/-!
Single-precision words and the two conversions to and from double precision.

Widening is exact. Narrowing rounds to the nearest word and a tie goes to the even one; what lies
beyond the largest finite word becomes an infinity. A NaN keeps its sign and the leading bits of its
payload either way, with the quiet bit set.
-/

namespace Vicinity

/-- A single-precision word, equal to another exactly when the bits agree. -/
structure Binary32 where
  bits : UInt32
deriving DecidableEq, Repr, Inhabited

namespace Binary32

/-- The word without its sign. -/
def magnitude (x : Binary32) : UInt32 := x.bits &&& 0x7fffffff

def isNaN (x : Binary32) : Bool := 0x7f800000 < x.magnitude

/-- The same number in double precision. -/
def widen (x : Binary32) : Binary64 :=
  let sign : UInt64 := (x.bits >>> 31).toUInt64 <<< 63
  let exponent := (x.magnitude >>> 23).toNat
  let fraction := (x.bits &&& 0x007fffff).toNat
  let widened := fraction <<< 29
  if x.isNaN then
    ⟨sign ||| 0x7ff8000000000000 ||| UInt64.ofNat widened⟩
  else if exponent = 255 then
    ⟨sign ||| 0x7ff0000000000000⟩
  else if exponent ≠ 0 then
    let word := (exponent + 896) <<< 52 + widened
    ⟨sign ||| UInt64.ofNat word⟩
  else if fraction = 0 then
    ⟨sign⟩
  else
    -- A subnormal word has a leading bit of its own in double precision.
    let top := fraction.log2
    let word := (top + 874) <<< 52 + (fraction <<< (52 - top) - 1 <<< 52)
    ⟨sign ||| UInt64.ofNat word⟩

end Binary32

/-- `n / 2 ^ shift` rounded to the nearest integer, a tie to the even one. -/
def roundShift (n shift : Nat) : Nat :=
  let floor := n >>> shift
  let twice := 2 * (n - floor <<< shift)
  if twice < 1 <<< shift then floor
  else if 1 <<< shift < twice then floor + 1
  else floor + floor % 2

/-- The nearest single-precision word. -/
def Binary64.narrow (x : Binary64) : Binary32 :=
  let sign : UInt32 := (x.bits >>> 63).toUInt32 <<< 31
  if x.isNaN then
    let payload : UInt32 := ((x.bits &&& 0x000fffffffffffff) >>> 29).toUInt32
    ⟨sign ||| 0x7fc00000 ||| payload⟩
  else if !x.isFinite then
    ⟨sign ||| 0x7f800000⟩
  else if x.exponentField < 873 then
    -- Less than half of the smallest word.
    ⟨sign⟩
  else
    -- A normal result drops 29 bits; below the smallest one each halving drops another.
    let drop := 29 + (897 - x.exponentField)
    let rounded := roundShift x.significand drop
    let word := (x.exponentField - 897) <<< 23 + rounded
    ⟨sign ||| UInt32.ofNat (min word 0x7f800000)⟩

end Vicinity
