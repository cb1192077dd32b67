/-!
Double-precision words.

A `Binary64` is its 64 bits, so the sign of a zero and the payload of a NaN are part of the value
and survive storage. Two orders live here, both read off the bits by an integer key:

* `lt`, `le`: the numeric order. The two zeros are equal and a NaN is comparable with nothing.
* `totalLt`: the total order by sign and magnitude, in which `-0 < +0` and the NaNs lie beyond the
  infinities of their sign.

Arithmetic is correctly rounded; an operand that is NaN decides the result, the left one first, and
an operation on numbers that has no result gives a negative NaN.
-/

namespace Vicinity

/-- A double-precision word, equal to another exactly when the bits agree. -/
structure Binary64 where
  bits : UInt64
deriving DecidableEq, Repr, Inhabited

namespace Binary64

/-! ### Fields of the word -/

/-- The word without its sign. -/
def magnitude (x : Binary64) : UInt64 := x.bits &&& 0x7fffffffffffffff

/-- The sign bit is set. Zeros and NaNs have a sign too. -/
def isNegative (x : Binary64) : Bool := 0x8000000000000000 ≤ x.bits

def isNaN (x : Binary64) : Bool := 0x7ff0000000000000 < x.magnitude

def isFinite (x : Binary64) : Bool := x.magnitude < 0x7ff0000000000000

def isZero (x : Binary64) : Bool := x.magnitude == 0

/-- The biased exponent field. -/
def exponentField (x : Binary64) : Nat := (x.magnitude >>> 52).toNat

/-- The fraction field, without the leading bit of a normal number. -/
def fractionField (x : Binary64) : Nat := (x.bits &&& 0x000fffffffffffff).toNat

/-- A finite word is `± significand · 2 ^ exponent`. -/
def significand (x : Binary64) : Nat :=
  if x.exponentField = 0 then x.fractionField else x.fractionField + 1 <<< 52

/-- The exponent that goes with `significand`; subnormal numbers share the smallest one. -/
def exponent (x : Binary64) : Int := (max x.exponentField 1 : Nat) - 1075

/-! ### Constants -/

def zero : Binary64 := ⟨0⟩

def negZero : Binary64 := ⟨0x8000000000000000⟩

def one : Binary64 := ⟨0x3ff0000000000000⟩

def infinity : Binary64 := ⟨0x7ff0000000000000⟩

def negInfinity : Binary64 := ⟨0xfff0000000000000⟩

/-- The NaN with a positive sign and no payload. -/
def nan : Binary64 := ⟨0x7ff8000000000000⟩

/-! ### Order -/

/-- Position in the total order: negative words descend below the positive ones. -/
def totalKey (x : Binary64) : UInt64 :=
  if x.isNegative then ~~~ x.bits else x.bits + 0x8000000000000000

/-- Position in the numeric order, where both zeros share a place. Meaningless for a NaN. -/
def key (x : Binary64) : UInt64 :=
  if x.isZero then 0x8000000000000000 else x.totalKey

/-- Numeric "less than"; false when either side is NaN. -/
def lt (x y : Binary64) : Bool := !x.isNaN && !y.isNaN && x.key < y.key

/-- Numeric "at most"; false when either side is NaN. -/
def le (x y : Binary64) : Bool := !x.isNaN && !y.isNaN && x.key ≤ y.key

/-- The three-way form of the numeric order, with nothing to say about a NaN. -/
def partialCompare (x y : Binary64) : Option Ordering :=
  if x.isNaN || y.isNaN then none else some (compare x.key y.key)

/-- Strictly earlier in the total order. -/
def totalLt (x y : Binary64) : Bool := x.totalKey < y.totalKey

/-- The larger number, or the one that is a number. -/
def max (x y : Binary64) : Binary64 :=
  if x.isNaN then y else if y.isNaN then x else if x.lt y then y else x

/-! ### Arithmetic -/

def ofFloat (f : Float) : Binary64 := ⟨f.toBits⟩

def toFloat (x : Binary64) : Float := Float.ofBits x.bits

/-- A NaN with its quiet bit set, the form in which arithmetic hands it on. -/
def quiet (x : Binary64) : Binary64 := ⟨x.bits ||| 0x0008000000000000⟩

/-- What an operation on numbers gives when it has no result: the NaN with a negative sign. -/
def invalid : Binary64 := ⟨0xfff8000000000000⟩

/-- The result of an operation on numbers. -/
def ofResult (f : Float) : Binary64 := if (ofFloat f).isNaN then invalid else ofFloat f

/-- Lift a rounded operation to words: a NaN operand is handed on, the left one first. -/
def lift₂ (op : Float → Float → Float) (x y : Binary64) : Binary64 :=
  if x.isNaN then x.quiet else if y.isNaN then y.quiet else ofResult (op x.toFloat y.toFloat)

def add (x y : Binary64) : Binary64 := lift₂ Float.add x y

def sub (x y : Binary64) : Binary64 := lift₂ Float.sub x y

def mul (x y : Binary64) : Binary64 := lift₂ Float.mul x y

def div (x y : Binary64) : Binary64 := lift₂ Float.div x y

def sqrt (x : Binary64) : Binary64 :=
  if x.isNaN then x.quiet else ofResult x.toFloat.sqrt

def abs (x : Binary64) : Binary64 := ⟨x.magnitude⟩

instance : Add Binary64 := ⟨add⟩
instance : Sub Binary64 := ⟨sub⟩
instance : Mul Binary64 := ⟨mul⟩
instance : Div Binary64 := ⟨div⟩

/-- Sum from left to right. An empty sum is the negative zero, which adds nothing to anything. -/
def sum (xs : List Binary64) : Binary64 := xs.foldl (· + ·) negZero

/-- The nearest natural number that fits a word, a half going up. Below zero and for a NaN it is
zero, beyond the largest word that word. -/
def roundToWord (x : Binary64) : UInt64 :=
  let largest := UInt64.size - 1
  if x.isNaN || x.isNegative then 0
  else if !x.isFinite then UInt64.ofNat largest
  else
    let places := (-x.exponent).toNat
    let rounded := if x.exponent < 0 then (2 * x.significand + 1 <<< places) >>> (places + 1)
      else x.significand <<< x.exponent.toNat
    UInt64.ofNat (min rounded largest)

/-- The nearest double to an integer. -/
def ofInt (n : Int) : Binary64 := ofFloat (Float.ofInt n)

/-! ### Small laws of the orders -/

theorem lt_irrefl (x : Binary64) : x.lt x = false := by simp [lt]

theorem lt_trans {x y z : Binary64} (hxy : x.lt y = true) (hyz : y.lt z = true) :
    x.lt z = true := by
  simp only [lt, Bool.and_eq_true, Bool.not_eq_true', decide_eq_true_eq] at *
  exact ⟨⟨hxy.1.1, hyz.1.2⟩, UInt64.lt_trans hxy.2 hyz.2⟩

/-- The total key loses nothing, so the total order tells any two words apart. -/
theorem totalKey_injective {x y : Binary64} (h : x.totalKey = y.totalKey) : x = y := by
  obtain ⟨a⟩ := x
  obtain ⟨b⟩ := y
  simp only [totalKey, isNegative, decide_eq_true_eq] at h
  have h' := congrArg UInt64.toNat h
  have ha := a.toNat_lt
  have hb := b.toNat_lt
  congr 1
  apply UInt64.toNat_inj.1
  split at h' <;> split at h' <;>
    simp_all only [UInt64.le_iff_toNat_le, UInt64.toNat_not, UInt64.toNat_add, UInt64.size,
      UInt64.toNat_ofNat] <;> omega

end Binary64

end Vicinity
