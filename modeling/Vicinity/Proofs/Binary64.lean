import Mathlib.Algebra.Group.Nat.Defs
import Vicinity.Binary64

/-!
The two orders of double-precision words on numbers.

Among numbers the numeric order is that of the keys (`lt_iff`, `le_iff`), at one of which only the
zeros are different words (`eq_or_isZero_of_key_eq`). The total order refines it: it may tell the
two zeros apart and otherwise agrees (`totalLt_of_lt`).
-/

namespace Vicinity.Binary64

/-! ### Fields of the word -/

theorem toNat_magnitude (x : Binary64) : x.magnitude.toNat = x.bits.toNat % 2 ^ 63 := by
  have mask : (0x7fffffffffffffff : UInt64).toNat = 2 ^ 63 - 1 := rfl
  rw [magnitude, UInt64.toNat_and, mask, Nat.and_two_pow_sub_one_eq_mod]

theorem isNaN_iff {x : Binary64} : x.isNaN = true ↔ 2047 * 2 ^ 52 < x.bits.toNat % 2 ^ 63 := by
  rw [isNaN, decide_eq_true_eq, UInt64.lt_iff_toNat_lt, toNat_magnitude]
  rfl

theorem isNegative_iff {x : Binary64} : x.isNegative = true ↔ 2 ^ 63 ≤ x.bits.toNat := by
  rw [isNegative, decide_eq_true_eq, UInt64.le_iff_toNat_le]
  rfl

/-! ### The numeric order -/

theorem lt_iff {x y : Binary64} (number_x : x.isNaN = false) (number_y : y.isNaN = false) :
    x.lt y = true ↔ x.key.toNat < y.key.toNat := by
  simp [lt, number_x, number_y, UInt64.lt_iff_toNat_lt]

theorem le_iff {x y : Binary64} (number_x : x.isNaN = false) (number_y : y.isNaN = false) :
    x.le y = true ↔ x.key.toNat ≤ y.key.toNat := by
  simp [le, number_x, number_y, UInt64.le_iff_toNat_le]

theorem numbers_of_lt {x y : Binary64} (less : x.lt y = true) :
    x.isNaN = false ∧ y.isNaN = false := by
  simp only [lt, Bool.and_eq_true, Bool.not_eq_true'] at less
  exact less.1

theorem numbers_of_le {x y : Binary64} (le : x.le y = true) :
    x.isNaN = false ∧ y.isNaN = false := by
  simp only [Binary64.le, Bool.and_eq_true, Bool.not_eq_true'] at le
  exact le.1

theorem le_self {x : Binary64} (number : x.isNaN = false) : x.le x = true :=
  (le_iff number number).2 (Nat.le_refl _)

theorem le_trans {x y z : Binary64} (first : x.le y = true) (second : y.le z = true) :
    x.le z = true := by
  obtain ⟨number_x, number_y⟩ := numbers_of_le first
  obtain ⟨_, number_z⟩ := numbers_of_le second
  rw [le_iff number_x number_y] at first
  rw [le_iff number_y number_z] at second
  rw [le_iff number_x number_z]
  omega

theorem le_of_lt {x y : Binary64} (less : x.lt y = true) : x.le y = true := by
  obtain ⟨number_x, number_y⟩ := numbers_of_lt less
  rw [lt_iff number_x number_y] at less
  exact (le_iff number_x number_y).2 (Nat.le_of_lt less)

theorem le_of_not_lt {x y : Binary64} (number_x : x.isNaN = false) (number_y : y.isNaN = false)
    (not_less : x.lt y = false) : y.le x = true := by
  have not_less : ¬ x.lt y = true := Bool.eq_false_iff.1 not_less
  rw [lt_iff number_x number_y] at not_less
  exact (le_iff number_y number_x).2 (Nat.not_lt.1 not_less)

theorem lt_of_le_of_lt {x y z : Binary64} (first : x.le y = true) (second : y.lt z = true) :
    x.lt z = true := by
  obtain ⟨number_x, number_y⟩ := numbers_of_le first
  obtain ⟨_, number_z⟩ := numbers_of_lt second
  rw [le_iff number_x number_y] at first
  rw [lt_iff number_y number_z] at second
  rw [lt_iff number_x number_z]
  omega

theorem lt_of_lt_of_le {x y z : Binary64} (first : x.lt y = true) (second : y.le z = true) :
    x.lt z = true := by
  obtain ⟨number_x, number_y⟩ := numbers_of_lt first
  obtain ⟨_, number_z⟩ := numbers_of_le second
  rw [lt_iff number_x number_y] at first
  rw [le_iff number_y number_z] at second
  rw [lt_iff number_x number_z]
  omega

theorem lt_of_not_le {x y : Binary64} (number_x : x.isNaN = false) (number_y : y.isNaN = false)
    (not_le : x.le y = false) : y.lt x = true := by
  have not_le : ¬ x.le y = true := Bool.eq_false_iff.1 not_le
  rw [le_iff number_x number_y] at not_le
  exact (lt_iff number_y number_x).2 (Nat.not_le.1 not_le)

theorem not_lt_of_le {x y : Binary64} (le : x.le y = true) : y.lt x = false := by
  refine Bool.eq_false_iff.2 fun less => ?_
  have below := lt_of_le_of_lt le less
  rw [lt_irrefl] at below
  cases below

/-- The same number, be it written with another sign of zero. -/
def Equals (x y : Binary64) : Prop := x.le y = true ∧ y.le x = true

theorem equals_iff {x y : Binary64} (number_x : x.isNaN = false) (number_y : y.isNaN = false) :
    x.Equals y ↔ x.key.toNat = y.key.toNat := by
  rw [Equals, le_iff number_x number_y, le_iff number_y number_x]
  omega

theorem le_max_right {x y : Binary64} (number : y.isNaN = false) : y.le (x.max y) = true := by
  rw [max]
  split
  case isTrue => exact le_self number
  case isFalse number_x =>
    rw [number, if_neg Bool.noConfusion]
    split
    case isTrue => exact le_self number
    case isFalse not_less =>
      exact le_of_not_lt (Bool.eq_false_iff.2 number_x) number (Bool.eq_false_iff.2 not_less)

theorem max_equals {x y : Binary64} (le : x.le y = true) : (x.max y).Equals y := by
  obtain ⟨number_x, number_y⟩ := numbers_of_le le
  refine ⟨?_, le_max_right number_y⟩
  rw [max, number_x, number_y, if_neg Bool.noConfusion, if_neg Bool.noConfusion]
  split
  · exact le_self number_y
  · exact le

theorem isNaN_infinity : infinity.isNaN = false := by decide

/-- Nothing is beyond the positive infinity. -/
theorem infinity_lt (x : Binary64) : infinity.lt x = false := by
  refine Bool.eq_false_iff.2 fun beyond => ?_
  have number := (numbers_of_lt beyond).2
  rw [lt_iff isNaN_infinity number] at beyond
  have top : infinity.key.toNat = 2 ^ 63 + 2047 * 2 ^ 52 := by decide
  have bounded := mt isNaN_iff.2 (Bool.eq_false_iff.1 number)
  have sign_bit : (0x8000000000000000 : UInt64).toNat = 2 ^ 63 := rfl
  have bound := x.bits.toNat_lt
  rw [top, key, totalKey] at beyond
  split at beyond
  case isTrue => omega
  case isFalse =>
    split at beyond
    case isTrue negative =>
      have signed := isNegative_iff.1 negative
      rw [UInt64.toNat_not, UInt64.size] at beyond
      omega
    case isFalse positive =>
      have unsigned := mt isNegative_iff.2 positive
      rw [UInt64.toNat_add, sign_bit] at beyond
      omega

/-- A zero stands at the key of both zeros or just below it, any other word elsewhere. -/
theorem totalKey_of_isZero {x : Binary64} (zero : x.isZero = true) :
    x.totalKey.toNat = 0x8000000000000000 ∨ x.totalKey.toNat = 0x7fffffffffffffff := by
  have bits : x.bits = 0 ∨ x.bits = 0x8000000000000000 := by
    have low : x.bits.toNat % 2 ^ 63 = 0 := by
      rw [← toNat_magnitude, beq_iff_eq.1 zero]
      rfl
    have bound := x.bits.toNat_lt
    have split : x.bits.toNat = 0 ∨ x.bits.toNat = 2 ^ 63 := by omega
    rcases split with none | sign
    · exact .inl (UInt64.toNat_inj.1 none)
    · exact .inr (UInt64.toNat_inj.1 sign)
  rcases bits with none | sign
  · left
    rw [totalKey, isNegative, none]
    decide
  · right
    rw [totalKey, isNegative, sign]
    decide

theorem eq_zero_or_negZero {x : Binary64} (none : x.isZero = true) : x = zero ∨ x = negZero :=
  (totalKey_of_isZero none).imp (fun at_key => totalKey_injective (UInt64.toNat_inj.1 at_key))
    fun below => totalKey_injective (UInt64.toNat_inj.1 below)

/-- Words at one place are the same word, unless they are zeros. -/
theorem eq_or_isZero_of_key_eq {x y : Binary64} (same : x.key = y.key) :
    x = y ∨ x.isZero = true ∧ y.isZero = true := by
  have middle : ∀ {z : Binary64}, z.totalKey = 0x8000000000000000 → z.isZero = true := by
    intro z at_key
    rw [totalKey_injective (y := zero) at_key]
    rfl
  unfold key at same
  split at same
  case isTrue none_x =>
    split at same
    case isTrue none_y => exact .inr ⟨none_x, none_y⟩
    case isFalse some_y => exact absurd (middle same.symm) some_y
  case isFalse some_x =>
    split at same
    case isTrue none_y => exact absurd (middle same) some_x
    case isFalse => exact .inl (totalKey_injective same)

/-- What is numerically less comes earlier in the total order. -/
theorem totalKey_lt_of_key_lt {x y : Binary64} (less : x.key.toNat < y.key.toNat) :
    x.totalKey.toNat < y.totalKey.toNat := by
  have middle : (0x8000000000000000 : UInt64).toNat = 0x8000000000000000 := rfl
  unfold key at less
  split at less
  case isTrue zero_x =>
    split at less
    · exact absurd less (Nat.lt_irrefl _)
    · rw [middle] at less
      rcases totalKey_of_isZero zero_x with at_key | below <;> omega
  case isFalse nonzero_x =>
    split at less
    case isTrue zero_y =>
      rw [middle] at less
      rcases totalKey_of_isZero zero_y with at_key | below
      · omega
      · have other : x.totalKey.toNat ≠ y.totalKey.toNat := by
          intro same
          rw [totalKey_injective (UInt64.toNat_inj.1 same)] at nonzero_x
          exact nonzero_x zero_y
        omega
    case isFalse => exact less

theorem totalLt_iff {x y : Binary64} :
    x.totalLt y = true ↔ x.totalKey.toNat < y.totalKey.toNat := by
  rw [totalLt, decide_eq_true_eq, UInt64.lt_iff_toNat_lt]

theorem totalLt_of_lt {x y : Binary64} (less : x.lt y = true) : x.totalLt y = true := by
  obtain ⟨number_x, number_y⟩ := numbers_of_lt less
  exact totalLt_iff.2 (totalKey_lt_of_key_lt ((lt_iff number_x number_y).1 less))

end Vicinity.Binary64
