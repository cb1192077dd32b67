import Vicinity.Proofs.Binary64.Rounding

/-!
Signs and bounds of sums, differences and products.

An operation on numbers unpacks them, works on the values and packs the result (`add_eq`, `sub_eq`,
`mul_eq`). Of the values it is enough to know the sign and a bound from below: squares and what is
added up from them have no negative sign (`Unsigned`), one less a number is never the negative zero
(`one_sub_ne_negZero`), and from zero up a number gets no smaller when another is added to it
(`one_le_one_add`) or when it is multiplied by one from one up (`le_mul`), so that what is less than
a multiple of one bound is less than that of a larger one (`lt_mul_of_le`).
-/

open Float.Model Float.Model.UnpackedFloat

namespace Vicinity.Binary64

open Rounding

variable {x y : Binary64}

/-! ### Words and values -/

theorem isNaN_quiet (nan : x.isNaN = true) : x.quiet.isNaN = true := by
  have more : x.bits.toNat % 2 ^ 63 ≤ x.quiet.bits.toNat % 2 ^ 63 := by
    rw [quiet, UInt64.toNat_or, Nat.or_mod_two_pow]
    exact Nat.left_le_or
  exact isNaN_iff.2 (Nat.lt_of_lt_of_le (isNaN_iff.1 nan) more)

/-- The value of a word. -/
def unpacked (x : Binary64) : UnpackedFloat :=
  UnpackedFloat.unpack Format.binary64 x.bits.toBitVec

/-- The word of a value. -/
def packed (u : UnpackedFloat) : Binary64 :=
  ⟨UInt64.ofBitVec (UnpackedFloat.pack Format.binary64 u)⟩

theorem stands_unpacked (x : Binary64) : Stands x.bits.toNat x.unpacked :=
  stands_unpack x.bits.toBitVec

theorem toNat_packed {u : UnpackedFloat} (proper : Proper u) :
    (packed u).bits.toNat = (sign u).toBitVec.toNat * 2 ^ 63 + height u := toNat_pack proper

theorem number_iff : x.isNaN = false ↔ x.unpacked ≠ .notANumber := by
  rw [← Bool.not_eq_true, isNaN_iff, ← (stands_unpacked x).nan]

theorem unpacked_ne_nan (number : x.isNaN = false) : x.unpacked ≠ .notANumber :=
  number_iff.1 number

theorem bits_eq (number : x.isNaN = false) :
    x.bits.toNat = (sign x.unpacked).toBitVec.toNat * 2 ^ 63 + height x.unpacked :=
  (stands_unpacked x).bits_eq (unpacked_ne_nan number)

theorem packed_unpacked (number : x.isNaN = false) : packed x.unpacked = x := by
  have same := (toNat_packed (stands_unpacked x).proper).trans (bits_eq number).symm
  exact congrArg Binary64.mk (UInt64.toNat_inj.1 same)

/-- A number is taken for the value that it is. -/
theorem unpack_toFloat (number : x.isNaN = false) : x.toFloat.toModel.unpack = x.unpacked :=
  congrArg unpacked (packed_unpacked number)

/-! ### Results -/

/-- The word for the value that an operation on numbers gives. -/
def result (u : UnpackedFloat) : Binary64 := if (packed u).isNaN then invalid else packed u

theorem lift₂_eq {op : Float → Float → Float}
    {value : UnpackedFloat → UnpackedFloat → UnpackedFloat}
    (models : ∀ a b, (op a b).toModel = .pack (value a.toModel.unpack b.toModel.unpack))
    (number_x : x.isNaN = false) (number_y : y.isNaN = false) :
    lift₂ op x y = result (value x.unpacked y.unpacked) := by
  have same : ofFloat (op x.toFloat y.toFloat) = packed (value x.unpacked y.unpacked) := by
    rw [← unpack_toFloat number_x, ← unpack_toFloat number_y]
    exact congrArg (fun model : Float.Model => (⟨model.toBits⟩ : Binary64)) (models _ _)
  rw [lift₂, number_x, number_y, if_neg Bool.noConfusion, if_neg Bool.noConfusion, ofResult, same,
    result]

theorem add_eq (number_x : x.isNaN = false) (number_y : y.isNaN = false) :
    x + y = result (UnpackedFloat.add Format.binary64 x.unpacked y.unpacked) :=
  lift₂_eq (fun _ _ => rfl) number_x number_y

theorem sub_eq (number_x : x.isNaN = false) (number_y : y.isNaN = false) :
    x - y = result (UnpackedFloat.sub Format.binary64 x.unpacked y.unpacked) :=
  lift₂_eq (fun _ _ => rfl) number_x number_y

theorem mul_eq (number_x : x.isNaN = false) (number_y : y.isNaN = false) :
    x * y = result (UnpackedFloat.mul Format.binary64 x.unpacked y.unpacked) :=
  lift₂_eq (fun _ _ => rfl) number_x number_y

theorem height_le {u : UnpackedFloat} (number : u ≠ .notANumber) : height u ≤ 2047 * 2 ^ 52 := by
  cases u with
  | notANumber => exact absurd rfl number
  | infinity s => exact Nat.le_refl _
  | zero s => exact Nat.zero_le _
  | finite s m e pos => exact Nat.min_le_right ..

theorem isNaN_result_nan : (result .notANumber).isNaN = true := by decide

theorem number_result {u : UnpackedFloat} (proper : Proper u) (number : u ≠ .notANumber) :
    (result u).isNaN = false ∧ result u = packed u := by
  have bits := toNat_packed proper
  have low := height_le number
  have sign_lt := (sign u).toBitVec.isLt
  have not_nan : (packed u).isNaN = false := by
    refine Bool.eq_false_iff.2 fun nan => ?_
    have := isNaN_iff.1 nan
    omega
  have same : result u = packed u := by rw [result, not_nan, if_neg Bool.noConfusion]
  exact ⟨same ▸ not_nan, same⟩

theorem number_of_lift₂ (op : Float → Float → Float) (number : (lift₂ op x y).isNaN = false) :
    x.isNaN = false ∧ y.isNaN = false := by
  rw [lift₂] at number
  split at number
  case isTrue nan =>
    rw [isNaN_quiet nan] at number
    cases number
  case isFalse number_x =>
    split at number
    case isTrue nan =>
      rw [isNaN_quiet nan] at number
      cases number
    case isFalse number_y => exact ⟨Bool.eq_false_iff.2 number_x, Bool.eq_false_iff.2 number_y⟩

/-! ### Signs -/

/-- If it is a number, its sign is not negative. -/
def Unsigned (x : Binary64) : Prop := x.isNaN = false → x.isNegative = false

theorem sign_unpacked (unsigned : x.Unsigned) (number : x.isNaN = false) :
    sign x.unpacked = .positive := by
  have bits := bits_eq number
  have positive := mt isNegative_iff.2 (Bool.eq_false_iff.1 (unsigned number))
  cases negative : sign x.unpacked with
  | positive => rfl
  | negative =>
      rw [negative] at bits
      have one : Sign.negative.toBitVec.toNat = 1 := rfl
      omega

theorem unsigned_result {u : UnpackedFloat} (proper : Proper u) (positive : sign u = .positive) :
    (result u).Unsigned := by
  by_cases nan : u = .notANumber
  · intro number
    rw [nan, isNaN_result_nan] at number
    cases number
  · intro _
    have bits := toNat_packed proper
    have low := height_le nan
    rw [positive] at bits
    have zero : Sign.positive.toBitVec.toNat = 0 := rfl
    rw [(number_result proper nan).2]
    refine Bool.eq_false_iff.2 fun negative => ?_
    have := isNegative_iff.1 negative
    omega

theorem below_mul {m₁ m₂ : Nat} {e₁ e₂ : Int} (pos₁ : 0 < m₁) (pos₂ : 0 < m₂)
    (form₁ : Canonical m₁ e₁) (form₂ : Canonical m₂ e₂) :
    e₁ + e₂ ≤ target (m₁ * m₂) (e₁ + e₂) := by
  have digits : m₁.log2 + m₂.log2 ≤ (m₁ * m₂).log2 := by
    refine (Nat.le_log2 (Nat.mul_pos pos₁ pos₂).ne').2 ?_
    rw [Nat.pow_add]
    exact Nat.mul_le_mul (Nat.log2_self_le pos₁.ne') (Nat.log2_self_le pos₂.ne')
  have full₁ : -1074 < e₁ → 52 ≤ m₁.log2 := fun more => (Nat.le_log2 pos₁.ne').2 (form₁.full more)
  have full₂ : -1074 < e₂ → 52 ≤ m₂.log2 := fun more => (Nat.le_log2 pos₂.ne').2 (form₂.full more)
  rw [target]
  omega

theorem mul_self_sign (s : Sign) : s * s = .positive := by cases s <;> rfl

theorem unsigned_mul_self (x : Binary64) : (x * x).Unsigned := by
  intro number
  obtain ⟨number_x, _⟩ := number_of_lift₂ Float.mul number
  revert number
  rw [mul_eq number_x number_x]
  have proper := (stands_unpacked x).proper
  cases value : x.unpacked with
  | notANumber => exact absurd value (unpacked_ne_nan number_x)
  | infinity s => exact unsigned_result trivial (mul_self_sign s)
  | zero s => exact unsigned_result trivial (mul_self_sign s)
  | finite s m e pos =>
      rw [value] at proper
      have rounded := roundsTo_roundWithAccuracy (s * s) (Nat.mul_pos pos pos)
        (below_mul pos pos proper proper)
      exact unsigned_result rounded.proper (rounded.sign_eq.trans (mul_self_sign s))

theorem normalize_of_pos {m : Nat} (pos : 0 < m) (e : Int) (z : Sign) :
    UnpackedFloat.normalize Format.binary64 m e z =
      UnpackedFloat.round Format.binary64 .positive m e := by
  rw [UnpackedFloat.normalize, compare_gt_iff_gt.2 (by omega : (m : Int) > 0)]
  rfl

theorem normalize_of_neg {m : Nat} (pos : 0 < m) (e : Int) (z : Sign) :
    UnpackedFloat.normalize Format.binary64 (-m) e z =
      UnpackedFloat.round Format.binary64 .negative m e := by
  rw [UnpackedFloat.normalize, compare_lt_iff_lt.2 (by omega : -(m : Int) < 0), Int.neg_neg]
  rfl

/-- Both significands at the smaller exponent. -/
theorem add_positive {m₁ m₂ : Nat} {e₁ e₂ : Int} (pos₁ : 0 < m₁) (pos₂ : 0 < m₂) :
    UnpackedFloat.add Format.binary64 (.finite .positive m₁ e₁ pos₁)
        (.finite .positive m₂ e₂ pos₂) =
      UnpackedFloat.round Format.binary64 .positive
        (m₁ * 2 ^ (e₁ - min e₁ e₂).toNat + m₂ * 2 ^ (e₂ - min e₁ e₂).toNat) (min e₁ e₂) := by
  have pos : 0 < m₁ * 2 ^ (e₁ - min e₁ e₂).toNat + m₂ * 2 ^ (e₂ - min e₁ e₂).toNat :=
    Nat.add_pos_left (Nat.mul_pos pos₁ (Nat.two_pow_pos _)) _
  rw [← normalize_of_pos pos _ .positive, ← Nat.shiftLeft_eq, ← Nat.shiftLeft_eq]
  rfl

theorem add_sign {u v : UnpackedFloat} (proper_u : Proper u) (proper_v : Proper v)
    (positive_u : sign u = .positive) (positive_v : sign v = .positive) :
    Proper (UnpackedFloat.add Format.binary64 u v) ∧
      sign (UnpackedFloat.add Format.binary64 u v) = .positive := by
  cases u with
  | notANumber => exact ⟨trivial, rfl⟩
  | infinity s =>
      cases v <;> cases positive_u <;> cases positive_v <;> exact ⟨trivial, rfl⟩
  | zero s =>
      cases v with
      | notANumber => exact ⟨trivial, rfl⟩
      | infinity s' => exact ⟨trivial, positive_v⟩
      | zero s' => cases positive_u; cases positive_v; exact ⟨trivial, rfl⟩
      | finite s' m e pos => exact ⟨proper_v, positive_v⟩
  | finite s m e pos =>
      cases v with
      | notANumber => exact ⟨trivial, rfl⟩
      | infinity s' => exact ⟨trivial, positive_v⟩
      | zero s' => exact ⟨proper_u, positive_u⟩
      | finite s' m' e' pos' =>
          cases positive_u
          cases positive_v
          have rounded := roundsTo_round .positive (min e e') (Nat.add_pos_left
            (Nat.mul_pos pos (Nat.two_pow_pos (e - min e e').toNat))
            (m' * 2 ^ (e' - min e e').toNat))
          rw [add_positive]
          exact ⟨rounded.proper, rounded.sign_eq⟩

theorem unsigned_add (unsigned_x : x.Unsigned) (unsigned_y : y.Unsigned) :
    (x + y).Unsigned := by
  intro number
  obtain ⟨number_x, number_y⟩ := number_of_lift₂ Float.add number
  revert number
  rw [add_eq number_x number_y]
  obtain ⟨proper, positive⟩ := add_sign (stands_unpacked x).proper (stands_unpacked y).proper
    (sign_unpacked unsigned_x number_x) (sign_unpacked unsigned_y number_y)
  exact unsigned_result proper positive

/-- The negative zero that a sum starts from does not show. -/
theorem unsigned_negZero_add (unsigned : y.Unsigned) : (negZero + y).Unsigned := by
  intro number
  obtain ⟨number_zero, number_y⟩ := number_of_lift₂ Float.add number
  revert number
  rw [add_eq number_zero number_y]
  have proper := (stands_unpacked y).proper
  have positive := sign_unpacked unsigned number_y
  have start : negZero.unpacked = .zero .negative := rfl
  rw [start]
  cases value : y.unpacked with
  | notANumber => exact absurd value (unpacked_ne_nan number_y)
  | infinity s =>
      rw [value] at positive
      exact unsigned_result trivial positive
  | zero s =>
      rw [value] at positive
      cases positive
      exact unsigned_result trivial rfl
  | finite s m e pos =>
      rw [value] at proper positive
      exact unsigned_result proper positive

theorem unsigned_sum {xs : List Binary64} (some : xs ≠ []) (unsigned : ∀ x ∈ xs, x.Unsigned) :
    (sum xs).Unsigned := by
  have from_start : ∀ (rest : List Binary64) (start : Binary64), start.Unsigned →
      (∀ x ∈ rest, x.Unsigned) → (rest.foldl (· + ·) start).Unsigned := by
    intro rest
    induction rest with
    | nil => exact fun _ start _ => start
    | cons x rest ih =>
        intro start unsigned_start unsigned
        obtain ⟨first, later⟩ := List.forall_mem_cons.1 unsigned
        exact ih _ (unsigned_add unsigned_start first) later
  cases xs with
  | nil => exact absurd rfl some
  | cons x xs =>
      obtain ⟨first, later⟩ := List.forall_mem_cons.1 unsigned
      exact from_start xs _ (unsigned_negZero_add first) later

/-- Nothing from the least exponent up is so little that it is rounded to a zero. -/
theorem result_normalize_ne_negZero (n : Int) {e : Int} (least : -1074 ≤ e) :
    result (UnpackedFloat.normalize Format.binary64 n e .positive) ≠ negZero := by
  intro same
  rcases lt_trichotomy n 0 with negative | rfl | positive
  · obtain ⟨m, rfl⟩ : ∃ m : Nat, n = -m := ⟨n.natAbs, by omega⟩
    have pos : 0 < m := by omega
    have rounded := roundsTo_round .negative e pos
    have some : 1 ≤ height (UnpackedFloat.round Format.binary64 .negative m e) := by
      refine rounded.height_le 1 (-1074) ⟨by decide, le_refl _, by decide⟩ ?_
      rw [AtMost, Int.toNat_of_nonpos (by omega), Nat.pow_zero]
      exact Nat.mul_pos pos (Nat.two_pow_pos _)
    have bits := toNat_packed rounded.proper
    have low := height_le rounded.number
    rw [normalize_of_neg pos, (number_result rounded.proper rounded.number).2] at same
    rw [same, rounded.sign_eq] at bits
    have zero : negZero.bits.toNat = Sign.negative.toBitVec.toNat * 2 ^ 63 := rfl
    omega
  · have nothing : UnpackedFloat.normalize Format.binary64 0 e .positive = .zero .positive := rfl
    rw [nothing] at same
    revert same
    decide
  · obtain ⟨m, rfl⟩ := Int.eq_ofNat_of_zero_le positive.le
    have pos : 0 < m := by omega
    have rounded := roundsTo_round .positive e pos
    rw [normalize_of_pos pos] at same
    have unsigned := unsigned_result rounded.proper rounded.sign_eq
    rw [same] at unsigned
    exact absurd (unsigned rfl) (by decide)

/-- A difference is the positive zero when both sides are equal. -/
theorem one_sub_ne_negZero (x : Binary64) : one - x ≠ negZero := by
  intro same
  have number : (one - x).isNaN = false := by rw [same]; decide
  obtain ⟨number_one, number_x⟩ := number_of_lift₂ Float.sub number
  rw [sub_eq number_one number_x] at same
  have start : one.unpacked = .finite .positive (2 ^ 52) (-52) (by decide) := rfl
  have proper := (stands_unpacked x).proper
  rw [start] at same
  cases value : x.unpacked with
  | notANumber => exact unpacked_ne_nan number_x value
  | infinity s =>
      rw [value] at same
      cases s <;> revert same <;> decide
  | zero s =>
      rw [value] at same
      revert same
      cases s <;> decide
  | finite s m e pos =>
      rw [value] at same proper
      have least : -1074 ≤ min (-52) e := le_min (by decide) proper.least
      exact result_normalize_ne_negZero _ least same

/-! ### Bounds -/

theorem toNat_magnitude_eq (number : x.isNaN = false) : x.magnitude.toNat = height x.unpacked := by
  have bits := bits_eq number
  have low := height_le (unpacked_ne_nan number)
  rw [toNat_magnitude]
  omega

theorem toNat_magnitude_result {u : UnpackedFloat} (proper : Proper u) (number : u ≠ .notANumber) :
    (result u).magnitude.toNat = height u := by
  have bits := toNat_packed proper
  have low := height_le number
  rw [(number_result proper number).2, toNat_magnitude]
  omega

theorem toNat_key_of_positive (positive : x.isNegative = false) :
    x.key.toNat = 2 ^ 63 + x.magnitude.toNat := by
  have bound := mt isNegative_iff.2 (Bool.eq_false_iff.1 positive)
  have high : (0x8000000000000000 : UInt64).toNat = 2 ^ 63 := rfl
  rw [key]
  split
  case isTrue none =>
    have none : x.magnitude = 0 := by simpa [isZero] using none
    rw [none]
    rfl
  case isFalse =>
    rw [totalKey, if_neg (Bool.eq_false_iff.1 positive), UInt64.toNat_add, high, toNat_magnitude]
    omega

/-- Among the words with the negative sign the zero is the only number from zero up. -/
theorem zero_le_iff : zero.le x = true ↔
    x.isNaN = false ∧ (x.isNegative = false ∨ x.isZero = true) := by
  have middle : zero.key.toNat = 2 ^ 63 := rfl
  have bound := x.bits.toNat_lt
  constructor
  · intro zero_le
    obtain ⟨number_zero, number⟩ := numbers_of_le zero_le
    refine ⟨number, ?_⟩
    by_contra neither
    obtain ⟨negative, some⟩ := not_or.1 neither
    have negative : x.isNegative = true := Bool.not_eq_false _ ▸ negative
    have high := isNegative_iff.1 negative
    have le := (le_iff number_zero number).1 zero_le
    rw [middle, key, if_neg some, totalKey, if_pos negative, UInt64.toNat_not, UInt64.size] at le
    omega
  · rintro ⟨number, positive | none⟩
    · refine (le_iff (by decide) number).2 ?_
      rw [middle, toNat_key_of_positive positive]
      exact Nat.le_add_right ..
    · refine (le_iff (by decide) number).2 ?_
      rw [middle, key, if_pos none]
      exact Nat.le_refl _

theorem isZero_iff : x.isZero = true ↔ ∃ s, x.unpacked = .zero s := by
  constructor
  · intro none
    rcases eq_zero_or_negZero none with rfl | rfl
    · exact ⟨.positive, rfl⟩
    · exact ⟨.negative, rfl⟩
  · rintro ⟨s, value⟩
    have number : x.isNaN = false := number_iff.2 (by rw [value]; exact nofun)
    have magnitude := toNat_magnitude_eq number
    rw [value] at magnitude
    rw [isZero, beq_iff_eq]
    exact UInt64.toNat_inj.1 magnitude

/-- Numbers from zero up stand at their magnitudes. -/
theorem le_iff_magnitude (zero_le_x : zero.le x = true) (zero_le_y : zero.le y = true) :
    x.le y = true ↔ x.magnitude.toNat ≤ y.magnitude.toNat := by
  have keys : ∀ z : Binary64, zero.le z = true → z.key.toNat = 2 ^ 63 + z.magnitude.toNat := by
    intro z zero_le
    rcases (zero_le_iff.1 zero_le).2 with positive | none
    · exact toNat_key_of_positive positive
    · have none' : z.magnitude = 0 := by simpa [isZero] using none
      rw [key, if_pos none, none']
      rfl
  rw [le_iff (numbers_of_le zero_le_x).2 (numbers_of_le zero_le_y).2, keys x zero_le_x,
    keys y zero_le_y, Nat.add_le_add_iff_left]

/-- What a number from zero up may be. -/
theorem unpacked_of_zero_le (zero_le : zero.le x = true) :
    x.unpacked = .infinity .positive ∨ (∃ s, x.unpacked = .zero s) ∨
      ∃ m e pos, x.unpacked = .finite .positive m e pos ∧ Canonical m e := by
  obtain ⟨number, small⟩ := zero_le_iff.1 zero_le
  have proper := (stands_unpacked x).proper
  have magnitude := toNat_magnitude_eq number
  have positive : 0 < height x.unpacked → sign x.unpacked = .positive := by
    intro some
    rcases small with unsigned | none
    · exact sign_unpacked (fun _ => unsigned) number
    · have none : x.magnitude = 0 := by simpa [isZero] using none
      rw [← magnitude, none] at some
      exact absurd some (Nat.lt_irrefl 0)
  cases value : x.unpacked with
  | notANumber => exact absurd value (unpacked_ne_nan number)
  | infinity s =>
      rw [value] at positive
      cases positive (Nat.zero_lt_succ _)
      exact .inl rfl
  | zero s => exact .inr (.inl ⟨s, rfl⟩)
  | finite s m e pos =>
      rw [value] at positive proper
      have some : 0 < height (.finite s m e pos) := by
        rw [height, place]
        omega
      cases positive some
      exact .inr (.inr ⟨m, e, pos, rfl, proper⟩)

theorem zero_le_result {u : UnpackedFloat} (proper : Proper u) (number : u ≠ .notANumber)
    (positive : sign u = .positive) : zero.le (result u) = true := by
  have number' := (number_result proper number).1
  exact zero_le_iff.2 ⟨number', .inl (unsigned_result proper positive number')⟩

/-- A number is not above what is rounded from a value that it is not above. -/
theorem le_result {m m₁ : Nat} {e e₁ : Int} {u : UnpackedFloat} {pos₁ : 0 < m₁}
    (zero_le : zero.le x = true) (value : x.unpacked = .finite .positive m₁ e₁ pos₁)
    (rounded : RoundsTo .positive m e u) (atMost : AtMost m₁ e₁ m e) :
    x.le (result u) = true := by
  have form := (stands_unpacked x).proper
  have above := zero_le_result rounded.proper rounded.number rounded.sign_eq
  rw [value] at form
  rw [le_iff_magnitude zero_le above, toNat_magnitude_eq (numbers_of_le zero_le).2, value,
    toNat_magnitude_result rounded.proper rounded.number]
  exact rounded.height_le m₁ e₁ form atMost

theorem unpacked_one : one.unpacked = .finite .positive (2 ^ 52) (-52) (by decide) := rfl

theorem one_le_one_add (zero_le : zero.le x = true) : one.le (one + x) = true := by
  rw [add_eq (by decide) (numbers_of_le zero_le).2, unpacked_one]
  rcases unpacked_of_zero_le zero_le with value | ⟨s, value⟩ | ⟨m, e, pos, value, form⟩
  · rw [value]
    decide
  · rw [value]
    cases s <;> decide
  · have pos' := Nat.add_pos_left (Nat.mul_pos (by decide : 0 < 2 ^ 52)
      (Nat.two_pow_pos (-52 - min (-52) e).toNat)) (m * 2 ^ (e - min (-52) e).toNat)
    rw [value, add_positive]
    refine le_result (by decide) unpacked_one (roundsTo_round .positive _ pos') ?_
    rw [atMost_iff (min_le_left _ _) (le_refl _), Int.sub_self, Int.toNat_zero, Nat.pow_zero,
      Nat.mul_one]
    exact Nat.le_add_right ..

/-- A value from one up has no fraction that its significand does not make up for. -/
theorem atMost_mul {m₁ m₂ : Nat} {e₁ e₂ : Int} (form : Canonical m₂ e₂)
    (one_le : 1023 * 2 ^ 52 ≤ place m₂ e₂) : AtMost m₁ e₁ (m₁ * m₂) (e₁ + e₂) := by
  have lt := form.lt
  have exponent : -52 ≤ e₂ := by
    rw [place] at one_le
    omega
  have full := form.full (by omega)
  have digits : 2 ^ (e₁ - (e₁ + e₂)).toNat ≤ m₂ :=
    Nat.le_trans (Nat.pow_le_pow_right (by decide) (by omega)) full
  rw [AtMost, Nat.mul_assoc]
  apply Nat.mul_le_mul_left
  exact Nat.le_trans digits (Nat.le_mul_of_pos_right _ (Nat.two_pow_pos _))

/-- Only a zero times an infinity is no number. -/
theorem le_mul (zero_le : zero.le x = true) (one_le : one.le y = true)
    (proper : x.isZero = false ∨ (x * y).isNaN = false) : x.le (x * y) = true := by
  have number_x := (numbers_of_le zero_le).2
  have number_y := (numbers_of_le one_le).2
  have zero_le' : zero.le y = true := le_trans (by decide) one_le
  have some : 1023 * 2 ^ 52 ≤ height y.unpacked := by
    rw [← toNat_magnitude_eq number_y]
    exact (le_iff_magnitude (by decide) zero_le').1 one_le
  have same := packed_unpacked number_x
  rw [mul_eq number_x number_y] at proper ⊢
  rcases unpacked_of_zero_le zero_le' with value' | ⟨s', value'⟩ | ⟨m', e', pos', value', form'⟩
  · rw [value'] at proper ⊢
    rcases unpacked_of_zero_le zero_le with value | ⟨s, value⟩ | ⟨m, e, pos, value, form⟩
    · rw [value] at same ⊢
      rw [← same]
      decide
    · rw [isZero_iff.2 ⟨s, value⟩, value] at proper
      exact absurd (proper.resolve_left Bool.noConfusion) (by cases s <;> decide)
    · rw [value]
      change x.le (result (.infinity .positive)) = true
      refine (le_iff_magnitude zero_le (by decide)).2 ?_
      rw [toNat_magnitude_eq number_x]
      exact height_le (unpacked_ne_nan number_x)
  · rw [value'] at some
    exact absurd some (by cases s' <;> decide)
  · rw [value'] at some ⊢
    rcases unpacked_of_zero_le zero_le with value | ⟨s, value⟩ | ⟨m, e, pos, value, form⟩
    · rw [value] at same ⊢
      rw [← same]
      change (packed (.infinity .positive)).le (result (.infinity .positive)) = true
      decide
    · rw [value] at same ⊢
      rw [← same]
      change (packed (.zero s)).le (result (.zero (s * .positive))) = true
      cases s <;> decide
    · have rounded := roundsTo_roundWithAccuracy .positive (Nat.mul_pos pos pos')
        (below_mul pos pos' form form')
      rw [value]
      refine le_result zero_le value rounded (atMost_mul form' ?_)
      exact Nat.le_trans some (Nat.min_le_left ..)

/-- The sign of a zero does not show in an order. -/
theorem lt_result_zero (d : Binary64) (s s' : Sign) :
    d.lt (result (.zero s)) = d.lt (result (.zero s')) := by
  have alike : (result (.zero s)).isNaN = (result (.zero s')).isNaN ∧
      (result (.zero s)).key = (result (.zero s')).key := by
    cases s <;> cases s' <;> decide
  rw [lt, lt, alike.1, alike.2]

variable {d z : Binary64}

theorem lt_mul_congr (same : x.Equals y) (number : z.isNaN = false) :
    d.lt (x * z) = d.lt (y * z) := by
  obtain ⟨number_x, number_y⟩ := numbers_of_le same.1
  have keys := UInt64.toNat_inj.1 ((equals_iff number_x number_y).1 same)
  rcases eq_or_isZero_of_key_eq keys with rfl | ⟨none_x, none_y⟩
  · rfl
  · obtain ⟨s, value_x⟩ := isZero_iff.1 none_x
    obtain ⟨s', value_y⟩ := isZero_iff.1 none_y
    rw [mul_eq number_x number, mul_eq number_y number, value_x, value_y]
    cases value : z.unpacked with
    | notANumber => exact absurd value (unpacked_ne_nan number)
    | infinity t => rfl
    | zero t => exact lt_result_zero d _ _
    | finite t m e pos => exact lt_result_zero d _ _

/-- What is within a bound and less than a multiple of it is less than that multiple of any larger
bound. -/
theorem lt_mul_of_le (zero_le : zero.le x = true) (one_le : one.le z = true)
    (wider : x.le y = true) (within : d.le x = true) (less : d.lt (x * z) = true) :
    d.lt (y * z) = true := by
  obtain ⟨number_x, number_y⟩ := numbers_of_le wider
  cases back : y.le x with
  | true => exact (lt_mul_congr ⟨wider, back⟩ (numbers_of_le one_le).2) ▸ less
  | false =>
      have lt := lt_of_not_le number_y number_x back
      have positive : y.isZero = false := by
        refine Bool.eq_false_iff.2 fun none => ?_
        have below : y.le zero = true := by
          rcases eq_zero_or_negZero none with rfl | rfl <;> decide
        rw [le_trans below zero_le] at back
        cases back
      have above := le_mul (le_trans zero_le wider) one_le (.inl positive)
      exact lt_of_lt_of_le (lt_of_le_of_lt within lt) above

end Vicinity.Binary64
