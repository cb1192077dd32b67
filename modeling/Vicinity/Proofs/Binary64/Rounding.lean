import Mathlib
import Vicinity.Proofs.Binary64

/-!
Rounding to double precision.

A finite word is a significand with an exponent, and among the forms that words have, one that is
greater has the greater magnitude (`place`). Rounding keeps the sign and does not get below a form
that is not above the exact value (`RoundsTo`). The bits of a word are its sign and its magnitude,
whether a value is packed (`toNat_pack`) or a word unpacked (`stands_unpack`).
-/

open Float.Model Float.Model.UnpackedFloat

namespace Vicinity.Rounding

/-! ### Values -/

/-- The form in which a word has its significand and exponent: the significand is full unless the
exponent is the least one. -/
structure Canonical (m : Nat) (e : Int) : Prop where
  lt : m < 2 ^ 53
  least : -1074 ≤ e
  full : -1074 < e → 2 ^ 52 ≤ m

/-- The magnitude of the word for a significand and an exponent, as if there were a word for any. -/
def place (m : Nat) (e : Int) : Nat := (e + 1074).toNat * 2 ^ 52 + m

/-- A finite value is in the form of a word. -/
def Proper : UnpackedFloat → Prop
  | .notANumber | .infinity _ | .zero _ => True
  | .finite _ m e _ => Canonical m e

/-- The sign, positive for a NaN. -/
def sign : UnpackedFloat → Sign
  | .notANumber => .positive
  | .infinity s | .zero s | .finite s _ _ _ => s

/-- The bits of the magnitude; what is beyond the greatest word becomes infinite. -/
def height : UnpackedFloat → Nat
  | .notANumber => 2047 * 2 ^ 52 + 2 ^ 51
  | .infinity _ => 2047 * 2 ^ 52
  | .zero _ => 0
  | .finite _ m e _ => min (place m e) (2047 * 2 ^ 52)

/-- The first value is not above the second. -/
def AtMost (m₁ : Nat) (e₁ : Int) (m₂ : Nat) (e₂ : Int) : Prop :=
  m₁ * 2 ^ (e₁ - e₂).toNat ≤ m₂ * 2 ^ (e₂ - e₁).toNat

/-- The exponent that a value is rounded to. -/
def target (m : Nat) (e : Int) : Int := max (m.log2 + e - 52) (-1074)

theorem targetExponent_eq (m : Nat) (e : Int) :
    Format.binary64.targetExponent (totalExponent m e) = target m e := by
  simp only [Format.targetExponent, totalExponent, Format.mantissaBits, Format.minExponent, target]
  norm_num
  omega

theorem log2_mul_two_pow {m : Nat} (pos : 0 < m) (k : Nat) :
    (m * 2 ^ k).log2 = m.log2 + k := by
  have pow_pos : 0 < m * 2 ^ k := Nat.mul_pos pos (Nat.two_pow_pos k)
  refine (Nat.log2_eq_iff pow_pos.ne').2 ⟨?_, ?_⟩
  · rw [Nat.pow_add]
    exact Nat.mul_le_mul_right _ (Nat.log2_self_le pos.ne')
  · rw [Nat.add_right_comm, Nat.pow_add]
    exact Nat.mul_lt_mul_of_pos_right Nat.lt_log2_self (Nat.two_pow_pos k)

theorem log2_le_log2 {m n : Nat} (pos : 0 < m) (le : m ≤ n) : m.log2 ≤ n.log2 :=
  (Nat.le_log2 (by omega)).2 (le_trans (Nat.log2_self_le pos.ne') le)

theorem log2_le_of_atMost {m₁ m₂ : Nat} {e₁ e₂ : Int} (pos : 0 < m₁)
    (atMost : AtMost m₁ e₁ m₂ e₂) : (m₁.log2 : Int) + e₁ ≤ m₂.log2 + e₂ := by
  have scaled_pos : 0 < m₁ * 2 ^ (e₁ - e₂).toNat := Nat.mul_pos pos (Nat.two_pow_pos _)
  have pos₂ : 0 < m₂ := Nat.pos_of_mul_pos_right (lt_of_lt_of_le scaled_pos atMost)
  have digits := log2_le_log2 scaled_pos atMost
  rw [log2_mul_two_pow pos, log2_mul_two_pow pos₂] at digits
  omega

/-- A form that is not above a value has no greater exponent than the value is rounded to. -/
theorem Canonical.le_target {m₁ m₂ : Nat} {e₁ e₂ : Int} (form : Canonical m₁ e₁)
    (atMost : AtMost m₁ e₁ m₂ e₂) : e₁ ≤ target m₂ e₂ := by
  by_cases least : e₁ ≤ -1074
  · exact le_trans least (le_max_right ..)
  · have full := form.full (by omega)
    have digits : 52 ≤ m₁.log2 := (Nat.le_log2 (by omega)).2 full
    have := log2_le_of_atMost (by omega) atMost
    rw [target]
    omega

/-! ### Shifting -/

theorem mantissa_shiftRight (em : ExtendedMantissa) (k : Nat) :
    (em >>> k).mantissa = em.mantissa / 2 ^ k := by
  induction k with
  | zero => rw [Nat.pow_zero, Nat.div_one]; rfl
  | succ k ih =>
      have step : (em >>> (k + 1)).mantissa = (em >>> k).mantissa / 2 := rfl
      rw [step, ih, Nat.div_div_eq_div_mul, Nat.pow_succ]

theorem le_roundedMantissa (em : ExtendedMantissa) :
    em.mantissa ≤ em.roundedMantissa ∧ em.roundedMantissa ≤ em.mantissa + 1 := by
  obtain ⟨m, round, sticky⟩ := em
  cases round <;> cases sticky <;>
    simp only [ExtendedMantissa.roundedMantissa, ExtendedMantissa.accuracy,
      Accuracy.roundToNearestEven] <;> omega

/-- The significand has 53 digits left at most. -/
theorem div_lt (m : Nat) {k : Nat} (digits : m.log2 ≤ 52 + k) : m / 2 ^ k < 2 ^ 53 := by
  rw [Nat.div_lt_iff_lt_mul (Nat.two_pow_pos k), ← Nat.pow_add]
  exact lt_of_lt_of_le Nat.lt_log2_self (Nat.pow_le_pow_right (by decide) (by omega))

theorem le_div {m : Nat} (pos : 0 < m) {k : Nat} (digits : m.log2 = 52 + k) :
    2 ^ 52 ≤ m / 2 ^ k := by
  rw [Nat.le_div_iff_mul_le (Nat.two_pow_pos k), ← Nat.pow_add, ← digits]
  exact Nat.log2_self_le pos.ne'

/-- Rounding cuts off digits up to the target exponent. -/
theorem shiftToTargetExponent_eq {m : Nat} {e : Int} (below : e ≤ target m e) :
    shiftToTargetExponent Format.binary64 m e .exact =
      ((⟨m, false, false⟩ : ExtendedMantissa) >>> (target m e - e).toNat, target m e) := by
  rw [shiftToTargetExponent, targetExponent_eq, shiftToExponent]
  refine Prod.ext rfl ?_
  dsimp only
  omega

/-- Nothing is cut off a significand that has room. -/
theorem shiftToTargetExponent_of_lt {m : Nat} {e : Int} (lt : m < 2 ^ 53) (least : -1074 ≤ e) :
    shiftToTargetExponent Format.binary64 m e .exact = (⟨m, false, false⟩, e) := by
  have digits : m.log2 ≤ 52 := by
    rcases Nat.eq_zero_or_pos m with rfl | pos
    · decide
    · exact Nat.lt_succ_iff.1 ((Nat.log2_lt pos.ne').2 lt)
  have stays : (target m e - e).toNat = 0 := by
    rw [target]
    omega
  rw [shiftToTargetExponent, targetExponent_eq, shiftToExponent, stays]
  exact Prod.ext rfl (Int.add_zero e)

theorem target_two_pow {e : Int} (least : -1074 ≤ e) : target (2 ^ 53) e = e + 1 := by
  rw [target, Nat.log2_two_pow]
  omega

/-- One digit is cut off a significand that has one too many. -/
theorem shiftToTargetExponent_two_pow {e : Int} (least : -1074 ≤ e) :
    shiftToTargetExponent Format.binary64 (2 ^ 53) e .exact = (⟨2 ^ 52, false, false⟩, e + 1) := by
  have one : (e + 1 - e).toNat = 1 := by omega
  have above := target_two_pow least
  rw [shiftToTargetExponent_eq (by omega), above, one]
  rfl

/-! ### Rounding -/

/-- A finite value, or a zero if the significand is one. -/
def ofParts (sign : Sign) (m : Nat) (e : Int) : UnpackedFloat :=
  if h : m = 0 then .zero sign else .finite sign m e (Nat.pos_of_ne_zero h)

theorem roundWithAccuracy_eq (sign : Sign) (m : Nat) (e : Int) :
    roundWithAccuracy Format.binary64 sign m e .exact =
      let first := shiftToTargetExponent Format.binary64 m e .exact
      let second := shiftToTargetExponent Format.binary64 first.1.roundedMantissa first.2 .exact
      ofParts sign second.1.mantissa second.2 := rfl

/-- What a value is rounded to. -/
structure RoundsTo (s : Sign) (m : Nat) (e : Int) (u : UnpackedFloat) : Prop where
  proper : Proper u
  number : u ≠ .notANumber
  sign_eq : sign u = s
  /-- A form that is not above the exact value is not above the rounded one. -/
  height_le : ∀ m₁ e₁, Canonical m₁ e₁ → AtMost m₁ e₁ m e →
    min (place m₁ e₁) (2047 * 2 ^ 52) ≤ height u

theorem roundsTo_ofParts {s : Sign} {m r : Nat} {e t : Int} (form : Canonical r t)
    (above : ∀ m₁ e₁, Canonical m₁ e₁ → AtMost m₁ e₁ m e → place m₁ e₁ ≤ place r t) :
    RoundsTo s m e (ofParts s r t) := by
  unfold ofParts
  split
  case isTrue none =>
    subst none
    have least : t = -1074 := by
      have := form.least
      have := form.full
      omega
    have bottom : place 0 t = 0 := by rw [least]; rfl
    refine ⟨trivial, nofun, rfl, fun m₁ e₁ form₁ atMost => ?_⟩
    have := above m₁ e₁ form₁ atMost
    rw [height]
    omega
  case isFalse some =>
    refine ⟨form, nofun, rfl, fun m₁ e₁ form₁ atMost => ?_⟩
    have := above m₁ e₁ form₁ atMost
    rw [height]
    omega

/-- A significand that is rounded up to one digit more is as good as the next exponent. -/
theorem roundsTo_roundWithAccuracy (s : Sign) {m : Nat} {e : Int} (pos : 0 < m)
    (below : e ≤ target m e) :
    RoundsTo s m e (roundWithAccuracy Format.binary64 s m e .exact) := by
  have least : -1074 ≤ target m e := le_max_right ..
  have exponent : m.log2 + e - 52 ≤ target m e := le_max_left ..
  let k := (target m e - e).toNat
  let r := ((⟨m, false, false⟩ : ExtendedMantissa) >>> k).roundedMantissa
  have cut : m / 2 ^ k ≤ r ∧ r ≤ m / 2 ^ k + 1 := by
    have := le_roundedMantissa ((⟨m, false, false⟩ : ExtendedMantissa) >>> k)
    rwa [mantissa_shiftRight] at this
  have short : m / 2 ^ k < 2 ^ 53 := div_lt m (by omega)
  have long : -1074 < target m e → 2 ^ 52 ≤ m / 2 ^ k := by
    intro more
    refine le_div pos ?_
    have : target m e = m.log2 + e - 52 := by
      rw [target] at more ⊢
      omega
    omega
  have above : ∀ m₁ e₁, Canonical m₁ e₁ → AtMost m₁ e₁ m e →
      place m₁ e₁ ≤ (target m e + 1074).toNat * 2 ^ 52 + r := by
    intro m₁ e₁ form atMost
    have := form.lt
    have := form.least
    rcases Int.le_iff_lt_or_eq.1 (form.le_target atMost) with less | same
    · have := long (by omega)
      rw [place]
      omega
    · have : m₁ ≤ m / 2 ^ k := by
        rw [AtMost, same, Int.toNat_of_nonpos (by omega : e - target m e ≤ 0), Nat.pow_zero,
          Nat.mul_one] at atMost
        exact (Nat.le_div_iff_mul_le (Nat.two_pow_pos k)).2 atMost
      rw [place, same]
      omega
  rw [roundWithAccuracy_eq, shiftToTargetExponent_eq below]
  change RoundsTo s m e
    ((fun second : ExtendedMantissa × Int => ofParts s second.1.mantissa second.2)
      (shiftToTargetExponent Format.binary64 r (target m e) .exact))
  by_cases room : r < 2 ^ 53
  · rw [shiftToTargetExponent_of_lt room least]
    exact roundsTo_ofParts ⟨room, least, fun more => le_trans (long more) cut.1⟩ above
  · have full : r = 2 ^ 53 := by omega
    rw [full, shiftToTargetExponent_two_pow least]
    have form : Canonical (2 ^ 52) (target m e + 1) := ⟨by omega, by omega, fun _ => le_refl _⟩
    change RoundsTo s m e (ofParts s (2 ^ 52) (target m e + 1))
    refine roundsTo_ofParts form fun m₁ e₁ form₁ atMost => ?_
    refine le_trans (above m₁ e₁ form₁ atMost) ?_
    rw [place, full]
    omega

/-- The comparison may be made at any exponent that is low enough. -/
theorem atMost_iff {m₁ m₂ : Nat} {e₁ e₂ b : Int} (le₁ : b ≤ e₁) (le₂ : b ≤ e₂) :
    AtMost m₁ e₁ m₂ e₂ ↔ m₁ * 2 ^ (e₁ - b).toNat ≤ m₂ * 2 ^ (e₂ - b).toNat := by
  let low := min e₁ e₂
  have first : (e₁ - b).toNat = (e₁ - e₂).toNat + (low - b).toNat := by omega
  have second : (e₂ - b).toNat = (e₂ - e₁).toNat + (low - b).toNat := by omega
  rw [AtMost, first, second, Nat.pow_add, Nat.pow_add, ← Nat.mul_assoc, ← Nat.mul_assoc]
  exact (Nat.mul_le_mul_right_iff (Nat.two_pow_pos _)).symm

theorem roundsTo_round (s : Sign) {m : Nat} (e : Int) (pos : 0 < m) :
    RoundsTo s m e (UnpackedFloat.round Format.binary64 s m e) := by
  let k := (e - target m e).toNat
  have shifted : UnpackedFloat.round Format.binary64 s m e =
      roundWithAccuracy Format.binary64 s (m * 2 ^ k) (e - k) .exact := by
    rw [UnpackedFloat.round, targetExponent_eq, decreaseExponent, Nat.shiftLeft_eq]
  have pos' : 0 < m * 2 ^ k := Nat.mul_pos pos (Nat.two_pow_pos k)
  have same : target (m * 2 ^ k) (e - k) = target m e := by
    rw [target, target, log2_mul_two_pow pos]
    omega
  have rounded := roundsTo_roundWithAccuracy s pos' (show e - k ≤ _ by rw [same]; omega)
  rw [shifted]
  refine ⟨rounded.proper, rounded.number, rounded.sign_eq, fun m₁ e₁ form atMost => ?_⟩
  refine rounded.height_le m₁ e₁ form ?_
  have low : min e₁ (e - k) ≤ e := by omega
  rw [atMost_iff (min_le_left e₁ (e - k)) low] at atMost
  rw [atMost_iff (min_le_left e₁ (e - k)) (min_le_right e₁ (e - k)), Nat.mul_assoc, ← Nat.pow_add]
  have digits : k + (e - k - min e₁ (e - k)).toNat = (e - min e₁ (e - k)).toNat := by omega
  rwa [digits]

/-! ### Packing -/

theorem toNat_packComponents (sign : Sign) (exponent : BitVec 11) (fraction : BitVec 52) :
    (packComponents Format.binary64 sign exponent fraction).toNat =
      sign.toBitVec.toNat * 2 ^ 63 + (exponent.toNat * 2 ^ 52 + fraction.toNat) := by
  have appended : ∀ a : BitVec 1, (a ++ exponent ++ fraction).toNat =
      a.toNat * 2 ^ 63 + (exponent.toNat * 2 ^ 52 + fraction.toNat) := by
    intro a
    rw [BitVec.toNat_append, BitVec.toNat_append, ← Nat.shiftLeft_add_eq_or_of_lt exponent.isLt,
      ← Nat.shiftLeft_add_eq_or_of_lt fraction.isLt, Nat.shiftLeft_eq, Nat.shiftLeft_eq]
    omega
  exact appended _

theorem toNat_unpackMantissa (b : BitVec 64) :
    (@unpackMantissa Format.binary64 b).toNat = b.toNat % 2 ^ 52 := by
  rw [unpackMantissa, BitVec.toNat_cast, BitVec.extractLsb_toNat]
  rfl

theorem toNat_unpackExponent (b : BitVec 64) :
    (@unpackExponent Format.binary64 b).toNat = b.toNat / 2 ^ 52 % 2 ^ 11 := by
  rw [unpackExponent, BitVec.toNat_cast, BitVec.extractLsb_toNat, Nat.shiftRight_eq_div_pow]
  rfl

theorem toNat_unpackSign (b : BitVec 64) :
    (@unpackSign Format.binary64 b).toNat = b.toNat / 2 ^ 63 := by
  rw [unpackSign, BitVec.toNat_cast, BitVec.extractLsb_toNat, Nat.shiftRight_eq_div_pow]
  have bound := b.isLt
  have small : b.toNat / 2 ^ 63 < 2 := by omega
  exact Nat.mod_eq_of_lt small

theorem toNat_packedInfinity (s : Sign) :
    (packedInfinity Format.binary64 s).toNat = s.toBitVec.toNat * 2 ^ 63 + 2047 * 2 ^ 52 :=
  toNat_packComponents s _ _

theorem pack_finite (s : Sign) (m : Nat) (e : Int) (pos : 0 < m) :
    UnpackedFloat.pack Format.binary64 (.finite s m e pos) =
      if 2048 ≤ (e + 1023 + 52).toNat + 1 then packedInfinity Format.binary64 s
      else if m.log2 + 1 = 53 then
        packComponents Format.binary64 s (BitVec.ofNat 11 (e + 1023 + 52).toNat) (BitVec.ofNat 52 m)
      else packComponents Format.binary64 s 0#11 (BitVec.ofNat 52 m) := rfl

theorem toNat_pack_finite (s : Sign) {m : Nat} {e : Int} (pos : 0 < m) (form : Canonical m e) :
    (UnpackedFloat.pack Format.binary64 (.finite s m e pos)).toNat =
      s.toBitVec.toNat * 2 ^ 63 + min (place m e) (2047 * 2 ^ 52) := by
  have least := form.least
  have lt := form.lt
  rw [pack_finite, place]
  split
  case isTrue beyond =>
    have full := form.full (by omega)
    rw [toNat_packedInfinity]
    omega
  case isFalse fits =>
    split
    case isTrue normal =>
      have full := ((Nat.log2_eq_iff pos.ne').1 (Nat.succ.inj normal)).1
      rw [toNat_packComponents, BitVec.toNat_ofNat, BitVec.toNat_ofNat]
      omega
    case isFalse short =>
      have small : m < 2 ^ 52 := by
        refine (Nat.log2_lt pos.ne').1 ?_
        have := (Nat.log2_lt pos.ne').2 lt
        omega
      have : e = -1074 := by
        have := form.full
        omega
      rw [toNat_packComponents, BitVec.toNat_ofNat, BitVec.toNat_ofNat]
      omega

theorem toNat_pack {u : UnpackedFloat} (proper : Proper u) :
    (UnpackedFloat.pack Format.binary64 u).toNat =
      (sign u).toBitVec.toNat * 2 ^ 63 + height u := by
  cases u with
  | notANumber => exact toNat_packComponents _ _ _
  | infinity s => exact toNat_packComponents s _ _
  | zero s => exact toNat_packComponents s _ _
  | finite s m e pos => exact toNat_pack_finite s pos proper

theorem toNat_one_append (f : BitVec 52) : (1#1 ++ f).toNat = 2 ^ 52 + f.toNat := by
  rw [BitVec.toNat_append, ← Nat.shiftLeft_add_eq_or_of_lt f.isLt, Nat.shiftLeft_eq]
  rfl

/-- The value that bits stand for. -/
structure Stands (bits : Nat) (u : UnpackedFloat) : Prop where
  proper : Proper u
  nan : u = .notANumber ↔ 2047 * 2 ^ 52 < bits % 2 ^ 63
  bits_eq : u ≠ .notANumber → bits = (sign u).toBitVec.toNat * 2 ^ 63 + height u

theorem stands_finite {bits m : Nat} {e : Int} {s : Sign} (pos : 0 < m) (form : Canonical m e)
    (fits : place m e < 2047 * 2 ^ 52)
    (same : bits = s.toBitVec.toNat * 2 ^ 63 + place m e) : Stands bits (.finite s m e pos) := by
  refine ⟨form, iff_of_false nofun (by omega), fun _ => ?_⟩
  rw [sign, height]
  omega

/-- Bits are unpacked into the value that they stand for. -/
theorem stands_unpack (b : BitVec 64) :
    Stands b.toNat (UnpackedFloat.unpack Format.binary64 b) := by
  have bound := b.isLt
  have fraction := toNat_unpackMantissa b
  have exponent := toNat_unpackExponent b
  have signed : (Sign.ofBitVec (@unpackSign Format.binary64 b)).toBitVec.toNat =
      b.toNat / 2 ^ 63 := by
    rw [Sign.toBitVec_ofBitVec, toNat_unpackSign]
  have all_ones : @unpackExponent Format.binary64 b = -1#_ ↔
      b.toNat / 2 ^ 52 % 2 ^ 11 = 2047 := by
    rw [← BitVec.toNat_inj, exponent]
    rfl
  have no_ones : @unpackExponent Format.binary64 b = 0#_ ↔
      b.toNat / 2 ^ 52 % 2 ^ 11 = 0 := by
    rw [← BitVec.toNat_inj, exponent]
    rfl
  have no_fraction : @unpackMantissa Format.binary64 b = 0#_ ↔ b.toNat % 2 ^ 52 = 0 := by
    rw [← BitVec.toNat_inj, fraction]
    rfl
  rw [UnpackedFloat.unpack]
  dsimp only
  split
  case isTrue special =>
    have special := all_ones.1 special
    split
    case isTrue infinite =>
      have infinite := no_fraction.1 infinite
      refine ⟨trivial, iff_of_false nofun (by omega), fun _ => ?_⟩
      rw [sign, height, signed]
      omega
    case isFalse payload =>
      have payload := mt no_fraction.2 payload
      exact ⟨trivial, iff_of_true rfl (by omega), fun number => absurd rfl number⟩
  case isFalse ordinary =>
    have ordinary := mt all_ones.2 ordinary
    split
    case isTrue small =>
      have small := no_ones.1 small
      split
      case isTrue none =>
        have none := no_fraction.1 none
        refine ⟨trivial, iff_of_false nofun (by omega), fun _ => ?_⟩
        rw [sign, height, signed]
        omega
      case isFalse some =>
        have some := mt no_fraction.2 some
        have least : ((@unpackExponent Format.binary64 b).toNat : Int) -
            ((Format.binary64.exponentBias : Int) + 52) + 1 = -1074 := by
          rw [exponent, small]
          rfl
        refine stands_finite _ ⟨?_, ?_, ?_⟩ ?_ ?_
        · rw [fraction]
          omega
        · exact least.ge
        · exact fun less => absurd less (not_lt.2 least.le)
        · rw [place, fraction]
          omega
        · rw [place, fraction, signed]
          omega
    case isFalse normal =>
      have normal := mt no_ones.2 normal
      have shifted : ((@unpackExponent Format.binary64 b).toNat : Int) -
          ((Format.binary64.exponentBias : Int) + 52) =
            (b.toNat / 2 ^ 52 % 2 ^ 11 : Nat) - 1075 := by
        rw [exponent]
        rfl
      refine stands_finite _ ⟨?_, ?_, ?_⟩ ?_ ?_
      · rw [toNat_one_append, fraction]
        omega
      · omega
      · intro _
        rw [toNat_one_append]
        omega
      · rw [place, toNat_one_append, fraction]
        omega
      · rw [place, toNat_one_append, fraction, signed]
        omega

end Vicinity.Rounding
