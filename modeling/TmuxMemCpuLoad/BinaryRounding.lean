import Mathlib.Data.Int.Log
import Mathlib.Data.Rat.Floor
import Mathlib.Tactic.FieldSimp
import Mathlib.Tactic.Linarith
import Mathlib.Tactic.Positivity
import Mathlib.Tactic.Ring

/-!
# Rounding to binary digits

A format with some binary digits and every exponent rounds a rational number to
the nearest of its numbers.  Which one is taken of two that are equally near is
left open.  Rounding is monotone, keeps the small natural numbers and differs
from the exact value by a share of it; shares add up along a computation.
-/

namespace BinaryRounding

/-- A way to round to the nearest integer. -/
structure IntegerRounding where
  round : ℚ → Int
  close : ∀ value, |(round value : ℚ) - value| ≤ 1 / 2
  monotone : ∀ {first second : ℚ}, first ≤ second → round first ≤ round second

/-- The distance of two numbers of the format near a value. -/
def spacing (precision : Nat) (value : ℚ) : ℚ :=
  (2 : ℚ) ^ (Int.log 2 |value| + 1 - (precision : Int))

/-- The number with the given binary digits that is nearest to a value. -/
def IntegerRounding.toPrecision (rounding : IntegerRounding) (precision : Nat) (value : ℚ) : ℚ :=
  rounding.round (value / spacing precision value) * spacing precision value

theorem spacing_pos (precision : Nat) (value : ℚ) : 0 < spacing precision value := by
  exact zpow_pos (by norm_num) _

theorem spacing_mul_two_pow (precision : Nat) (value : ℚ) :
    spacing precision value * 2 ^ precision = (2 : ℚ) ^ (Int.log 2 |value| + 1) := by
  rw [spacing, ← zpow_natCast, ← zpow_add₀ (by norm_num)]
  congr 1
  ring

theorem spacing_of_log_eq {precision : Nat} {first second : ℚ}
    (sameLog : Int.log 2 |first| = Int.log 2 |second|) :
    spacing precision first = spacing precision second := by
  rw [spacing, spacing, sameLog]

/-- The spacing is at most twice the share of the value that the digits
resolve. -/
theorem spacing_le {value : ℚ} (positive : 0 < value) (precision : Nat) :
    spacing precision value * 2 ^ precision ≤ 2 * value := by
  have below := Int.zpow_log_le_self (b := 2) (by norm_num) positive
  rw [spacing_mul_two_pow, abs_of_pos positive, zpow_add_one₀ (by norm_num)]
  push_cast at below
  linarith

theorem lt_spacing {value : ℚ} (nonneg : 0 ≤ value) (precision : Nat) :
    value < spacing precision value * 2 ^ precision := by
  have above := Int.lt_zpow_succ_log_self (b := 2) (by norm_num) value
  rw [spacing_mul_two_pow, abs_of_nonneg nonneg]
  exact_mod_cast above

theorem log_mul_zpow {value : ℚ} (positive : 0 < value) (exponent : Int) :
    Int.log 2 (value * 2 ^ exponent) = Int.log 2 value + exponent := by
  have power : (0 : ℚ) < 2 ^ exponent := zpow_pos (by norm_num) _
  have below := Int.zpow_log_le_self (b := 2) (by norm_num) positive
  have above := Int.lt_zpow_succ_log_self (b := 2) (by norm_num) value
  push_cast at below above
  apply le_antisymm
  · apply Int.lt_add_one_iff.mp
    rw [← Int.lt_zpow_iff_log_lt (by norm_num) (mul_pos positive power)]
    push_cast
    calc value * 2 ^ exponent < 2 ^ (Int.log 2 value + 1) * 2 ^ exponent :=
          mul_lt_mul_of_pos_right above power
      _ = 2 ^ (Int.log 2 value + exponent + 1) := by
          rw [← zpow_add₀ (by norm_num)]
          congr 1
          ring
  · rw [← Int.zpow_le_iff_le_log (by norm_num) (mul_pos positive power)]
    push_cast
    rw [zpow_add₀ (by norm_num)]
    exact mul_le_mul_of_nonneg_right below power.le

namespace IntegerRounding

variable (rounding : IntegerRounding)

@[simp]
theorem round_intCast (value : Int) : rounding.round value = value := by
  have close := abs_le.mp (rounding.close value)
  have above : (rounding.round value : ℚ) < value + 1 := by linarith [close.2]
  have below : (value : ℚ) - 1 < rounding.round value := by linarith [close.1]
  have aboveInt : rounding.round value < value + 1 := by exact_mod_cast above
  have belowInt : value - 1 < rounding.round value := by exact_mod_cast below
  omega

theorem round_le {value : ℚ} {bound : Int} (atMost : value ≤ bound) :
    rounding.round value ≤ bound := by
  have mono := rounding.monotone atMost
  rwa [round_intCast] at mono

theorem le_round {value : ℚ} {bound : Int} (atLeast : (bound : ℚ) ≤ value) :
    bound ≤ rounding.round value := by
  have mono := rounding.monotone atLeast
  rwa [round_intCast] at mono

/-- A multiple of the spacing is a number of the format. -/
theorem toPrecision_of_multiple {precision : Nat} {value : ℚ} {count : Int}
    (multiple : value = count * spacing precision value) :
    rounding.toPrecision precision value = value := by
  have scaled : value / spacing precision value = count :=
    (div_eq_iff (spacing_pos precision value).ne').mpr multiple
  rw [toPrecision, scaled, round_intCast, ← multiple]

@[simp]
theorem toPrecision_zero (precision : Nat) : rounding.toPrecision precision 0 = 0 := by
  have multiple : (0 : ℚ) = ((0 : Int) : ℚ) * spacing precision 0 := by simp
  exact rounding.toPrecision_of_multiple multiple

/-- A natural number of that many binary digits is a number of the format. -/
theorem toPrecision_natCast {precision value : Nat} (fits : value < 2 ^ precision) :
    rounding.toPrecision precision (value : ℚ) = value := by
  rcases Nat.eq_zero_or_pos value with rfl | positive
  · simp
  · have log : Int.log 2 |(value : ℚ)| = Nat.log 2 value := by
      rw [Nat.abs_cast, Int.log_natCast]
    have less : Nat.log 2 value < precision := Nat.log_lt_of_lt_pow positive.ne' fits
    obtain ⟨shift, precisionEq⟩ : ∃ shift, precision = Nat.log 2 value + 1 + shift :=
      ⟨precision - (Nat.log 2 value + 1), by omega⟩
    have unit : spacing precision (value : ℚ) * 2 ^ shift = 1 := by
      rw [spacing, log, ← zpow_natCast, ← zpow_add₀ (by norm_num), precisionEq]
      push_cast
      rw [show (Nat.log 2 value : Int) + 1 - (Nat.log 2 value + 1 + shift) + shift = 0 by ring,
        zpow_zero]
    have multiple : (value : ℚ) =
        ((value * 2 ^ shift : Int) : ℚ) * spacing precision (value : ℚ) := by
      calc (value : ℚ) = value * (spacing precision (value : ℚ) * 2 ^ shift) := by
            rw [unit, mul_one]
        _ = ((value * 2 ^ shift : Int) : ℚ) * spacing precision (value : ℚ) := by
            push_cast
            ring
    exact rounding.toPrecision_of_multiple multiple

/-- Rounding differs from the value by at most half the last of its digits. -/
theorem toPrecision_close (precision : Nat) {value : ℚ} (nonneg : 0 ≤ value) :
    |rounding.toPrecision precision value - value| ≤ value / 2 ^ precision := by
  rcases nonneg.eq_or_lt with rfl | positive
  · simp
  · have unit := spacing_pos precision value
    have scale := spacing_le positive precision
    have close := rounding.close (value / spacing precision value)
    have split : rounding.toPrecision precision value - value =
        (rounding.round (value / spacing precision value) - value / spacing precision value) *
          spacing precision value := by
      rw [toPrecision, sub_mul, div_mul_cancel₀ _ unit.ne']
    have half : spacing precision value / 2 ≤ value / 2 ^ precision := by
      rw [le_div_iff₀ (by positivity)]
      linarith
    calc |rounding.toPrecision precision value - value|
        = |rounding.round (value / spacing precision value) - value / spacing precision value| *
            spacing precision value := by rw [split, abs_mul, abs_of_pos unit]
      _ ≤ 1 / 2 * spacing precision value := mul_le_mul_of_nonneg_right close unit.le
      _ ≤ value / 2 ^ precision := by linarith

theorem toPrecision_nonneg (precision : Nat) {value : ℚ} (nonneg : 0 ≤ value) :
    0 ≤ rounding.toPrecision precision value := by
  have unit := spacing_pos precision value
  have quotient : ((0 : Int) : ℚ) ≤ value / spacing precision value := by
    rw [Int.cast_zero]
    positivity
  have rounded : (0 : ℚ) ≤ rounding.round (value / spacing precision value) := by
    exact_mod_cast rounding.le_round quotient
  exact mul_nonneg rounded unit.le

/-- A value is not rounded past the power of two above it. -/
theorem toPrecision_le_pow (precision : Nat) {value : ℚ} (nonneg : 0 ≤ value) :
    rounding.toPrecision precision value ≤ (2 : ℚ) ^ (Int.log 2 |value| + 1) := by
  have unit := spacing_pos precision value
  have scaled : value / spacing precision value ≤ ((2 ^ precision : Int) : ℚ) := by
    rw [div_le_iff₀ unit, mul_comm]
    push_cast
    exact (lt_spacing nonneg precision).le
  have rounded : (rounding.round (value / spacing precision value) : ℚ) ≤ 2 ^ precision := by
    exact_mod_cast rounding.round_le scaled
  calc rounding.toPrecision precision value
      ≤ 2 ^ precision * spacing precision value := mul_le_mul_of_nonneg_right rounded unit.le
    _ = (2 : ℚ) ^ (Int.log 2 |value| + 1) := by rw [mul_comm, spacing_mul_two_pow]

/-- A value is not rounded past the power of two below it. -/
theorem pow_le_toPrecision {precision : Nat} (digits : 0 < precision) {value : ℚ}
    (positive : 0 < value) :
    (2 : ℚ) ^ Int.log 2 |value| ≤ rounding.toPrecision precision value := by
  have unit := spacing_pos precision value
  obtain ⟨rest, rfl⟩ : ∃ rest, precision = rest + 1 := ⟨precision - 1, by omega⟩
  have power : (2 : ℚ) ^ rest * spacing (rest + 1) value = (2 : ℚ) ^ Int.log 2 |value| := by
    have whole := spacing_mul_two_pow (rest + 1) value
    rw [pow_succ, zpow_add_one₀ (by norm_num)] at whole
    linarith
  have below : (2 : ℚ) ^ Int.log 2 |value| ≤ value := by
    rw [abs_of_pos positive]
    exact_mod_cast Int.zpow_log_le_self (b := 2) (by norm_num) positive
  have scaled : ((2 ^ rest : Int) : ℚ) ≤ value / spacing (rest + 1) value := by
    rw [le_div_iff₀ unit]
    push_cast
    linarith
  have rounded : (2 : ℚ) ^ rest ≤ rounding.round (value / spacing (rest + 1) value) := by
    exact_mod_cast rounding.le_round scaled
  calc (2 : ℚ) ^ Int.log 2 |value|
      = 2 ^ rest * spacing (rest + 1) value := power.symm
    _ ≤ rounding.toPrecision (rest + 1) value := mul_le_mul_of_nonneg_right rounded unit.le

/-- Rounding is monotone: between two powers of two because the spacing is the
same, and across a power of two because neither value is rounded past it. -/
theorem toPrecision_mono {precision : Nat} (digits : 0 < precision) {first second : ℚ}
    (nonneg : 0 ≤ first) (less : first ≤ second) :
    rounding.toPrecision precision first ≤ rounding.toPrecision precision second := by
  rcases nonneg.eq_or_lt with rfl | positive
  · rw [toPrecision_zero]
    exact rounding.toPrecision_nonneg precision less
  · have secondPos : 0 < second := lt_of_lt_of_le positive less
    have logs : Int.log 2 |first| ≤ Int.log 2 |second| := by
      rw [abs_of_pos positive, abs_of_pos secondPos]
      exact Int.log_mono_right positive less
    rcases logs.eq_or_lt with same | apart
    · have unit := spacing_pos precision second
      rw [toPrecision, toPrecision, spacing_of_log_eq same]
      have scaled := rounding.monotone (div_le_div_of_nonneg_right less unit.le)
      exact mul_le_mul_of_nonneg_right (by exact_mod_cast scaled) unit.le
    · calc rounding.toPrecision precision first
          ≤ (2 : ℚ) ^ (Int.log 2 |first| + 1) := rounding.toPrecision_le_pow precision nonneg
        _ ≤ (2 : ℚ) ^ Int.log 2 |second| := zpow_le_zpow_right₀ (by norm_num) (by omega)
        _ ≤ rounding.toPrecision precision second :=
            rounding.pow_le_toPrecision digits secondPos

theorem toPrecision_le_natCast {precision bound : Nat} (fits : bound < 2 ^ precision)
    (digits : 0 < precision) {value : ℚ} (nonneg : 0 ≤ value) (atMost : value ≤ bound) :
    rounding.toPrecision precision value ≤ bound := by
  have mono := rounding.toPrecision_mono digits nonneg atMost
  rwa [toPrecision_natCast rounding fits] at mono

theorem natCast_le_toPrecision {precision bound : Nat} (fits : bound < 2 ^ precision)
    (digits : 0 < precision) {value : ℚ} (atLeast : (bound : ℚ) ≤ value) :
    (bound : ℚ) ≤ rounding.toPrecision precision value := by
  have mono := rounding.toPrecision_mono digits (Nat.cast_nonneg bound) atLeast
  rwa [toPrecision_natCast rounding fits] at mono

/-- A power of two moves the digits and leaves them as they are. -/
theorem toPrecision_mul_zpow (precision : Nat) {value : ℚ} (nonneg : 0 ≤ value)
    (exponent : Int) : rounding.toPrecision precision (value * 2 ^ exponent) =
      rounding.toPrecision precision value * 2 ^ exponent := by
  rcases nonneg.eq_or_lt with rfl | positive
  · simp
  · have power : (0 : ℚ) < 2 ^ exponent := zpow_pos (by norm_num) _
    have unit : spacing precision (value * 2 ^ exponent) =
        spacing precision value * 2 ^ exponent := by
      rw [spacing, spacing, abs_of_pos (mul_pos positive power), abs_of_pos positive,
        log_mul_zpow positive, ← zpow_add₀ (by norm_num)]
      congr 1
      ring
    rw [toPrecision, toPrecision, unit, mul_div_mul_right _ _ power.ne', mul_assoc]

/-- Rounding a number of the format changes nothing. -/
theorem toPrecision_toPrecision {precision : Nat} (digits : 0 < precision) {value : ℚ}
    (nonneg : 0 ≤ value) :
    rounding.toPrecision precision (rounding.toPrecision precision value) =
      rounding.toPrecision precision value := by
  have unit := spacing_pos precision value
  have countNonneg : 0 ≤ rounding.round (value / spacing precision value) := by
    apply rounding.le_round
    push_cast
    positivity
  have countLe : rounding.round (value / spacing precision value) ≤ 2 ^ precision := by
    apply rounding.round_le
    rw [div_le_iff₀ unit, mul_comm]
    push_cast
    exact (lt_spacing nonneg precision).le
  obtain ⟨count, countEq⟩ := Int.eq_ofNat_of_zero_le countNonneg
  have whole : rounding.toPrecision precision (count : ℚ) = count := by
    have atMost : count ≤ 2 ^ precision := by
      rw [countEq] at countLe
      exact_mod_cast countLe
    rcases atMost.lt_or_eq with less | rfl
    · exact rounding.toPrecision_natCast less
    · have one : rounding.toPrecision precision ((1 : Nat) : ℚ) = (1 : Nat) :=
        rounding.toPrecision_natCast (Nat.one_lt_two_pow digits.ne')
      have scaled := rounding.toPrecision_mul_zpow precision zero_le_one (precision : Int)
      rw [Nat.cast_one] at one
      rw [one, one_mul, zpow_natCast] at scaled
      push_cast
      exact scaled
  have split : rounding.toPrecision precision value =
      (count : ℚ) * 2 ^ (Int.log 2 |value| + 1 - (precision : Int)) := by
    rw [toPrecision, countEq, spacing]
    rfl
  rw [split, rounding.toPrecision_mul_zpow precision (Nat.cast_nonneg _), whole]

end IntegerRounding

/-! ## Shares of the exact value -/

/-- The second value differs from the first by at most the given share of it. -/
structure Within (share exact computed : ℚ) : Prop where
  atLeast : exact * (1 - share) ≤ computed
  atMost : computed ≤ exact * (1 + share)

namespace Within

variable {share exact computed : ℚ}

theorem ofShareZero (value : ℚ) : Within 0 value value where
  atLeast := by simp
  atMost := by simp

theorem nonneg (within : Within share exact computed) (exactNonneg : 0 ≤ exact)
    (small : share ≤ 1) : 0 ≤ computed :=
  le_trans (mul_nonneg exactNonneg (by linarith)) within.atLeast

theorem mono (within : Within share exact computed) (exactNonneg : 0 ≤ exact) {larger : ℚ}
    (less : share ≤ larger) : Within larger exact computed where
  atLeast := le_trans (mul_le_mul_of_nonneg_left (by linarith) exactNonneg) within.atLeast
  atMost := le_trans within.atMost (mul_le_mul_of_nonneg_left (by linarith) exactNonneg)

theorem mul_right (within : Within share exact computed) {factor : ℚ} (factorNonneg : 0 ≤ factor) :
    Within share (exact * factor) (computed * factor) where
  atLeast := by
    have scaled := mul_le_mul_of_nonneg_right within.atLeast factorNonneg
    linarith
  atMost := by
    have scaled := mul_le_mul_of_nonneg_right within.atMost factorNonneg
    linarith

theorem add_right (within : Within share exact computed) (shareNonneg : 0 ≤ share) {summand : ℚ}
    (summandNonneg : 0 ≤ summand) : Within share (exact + summand) (computed + summand) := by
  have less := mul_nonneg summandNonneg shareNonneg
  constructor
  · linarith [within.atLeast]
  · linarith [within.atMost]

theorem div_right (within : Within share exact computed) {divisor : ℚ} (positive : 0 < divisor) :
    Within share (exact / divisor) (computed / divisor) := by
  rw [div_eq_mul_inv, div_eq_mul_inv]
  exact within.mul_right (inv_nonneg.mpr positive.le)

/-- Dividing by a computed value at most doubles its share. -/
theorem div_left (within : Within share exact computed) (positive : 0 < exact)
    (shareNonneg : 0 ≤ share) (small : share ≤ 1 / 2) {numerator : ℚ}
    (numeratorNonneg : 0 ≤ numerator) :
    Within (2 * share) (numerator / exact) (numerator / computed) := by
  have computedPos : 0 < computed :=
    lt_of_lt_of_le (mul_pos positive (by linarith)) within.atLeast
  have quotientNonneg : 0 ≤ numerator / exact := by positivity
  have numeratorEq : numerator / exact * exact = numerator :=
    div_mul_cancel₀ _ positive.ne'
  constructor
  · rw [le_div_iff₀ computedPos]
    have shrinks : (1 - 2 * share) * computed ≤ exact := by
      have grown := mul_le_mul_of_nonneg_left within.atMost
        (by linarith : (0 : ℚ) ≤ 1 - 2 * share)
      have product : (1 - 2 * share) * (1 + share) ≤ 1 := by nlinarith
      nlinarith [mul_le_mul_of_nonneg_left product positive.le]
    calc numerator / exact * (1 - 2 * share) * computed
        = numerator / exact * ((1 - 2 * share) * computed) := by ring
      _ ≤ numerator / exact * exact := mul_le_mul_of_nonneg_left shrinks quotientNonneg
      _ = numerator := numeratorEq
  · rw [div_le_iff₀ computedPos]
    have grows : exact ≤ (1 + 2 * share) * computed := by
      have shrunk := mul_le_mul_of_nonneg_left within.atLeast
        (by linarith : (0 : ℚ) ≤ 1 + 2 * share)
      have product : 1 ≤ (1 + 2 * share) * (1 - share) := by nlinarith
      nlinarith [mul_le_mul_of_nonneg_left product positive.le]
    calc numerator = numerator / exact * exact := numeratorEq.symm
      _ ≤ numerator / exact * ((1 + 2 * share) * computed) :=
          mul_le_mul_of_nonneg_left grows quotientNonneg
      _ = numerator / exact * (1 + 2 * share) * computed := by ring

/-- A share of a computed value counts at most twice against the exact one. -/
theorem trans (first : Within share exact computed) (exactNonneg : 0 ≤ exact)
    (small : share ≤ 1) {nextShare next : ℚ} (nextNonneg : 0 ≤ nextShare)
    (second : Within nextShare computed next) : Within (share + 2 * nextShare) exact next := by
  have computedNonneg := first.nonneg exactNonneg small
  have doubled : computed * nextShare ≤ exact * (2 * nextShare) := by
    have atMost : computed ≤ exact * 2 :=
      le_trans first.atMost (mul_le_mul_of_nonneg_left (by linarith) exactNonneg)
    linarith [mul_le_mul_of_nonneg_right atMost nextNonneg]
  constructor
  · linarith [first.atLeast, second.atLeast]
  · linarith [first.atMost, second.atMost]

theorem mul (first : Within share exact computed) (exactNonneg : 0 ≤ exact) (small : share ≤ 1)
    {factorShare factor computedFactor : ℚ} (second : Within factorShare factor computedFactor)
    (factorNonneg : 0 ≤ factor) (shareNonneg : 0 ≤ factorShare) :
    Within (share + 2 * factorShare) (exact * factor) (computed * computedFactor) := by
  have left := first.mul_right factorNonneg
  have right := second.mul_right (first.nonneg exactNonneg small)
  rw [mul_comm factor, mul_comm computedFactor] at right
  exact left.trans (mul_nonneg exactNonneg factorNonneg) small shareNonneg right

theorem div (first : Within share exact computed) (exactNonneg : 0 ≤ exact)
    (small : share ≤ 1) {divisorShare divisor computedDivisor : ℚ}
    (second : Within divisorShare divisor computedDivisor) (positive : 0 < divisor)
    (divisorNonneg : 0 ≤ divisorShare) (divisorSmall : divisorShare ≤ 1 / 2) :
    Within (share + 4 * divisorShare) (exact / divisor) (computed / computedDivisor) := by
  have numerator := first.div_right positive
  have denominator := second.div_left positive divisorNonneg divisorSmall
    (first.nonneg exactNonneg small)
  have both := numerator.trans (div_nonneg exactNonneg positive.le) small
    (by linarith : 0 ≤ 2 * divisorShare) denominator
  exact both.mono (div_nonneg exactNonneg positive.le) (by linarith)

theorem toPrecision (rounding : IntegerRounding) (precision : Nat) {value : ℚ}
    (valueNonneg : 0 ≤ value) :
    Within (1 / 2 ^ precision) value (rounding.toPrecision precision value) := by
  have close := abs_le.mp (rounding.toPrecision_close precision valueNonneg)
  have share : value / 2 ^ precision = value * (1 / 2 ^ precision) := by ring
  rw [share] at close
  constructor
  · linarith [close.1]
  · linarith [close.2]

/-- Each rounding adds its own share, twice, to that of the value it rounds. -/
theorem rounded (within : Within share exact computed) (exactNonneg : 0 ≤ exact)
    (small : share ≤ 1) (rounding : IntegerRounding) (precision : Nat) :
    Within (share + 2 * (1 / 2 ^ precision)) exact
      (rounding.toPrecision precision computed) :=
  within.trans exactNonneg small (by positivity)
    (.toPrecision rounding precision (within.nonneg exactNonneg small))

theorem close (within : Within share exact computed) : |computed - exact| ≤ exact * share := by
  rw [abs_le]
  constructor
  · linarith [within.atLeast]
  · linarith [within.atMost]

/-- Where no integer lies as near to the exact value as the computed one, both
have the same integer part. -/
theorem floor_eq_of_apart (within : Within share exact computed)
    (apart : ∀ whole : Int, exact * share < |exact - whole|) : ⌊computed⌋ = ⌊exact⌋ := by
  have close := abs_le.mp within.close
  have below := apart ⌊exact⌋
  have above := apart (⌊exact⌋ + 1)
  have floorLe := Int.floor_le exact
  have ltFloor := Int.lt_floor_add_one exact
  rw [abs_of_nonneg (by linarith)] at below
  push_cast at above
  rw [abs_of_nonpos (by linarith)] at above
  rw [Int.floor_eq_iff]
  constructor <;> linarith [close.1, close.2]

/-- A fraction that is no integer lies a unit of its numerator off the integers
beside it, so a value that is nearer has the same integer part. -/
theorem floor_eq {numerator denominator : Nat} (positive : 0 < denominator)
    (within : Within share ((numerator : ℚ) / denominator) computed)
    (between : ¬ denominator ∣ numerator) (small : numerator * share < 1) :
    ⌊computed⌋ = (numerator / denominator : Nat) := by
  have cast : (0 : ℚ) < denominator := by exact_mod_cast positive
  have rest : 1 ≤ numerator % denominator := Nat.pos_of_ne_zero fun zero =>
    between (Nat.dvd_of_mod_eq_zero zero)
  have less := Nat.mod_lt numerator positive
  have division := Nat.div_add_mod numerator denominator
  have above : denominator * (numerator / denominator) + 1 ≤ numerator := by omega
  have below : numerator + 1 ≤ denominator * (numerator / denominator) + denominator := by omega
  have aboveCast : (denominator : ℚ) * (numerator / denominator : Nat) + 1 ≤ numerator := by
    exact_mod_cast above
  have belowCast : (numerator : ℚ) + 1 ≤
      denominator * (numerator / denominator : Nat) + denominator := by
    exact_mod_cast below
  rw [Int.floor_eq_iff, Int.cast_natCast]
  constructor
  · apply le_of_mul_le_mul_left _ cast
    calc (denominator : ℚ) * (numerator / denominator : Nat)
        ≤ numerator * (1 - share) := by linarith
      _ = denominator * ((numerator : ℚ) / denominator * (1 - share)) := by
          field_simp
      _ ≤ denominator * computed := mul_le_mul_of_nonneg_left within.atLeast cast.le
  · apply lt_of_mul_lt_mul_left _ cast.le
    calc (denominator : ℚ) * computed
        ≤ denominator * ((numerator : ℚ) / denominator * (1 + share)) :=
          mul_le_mul_of_nonneg_left within.atMost cast.le
      _ = numerator * (1 + share) := by field_simp
      _ < denominator * ((numerator / denominator : Nat) + 1) := by linarith

end Within

end BinaryRounding
