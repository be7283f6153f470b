import TmuxMemCpuLoad.StandardOutcome
import Mathlib.Data.Int.Log
import Mathlib.Data.Rat.Floor
import Mathlib.Tactic.Common
import Mathlib.Tactic.Positivity
import Mathlib.Tactic.Ring

/-!
# Decimal texts of numbers

The texts that `printf` and the standard streams give to integers and to
exactly represented floating-point values in the C locale.
-/

namespace StandardCxx

/-- `%u`. -/
def unsignedText (value : Nat) : List Char :=
  Nat.toDigits 10 value

/-- `%d`. -/
def signedText (value : Int) : List Char :=
  if value < 0 then '-' :: Nat.toDigits 10 value.natAbs
  else Nat.toDigits 10 value.natAbs

/-- Nearest integer, ties going to the even one. -/
def roundHalfEven (value : ℚ) : Int :=
  let below := ⌊value⌋
  if value - below < 1 / 2 then below
  else if 1 / 2 < value - below then below + 1
  else if below % 2 = 0 then below
  else below + 1

/-- Digits of a number, with leading zeros up to the given width. -/
def paddedDigits (width value : Nat) : List Char :=
  List.replicate (width - (Nat.toDigits 10 value).length) '0' ++
    Nat.toDigits 10 value

def signText (value : ℚ) : List Char :=
  if value < 0 then ['-'] else []

/-- `%.<precision>f`. -/
def fixedText (precision : Nat) (value : ℚ) : List Char :=
  let scaled := (roundHalfEven (|value| * 10 ^ precision)).toNat
  let fraction :=
    if precision = 0 then []
    else '.' :: paddedDigits precision (scaled % 10 ^ precision)
  signText value ++ Nat.toDigits 10 (scaled / 10 ^ precision) ++ fraction

/-- Trailing zeros of a fraction, and a point left without digits, are not
written in the general notation. -/
def dropTrailingZeros (text : List Char) : List Char :=
  if text.contains '.' then
    ((text.reverse.dropWhile (· == '0')).dropWhile (· == '.')).reverse
  else text

/-- `%.<precision>g`. -/
def generalText (precision : Nat) (value : ℚ) : List Char :=
  if value = 0 then ['0']
  else
    let significant := max 1 precision
    let mantissa : Int → Nat := fun exponent =>
      (roundHalfEven (|value| * (10 : ℚ) ^ ((significant : Int) - 1 - exponent))).toNat
    let leading := Int.log 10 |value|
    -- rounding to the significant digits may carry into one digit more
    let exponent :=
      if mantissa leading = 10 ^ significant then leading + 1 else leading
    if -4 ≤ exponent ∧ exponent < significant then
      dropTrailingZeros
        (fixedText ((significant : Int) - 1 - exponent).toNat value)
    else
      let digits := Nat.toDigits 10 (mantissa exponent)
      signText value ++
        dropTrailingZeros (digits.take 1 ++ '.' :: digits.drop 1) ++
        'e' :: (if exponent < 0 then '-' else '+') ::
          paddedDigits 2 exponent.natAbs

/-- A number of hundredths with two decimals. -/
def hundredthsText (hundredths : Nat) : List Char :=
  Nat.toDigits 10 (hundredths / 100) ++ '.' :: paddedDigits 2 (hundredths % 100)

@[simp]
theorem roundHalfEven_natCast (value : Nat) : roundHalfEven (value : ℚ) = value := by
  simp [roundHalfEven]

theorem roundHalfEven_le {value : ℚ} {bound : Int} (atMost : value ≤ bound) :
    roundHalfEven value ≤ bound := by
  have floorLe : ⌊value⌋ ≤ bound := by
    have := Int.floor_le_floor atMost
    simpa using this
  unfold roundHalfEven
  simp only []
  by_cases reached : ⌊value⌋ = bound
  · have small : value - ⌊value⌋ < 1 / 2 := by
      rw [reached]
      linarith
    rw [if_pos small]
    exact floorLe
  · split_ifs <;> omega

theorem signText_of_nonneg {value : ℚ} (nonneg : 0 ≤ value) : signText value = [] :=
  if_neg (not_lt.mpr nonneg)

theorem fixedText_hundredths (hundredths : Nat) :
    fixedText 2 ((hundredths : ℚ) / 100) = hundredthsText hundredths := by
  have nonneg : (0 : ℚ) ≤ (hundredths : ℚ) / 100 := by positivity
  have scaled : |(hundredths : ℚ) / 100| * 10 ^ 2 = (hundredths : ℚ) := by
    rw [abs_of_nonneg nonneg]
    ring
  simp [fixedText, hundredthsText, scaled, signText_of_nonneg nonneg]

/-- The characters that occur in a number written in fixed notation. -/
def FixedChar (char : Char) : Prop :=
  char.isDigit = true ∨ char = '.' ∨ char = '-'

theorem fixedChar_of_mem_toDigits {value : Nat} {char : Char}
    (member : char ∈ Nat.toDigits 10 value) : FixedChar char :=
  Or.inl (Nat.isDigit_of_mem_toDigits (by decide) (by decide) member)

theorem fixedChar_of_mem_unsignedText {value : Nat} {char : Char}
    (member : char ∈ unsignedText value) : FixedChar char :=
  fixedChar_of_mem_toDigits member

theorem fixedChar_of_mem_paddedDigits {width value : Nat} {char : Char}
    (member : char ∈ paddedDigits width value) : FixedChar char := by
  rcases List.mem_append.mp member with zero | digit
  · rw [List.eq_of_mem_replicate zero]
    exact Or.inl (by decide)
  · exact fixedChar_of_mem_toDigits digit

theorem fixedChar_of_mem_hundredthsText {hundredths : Nat} {char : Char}
    (member : char ∈ hundredthsText hundredths) : FixedChar char := by
  rcases List.mem_append.mp member with integer | fraction
  · exact fixedChar_of_mem_toDigits integer
  · rcases List.mem_cons.mp fraction with point | digit
    · exact Or.inr (Or.inl point)
    · exact fixedChar_of_mem_paddedDigits digit

theorem fixedChar_of_mem_signText {value : ℚ} {char : Char}
    (member : char ∈ signText value) : FixedChar char := by
  unfold signText at member
  split at member
  · exact Or.inr (Or.inr (by simpa using member))
  · simp at member

theorem fixedChar_of_mem_fixedText {precision : Nat} {value : ℚ} {char : Char}
    (member : char ∈ fixedText precision value) : FixedChar char := by
  simp only [fixedText, List.mem_append] at member
  rcases member with (sign | integer) | fraction
  · exact fixedChar_of_mem_signText sign
  · exact fixedChar_of_mem_toDigits integer
  · split at fraction
    · simp at fraction
    · rcases List.mem_cons.mp fraction with point | digit
      · exact Or.inr (Or.inl point)
      · exact fixedChar_of_mem_paddedDigits digit

/-! ## Lengths -/

theorem length_paddedDigits {width value : Nat} (positive : 0 < width)
    (less : value < 10 ^ width) : (paddedDigits width value).length = width := by
  have digits := (Nat.length_toDigits_le_iff (by decide) positive).mpr less
  simp only [paddedDigits, List.length_append, List.length_replicate]
  omega

/-- A number with at most `digits` digits before the point and one after it. -/
theorem length_fixedText_one {value : ℚ} {tenths digits : Nat} (nonneg : 0 ≤ value)
    (positive : 0 < digits) (atMost : value * 10 ≤ tenths)
    (less : tenths < 10 ^ (digits + 1)) :
    (fixedText 1 value).length ≤ digits + 2 := by
  have scaledLe : roundHalfEven (|value| * 10 ^ 1) ≤ tenths := by
    apply roundHalfEven_le
    rw [abs_of_nonneg nonneg, pow_one]
    exact_mod_cast atMost
  have scaledLt : (roundHalfEven (|value| * 10 ^ 1)).toNat < 10 ^ (digits + 1) := by
    omega
  simp only [fixedText, signText_of_nonneg nonneg, List.nil_append, List.length_append,
    List.length_cons, one_ne_zero, if_false]
  generalize (roundHalfEven (|value| * 10 ^ 1)).toNat = scaled at scaledLt
  have integer : (Nat.toDigits 10 (scaled / 10 ^ 1)).length ≤ digits := by
    apply (Nat.length_toDigits_le_iff (by decide) positive).mpr
    rw [pow_succ] at scaledLt
    omega
  have fraction : (paddedDigits 1 (scaled % 10 ^ 1)).length = 1 :=
    length_paddedDigits (by decide) (Nat.mod_lt _ (by decide))
  omega

/-! ## The decimal point -/

theorem count_point_toDigits (value : Nat) : (Nat.toDigits 10 value).count '.' = 0 := by
  apply List.count_eq_zero.mpr
  intro member
  have digit := Nat.isDigit_of_mem_toDigits (by decide) (by decide) member
  exact absurd digit (by decide)

theorem count_point_paddedDigits (width value : Nat) :
    (paddedDigits width value).count '.' = 0 := by
  simp [paddedDigits, List.count_append, List.count_replicate, count_point_toDigits]

theorem count_point_fixedText (precision : Nat) (value : ℚ) :
    (fixedText precision value).count '.' = if precision = 0 then 0 else 1 := by
  have sign : (signText value).count '.' = 0 := by
    unfold signText
    split_ifs <;> rfl
  simp only [fixedText, List.count_append, sign, count_point_toDigits]
  split_ifs
  · rfl
  · simp [count_point_paddedDigits]

theorem count_point_hundredthsText (hundredths : Nat) :
    (hundredthsText hundredths).count '.' = 1 := by
  simp [hundredthsText, List.count_append, count_point_toDigits, count_point_paddedDigits]

end StandardCxx
