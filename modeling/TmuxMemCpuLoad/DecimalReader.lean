import TmuxMemCpuLoad.NumberText
import TmuxMemCpuLoad.StandardString

/-!
# Reading decimal texts

Readers for the texts that numbers are written as.  A reader takes a number off
the front of a text and returns what is left of it.
-/

namespace DecimalReader

open StandardCxx

/-- The number that the digits at the front denote. -/
def readNatural (text : List Char) : Option (Nat × List Char) :=
  let digits := text.takeWhile Char.isDigit
  if digits = [] then none else some (digitsValue digits, text.drop digits.length)

/-- The number that a given number of digits denotes. -/
def readDigits (count : Nat) (text : List Char) : Option (Nat × List Char) :=
  let digits := text.take count
  if digits.length = count ∧ digits.all Char.isDigit then
    some (digitsValue digits, text.drop count)
  else none

/-- A number with a fixed number of decimals, in units of the last one. -/
def readFixed (precision : Nat) (text : List Char) : Option (Nat × List Char) := do
  let (integer, rest) ← readNatural text
  match rest with
  | '.' :: rest =>
      let (fraction, rest) ← readDigits precision rest
      some (integer * 10 ^ precision + fraction, rest)
  | _ => none

/-- The text that is read as `scaled` units of the last decimal. -/
def scaledText (precision scaled : Nat) : List Char :=
  Nat.toDigits 10 (scaled / 10 ^ precision) ++
    '.' :: paddedDigits precision (scaled % 10 ^ precision)

theorem isDigit_of_mem_toDigits {value : Nat} :
    ∀ char ∈ Nat.toDigits 10 value, char.isDigit = true :=
  fun _ member => Nat.isDigit_of_mem_toDigits (by decide) (by decide) member

theorem readNatural_toDigits_append (value : Nat) {rest : List Char}
    (stops : NoDigitHead rest) :
    readNatural (Nat.toDigits 10 value ++ rest) = some (value, rest) := by
  have digits : (Nat.toDigits 10 value ++ rest).takeWhile Char.isDigit =
      Nat.toDigits 10 value := by
    rw [takeWhile_isDigit_append _ stops]
    exact List.takeWhile_eq_self_iff.mpr isDigit_of_mem_toDigits
  simp [readNatural, digits, Nat.toDigits_ne_nil, digitsValue, Nat.ofDigitChars_ten_toDigits]

theorem readDigits_paddedDigits_append {count value : Nat} (positive : 0 < count)
    (less : value < 10 ^ count) (rest : List Char) :
    readDigits count (paddedDigits count value ++ rest) = some (value, rest) := by
  have length := length_paddedDigits positive less
  have taken : (paddedDigits count value ++ rest).take count = paddedDigits count value := by
    rw [List.take_append_of_le_length (by omega), List.take_of_length_le (by omega)]
  have dropped : (paddedDigits count value ++ rest).drop count = rest := by
    rw [List.drop_append_of_le_length (by omega), List.drop_of_length_le (by omega)]
    rfl
  have digits : (paddedDigits count value).all Char.isDigit = true := by
    rw [List.all_eq_true]
    intro char member
    rcases List.mem_append.mp member with zero | digit
    · rw [List.eq_of_mem_replicate zero]
      rfl
    · exact isDigit_of_mem_toDigits char digit
  have valueEq : digitsValue (paddedDigits count value) = value := by
    rw [digitsValue, paddedDigits, Nat.ofDigitChars_append, Nat.ofDigitChars_replicate_zero,
      Nat.mul_zero, Nat.ofDigitChars_ten_toDigits]
  simp only [readDigits, taken, dropped, length, digits, valueEq, and_self, if_true]

theorem readFixed_scaledText_append {precision : Nat} (positive : 0 < precision)
    (scaled : Nat) (rest : List Char) :
    readFixed precision (scaledText precision scaled ++ rest) = some (scaled, rest) := by
  have stops : NoDigitHead ('.' :: (paddedDigits precision (scaled % 10 ^ precision) ++ rest)) := by
    intro char member
    cases member
    rfl
  have fraction : scaled % 10 ^ precision < 10 ^ precision :=
    Nat.mod_lt _ (Nat.pow_pos (by decide))
  have text : scaledText precision scaled ++ rest =
      Nat.toDigits 10 (scaled / 10 ^ precision) ++
        '.' :: (paddedDigits precision (scaled % 10 ^ precision) ++ rest) := by
    simp [scaledText]
  rw [text, readFixed, readNatural_toDigits_append _ stops]
  show (readDigits precision _ >>= fun _ => _) = _
  rw [readDigits_paddedDigits_append positive fraction]
  show some (scaled / 10 ^ precision * 10 ^ precision + scaled % 10 ^ precision, rest) = _
  rw [Nat.div_add_mod']

theorem hundredthsText_eq_scaledText (hundredths : Nat) :
    hundredthsText hundredths = scaledText 2 hundredths :=
  rfl

/-- A rounded number in units of the last decimal. -/
def roundedUnits (precision : Nat) (value : ℚ) : Nat :=
  (roundHalfEven (value * 10 ^ precision)).toNat

theorem fixedText_eq_scaledText {precision : Nat} (positive : 0 < precision) {value : ℚ}
    (nonneg : 0 ≤ value) :
    fixedText precision value = scaledText precision (roundedUnits precision value) := by
  have some : precision ≠ 0 := by omega
  simp [fixedText, scaledText, roundedUnits, signText_of_nonneg nonneg, abs_of_nonneg nonneg,
    some]

/-! ## How close the numbers are -/

theorem roundHalfEven_close (value : ℚ) : |(roundHalfEven value : ℚ) - value| ≤ 1 / 2 := by
  have below := Int.floor_le value
  have above := Int.lt_floor_add_one value
  unfold roundHalfEven
  simp only []
  rw [abs_le]
  split_ifs <;> push_cast <;> constructor <;> linarith

theorem roundHalfEven_nonneg {value : ℚ} (nonneg : 0 ≤ value) : 0 ≤ roundHalfEven value := by
  have floor : 0 ≤ ⌊value⌋ := Int.floor_nonneg.mpr nonneg
  unfold roundHalfEven
  simp only []
  split_ifs <;> omega

/-- A number is written to within half a unit of the last decimal. -/
theorem roundedUnits_close (precision : Nat) {value : ℚ} (nonneg : 0 ≤ value) :
    |(roundedUnits precision value : ℚ) / 10 ^ precision - value| ≤ 1 / 2 / 10 ^ precision := by
  have unit : (0 : ℚ) < 10 ^ precision := by positivity
  have scaled : 0 ≤ value * 10 ^ precision := by positivity
  have integer : ((roundedUnits precision value : Nat) : Int) =
      roundHalfEven (value * 10 ^ precision) :=
    Int.toNat_of_nonneg (roundHalfEven_nonneg scaled)
  have cast : (roundedUnits precision value : ℚ) = roundHalfEven (value * 10 ^ precision) := by
    rw [← integer, Int.cast_natCast]
  have close := roundHalfEven_close (value * 10 ^ precision)
  have split : (roundedUnits precision value : ℚ) / 10 ^ precision - value =
      ((roundHalfEven (value * 10 ^ precision) : ℚ) - value * 10 ^ precision) /
        10 ^ precision := by
    rw [cast]
    field_simp
  rw [split, abs_div, abs_of_pos unit]
  exact div_le_div_of_nonneg_right close unit.le

end DecimalReader
