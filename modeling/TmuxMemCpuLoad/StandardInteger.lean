import Mathlib.Data.BitVec
import Mathlib.Tactic.Positivity

/-!
# Fixed-width integer arithmetic

Conversions between integers and fixed-width integers commute with the
arithmetic operations, so that a computation in fixed width is the conversion of
the exact one, and equal to it where that is representable.
-/

namespace StandardCxx

section Conversion

variable {width : Nat}

theorem ofInt_sub (first second : Int) :
    BitVec.ofInt width (first - second) =
      BitVec.ofInt width first - BitVec.ofInt width second := by
  rw [Int.sub_eq_add_neg, BitVec.ofInt_add, BitVec.ofInt_neg, BitVec.sub_eq_add_neg]

theorem ofInt_shiftLeft (value : Int) (count : Nat) :
    BitVec.ofInt width value <<< count = BitVec.ofInt width (value * 2 ^ count) := by
  have power : BitVec.twoPow width count = BitVec.ofInt width (2 ^ count) := by
    apply BitVec.eq_of_toNat_eq
    rw [BitVec.toNat_twoPow, show (2 : Int) ^ count = ((2 ^ count : Nat) : Int) by simp,
      BitVec.ofInt_natCast, BitVec.toNat_ofNat]
  rw [BitVec.shiftLeft_eq_mul_twoPow, power, BitVec.ofInt_mul]

/-- A difference computed in a wider type and narrowed is the difference in
fixed width. -/
theorem ofInt_toNat_sub (stored : BitVec width) (value : Int) :
    BitVec.ofInt width (stored.toNat - value) = stored - BitVec.ofInt width value := by
  rw [ofInt_sub, BitVec.ofInt_natCast, BitVec.ofNat_toNat, BitVec.setWidth_eq]

theorem toNat_ofInt_of_range {value : Int} (nonneg : 0 ≤ value)
    (bounded : value < 2 ^ width) : ((BitVec.ofInt width value).toNat : Int) = value := by
  have power : ((2 ^ width : Nat) : Int) = 2 ^ width := by simp
  rw [BitVec.toNat_ofInt, Int.toNat_of_nonneg (Int.emod_nonneg _ (by rw [power]; positivity)),
    power, Int.emod_eq_of_lt nonneg bounded]

/-- The bits that are shifted out do not count. -/
theorem toNat_ofInt_mul_two_pow (value : Int) (count : Nat) :
    ((BitVec.ofInt width (value * 2 ^ count)).toNat : Int) =
      value % 2 ^ (width - count) * 2 ^ count := by
  have modulus : ((2 ^ width : Nat) : Int) = 2 ^ width := by simp
  rw [BitVec.toNat_ofInt, modulus, Int.toNat_of_nonneg (Int.emod_nonneg _ (by positivity))]
  rcases le_total count width with atMost | atLeast
  · have split : (2 : Int) ^ width = 2 ^ count * 2 ^ (width - count) := by
      rw [← pow_add, Nat.add_sub_cancel' atMost]
    rw [split, Int.mul_comm value, Int.mul_emod_mul_of_pos _ _ (by positivity), Int.mul_comm]
  · have divides : (2 : Int) ^ width ∣ value * 2 ^ count :=
      Dvd.dvd.mul_left (pow_dvd_pow 2 atLeast) value
    rw [Int.emod_eq_zero_of_dvd divides, Nat.sub_eq_zero_of_le atLeast, pow_zero,
      Int.emod_one, Int.zero_mul]

/-- Read as signed, two bit patterns are in order below a positive number exactly
when they are in order as unsigned numbers without the sign bit. -/
theorem toInt_inOrder_iff (lower upper : BitVec width) :
    (0 ≤ lower.toInt ∧ lower.toInt ≤ upper.toInt ∧ 0 < upper.toInt) ↔
      lower.toNat ≤ upper.toNat ∧ 0 < upper.toNat ∧ 2 * upper.toNat < 2 ^ width := by
  have modulus : ((2 ^ width : Nat) : Int) = 2 ^ width := by simp
  have lowerLt := lower.isLt
  have upperLt := upper.isLt
  rw [BitVec.toInt_eq_toNat_cond, BitVec.toInt_eq_toNat_cond]
  split_ifs <;> omega

end Conversion

end StandardCxx
