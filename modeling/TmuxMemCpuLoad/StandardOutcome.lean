import Mathlib.Data.Rat.Floor
import Mathlib.Algebra.Order.Floor.Ring
import Mathlib.Tactic.Linarith
import Mathlib.Tactic.Positivity

/-!
# Outcomes of C++ calls and exact conversions

A call returns a value, throws one of the standard exceptions, or does
something the standard leaves undefined.  Floating-point numbers are read as
exact rationals, so that a division is either exact or has no finite value.
-/

namespace StandardCxx

inductive Fault
  | outOfRange
  | invalidArgument
  | undefined
  deriving DecidableEq, Repr

abbrev Outcome := Except Fault

@[simp]
theorem Outcome.ok_bind {Value Result : Type} (value : Value)
    (next : Value → Outcome Result) : (.ok value : Outcome Value) >>= next = next value :=
  rfl

@[simp]
theorem Outcome.error_bind {Value Result : Type} (fault : Fault)
    (next : Value → Outcome Result) :
    (.error fault : Outcome Value) >>= next = .error fault :=
  rfl

def FitsLong (result : Int) : Prop :=
  -2 ^ 63 ≤ result ∧ result < 2 ^ 63

instance (result : Int) : Decidable (FitsLong result) :=
  inferInstanceAs (Decidable (_ ∧ _))

/-- An operation in `long`, which is undefined where the result does not fit. -/
def inLong (result : Int) : Outcome Int :=
  if FitsLong result then .ok result else .error .undefined

theorem inLong_of_fits {result : Int} (fits : FitsLong result) : inLong result = .ok result :=
  if_pos fits

theorem inLong_of_not_fits {result : Int} (overflows : ¬ FitsLong result) :
    inLong result = .error .undefined :=
  if_neg overflows

theorem Outcome.bind_eq_ok {Value Result : Type} {first : Outcome Value}
    {next : Value → Outcome Result} {result : Result}
    (returns : (first >>= next) = .ok result) :
    ∃ value, first = .ok value ∧ next value = .ok result := by
  cases first with
  | error fault => cases returns
  | ok value => exact ⟨value, rfl, returns⟩

/-- A `float` in exact arithmetic; `none` is NaN or an infinity. -/
abbrev ExactFloat := Option ℚ

/-- Floating-point division: dividing by zero gives no finite value. -/
def quotient (numerator denominator : ℚ) : ExactFloat :=
  if denominator = 0 then none else some (numerator / denominator)

theorem quotient_of_ne_zero (numerator : ℚ) {denominator : ℚ}
    (nonzero : denominator ≠ 0) :
    quotient numerator denominator = some (numerator / denominator) :=
  if_neg nonzero

@[simp]
theorem quotient_zero (numerator : ℚ) : quotient numerator 0 = none :=
  if_pos rfl

/-- Truncation toward zero. -/
def truncate (value : ℚ) : Int :=
  if 0 ≤ value then ⌊value⌋ else ⌈value⌉

/-- `static_cast<unsigned int>` of a finite value: truncation, of which the
low 32 bits are kept.  C++11 leaves the cast undefined where bits are lost, so
that keeping the low ones is one reading of such a cast. -/
def toUnsigned (value : ℚ) : Nat :=
  (truncate value % 2 ^ 32).toNat

/-- The value that a cast to an integer needs: casting NaN or an infinity is
undefined. -/
def finite : ExactFloat → Outcome ℚ
  | none => .error .undefined
  | some value => .ok value

theorem truncate_of_nonneg {value : ℚ} (nonneg : 0 ≤ value) :
    truncate value = ⌊value⌋ :=
  if_pos nonneg

theorem toUnsigned_eq_floor {value : ℚ} (nonneg : 0 ≤ value)
    (bounded : value < 2 ^ 32) : (toUnsigned value : Int) = ⌊value⌋ := by
  have floorNonneg : 0 ≤ ⌊value⌋ := Int.floor_nonneg.mpr nonneg
  have floorBounded : ⌊value⌋ < 2 ^ 32 := by
    apply Int.floor_lt.mpr
    exact_mod_cast bounded
  rw [toUnsigned, truncate_of_nonneg nonneg,
    Int.emod_eq_of_lt floorNonneg floorBounded, Int.toNat_of_nonneg floorNonneg]

/-- The cast is exact where the truncated value fits. -/
theorem toUnsigned_eq_floor_iff {value : ℚ} (nonneg : 0 ≤ value) :
    (toUnsigned value : Int) = ⌊value⌋ ↔ value < 2 ^ 32 := by
  constructor
  · intro exact
    have floorLt : ⌊value⌋ < 2 ^ 32 := by
      rw [← exact, toUnsigned]
      omega
    exact_mod_cast Int.floor_lt.mp floorLt
  · exact toUnsigned_eq_floor nonneg

/-- The cast of a quotient of natural numbers. -/
theorem toUnsigned_div (numerator denominator : Nat) :
    toUnsigned ((numerator : ℚ) / (denominator : ℚ)) =
      numerator / denominator % 2 ^ 32 := by
  have nonneg : (0 : ℚ) ≤ (numerator : ℚ) / (denominator : ℚ) := by positivity
  rw [toUnsigned, truncate_of_nonneg nonneg, Rat.floor_natCast_div_natCast]
  omega

/-- A value between zero and a representable bound is cast to an integer
between zero and that bound. -/
theorem toUnsigned_le {value : ℚ} {bound : Nat} (nonneg : 0 ≤ value)
    (atMost : value ≤ bound) (representable : bound < 2 ^ 32) :
    toUnsigned value ≤ bound := by
  have bounded : value < 2 ^ 32 := by
    have : (bound : ℚ) < 2 ^ 32 := by exact_mod_cast representable
    linarith
  have equal := toUnsigned_eq_floor nonneg bounded
  have floorLe : ⌊value⌋ ≤ bound := by
    have := Int.floor_le_floor atMost
    simpa using this
  omega

end StandardCxx
