import TmuxMemCpuLoad.BinaryRounding
import TmuxMemCpuLoad.DecimalReader
import TmuxMemCpuLoad.CpuCounters
import TmuxMemCpuLoad.Metrics
import TmuxMemCpuLoad.Graph

/-!
# Figures in floating point

The program computes its figures in `float` and `double`, where each operation
rounds its result to 24 or to 53 binary digits.  None of the figures comes near
the ends of the exponents of these formats.  With every rounding carried out,
the indices of the colour tables stay in range, the percentages stay within a
small share of the exact ones, and the graph has the bars of the exact one.
-/

namespace TmuxMemCpuLoad

open StandardCxx DecimalReader BinaryRounding

theorem roundHalfEven_mono {first second : ℚ} (less : first ≤ second) :
    roundHalfEven first ≤ roundHalfEven second := by
  rcases (Int.floor_le_floor less).eq_or_lt with same | apart
  · have rest : first - ⌊first⌋ ≤ second - ⌊second⌋ := by
      rw [same]
      linarith
    unfold roundHalfEven
    simp only []
    rw [← same] at rest ⊢
    split_ifs <;> first | omega | (exfalso; linarith)
  · have above : roundHalfEven first ≤ ⌊first⌋ + 1 := by
      apply roundHalfEven_le
      push_cast
      exact (Int.lt_floor_add_one first).le
    have below : ⌊second⌋ ≤ roundHalfEven second := by
      unfold roundHalfEven
      simp only []
      split_ifs <;> omega
    omega

/-- The default rounding of IEEE arithmetic. -/
def nearestEven : IntegerRounding where
  round := roundHalfEven
  close := roundHalfEven_close
  monotone := roundHalfEven_mono

def toFloat (value : ℚ) : ℚ :=
  nearestEven.toPrecision 24 value

def toDouble (value : ℚ) : ℚ :=
  nearestEven.toPrecision 53 value

theorem toFloat_mono {first second : ℚ} (nonneg : 0 ≤ first) (less : first ≤ second) :
    toFloat first ≤ toFloat second :=
  nearestEven.toPrecision_mono (by decide) nonneg less

theorem toFloat_nonneg {value : ℚ} (nonneg : 0 ≤ value) : 0 ≤ toFloat value :=
  nearestEven.toPrecision_nonneg 24 nonneg

theorem toDouble_nonneg {value : ℚ} (nonneg : 0 ≤ value) : 0 ≤ toDouble value :=
  nearestEven.toPrecision_nonneg 53 nonneg

theorem toFloat_le {value : ℚ} {bound : Nat} (nonneg : 0 ≤ value) (atMost : value ≤ bound)
    (fits : bound < 2 ^ 24) : toFloat value ≤ bound :=
  nearestEven.toPrecision_le_natCast fits (by decide) nonneg atMost

theorem toDouble_le {value : ℚ} {bound : Nat} (nonneg : 0 ≤ value) (atMost : value ≤ bound)
    (fits : bound < 2 ^ 53) : toDouble value ≤ bound :=
  nearestEven.toPrecision_le_natCast fits (by decide) nonneg atMost

theorem toFloat_natCast {value : Nat} (fits : value < 2 ^ 24) : toFloat (value : ℚ) = value :=
  nearestEven.toPrecision_natCast fits

theorem toDouble_natCast {value : Nat} (fits : value < 2 ^ 53) :
    toDouble (value : ℚ) = value :=
  nearestEven.toPrecision_natCast fits

theorem one_le_toFloat {value : Nat} (positive : 0 < value) : 1 ≤ toFloat (value : ℚ) := by
  have atLeast : ((1 : Nat) : ℚ) ≤ value := by exact_mod_cast positive
  have rounded : ((1 : Nat) : ℚ) ≤ toFloat (value : ℚ) :=
    nearestEven.natCast_le_toPrecision (by decide) (by decide) atLeast
  rwa [Nat.cast_one] at rounded

theorem toFloat_pos {value : Nat} (positive : 0 < value) : 0 < toFloat (value : ℚ) :=
  zero_lt_one.trans_le (one_le_toFloat positive)

/-- `ratio * 100.0`, where the `float` is a `double` until the product is
stored. -/
def timesHundred (ratio : ℚ) : ℚ :=
  toFloat (toDouble (ratio * 100))

theorem timesHundred_range {ratio : ℚ} (nonneg : 0 ≤ ratio) (atMost : ratio ≤ 1) :
    0 ≤ timesHundred ratio ∧ timesHundred ratio ≤ 100 := by
  have product : 0 ≤ ratio * 100 := by positivity
  have productLe : ratio * 100 ≤ (100 : Nat) := by
    push_cast
    linarith
  have doubleLe := toDouble_le product productLe (by decide)
  have doubleNonneg := toDouble_nonneg product
  exact ⟨toFloat_nonneg doubleNonneg,
    by exact_mod_cast toFloat_le doubleNonneg doubleLe (by decide)⟩

theorem within_timesHundred {share exact ratio : ℚ} (within : Within share exact ratio)
    (nonneg : 0 ≤ exact) (small : share ≤ 1 / 2) :
    Within (share + 3 / 2 ^ 24) (exact * 100) (timesHundred ratio) := by
  have product : 0 ≤ exact * 100 := by positivity
  have double := (within.mul_right (by norm_num : (0 : ℚ) ≤ 100)).rounded product
    (by linarith) nearestEven 53
  have single := double.rounded product (by norm_num; linarith) nearestEven 24
  apply single.mono product
  norm_num
  linarith

@[simp]
theorem timesHundred_zero : timesHundred 0 = 0 := by
  simp [timesHundred, toFloat, toDouble]

@[simp]
theorem timesHundred_one : timesHundred 1 = 100 := by
  have double : toDouble (100 : Nat) = (100 : Nat) := toDouble_natCast (by decide)
  have single : toFloat (100 : Nat) = (100 : Nat) := toFloat_natCast (by decide)
  push_cast at double single
  rw [timesHundred, one_mul, double, single]

/-- What rounding leaves of a percentage: it stays within a share of the exact
one, and its whole part is another only next to a whole number. -/
structure FollowsExact (share exact computed : ℚ) : Prop where
  nonneg : 0 ≤ computed
  close : |computed - exact| ≤ exact * share
  index_le : toUnsigned computed ≤ 100
  index_eq : (∀ whole : Int, exact * share < |exact - whole|) →
    toUnsigned computed = toUnsigned exact

theorem followsExact_of_within {share exact computed : ℚ}
    (within : Within share exact computed) (exactNonneg : 0 ≤ exact) (exactLe : exact ≤ 100)
    (shareNonneg : 0 ≤ share) (small : share < 1 / 100) : FollowsExact share exact computed := by
  have computedNonneg := within.nonneg exactNonneg (by linarith)
  have computedLt : computed < 101 := by
    linarith [within.atMost, mul_le_mul_of_nonneg_right exactLe shareNonneg]
  have whole := toUnsigned_eq_floor computedNonneg (lt_trans computedLt (by norm_num))
  constructor
  · exact computedNonneg
  · exact within.close
  · have floorLt : ⌊computed⌋ < 101 := Int.floor_lt.mpr (by exact_mod_cast computedLt)
    omega
  · intro apart
    have exactWhole := toUnsigned_eq_floor exactNonneg (lt_of_le_of_lt exactLe (by norm_num))
    have same := within.floor_eq_of_apart apart
    omega

/-! ## Memory -/

namespace MemoryStatus

variable (memStatus : MemoryStatus)

/-- `( 100 * mem_status.used_mem ) / mem_status.total_mem`. -/
def roundedColor : ExactFloat :=
  (quotient (toFloat (100 * memStatus.usedMem)) memStatus.totalMem).map toFloat

/-- `percentage_mem` of `mem_string`. -/
def roundedPercentage : ExactFloat :=
  (quotient memStatus.usedMem memStatus.totalMem).map fun ratio => timesHundred (toFloat ratio)

variable {memStatus} (nonneg : 0 ≤ memStatus.usedMem)
  (atMost : memStatus.usedMem ≤ memStatus.totalMem) (positive : 0 < memStatus.totalMem)
include nonneg atMost positive

theorem roundedColor_follows : ∃ color, memStatus.roundedColor = some color ∧
    FollowsExact (1 / 2 ^ 22) (100 * memStatus.usedMem / memStatus.totalMem) color := by
  have scaled : 0 ≤ 100 * memStatus.usedMem := by positivity
  have exactNonneg : 0 ≤ 100 * memStatus.usedMem / memStatus.totalMem := by positivity
  have exactLe : 100 * memStatus.usedMem / memStatus.totalMem ≤ 100 := by
    rw [div_le_iff₀ positive]
    linarith
  have product := (Within.toPrecision nearestEven 24 scaled).div_right positive
  have ratio := product.rounded exactNonneg (by norm_num) nearestEven 24
  have within : Within (1 / 2 ^ 22) (100 * memStatus.usedMem / memStatus.totalMem)
      (toFloat (toFloat (100 * memStatus.usedMem) / memStatus.totalMem)) :=
    ratio.mono exactNonneg (by norm_num)
  refine ⟨_, ?_, followsExact_of_within within exactNonneg exactLe (by norm_num) (by norm_num)⟩
  rw [roundedColor, quotient_of_ne_zero _ positive.ne', Option.map_some]

theorem roundedPercentage_follows : ∃ percentage,
    memStatus.roundedPercentage = some percentage ∧ percentage ≤ 100 ∧
      FollowsExact (1 / 2 ^ 21) (memStatus.usedMem / memStatus.totalMem * 100) percentage := by
  have ratioNonneg : 0 ≤ memStatus.usedMem / memStatus.totalMem := by positivity
  have ratioLe : memStatus.usedMem / memStatus.totalMem ≤ 1 := (div_le_one₀ positive).mpr atMost
  have roundedLe : toFloat (memStatus.usedMem / memStatus.totalMem) ≤ 1 := by
    rw [← Nat.cast_one] at ratioLe ⊢
    exact toFloat_le ratioNonneg ratioLe (by decide)
  have product := within_timesHundred (Within.toPrecision nearestEven 24 ratioNonneg)
    ratioNonneg (by norm_num)
  have exactNonneg : 0 ≤ memStatus.usedMem / memStatus.totalMem * 100 := by positivity
  have within : Within (1 / 2 ^ 21) (memStatus.usedMem / memStatus.totalMem * 100)
      (timesHundred (toFloat (memStatus.usedMem / memStatus.totalMem))) :=
    product.mono exactNonneg (by norm_num)
  refine ⟨_, ?_, (timesHundred_range (toFloat_nonneg ratioNonneg) roundedLe).2,
    followsExact_of_within within exactNonneg (by linarith) (by norm_num) (by norm_num)⟩
  rw [roundedPercentage, quotient_of_ne_zero _ positive.ne', Option.map_some]

/-- Sizes between zero and a positive total select a colour in the table and
show a percentage up to 100, both next to the exact percentage. -/
theorem rounded_follows :
    (∃ color, memStatus.roundedColor = some color ∧
      FollowsExact (1 / 2 ^ 22) (100 * memStatus.usedMem / memStatus.totalMem) color) ∧
    (∃ percentage, memStatus.roundedPercentage = some percentage ∧ percentage ≤ 100 ∧
      FollowsExact (1 / 2 ^ 21) (memStatus.usedMem / memStatus.totalMem * 100) percentage) :=
  ⟨roundedColor_follows nonneg atMost positive, roundedPercentage_follows nonneg atMost positive⟩

end MemoryStatus

theorem rounded_follows_sample :
    (∃ color, MemoryStatus.roundedColor ⟨512, 1024⟩ = some color ∧
      FollowsExact (1 / 2 ^ 22) (100 * 512 / 1024) color) ∧
    (∃ percentage, MemoryStatus.roundedPercentage ⟨512, 1024⟩ = some percentage ∧
      percentage ≤ 100 ∧ FollowsExact (1 / 2 ^ 21) (512 / 1024 * 100) percentage) := by
  have nonneg : 0 ≤ (⟨512, 1024⟩ : MemoryStatus).usedMem := by norm_num
  exact MemoryStatus.rounded_follows nonneg (by norm_num) (by norm_num)

/-! ## CPU -/

/-- The percentage of `percentageOf` with the conversions of the counters, the
division and the product rounded. -/
def roundedPercentageOf (busy total : BitVec 64) : ExactFloat :=
  (quotient (toFloat busy.toNat) (toFloat total.toNat)).map fun ratio =>
    timesHundred (toFloat ratio)

section Cpu

variable {busy idle : BitVec 64} (positive : 0 < busy.toNat + idle.toNat)
  (fits : busy.toNat + idle.toNat < 2 ^ 64)
include positive fits

/-- The conversions round both sums, and the total does not become zero. -/
theorem roundedPercentageOf_eq : roundedPercentageOf busy (busy + idle) =
    some (timesHundred (toFloat (toFloat busy.toNat /
      toFloat ((busy.toNat + idle.toNat : Nat) : ℚ)))) := by
  have total : (busy + idle).toNat = busy.toNat + idle.toNat := by
    rw [BitVec.toNat_add, Nat.mod_eq_of_lt fits]
  have roundedPos := toFloat_pos positive
  rw [roundedPercentageOf, total, quotient_of_ne_zero _ roundedPos.ne', Option.map_some]

theorem within_roundedPercentageOf : ∃ percentage,
    roundedPercentageOf busy (busy + idle) = some percentage ∧ 0 ≤ percentage ∧
      percentage ≤ 100 ∧ Within (1 / 2 ^ 20)
        (100 * (busy.toNat : ℚ) / ((busy.toNat : ℚ) + (idle.toNat : ℚ))) percentage := by
  have totalPos : (0 : ℚ) < ((busy.toNat + idle.toNat : Nat) : ℚ) := by exact_mod_cast positive
  have busyNonneg : (0 : ℚ) ≤ busy.toNat := Nat.cast_nonneg _
  have roundedPos := toFloat_pos positive
  have busyLe : (busy.toNat : ℚ) ≤ ((busy.toNat + idle.toNat : Nat) : ℚ) := by
    exact_mod_cast Nat.le_add_right _ _
  -- rounding keeps the order of the two sums, so their ratio is at most one
  have ratioNonneg : 0 ≤ toFloat busy.toNat / toFloat ((busy.toNat + idle.toNat : Nat) : ℚ) :=
    div_nonneg (toFloat_nonneg busyNonneg) roundedPos.le
  have ratioLe : toFloat busy.toNat / toFloat ((busy.toNat + idle.toNat : Nat) : ℚ) ≤ 1 :=
    (div_le_one₀ roundedPos).mpr (toFloat_mono busyNonneg busyLe)
  have floatLe : toFloat (toFloat busy.toNat /
      toFloat ((busy.toNat + idle.toNat : Nat) : ℚ)) ≤ 1 := by
    rw [← Nat.cast_one] at ratioLe ⊢
    exact toFloat_le ratioNonneg ratioLe (by decide)
  have range := timesHundred_range (toFloat_nonneg ratioNonneg) floatLe
  have exactRatio : 0 ≤ (busy.toNat : ℚ) / ((busy.toNat + idle.toNat : Nat) : ℚ) := by positivity
  have ratio := (Within.toPrecision nearestEven 24 busyNonneg).div busyNonneg (by norm_num)
    (Within.toPrecision nearestEven 24 totalPos.le) totalPos (by norm_num) (by norm_num)
  have product := within_timesHundred (ratio.rounded exactRatio (by norm_num) nearestEven 24)
    exactRatio (by norm_num)
  have percentageEq : 100 * (busy.toNat : ℚ) / ((busy.toNat : ℚ) + (idle.toNat : ℚ)) =
      (busy.toNat : ℚ) / ((busy.toNat + idle.toNat : Nat) : ℚ) * 100 := by
    push_cast
    ring
  refine ⟨_, roundedPercentageOf_eq positive fits, range.1, range.2, ?_⟩
  rw [percentageEq]
  exact product.mono (by positivity) (by norm_num)

/-- Where the sum of the increases fits 64 bits, rounding keeps the index of the
table in range, shows a busy processor as 100 and an idle one as 0. -/
theorem roundedPercentageOf_follows : ∃ percentage,
    roundedPercentageOf busy (busy + idle) = some percentage ∧ percentage ≤ 100 ∧
      (idle = 0 → percentage = 100) ∧ (busy = 0 → percentage = 0) ∧
      FollowsExact (1 / 2 ^ 20)
        (100 * (busy.toNat : ℚ) / ((busy.toNat : ℚ) + (idle.toNat : ℚ))) percentage := by
  have defined := roundedPercentageOf_eq positive fits
  obtain ⟨percentage, computed, _, atMost, within⟩ := within_roundedPercentageOf positive fits
  have exactRange := share_range (Nat.cast_nonneg busy.toNat : (0 : ℚ) ≤ _)
    (Nat.cast_nonneg idle.toNat)
  rw [computed, Option.some.injEq] at defined
  refine ⟨percentage, computed, atMost, ?_, ?_, ?_⟩
  · intro idleZero
    have none : idle.toNat = 0 := by simp [idleZero]
    have one : toFloat 1 = 1 := by
      have natural : toFloat (1 : Nat) = (1 : Nat) := toFloat_natCast (by decide)
      rwa [Nat.cast_one] at natural
    have nonzero := (toFloat_pos positive).ne'
    rw [none, Nat.add_zero] at defined nonzero
    rw [defined, div_self nonzero, one, timesHundred_one]
  · rintro rfl
    rw [defined]
    simp [toFloat]
  · exact followsExact_of_within within exactRange.1 exactRange.2 (by norm_num) (by norm_num)

end Cpu

theorem roundedPercentageOf_follows_sample : ∃ percentage,
    roundedPercentageOf 25 (25 + 75) = some percentage ∧ percentage ≤ 100 ∧
      ((75 : BitVec 64) = 0 → percentage = 100) ∧ ((25 : BitVec 64) = 0 → percentage = 0) ∧
      FollowsExact (1 / 2 ^ 20) (100 * ((25 : BitVec 64).toNat : ℚ) /
        (((25 : BitVec 64).toNat : ℚ) + ((75 : BitVec 64).toNat : ℚ))) percentage :=
  roundedPercentageOf_follows (by decide) (by decide)

/-! ## The graph -/

/-- `bar_count` of `get_graph_by_percentage`: the value becomes a `float` and
the constant is a `double`, so that the operations are those of `double`. -/
def roundedBarCount (value len : Nat) : Nat :=
  toUnsigned (toDouble (toDouble (toFloat value / toDouble (999 / 10)) * toDouble len))

def roundedGraphByPercentage (value len : Nat) : List Char :=
  drawBars (roundedBarCount value len) len

theorem toUnsigned_of_floor_eq {first second : ℚ} (firstNonneg : 0 ≤ first)
    (secondNonneg : 0 ≤ second) (same : ⌊first⌋ = ⌊second⌋) :
    toUnsigned first = toUnsigned second := by
  rw [toUnsigned, toUnsigned, truncate_of_nonneg firstNonneg, truncate_of_nonneg secondNonneg,
    same]

section Bars

variable {value len : Nat} (atMost : value ≤ 100) (representable : len < 2 ^ 32)
include atMost representable

/-- Three roundings and that of the constant leave the number of bars within
this share of the exact quotient. -/
theorem within_bars : Within (6 / 2 ^ 53) (((10 * value * len : Nat) : ℚ) / (999 : Nat))
    (toDouble (toDouble (toFloat value / toDouble (999 / 10)) * toDouble len)) := by
  have constant := Within.toPrecision nearestEven 53 (by norm_num : (0 : ℚ) ≤ 999 / 10)
  have valueNonneg : (0 : ℚ) ≤ value := Nat.cast_nonneg _
  have lenNonneg : (0 : ℚ) ≤ len := Nat.cast_nonneg _
  have ratio := constant.div_left (by norm_num) (by norm_num) (by norm_num) valueNonneg
  have scaled := (ratio.rounded (by positivity) (by norm_num) nearestEven 53).mul_right lenNonneg
  have bars := scaled.rounded (by positivity) (by norm_num) nearestEven 53
  have quotientEq : ((10 * value * len : Nat) : ℚ) / (999 : Nat) =
      (value : ℚ) / (999 / 10) * len := by
    push_cast
    ring
  rw [toFloat_natCast (by omega : value < 2 ^ 24), toDouble_natCast (by omega : len < 2 ^ 53),
    quotientEq]
  exact bars.mono (by positivity) (by norm_num)

theorem floor_bars (apart : ¬ 999 ∣ value * len ∨ value * len = 0) :
    ⌊toDouble (toDouble (toFloat value / toDouble (999 / 10)) * toDouble len)⌋ =
      (10 * value * len / 999 : Nat) := by
  have within := within_bars atMost representable
  rw [Nat.mul_assoc] at within ⊢
  rcases apart with between | zero
  · have product : value * len ≤ 100 * 2 ^ 32 := Nat.mul_le_mul atMost representable.le
    have castProduct : ((10 * (value * len) : Nat) : ℚ) ≤ 1000 * 2 ^ 32 := by
      push_cast
      have cast : ((value * len : Nat) : ℚ) ≤ 100 * 2 ^ 32 := by exact_mod_cast product
      push_cast at cast
      linarith
    apply within.floor_eq (by decide)
    · rintro ⟨count, equal⟩
      exact between (by omega)
    · calc ((10 * (value * len) : Nat) : ℚ) * (6 / 2 ^ 53)
          ≤ 1000 * 2 ^ 32 * (6 / 2 ^ 53) :=
            mul_le_mul_of_nonneg_right castProduct (by positivity)
        _ < 1 := by norm_num
  · rw [zero] at within ⊢
    have atLeast := within.atLeast
    have atMost := within.atMost
    norm_num at atLeast atMost
    rw [le_antisymm atMost atLeast]
    simp

theorem roundedBarCount_eq (apart : ¬ 999 ∣ value * len ∨ value * len = 0) :
    roundedBarCount value len = toUnsigned ((value : ℚ) / (999 / 10) * len) := by
  have quotientEq : (value : ℚ) / (999 / 10) * len =
      ((10 * value * len : Nat) : ℚ) / (999 : Nat) := by
    push_cast
    ring
  apply toUnsigned_of_floor_eq
  · exact (within_bars atMost representable).nonneg (by positivity) (by norm_num)
  · positivity
  · rw [floor_bars atMost representable apart, quotientEq, Rat.floor_natCast_div_natCast]
    rfl

/-- The exact number of bars is a whole number for the multiples of 999 only;
between them no rounding carries it across one. -/
theorem roundedGraphByPercentage_eq (apart : ¬ 999 ∣ value * len ∨ value * len = 0) :
    roundedGraphByPercentage value len = getGraphByPercentage value len := by
  rw [roundedGraphByPercentage, roundedBarCount_eq atMost representable apart]
  rfl

end Bars

theorem roundedGraphByPercentage_eq_sample :
    roundedGraphByPercentage 100 32767 = getGraphByPercentage 100 32767 :=
  roundedGraphByPercentage_eq (by decide) (by decide) (.inl (by decide))

/-- A graph of the default ten characters is drawn without any error of
rounding. -/
theorem roundedGraphByPercentage_default {value : Nat} (atMost : value ≤ 100) :
    roundedGraphByPercentage value 10 = getGraphByPercentage value 10 := by
  rw [roundedGraphByPercentage, roundedBarCount_eq atMost (by decide) (by omega)]
  rfl

end TmuxMemCpuLoad
