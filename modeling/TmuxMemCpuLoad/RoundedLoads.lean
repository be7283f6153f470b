import TmuxMemCpuLoad.FloatArithmetic
import TmuxMemCpuLoad.LoadFigures

/-!
# Load averages in IEEE arithmetic

A load average passes through a `float`, is rounded to hundredths and divided
again before it is printed with two decimals.  The kernel states averages in
hundredths: these come out of all the roundings as they went in.  The colour of
a load is that of the exact load, or the one below where the exact load is just
reached.
-/

namespace TmuxMemCpuLoad

open StandardCxx DecimalReader BinaryRounding

theorem roundHalfEven_eq_of_close {value : ℚ} {whole : Int} (close : |value - whole| < 1 / 2) :
    roundHalfEven value = whole := by
  have rounded := abs_le.mp (roundHalfEven_close value)
  have near := abs_lt.mp close
  have above : (roundHalfEven value : ℚ) < whole + 1 := by linarith [rounded.2, near.2]
  have below : (whole : ℚ) - 1 < roundHalfEven value := by linarith [rounded.1, near.1]
  have aboveInt : roundHalfEven value < whole + 1 := by exact_mod_cast above
  have belowInt : whole - 1 < roundHalfEven value := by exact_mod_cast below
  omega

/-- The loads that the bounds of this module are about. -/
def loadLimit : ℚ := 2 ^ 13

namespace Arithmetic

/-! ## The hundredths of an average -/

/-- The argument of `floorf`. -/
theorem within_hundredths {share exact average : ℚ} (within : Within share exact average)
    (nonneg : 0 ≤ exact) (shareNonneg : 0 ≤ share) (small : share ≤ 1 / 2 ^ 53) :
    Within (1 / 2 ^ 21) (exact * 100 + 1 / 2)
      (toFloat (toDouble (toFloat (toFloat average * 100) + 1 / 2))) := by
  have scaledNonneg : 0 ≤ exact * 100 := by positivity
  have sumNonneg : 0 ≤ exact * 100 + 1 / 2 := by positivity
  have stored := within.rounded nonneg (small.trans (by norm_num)) nearestEven 24
  have scaled := (stored.mul_right (by norm_num : (0 : ℚ) ≤ 100)).rounded scaledNonneg
    (by linarith) nearestEven 24
  have sum := scaled.add_right (by positivity) (by norm_num : (0 : ℚ) ≤ 1 / 2)
  have double := sum.rounded sumNonneg (by linarith) nearestEven 53
  have single := double.rounded sumNonneg (by linarith) nearestEven 24
  exact single.mono sumNonneg (by linarith)

/-- What is stated in hundredths is shown in these hundredths. -/
theorem hundredths_decimal {count : Nat} (fits : count < 2 ^ 20) :
    ieee.hundredths (toDouble ((count : ℚ) / 100)) = count := by
  have nonneg : (0 : ℚ) ≤ (count : ℚ) / 100 := by positivity
  have within := within_hundredths (Within.toPrecision nearestEven 53 nonneg) nonneg
    (by positivity) le_rfl
  rw [div_mul_cancel₀ _ (by norm_num)] at within
  have bound : (count : ℚ) + 1 ≤ 2 ^ 20 := by exact_mod_cast fits
  show ⌊_⌋ = _
  rw [Int.floor_eq_iff]
  constructor
  · apply le_trans _ within.atLeast
    push_cast
    linarith
  · apply lt_of_le_of_lt within.atMost
    push_cast
    linarith

section Average

variable {average : ℚ} (nonneg : 0 ≤ average) (atMost : average ≤ loadLimit)
include nonneg

/-- The hundredths are those of an average rounded half up, up to the digits of
a `float`. -/
theorem hundredths_close :
    |(ieee.hundredths average : ℚ) / 100 - average| ≤ 1 / 200 + (average + 1) / 2 ^ 21 := by
  have within := within_hundredths (Within.ofShareZero average) nonneg le_rfl (by positivity)
  have floor : ieee.hundredths average =
      ⌊toFloat (toDouble (toFloat (toFloat average * 100) + 1 / 2))⌋ := rfl
  have atLeast := within.atLeast
  have atMost := within.atMost
  have below := Int.floor_le (toFloat (toDouble (toFloat (toFloat average * 100) + 1 / 2)))
  have above := Int.lt_floor_add_one
    (toFloat (toDouble (toFloat (toFloat average * 100) + 1 / 2)))
  rw [floor, abs_le]
  constructor <;> linarith

include atMost

theorem hundredths_range : 0 ≤ ieee.hundredths average ∧ ieee.hundredths average < 2 ^ 20 := by
  have within := within_hundredths (Within.ofShareZero average) nonneg le_rfl (by positivity)
  have computedNonneg := within.nonneg (by positivity) (by norm_num)
  unfold loadLimit at atMost
  constructor
  · exact Int.floor_nonneg.mpr computedNonneg
  · apply Int.floor_lt.mpr
    apply lt_of_le_of_lt within.atMost
    push_cast
    linarith

end Average

/-! ## The colour of a load -/

/-- A computed load that is next to a multiple of the denominator may be cast to
the integer below it. -/
theorem floor_load {count denominator : Nat} {load : ℚ} (positive : 0 < denominator)
    (fits : count < 2 ^ 20)
    (within : Within (1 / 2 ^ 50) ((count : ℚ) / denominator) load) :
    ⌊load⌋ ≤ (count / denominator : Nat) ∧ ((count / denominator : Nat) : Int) ≤ ⌊load⌋ + 1 ∧
      (¬ denominator ∣ count → ⌊load⌋ = (count / denominator : Nat)) := by
  have bound : (count : ℚ) < 2 ^ 20 := by exact_mod_cast fits
  by_cases multiple : denominator ∣ count
  · obtain ⟨whole, rfl⟩ := multiple
    have cancel : denominator * whole / denominator = whole := Nat.mul_div_cancel_left _ positive
    have exactEq : ((denominator * whole : Nat) : ℚ) / denominator = whole := by
      have nonzero : (denominator : ℚ) ≠ 0 := by exact_mod_cast positive.ne'
      push_cast
      rw [mul_div_cancel_left₀ _ nonzero]
    have wholeLe : (whole : ℚ) ≤ ((denominator * whole : Nat) : ℚ) := by
      exact_mod_cast Nat.le_mul_of_pos_left whole positive
    have atLeast := within.atLeast
    have atMost := within.atMost
    rw [exactEq] at atLeast atMost
    rw [cancel]
    refine ⟨Int.lt_add_one_iff.mp (Int.floor_lt.mpr ?_), ?_, fun apart => absurd ?_ apart⟩
    · push_cast
      linarith
    · have least : (whole : Int) - 1 ≤ ⌊load⌋ := by
        apply Int.le_floor.mpr
        push_cast
        linarith
      omega
    · exact Dvd.intro _ rfl
  · have floor := within.floor_eq positive multiple (by linarith)
    exact ⟨floor.le, by omega, fun _ => floor⟩

section Colour

variable {host : Host} {stated : Nat → Nat}

/-- Half the load on each processor, in percent. -/
theorem statedLoad_eq (host : Host) (count : Nat) :
    (count : ℚ) / 100 / host.cpuCount * (1 / 2) * 100 =
      (count : ℚ) / ((2 * host.cpuCount : Nat) : ℚ) := by
  push_cast
  ring

variable (processors : 0 < host.cpuCount)
include processors

/-- The exact index of an average that is stated in hundredths. -/
theorem loadColor_stated (fits : stated 0 < 2 ^ 20) :
    TmuxMemCpuLoad.loadColor host (fun i => (stated i : ℚ) / 100) =
      .ok (min (stated 0 / (2 * host.cpuCount)) 100) := by
  have cpuPos : (0 : ℚ) < host.cpuCount := by exact_mod_cast processors
  have less : stated 0 / (2 * host.cpuCount) < 2 ^ 32 :=
    lt_of_le_of_lt (Nat.div_le_self _ _) (by omega)
  simp only [TmuxMemCpuLoad.loadColor, Host.loadPercentage, quotient_of_ne_zero _ cpuPos.ne',
    Option.map_some, finite, Outcome.ok_bind, statedLoad_eq, toUnsigned_div,
    Nat.mod_eq_of_lt less, limited_eq_min]

theorem within_loadPercentage {averages : Nat → ℚ}
    (first : averages 0 = toDouble ((stated 0 : ℚ) / 100)) :
    ∃ load, ieee.loadPercentage host averages = some load ∧
      Within (1 / 2 ^ 50) ((stated 0 : ℚ) / ((2 * host.cpuCount : Nat) : ℚ)) load := by
  have cpuPos : (0 : ℚ) < host.cpuCount := by exact_mod_cast processors
  have statedNonneg : (0 : ℚ) ≤ (stated 0 : ℚ) / 100 := by positivity
  have loadNonneg : 0 ≤ (stated 0 : ℚ) / 100 / host.cpuCount := by positivity
  have half : (0 : ℚ) ≤ 1 / 2 := by norm_num
  have shared := ((Within.toPrecision nearestEven 53 statedNonneg).div_right cpuPos).rounded
    loadNonneg (by norm_num) nearestEven 53
  have halved := (shared.mul_right half).rounded (mul_nonneg loadNonneg half) (by norm_num)
    nearestEven 53
  have scaled := (halved.mul_right (by norm_num : (0 : ℚ) ≤ 100)).rounded (by positivity)
    (by norm_num) nearestEven 53
  have within := scaled.mono (by positivity) (by norm_num : _ ≤ (1 : ℚ) / 2 ^ 50)
  rw [statedLoad_eq] at within
  refine ⟨_, ?_, within⟩
  rw [loadPercentage, first, quotient_of_ne_zero _ cpuPos.ne', Option.map_some]
  rfl

/-- The index of an average stated in hundredths is the exact one, or the one
below it where a multiple of twice the processors is stated. -/
theorem loadColor_follows {averages : Nat → ℚ} (fits : stated 0 < 2 ^ 20)
    (first : averages 0 = toDouble ((stated 0 : ℚ) / 100)) :
    ∃ exactIndex index,
      TmuxMemCpuLoad.loadColor host (fun i => (stated i : ℚ) / 100) = .ok exactIndex ∧
      ieee.loadColor host averages = .ok index ∧
      index ≤ exactIndex ∧ exactIndex ≤ index + 1 ∧
      (¬ 2 * host.cpuCount ∣ stated 0 → index = exactIndex) := by
  obtain ⟨load, defined, within⟩ := within_loadPercentage processors first
  obtain ⟨atMost, atLeast, apart⟩ := floor_load (by omega : 0 < 2 * host.cpuCount) fits within
  have computedNonneg := within.nonneg (by positivity) (by norm_num)
  have quotientLe : stated 0 / (2 * host.cpuCount) ≤ stated 0 := Nat.div_le_self _ _
  have computedLt : load < 2 ^ 32 := by
    have floorLt : ⌊load⌋ < 2 ^ 32 := by omega
    exact_mod_cast Int.floor_lt.mp floorLt
  have cast := toUnsigned_eq_floor computedNonneg computedLt
  have computed : ieee.loadColor host averages = .ok (min (toUnsigned load) 100) := by
    simp only [loadColor, defined, finite, Outcome.ok_bind, limited_eq_min]
  refine ⟨_, _, loadColor_stated processors fits, computed, ?_, ?_, fun between => ?_⟩
  · omega
  · omega
  · have same := apart between
    omega

end Colour

/-- A load of 1.00 on four processors. -/
theorem loadColor_follows_sample :
    ∃ exactIndex index,
      TmuxMemCpuLoad.loadColor sampleHost (fun _ => ((100 : Nat) : ℚ) / 100) = .ok exactIndex ∧
      ieee.loadColor sampleHost (fun _ => toDouble (((100 : Nat) : ℚ) / 100)) = .ok index ∧
      index ≤ exactIndex ∧ exactIndex ≤ index + 1 ∧
      (¬ 2 * sampleHost.cpuCount ∣ 100 → index = exactIndex) :=
  @loadColor_follows sampleHost (fun _ => 100) (by decide) _ (by decide) rfl

-- 58 is a multiple of two: the product with 100 is rounded to a number below 29
example : ieee.loadColor { sampleHost with cpuCount := 1 } (fun _ => toDouble (58 / 100)) =
    .ok 28 := by
  decide +kernel

/-! ## The printed averages -/

/-- The average that the figure of an average looks like. -/
def shownAverage (average : ℚ) : ℚ :=
  (ieee.hundredths average : ℚ) / 100

theorem shownAverage_nonneg {average : ℚ} (nonneg : 0 ≤ average) (atMost : average ≤ loadLimit) :
    0 ≤ shownAverage average := by
  have least : (0 : ℚ) ≤ ieee.hundredths average := by
    exact_mod_cast (hundredths_range nonneg atMost).1
  exact div_nonneg least (by norm_num)

theorem roundedHundredths_shownAverage (average : ℚ) :
    roundedHundredths (shownAverage average) = (ieee.hundredths average).toNat := by
  rw [roundedHundredths, shownAverage, div_mul_cancel₀ _ (by norm_num)]
  congr 1
  rw [Int.floor_eq_iff]
  constructor <;> linarith

/-- The two decimals of a rounded quotient by 100 are its hundredths. -/
theorem fixedText_toFloat_hundredths {count : Nat} (fits : count < 2 ^ 20) :
    fixedText 2 (toFloat ((count : ℚ) / 100)) = hundredthsText count := by
  have nonneg : (0 : ℚ) ≤ (count : ℚ) / 100 := by positivity
  have close := abs_le.mp (nearestEven.toPrecision_close 24 nonneg)
  have bound : (count : ℚ) ≤ 2 ^ 20 := by exact_mod_cast fits.le
  have near : |toFloat ((count : ℚ) / 100) * 10 ^ 2 - ((count : Int) : ℚ)| < 1 / 2 := by
    rw [abs_lt]
    unfold toFloat
    push_cast
    constructor <;> linarith [close.1, close.2]
  rw [fixedText_eq_scaledText (by decide) (toFloat_nonneg nonneg), roundedUnits,
    roundHalfEven_eq_of_close near, Int.toNat_natCast, hundredthsText_eq_scaledText]

variable {averages : Nat → ℚ} {numAverages : Int}

theorem putAverage_eq {ss : OutputStream} (writes : WritesHundredths ss) {i : Nat}
    (nonneg : 0 ≤ averages i) (atMost : averages i ≤ loadLimit) :
    ieee.putAverage averages numAverages ss i =
      TmuxMemCpuLoad.putAverage (fun i => shownAverage (averages i)) numAverages ss i := by
  obtain ⟨least, less⟩ := hundredths_range nonneg atMost
  obtain ⟨count, countEq⟩ := Int.eq_ofNat_of_zero_le least
  have fits : count < 2 ^ 20 := by omega
  have text : ss.putFloat (ieee.float ((ieee.hundredths (averages i) : ℚ) / 100)) =
      ss.append (hundredthsText (roundedHundredths (shownAverage (averages i)))) := by
    rw [roundedHundredths_shownAverage, countEq, Int.toNat_natCast, Int.cast_natCast,
      ← fixedText_toFloat_hundredths fits, OutputStream.putFloat,
      OutputStream.put_eq_append writes.noWidth, OutputStream.floatText, writes.fixed,
      writes.twoDecimals]
    rfl
  simp only [putAverage, TmuxMemCpuLoad.putAverage, text,
    writes.putFloat (shownAverage_nonneg nonneg atMost)]

theorem writesHundredths_putAverage {ss : OutputStream} (writes : WritesHundredths ss)
    (i : Nat) :
    WritesHundredths (TmuxMemCpuLoad.putAverage averages numAverages ss i) := by
  unfold TmuxMemCpuLoad.putAverage
  simp only []
  split_ifs <;> exact ⟨rfl, writes.fixed, writes.twoDecimals⟩

/-- The loop over the averages writes the figures of other averages, without
rounding. -/
theorem putAverages_eq {ss : OutputStream} (writes : WritesHundredths ss) {indices : List Nat}
    (range : ∀ i ∈ indices, 0 ≤ averages i ∧ averages i ≤ loadLimit) :
    indices.foldl (ieee.putAverage averages numAverages) ss =
      indices.foldl (TmuxMemCpuLoad.putAverage (fun i => shownAverage (averages i)) numAverages)
        ss := by
  induction indices generalizing ss with
  | nil => rfl
  | cons i indices induction =>
      obtain ⟨nonneg, atMost⟩ := range i (by simp)
      rw [List.foldl_cons, List.foldl_cons, putAverage_eq writes nonneg atMost]
      apply induction
      · exact writesHundredths_putAverage writes i
      · exact fun other member => range other (by simp [member])

theorem loadFigure_eq {ss : OutputStream} (writes : WritesHundredths ss)
    (range : ∀ i < numAverages.toNat, 0 ≤ averages i ∧ averages i ≤ loadLimit) :
    ieee.loadFigure ss averages numAverages =
      TmuxMemCpuLoad.loadFigure ss (fun i => shownAverage (averages i)) numAverages := by
  have blank : WritesHundredths (ss.putChar ' ') := ⟨rfl, writes.fixed, writes.twoDecimals⟩
  apply putAverages_eq blank
  exact fun i member => range i (List.mem_range.mp member)

end Arithmetic

end TmuxMemCpuLoad
