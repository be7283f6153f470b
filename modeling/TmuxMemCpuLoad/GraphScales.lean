import TmuxMemCpuLoad.RoundedFigures

/-!
# Graphs on other scales

`get_graph_by_value` draws a value out of any maximum; taking a tenth off the
maximum leaves the last bar to the maximum alone.  The vertical graph searches
its map from the greatest key down; it tells the same percentages apart as the
horizontal graph of ten characters.
-/

namespace TmuxMemCpuLoad

open StandardCxx BinaryRounding

/-! ## The graph of a value -/

/-- The part of the maximum, a `float` of which the quotient is a `double`. -/
def valueShare (value max : Nat) : ℚ :=
  toFloat (toDouble (value / toDouble (max - toDouble (1 / 10))))

/-- `bar_count` of `get_graph_by_value`, defined for a positive maximum only. -/
def valueBarCount (value max len : Nat) : Nat :=
  toUnsigned (toFloat (valueShare value max * toFloat len))

def getGraphByValue (value max len : Nat) : List Char :=
  drawBars (valueBarCount value max len) len

/-- The graph of a value out of a maximum is made of bars and then of blanks up
to its length, with at least as many bars as for a smaller value, none for zero
and only bars for the maximum. -/
structure FillsBoxOf (value max len : Nat) : Prop where
  box : ∃ bars ≤ len, getGraphByValue value max len =
    List.replicate bars '|' ++ List.replicate (len - bars) ' '
  length : (getGraphByValue value max len).length = len
  monotone : ∀ smaller ≤ value,
    (getGraphByValue smaller max len).count '|' ≤ (getGraphByValue value max len).count '|'
  empty : value = 0 → (getGraphByValue value max len).count '|' = 0
  full : value = max → (getGraphByValue value max len).count '|' = len

theorem getGraphByValue_eq (value max len : Nat) :
    getGraphByValue value max len =
      List.replicate (valueBarCount value max len) '|' ++
        List.replicate (len - valueBarCount value max len) ' ' :=
  drawBars_eq _ _

theorem count_getGraphByValue (value max len : Nat) :
    (getGraphByValue value max len).count '|' = valueBarCount value max len := by
  rw [getGraphByValue, count_drawBars]

theorem tenth_range : 0 ≤ toDouble (1 / 10) ∧ toDouble (1 / 10) < 1 := by
  have within := Within.toPrecision nearestEven 53 (by norm_num : (0 : ℚ) ≤ 1 / 10)
  refine ⟨toDouble_nonneg (by norm_num), lt_of_le_of_lt within.atMost ?_⟩
  norm_num

section Scale

variable {max : Nat} (positive : 0 < max)
include positive

/-- The constant loses less than a share of the maximum that a `double`
resolves. -/
theorem within_scale : Within (3 / 2 ^ 53) ((max : ℚ) - 1 / 10)
    (toDouble (max - toDouble (1 / 10))) := by
  have atLeast : (1 : ℚ) ≤ max := by exact_mod_cast positive
  have constant := abs_le.mp (Within.toPrecision nearestEven 53
    (by norm_num : (0 : ℚ) ≤ 1 / 10)).close
  have difference : Within (1 / 2 ^ 53) ((max : ℚ) - 1 / 10) (max - toDouble (1 / 10)) := by
    have share : (1 / 10 : ℚ) * (1 / 2 ^ 53) ≤ ((max : ℚ) - 1 / 10) * (1 / 2 ^ 53) :=
      mul_le_mul_of_nonneg_right (by linarith) (by positivity)
    unfold toDouble
    constructor
    · linarith [constant.2]
    · linarith [constant.1]
  have scale := difference.rounded (by linarith) (by norm_num) nearestEven 53
  exact scale.mono (by linarith) (by norm_num)

theorem scale_pos : 0 < toDouble ((max : ℚ) - toDouble (1 / 10)) := by
  have atLeast : (1 : ℚ) ≤ max := by exact_mod_cast positive
  refine lt_of_lt_of_le ?_ (within_scale positive).atLeast
  apply mul_pos
  · linarith
  · norm_num

/-- The scale lies between the maximum and the value below it. -/
theorem le_scale (fits : max < 2 ^ 53) {value : Nat} (below : value < max) :
    (value : ℚ) ≤ toDouble ((max : ℚ) - toDouble (1 / 10)) := by
  have atLeast : (value : ℚ) ≤ (max : ℚ) - toDouble (1 / 10) := by
    have next : (value : ℚ) + 1 ≤ max := by exact_mod_cast below
    linarith [tenth_range.2]
  exact nearestEven.natCast_le_toPrecision (by omega) (by decide) atLeast

theorem scale_le (fits : max < 2 ^ 53) : toDouble ((max : ℚ) - toDouble (1 / 10)) ≤ max := by
  have atLeast : (1 : ℚ) ≤ max := by exact_mod_cast positive
  apply toDouble_le _ _ fits
  · linarith [tenth_range.2]
  · linarith [tenth_range.1]

theorem valueShare_nonneg (value : Nat) : 0 ≤ valueShare value max :=
  toFloat_nonneg (toDouble_nonneg (div_nonneg (Nat.cast_nonneg _) (scale_pos positive).le))

theorem valueShare_mono {smaller value : Nat} (less : smaller ≤ value) :
    valueShare smaller max ≤ valueShare value max := by
  have quotientNonneg : 0 ≤ (smaller : ℚ) / toDouble (max - toDouble (1 / 10)) :=
    div_nonneg (Nat.cast_nonneg _) (scale_pos positive).le
  have quotientLe : (smaller : ℚ) / toDouble (max - toDouble (1 / 10)) ≤
      value / toDouble (max - toDouble (1 / 10)) :=
    div_le_div_of_nonneg_right (by exact_mod_cast less) (scale_pos positive).le
  exact toFloat_mono (toDouble_nonneg quotientNonneg)
    (nearestEven.toPrecision_mono (by decide) quotientNonneg quotientLe)

theorem valueBarCount_mono {smaller value len : Nat} (less : smaller ≤ value)
    (bounded : toFloat (valueShare value max * toFloat len) < 2 ^ 32) :
    valueBarCount smaller max len ≤ valueBarCount value max len := by
  have lenNonneg := toFloat_nonneg (Nat.cast_nonneg (α := ℚ) len)
  have productNonneg := mul_nonneg (valueShare_nonneg positive smaller) lenNonneg
  have productLe := mul_le_mul_of_nonneg_right (valueShare_mono positive less) lenNonneg
  have barsLe := toFloat_mono productNonneg productLe
  have barsNonneg := toFloat_nonneg productNonneg
  have floorLe := Int.floor_le_floor barsLe
  have smallerFloor := toUnsigned_eq_floor barsNonneg (lt_of_le_of_lt barsLe bounded)
  have valueFloor := toUnsigned_eq_floor (le_trans barsNonneg barsLe) bounded
  unfold valueBarCount
  omega

/-- Below the maximum no rounding carries the part past one. -/
theorem valueShare_le_one (fits : max < 2 ^ 53) {value : Nat} (below : value < max) :
    valueShare value max ≤ 1 := by
  have quotientNonneg : 0 ≤ (value : ℚ) / toDouble (max - toDouble (1 / 10)) :=
    div_nonneg (Nat.cast_nonneg _) (scale_pos positive).le
  have quotientLe : (value : ℚ) / toDouble (max - toDouble (1 / 10)) ≤ (1 : Nat) := by
    rw [Nat.cast_one, div_le_one₀ (scale_pos positive)]
    exact le_scale positive fits below
  have doubleLe := toDouble_le quotientNonneg quotientLe (by decide)
  have single := toFloat_le (toDouble_nonneg quotientNonneg) doubleLe (by decide)
  rwa [Nat.cast_one] at single

/-- At the maximum no rounding leaves the part below one. -/
theorem one_le_valueShare (fits : max < 2 ^ 53) : 1 ≤ valueShare max max := by
  have quotientLe : ((1 : Nat) : ℚ) ≤ (max : ℚ) / toDouble (max - toDouble (1 / 10)) := by
    rw [Nat.cast_one, one_le_div (scale_pos positive)]
    exact scale_le positive fits
  have double : ((1 : Nat) : ℚ) ≤ toDouble (max / toDouble (max - toDouble (1 / 10))) :=
    nearestEven.natCast_le_toPrecision (by decide) (by decide) quotientLe
  have single : ((1 : Nat) : ℚ) ≤ valueShare max max :=
    nearestEven.natCast_le_toPrecision (by decide) (by decide) double
  rwa [Nat.cast_one] at single

/-- The part of the maximum itself exceeds one by a tenth of a unit of it, up to
the share of the roundings. -/
theorem within_valueShare :
    Within (3 / 2 ^ 24) ((max : ℚ) / (max - 1 / 10)) (valueShare max max) := by
  have atLeast : (1 : ℚ) ≤ max := by exact_mod_cast positive
  have scale : 0 < (max : ℚ) - 1 / 10 := by linarith
  have quotientNonneg : 0 ≤ (max : ℚ) / (max - 1 / 10) := by positivity
  have ratio := (within_scale positive).div_left scale (by norm_num) (by norm_num)
    (by linarith : (0 : ℚ) ≤ max)
  have double := ratio.rounded quotientNonneg (by norm_num) nearestEven 53
  have single := double.rounded quotientNonneg (by norm_num) nearestEven 24
  exact single.mono quotientNonneg (by norm_num)

/-- The maximum is drawn with exactly as many bars as the box has characters. -/
theorem fullBars_range (fits : max < 2 ^ 53) {len : Nat} (short : len < 5 * max)
    (small : len ≤ 2 ^ 20) :
    (len : ℚ) ≤ toFloat (valueShare max max * len) ∧
      toFloat (valueShare max max * len) < len + 1 := by
  have maxCast : (1 : ℚ) ≤ max := by exact_mod_cast positive
  have lenCast : (len : ℚ) + 1 ≤ 5 * max := by exact_mod_cast short
  have lenLe : (len : ℚ) ≤ 2 ^ 20 := by exact_mod_cast small
  have lenNonneg : (0 : ℚ) ≤ len := Nat.cast_nonneg _
  have scale : 0 < (max : ℚ) - 1 / 10 := by linarith
  constructor
  · apply nearestEven.natCast_le_toPrecision (by omega) (by decide)
    calc (len : ℚ) = 1 * len := (one_mul _).symm
      _ ≤ valueShare max max * len :=
          mul_le_mul_of_nonneg_right (one_le_valueShare positive fits) lenNonneg
  · have product := (within_valueShare positive).mul_right lenNonneg
    have exactNonneg : 0 ≤ (max : ℚ) / (max - 1 / 10) * len := by positivity
    have bars := product.rounded exactNonneg (by norm_num) nearestEven 24
    -- the tenth is worth less than half a bar in a box this short
    have exactLe : (max : ℚ) / (max - 1 / 10) * len ≤ len + 1 / 2 := by
      rw [div_mul_eq_mul_div, div_le_iff₀ scale]
      linarith
    calc toFloat (valueShare max max * len)
        ≤ (max : ℚ) / (max - 1 / 10) * len * (1 + (3 / 2 ^ 24 + 2 * (1 / 2 ^ 24))) := bars.atMost
      _ ≤ (len + 1 / 2) * (1 + (3 / 2 ^ 24 + 2 * (1 / 2 ^ 24))) :=
          mul_le_mul_of_nonneg_right exactLe (by norm_num)
      _ < len + 1 := by linarith

theorem bars_lt (fits : max < 2 ^ 32) {value len : Nat} (small : len ≤ 2 ^ 20)
    (atMost : value < max ∨ value = max ∧ len < 5 * max) :
    toFloat (valueShare value max * toFloat len) < len + 1 := by
  rw [toFloat_natCast (by omega : len < 2 ^ 24)]
  have lenNonneg : (0 : ℚ) ≤ len := Nat.cast_nonneg _
  rcases atMost with below | ⟨rfl, short⟩
  · have product : valueShare value max * len ≤ len :=
      mul_le_of_le_one_left lenNonneg (valueShare_le_one positive (by omega) below)
    have bars := toFloat_le (mul_nonneg (valueShare_nonneg positive value) lenNonneg) product
      (by omega)
    linarith
  · exact (fullBars_range positive (by omega) short small).2

/-- With every operation rounded, the graph of a value below the maximum fills
its box, and that of the maximum a box of fewer than five times as many
characters. -/
theorem getGraphByValue_fillsBox (fits : max < 2 ^ 32) {value len : Nat}
    (small : len ≤ 2 ^ 20) (atMost : value < max ∨ value = max ∧ len < 5 * max) :
    FillsBoxOf value max len := by
  have bounded := bars_lt positive fits small atMost
  have lenCast : (len : ℚ) ≤ 2 ^ 20 := by exact_mod_cast small
  have representable : toFloat (valueShare value max * toFloat len) < 2 ^ 32 := by linarith
  have barsNonneg : 0 ≤ toFloat (valueShare value max * toFloat len) :=
    toFloat_nonneg (mul_nonneg (valueShare_nonneg positive value)
      (toFloat_nonneg (Nat.cast_nonneg _)))
  have floor := toUnsigned_eq_floor barsNonneg representable
  have floorLt : ⌊toFloat (valueShare value max * toFloat len)⌋ < (len : Int) + 1 :=
    Int.floor_lt.mpr (by exact_mod_cast bounded)
  have barsLe : valueBarCount value max len ≤ len := by
    unfold valueBarCount
    omega
  have text := getGraphByValue_eq value max len
  constructor
  · exact ⟨_, barsLe, text⟩
  · rw [text, List.length_append, List.length_replicate, List.length_replicate]
    exact Nat.add_sub_of_le barsLe
  · intro smaller less
    rw [count_getGraphByValue, count_getGraphByValue]
    exact valueBarCount_mono positive less representable
  · rintro rfl
    rw [count_getGraphByValue]
    simp [valueBarCount, valueShare, toFloat, toDouble, toUnsigned, truncate]
  · rintro rfl
    have short : len < 5 * value := by omega
    have range := fullBars_range positive (by omega) short small
    have lenFloor : (len : Int) ≤ ⌊toFloat (valueShare value value * toFloat len)⌋ := by
      rw [Int.le_floor, toFloat_natCast (by omega : len < 2 ^ 24)]
      exact_mod_cast range.1
    rw [count_getGraphByValue]
    unfold valueBarCount
    omega

end Scale

theorem getGraphByValue_fillsBox_sample : FillsBoxOf 3 4 12 :=
  getGraphByValue_fillsBox (by decide) (by decide) (by decide) (.inl (by decide))

/-! ## The vertical graph -/

/-- A search for multiples of a step from the greatest down stops at the number
of steps in the value. -/
theorem find?_reverse_range {count step : Nat} (someKeys : 0 < count) (stepPos : 0 < step)
    (value : Nat) :
    (List.range count).reverse.find? (fun index => step * index ≤ value) =
      some (min (value / step) (count - 1)) := by
  induction count with
  | zero => omega
  | succ count induction =>
      rw [List.range_succ, List.reverse_append, List.reverse_singleton, List.singleton_append]
      by_cases reached : step * count ≤ value
      · have steps : count ≤ value / step := (Nat.le_div_iff_mul_le stepPos).mpr (by
          rwa [Nat.mul_comm] at reached)
        rw [List.find?_cons_of_pos (by simpa using reached)]
        congr 1
        omega
      · have positive : 0 < count := by
          rcases Nat.eq_zero_or_pos count with rfl | positive
          · simp at reached
          · exact positive
        have steps : value / step < count := (Nat.div_lt_iff_lt_mul stepPos).mpr (by
          rw [Nat.mul_comm]
          omega)
        rw [List.find?_cons_of_neg (by simpa using reached), induction positive]
        congr 1
        omega

/-- The character of a number of tenths. -/
def verticalLevel (tenths : Nat) : Char :=
  (graphChars.getD tenths (0, ' ')).2

theorem graphChars_eq :
    graphChars = (List.range 10).map fun index => (10 * index, verticalLevel index) :=
  rfl

theorem getGraphVert_eq (value : Nat) :
    getGraphVert value = [verticalLevel (min (value / 10) 9)] := by
  have search : graphChars.reverse.find? (fun entry => entry.1 ≤ value) =
      some (10 * min (value / 10) 9, verticalLevel (min (value / 10) 9)) := by
    rw [graphChars_eq, ← List.map_reverse, List.find?_map]
    have keys := find?_reverse_range (by decide : 0 < 10) (by decide : 0 < 10) value
    exact congrArg (Option.map _) keys
  rw [getGraphVert, search]

theorem verticalLevel_injective : ∀ first < 10, ∀ second < 10,
    verticalLevel first = verticalLevel second → first = second := by
  decide

/-- The vertical graph tells two percentages apart exactly where the horizontal
graph of the default length does, but for its last bar. -/
theorem getGraphVert_eq_iff {first second : Nat} (firstLe : first ≤ 100)
    (secondLe : second ≤ 100) :
    getGraphVert first = getGraphVert second ↔
      min ((roundedGraphByPercentage first 10).count '|') 9 =
        min ((roundedGraphByPercentage second 10).count '|') 9 := by
  have bars : ∀ value < 101, min (10 * value * 10 / 999 % 2 ^ 32) 9 = min (value / 10) 9 := by
    decide
  have tenths : ∀ value ≤ 100,
      min ((roundedGraphByPercentage value 10).count '|') 9 = min (value / 10) 9 := by
    intro value atMost
    rw [roundedGraphByPercentage_default atMost, count_getGraphByPercentage]
    exact bars value (by omega)
  rw [tenths first firstLe, tenths second secondLe, getGraphVert_eq, getGraphVert_eq,
    List.singleton_inj]
  constructor
  · exact verticalLevel_injective _ (by omega) _ (by omega)
  · intro same
    rw [same]

/-- Only the horizontal graph tells 90 percent from 100. -/
example : getGraphVert 90 = getGraphVert 100 := by
  decide

end TmuxMemCpuLoad
