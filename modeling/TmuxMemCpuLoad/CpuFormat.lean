import TmuxMemCpuLoad.ColourIndependence
import TmuxMemCpuLoad.FloatArithmetic

/-!
# The format of the CPU figure

`cpu_string` sets the precision of its stream to zero for figures from 100 on,
to keep the number short, and sets it back to one before it writes the figure.
-/

namespace TmuxMemCpuLoad

open StandardCxx StyledText

/-! ## The text of the figure -/

def cpuGraphText (percentage : ℚ) (graphLines : Nat) (useVertGraph : Bool) : List Char :=
  (cpuGraph OutputStream.fresh percentage graphLines useVertGraph).written

/-- A text at the right end of a field of six columns. -/
def inSixColumns (text : List Char) : List Char :=
  List.replicate (6 - text.length) ' ' ++ text

namespace Arithmetic

variable (arith : Arithmetic)

def cpuGraphText (percentage : ℚ) (graphLines : Nat) (useVertGraph : Bool) : List Char :=
  (arith.cpuGraph OutputStream.fresh percentage graphLines useVertGraph).written

/-- The graph is appended, and the format of the stream stays as it is. -/
theorem cpuGraph_eq_append {oss : OutputStream} (noWidth : oss.width = 0)
    (percentage : ℚ) (graphLines : Nat) (useVertGraph : Bool) :
    arith.cpuGraph oss percentage graphLines useVertGraph =
      oss.append (arith.cpuGraphText percentage graphLines useVertGraph) := by
  have fresh : OutputStream.fresh.width = 0 := rfl
  have empty : OutputStream.fresh.written = [] := rfl
  unfold cpuGraphText cpuGraph
  split_ifs <;> simp [OutputStream.put_eq_append, noWidth, fresh, empty]

def cpuText (percentage multiplier : ℚ) (graphLines : Nat) (useVertGraph : Bool) : List Char :=
  arith.cpuGraphText percentage graphLines useVertGraph ++
    inSixColumns (fixedText 1 (arith.float (percentage * multiplier))) ++ ['%']

/-- The figure always has one decimal. -/
theorem cpuFigure_written {oss : OutputStream} (noWidth : oss.width = 0)
    (percentage multiplier : ℚ) (graphLines : Nat) (useVertGraph : Bool) :
    (arith.cpuFigure oss percentage multiplier graphLines useVertGraph).written =
      oss.written ++ arith.cpuText percentage multiplier graphLines useVertGraph := by
  unfold cpuText cpuFigure
  rw [cpuGraph_eq_append arith noWidth]
  simp [OutputStream.putFloat, OutputStream.put, OutputStream.padded, OutputStream.floatText,
    OutputStream.setWidth, OutputStream.setFixed, OutputStream.setPrecision,
    OutputStream.setFill, OutputStream.setRight, OutputStream.append, inSixColumns]

theorem hash_not_mem_cpuGraphText (percentage : ℚ) (graphLines : Nat) (useVertGraph : Bool) :
    '#' ∉ arith.cpuGraphText percentage graphLines useVertGraph := by
  have fresh : OutputStream.fresh.width = 0 := rfl
  have empty : OutputStream.fresh.written = [] := rfl
  unfold cpuGraphText cpuGraph
  split_ifs
  · have plain : '#' ∉ getGraphVert (toUnsigned percentage) :=
      fun member => absurd (mem_getGraphVert member) (by decide)
    simp [OutputStream.put_eq_append, fresh, empty, plain]
  · have plain : '#' ∉ arith.getGraphByPercentage (toUnsigned percentage) graphLines :=
      fun member => absurd (mem_drawBars member) (by decide)
    simp [OutputStream.put_eq_append, fresh, empty, plain]
  · simp [empty]

theorem cpuMultiplier_nonneg (keeps : ∀ value, 0 ≤ value → 0 ≤ arith.float value)
    (host : Host) (cpuMode : CpuMode) : 0 ≤ arith.cpuMultiplier host cpuMode := by
  unfold cpuMultiplier
  split_ifs
  · exact keeps _ (Nat.cast_nonneg _)
  · exact zero_le_one

end Arithmetic

theorem cpuText_eq (percentage multiplier : ℚ) (graphLines : Nat) (useVertGraph : Bool) :
    cpuText percentage multiplier graphLines useVertGraph =
      cpuGraphText percentage graphLines useVertGraph ++
        inSixColumns (fixedText 1 (percentage * multiplier)) ++ ['%'] := by
  have written := Arithmetic.exact.cpuFigure_written (cpuStream_width percentage multiplier)
    percentage multiplier graphLines useVertGraph
  rw [cpuStream_written, List.nil_append] at written
  exact written

theorem hash_not_mem_cpuGraphText (percentage : ℚ) (graphLines : Nat)
    (useVertGraph : Bool) : '#' ∉ cpuGraphText percentage graphLines useVertGraph :=
  Arithmetic.exact.hash_not_mem_cpuGraphText percentage graphLines useVertGraph

theorem cpuMultiplier_nonneg (host : Host) (cpuMode : CpuMode) :
    0 ≤ cpuMultiplier host cpuMode :=
  Arithmetic.exact.cpuMultiplier_nonneg (fun _ nonneg => nonneg) host cpuMode

/-! ## The intended format -/

/-- From 100 on there is no decimal point, to keep the number short. -/
def shortFigure (value : ℚ) : List Char :=
  if value ≥ 100 then fixedText 0 value else fixedText 1 value

/-- Between decorations, of which there are none without colours, the string
shows the graph and the figure in its field. -/
def ShowsShortFigure (percentage multiplier : ℚ) (graphLines : Nat)
    (useVertGraph useColors : Bool) (string : List Char) : Prop :=
  ∃ opening closing : List Char,
    Decoration IsSign opening ∧ Decoration IsSign closing ∧
    (useColors = false → opening = [] ∧ closing = []) ∧
    (percentage * multiplier < 999999 →
      (inSixColumns (shortFigure (percentage * multiplier))).length = 6) ∧
    string = opening ++ (cpuGraphText percentage graphLines useVertGraph ++
      inSixColumns (shortFigure (percentage * multiplier)) ++ ['%']) ++ closing

theorem length_inSixColumns {text : List Char} (short : text.length ≤ 6) :
    (inSixColumns text).length = 6 := by
  simp only [inSixColumns, List.length_append, List.length_replicate]
  omega

theorem count_point_inSixColumns (text : List Char) :
    (inSixColumns text).count '.' = text.count '.' := by
  simp [inSixColumns, List.count_replicate]

theorem hash_not_mem_fixedText (precision : Nat) (value : ℚ) :
    '#' ∉ fixedText precision value :=
  fun member => (figureChar_of_fixedChar (fixedChar_of_mem_fixedText member)).1 rfl

theorem hash_not_mem_figure {graph figure : List Char} (graphPlain : '#' ∉ graph)
    (figurePlain : '#' ∉ figure) : '#' ∉ graph ++ inSixColumns figure ++ ['%'] := by
  simp [inSixColumns, graphPlain, figurePlain]

/-! ## When the format is the intended one -/

section Format

variable {percentage multiplier : ℚ} {graphLines : Nat} {useVertGraph : Bool}

/-- Two figures after one graph have a point both or neither. -/
theorem count_point_unique {graph figure other : List Char}
    {opening closing otherOpening otherClosing : List Char} (graphPlain : '#' ∉ graph)
    (figurePlain : '#' ∉ figure) (otherPlain : '#' ∉ other)
    (decorationOpening : Decoration IsSign opening)
    (decorationClosing : Decoration IsSign closing)
    (decorationOtherOpening : Decoration IsSign otherOpening)
    (decorationOtherClosing : Decoration IsSign otherClosing)
    (equal : opening ++ (graph ++ inSixColumns figure ++ ['%']) ++ closing =
      otherOpening ++ (graph ++ inSixColumns other ++ ['%']) ++ otherClosing) :
    figure.count '.' = other.count '.' := by
  have texts := Decoration.text_unique decorationOpening decorationClosing
    (hash_not_mem_figure graphPlain figurePlain) decorationOtherOpening
    decorationOtherClosing (hash_not_mem_figure graphPlain otherPlain)
    (fun sign => sign.ne_hash rfl) equal
  have notSign : (fun char => decide (¬ IsSign char)) '.' = true := by decide
  have points := congrArg (List.count '.') texts
  rw [List.count_filter (p := fun char => decide (¬ IsSign char)) notSign,
    List.count_filter (p := fun char => decide (¬ IsSign char)) notSign] at points
  simp only [List.count_append, count_point_inSixColumns] at points
  omega

theorem hash_not_mem_shortFigure (value : ℚ) : '#' ∉ shortFigure value := by
  unfold shortFigure
  split_ifs <;> exact hash_not_mem_fixedText _ _

/-- The string shows the intended figure exactly below 100. -/
theorem showsShortFigure_iff {useColors : Bool} {opening closing : List Char}
    (nonneg : 0 ≤ percentage * multiplier)
    (decorationOpening : Decoration IsSign opening)
    (decorationClosing : Decoration IsSign closing)
    (plain : useColors = false → opening = [] ∧ closing = []) :
    ShowsShortFigure percentage multiplier graphLines useVertGraph useColors
        (opening ++ cpuText percentage multiplier graphLines useVertGraph ++ closing) ↔
      percentage * multiplier < 100 := by
  rw [cpuText_eq]
  constructor
  · rintro ⟨otherOpening, otherClosing, decorationOtherOpening, decorationOtherClosing,
      _, _, equal⟩
    by_contra large
    have points := count_point_unique (hash_not_mem_cpuGraphText _ _ _)
      (hash_not_mem_fixedText _ _) (hash_not_mem_shortFigure _) decorationOpening
      decorationClosing decorationOtherOpening decorationOtherClosing equal
    rw [shortFigure, if_pos (not_lt.mp large), count_point_fixedText,
      count_point_fixedText] at points
    cases points
  · intro small
    have short : shortFigure (percentage * multiplier) =
        fixedText 1 (percentage * multiplier) :=
      if_neg (not_le.mpr small)
    have length : (fixedText 1 (percentage * multiplier)).length ≤ 5 := by
      have tenths : percentage * multiplier * 10 ≤ ((1000 : Nat) : ℚ) := by
        push_cast
        linarith
      exact length_fixedText_one nonneg (by decide : 0 < 3) tenths (by decide)
    refine ⟨opening, closing, decorationOpening, decorationClosing, plain, ?_, ?_⟩
    · intro _
      rw [short]
      exact length_inSixColumns (by omega)
    · rw [short]

end Format

/-- The CPU figure has the intended format exactly where it is below 100. -/
theorem cpuString_showsShortFigure_iff (host : Host) (cpuMode : CpuMode)
    (cpuUsageDelay graphLines : Nat)
    (useColors usePowerlineLeft usePowerlineRight useVertGraph : Bool) {percentage : ℚ}
    (defined : host.cpuPercentage cpuUsageDelay = .ok (some percentage))
    (nonneg : 0 ≤ percentage) (atMost : percentage ≤ 100) :
    (∃ string, cpuString host cpuMode cpuUsageDelay graphLines useColors
        usePowerlineLeft usePowerlineRight useVertGraph = .ok string ∧
      ShowsShortFigure percentage (cpuMultiplier host cpuMode) graphLines useVertGraph
        useColors string) ↔
      percentage * cpuMultiplier host cpuMode < 100 := by
  have multiplierNonneg := cpuMultiplier_nonneg host cpuMode
  have selected : toUnsigned percentage ≤ 100 :=
    toUnsigned_le nonneg (by exact_mod_cast atMost) (by decide)
  obtain ⟨before, after, around⟩ := (cpuString_onlyDecorates usePowerlineLeft
    usePowerlineRight).around useColors
  obtain ⟨decorationBefore, decorationAfter, plain, written⟩ :=
    around ⟨host, cpuMode, cpuUsageDelay, graphLines, useVertGraph⟩ _ _
      ⟨percentage, defined, rfl, selected⟩
      (cpuString_plain cpuMode graphLines usePowerlineLeft usePowerlineRight useVertGraph
        defined)
  rw [← showsShortFigure_iff (mul_nonneg nonneg multiplierNonneg) decorationBefore
    decorationAfter plain]
  constructor
  · rintro ⟨string, rendered, shows⟩
    rw [Except.ok.inj (written.symm.trans rendered)]
    exact shows
  · intro shows
    exact ⟨_, written, shows⟩

theorem cpuString_showsShortFigure_sample :
    ∃ string, cpuString sampleHost .default 0 10 true false false false = .ok string ∧
      ShowsShortFigure 25 1 10 false true string := by
  have iff := cpuString_showsShortFigure_iff sampleHost .default 0 10 true false false
    false rfl (by decide +kernel) (by decide +kernel)
  exact iff.mpr (by decide +kernel)

/-- A quarter of four processors is shown as 100.0. -/
theorem cpuString_not_shortFigure :
    cpuString sampleHost .threads 0 0 false false false false = .ok " 100.0%".toList ∧
      ¬ ShowsShortFigure 25 (cpuMultiplier sampleHost .threads) 0 false false
        " 100.0%".toList := by
  refine ⟨by decide +kernel, fun shows => ?_⟩
  have written : " 100.0%".toList =
      [] ++ cpuText 25 (cpuMultiplier sampleHost .threads) 0 false ++ [] := by
    decide +kernel
  rw [written] at shows
  have below := (showsShortFigure_iff (by decide +kernel) .nil .nil
    fun _ => ⟨rfl, rfl⟩).mp shows
  revert below
  decide +kernel

end TmuxMemCpuLoad
