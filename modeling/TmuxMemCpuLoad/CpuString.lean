import TmuxMemCpuLoad.Graph
import TmuxMemCpuLoad.Metrics
import TmuxMemCpuLoad.Segments

/-!
# The CPU segment

`cpu_string` opens the segment, draws one of the two graphs or none, writes
the percentage and closes the segment.
-/

namespace TmuxMemCpuLoad

open StandardCxx StyledText

def cpuGraph (oss : OutputStream) (percentage : ℚ) (graphLines : Nat)
    (useVertGraph : Bool) : OutputStream :=
  if useVertGraph then
    ((oss.put "▕".toList).put (getGraphVert (toUnsigned percentage))).put "▏".toList
  else if graphLines > 0 then
    ((oss.put " [".toList).put
      (getGraphByPercentage (toUnsigned percentage) graphLines)).put "]".toList
  else oss

def cpuFigure (oss : OutputStream) (percentage multiplier : ℚ) (graphLines : Nat)
    (useVertGraph : Bool) : OutputStream :=
  let oss := (cpuGraph oss percentage graphLines useVertGraph).setWidth 6
  let oss := ((oss.setFixed.setPrecision 1).setFill ' ').setRight
  (oss.putFloat (percentage * multiplier)).put "%".toList

/-- The stream of `cpu_string` before anything is written. -/
def cpuStream (percentage multiplier : ℚ) : OutputStream :=
  let oss := ((OutputStream.fresh.setPrecision 1).setFixed).setRight
  if percentage * multiplier ≥ 100 then oss.setPrecision 0 else oss

def cpuMultiplier (host : Host) (cpuMode : CpuMode) : ℚ :=
  if cpuMode = .threads then host.cpuCount else 1

def cpuString (host : Host) (cpuMode : CpuMode) (cpuUsageDelay graphLines : Nat)
    (useColors usePowerlineLeft usePowerlineRight useVertGraph : Bool) :
    Outcome (List Char) := do
  let reading ← host.cpuPercentage cpuUsageDelay
  let multiplier := cpuMultiplier host cpuMode
  -- every path casts the percentage to an integer
  let percentage ← finite reading
  let percent := toUnsigned percentage
  let oss := cpuStream percentage multiplier
  let oss ←
    if useColors then
      openSegment oss cpuPercentageLut percent usePowerlineLeft usePowerlineRight
    else .ok oss
  let oss := cpuFigure oss percentage multiplier graphLines useVertGraph
  let oss ←
    if useColors then
      closeSegment oss cpuPercentageLut percent usePowerlineLeft usePowerlineRight
    else .ok oss
  .ok oss.written

/-! ## The figure and the colours around it -/

def cpuText (percentage multiplier : ℚ) (graphLines : Nat) (useVertGraph : Bool) :
    List Char :=
  (cpuFigure (cpuStream percentage multiplier) percentage multiplier graphLines
    useVertGraph).written

theorem cpuStream_written (percentage multiplier : ℚ) :
    (cpuStream percentage multiplier).written = [] := by
  unfold cpuStream
  split_ifs <;> rfl

theorem cpuStream_width (percentage multiplier : ℚ) :
    (cpuStream percentage multiplier).width = 0 := by
  unfold cpuStream
  split_ifs <;> rfl

theorem cpuGraph_oblivious (percentage : ℚ) (graphLines : Nat) (useVertGraph : Bool) :
    OutputStream.Oblivious fun oss => cpuGraph oss percentage graphLines useVertGraph := by
  intro before oss
  unfold cpuGraph
  split_ifs <;> simp only [OutputStream.oblivious_put _ before]

theorem cpuFigure_oblivious (percentage multiplier : ℚ) (graphLines : Nat)
    (useVertGraph : Bool) :
    OutputStream.Oblivious fun oss =>
      cpuFigure oss percentage multiplier graphLines useVertGraph := by
  intro before oss
  simp only [cpuFigure, cpuGraph_oblivious _ _ _ before,
    OutputStream.oblivious_setWidth _ before, OutputStream.oblivious_setFixed before,
    OutputStream.oblivious_setPrecision _ before, OutputStream.oblivious_setFill _ before,
    OutputStream.oblivious_setRight before, OutputStream.oblivious_putFloat _ before,
    OutputStream.oblivious_put _ before]

theorem cpuFigure_width (oss : OutputStream) (percentage multiplier : ℚ)
    (graphLines : Nat) (useVertGraph : Bool) :
    (cpuFigure oss percentage multiplier graphLines useVertGraph).width = 0 :=
  rfl

section Strings

variable {host : Host} {cpuUsageDelay : Nat} {percentage : ℚ}

/-- Without colours the string is the figure. -/
theorem cpuString_plain (cpuMode : CpuMode) (graphLines : Nat)
    (usePowerlineLeft usePowerlineRight useVertGraph : Bool)
    (defined : host.cpuPercentage cpuUsageDelay = .ok (some percentage)) :
    cpuString host cpuMode cpuUsageDelay graphLines false usePowerlineLeft
      usePowerlineRight useVertGraph =
      .ok (cpuText percentage (cpuMultiplier host cpuMode) graphLines useVertGraph) := by
  simp [cpuString, defined, finite, cpuText]

/-- With colours the figure stands between two texts that depend on the
percentage through the table index only. -/
theorem cpuString_coloured (cpuMode : CpuMode) (graphLines : Nat)
    (usePowerlineLeft usePowerlineRight useVertGraph : Bool)
    (defined : host.cpuPercentage cpuUsageDelay = .ok (some percentage))
    (atMost : toUnsigned percentage ≤ 100) :
    cpuString host cpuMode cpuUsageDelay graphLines true usePowerlineLeft
      usePowerlineRight useVertGraph =
      .ok (openText (lutStyle cpuPercentageLut (toUnsigned percentage))
          usePowerlineLeft usePowerlineRight ++
        cpuText percentage (cpuMultiplier host cpuMode) graphLines useVertGraph ++
        closeText (lutStyle cpuPercentageLut (toUnsigned percentage))
          usePowerlineLeft usePowerlineRight) := by
  have start := cpuStream_width percentage (cpuMultiplier host cpuMode)
  have moved := cpuFigure_oblivious percentage (cpuMultiplier host cpuMode) graphLines
    useVertGraph
    (openText (lutStyle cpuPercentageLut (toUnsigned percentage)) usePowerlineLeft
      usePowerlineRight)
    (cpuStream percentage (cpuMultiplier host cpuMode))
  rw [OutputStream.onto_eq_append_of_written_nil (cpuStream_written _ _)] at moved
  simp only [cpuString, defined, finite, Outcome.ok_bind, if_true,
    openSegment_eq cpuPercentageLut_wellFormed atMost start, moved]
  rw [closeSegment_eq cpuPercentageLut_wellFormed atMost (by simp [cpuFigure_width])]
  simp [cpuText]

end Strings

theorem cpuStream_writesOnly (percentage multiplier : ℚ) :
    (cpuStream percentage multiplier).WritesOnly FigureChar where
  written := by simp [cpuStream_written]
  fill := by
    unfold cpuStream
    split_ifs <;> decide
  fixed := by
    unfold cpuStream
    split_ifs <;> rfl

theorem cpuGraph_writesOnly {oss : OutputStream} (writes : oss.WritesOnly FigureChar)
    (percentage : ℚ) (graphLines : Nat) (useVertGraph : Bool) :
    (cpuGraph oss percentage graphLines useVertGraph).WritesOnly FigureChar := by
  have vertical : ∀ char ∈ getGraphVert (toUnsigned percentage), FigureChar char := by
    have drawn : ∀ char ∈ graphChars.map Prod.snd, FigureChar char :=
      forall_mem_of_all (by decide)
    exact fun char member => drawn char (mem_getGraphVert member)
  have horizontal : ∀ char ∈ getGraphByPercentage (toUnsigned percentage) graphLines,
      FigureChar char := by
    intro char member
    rcases mem_getGraphByPercentage member with rfl | rfl <;> decide
  unfold cpuGraph
  split_ifs
  · exact ((writes.put (forall_mem_of_all (by decide))).put vertical).put
      (forall_mem_of_all (by decide))
  · exact ((writes.put (forall_mem_of_all (by decide))).put horizontal).put
      (forall_mem_of_all (by decide))
  · exact writes

theorem figureChar_of_mem_cpuText {percentage multiplier : ℚ} {graphLines : Nat}
    {useVertGraph : Bool} {char : Char}
    (member : char ∈ cpuText percentage multiplier graphLines useVertGraph) :
    FigureChar char := by
  have graph := cpuGraph_writesOnly (cpuStream_writesOnly percentage multiplier)
    percentage graphLines useVertGraph
  let formatted :=
    (((((cpuGraph (cpuStream percentage multiplier) percentage graphLines
      useVertGraph).setWidth 6).setFixed).setPrecision 1).setFill ' ').setRight
  have blank : FigureChar ' ' := by decide
  have writes : formatted.WritesOnly FigureChar := ⟨graph.written, blank, rfl⟩
  have numbers := fun char => @figureChar_of_fixedChar char
  have percent : ∀ char ∈ "%".toList, FigureChar char := forall_mem_of_all (by decide)
  exact ((writes.putFloat numbers (percentage * multiplier)).put percent).written
    char member

end TmuxMemCpuLoad
