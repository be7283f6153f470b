import TmuxMemCpuLoad.Metrics
import TmuxMemCpuLoad.Segments

/-!
# The memory segment

`mem_string` opens the segment, writes the figure of the memory mode and
closes the segment.  The figure does not depend on the colours: they only add
a text before it and a text after it.
-/

namespace TmuxMemCpuLoad

open StandardCxx StyledText

def openMemory (oss : OutputStream) (color : Nat)
    (usePowerlineLeft usePowerlineRight segmentsToLeft : Bool) (leftColor : Int) :
    Outcome OutputStream := do
  let entry ← lutEntry memLut color
  if usePowerlineRight && segmentsToLeft then do
    let oss ← powerlineChar oss entry leftColor .right false
    .ok (oss.putChar ' ')
  else if usePowerlineRight && !segmentsToLeft then do
    let oss ← powerline (oss.put "#[bg=default]".toList) entry .right false
    .ok (oss.putChar ' ')
  else if usePowerlineLeft && segmentsToLeft then do
    let oss ← powerlineChar oss entry leftColor .left false
    .ok (oss.putChar ' ')
  else if usePowerlineLeft then do
    -- the default background cannot be inverted, so no separator is drawn
    let oss ← powerline oss entry .none false
    .ok (oss.putChar ' ')
  else powerline oss entry .none false

def memFigure (oss : OutputStream) (memStatus : MemoryStatus) :
    MemoryMode → OutputStream
  | .freeMemory =>
      let freeMem := memStatus.freeMem
      let freeMemInGigabytes := convertUnit freeMem .gigabytes .megabytes
      if freeMemInGigabytes < 1 then (oss.putFloat freeMem).put "MB".toList
      else (oss.putFloat freeMemInGigabytes).put "GB".toList
  | .usagePercentage =>
      (oss.putFloat memStatus.percentageMem).putChar '%'
  | .default | .other _ =>
      if memStatus.usedMem > 10000 ∧ memStatus.totalMem > 10000 then
        (((oss.putUnsigned (toUnsigned (memStatus.usedMem / 1024))).put
          "/".toList).putUnsigned (toUnsigned (memStatus.totalMem / 1024))).put
          "GB".toList
      else if memStatus.usedMem < 10000 ∧ memStatus.totalMem > 10000 then
        (((oss.putUnsigned (toUnsigned memStatus.usedMem)).put
          "MB/".toList).putUnsigned (toUnsigned (memStatus.totalMem / 1024))).put
          "GB".toList
      else
        (((oss.putUnsigned (toUnsigned memStatus.usedMem)).put
          "/".toList).putUnsigned (toUnsigned memStatus.totalMem)).put
          "MB".toList

/-- The stream of `mem_string` before anything is written. -/
def memStream : OutputStream :=
  ((OutputStream.fresh.setPrecision 2).setFixed).setRight

def memString (memStatus : MemoryStatus) (mode : MemoryMode)
    (useColors usePowerlineLeft usePowerlineRight segmentsToLeft : Bool)
    (leftColor : Int) : Outcome (List Char) := do
  let percentage ← finite (memPercentage memStatus)
  let color := toUnsigned percentage
  let oss ←
    if useColors then
      openMemory memStream color usePowerlineLeft usePowerlineRight
        segmentsToLeft leftColor
    else .ok memStream
  let oss := memFigure oss memStatus mode
  let oss ←
    if useColors then closeSegment oss memLut color usePowerlineLeft usePowerlineRight
    else .ok oss
  .ok oss.written

/-! ## The figure and the colours around it -/

def memText (memStatus : MemoryStatus) (mode : MemoryMode) : List Char :=
  (memFigure memStream memStatus mode).written

def openMemoryText (style : Style)
    (usePowerlineLeft usePowerlineRight segmentsToLeft : Bool) (leftColor : Int) :
    List Char :=
  if usePowerlineRight && segmentsToLeft then
    powerlineCharText style leftColor .right false ++ [' ']
  else if usePowerlineRight then
    bgText defaultStyle.bg ++ powerlineText style .right false ++ [' ']
  else if usePowerlineLeft && segmentsToLeft then
    powerlineCharText style leftColor .left false ++ [' ']
  else if usePowerlineLeft then powerlineText style .none false ++ [' ']
  else powerlineText style .none false

theorem openMemory_eq {oss : OutputStream} {color : Nat} (noWidth : oss.width = 0)
    (atMost : color ≤ 100)
    (usePowerlineLeft usePowerlineRight segmentsToLeft : Bool) (leftColor : Int) :
    openMemory oss color usePowerlineLeft usePowerlineRight segmentsToLeft leftColor =
      .ok (oss.append (openMemoryText (lutStyle memLut color) usePowerlineLeft
        usePowerlineRight segmentsToLeft leftColor)) := by
  obtain ⟨entry, found, sets⟩ := memLut_wellFormed.lutEntry_of_le atMost
  have reset : "#[bg=default]".toList = bgText defaultStyle.bg := by
    decide
  cases usePowerlineRight <;> cases segmentsToLeft <;> cases usePowerlineLeft <;>
    simp [openMemory, openMemoryText, found, OutputStream.putChar,
      OutputStream.put_eq_append, powerline_eq sets, powerlineChar_eq sets, noWidth,
      reset]

theorem openMemory_plain (oss : OutputStream) (color : Nat) (segmentsToLeft : Bool)
    (leftColor : Int) :
    openMemory oss color false false segmentsToLeft leftColor =
      (lutEntry memLut color >>= fun entry => powerline oss entry .none false) :=
  rfl

theorem memFigure_oblivious (memStatus : MemoryStatus) (mode : MemoryMode) :
    OutputStream.Oblivious fun oss => memFigure oss memStatus mode := by
  intro before oss
  cases mode <;>
    simp only [memFigure] <;>
    (try split_ifs) <;>
    simp only [OutputStream.oblivious_putFloat _ before,
      OutputStream.oblivious_putUnsigned _ before,
      OutputStream.oblivious_putChar _ before, OutputStream.oblivious_put _ before]

theorem memFigure_width (oss : OutputStream) (memStatus : MemoryStatus)
    (mode : MemoryMode) : (memFigure oss memStatus mode).width = 0 := by
  cases mode <;> simp only [memFigure] <;> (try split_ifs) <;>
    simp [OutputStream.putChar]

/-- Without colours the string is the figure. -/
theorem memString_plain (memStatus : MemoryStatus) (mode : MemoryMode)
    (usePowerlineLeft usePowerlineRight segmentsToLeft : Bool) (leftColor : Int)
    {percentage : ℚ} (defined : memPercentage memStatus = some percentage) :
    memString memStatus mode false usePowerlineLeft usePowerlineRight
      segmentsToLeft leftColor = .ok (memText memStatus mode) := by
  simp [memString, defined, finite, memText]

/-- With colours the figure stands between two texts that depend on the status
through the table index only. -/
theorem memString_coloured (memStatus : MemoryStatus) (mode : MemoryMode)
    (usePowerlineLeft usePowerlineRight segmentsToLeft : Bool) (leftColor : Int)
    {percentage : ℚ} (defined : memPercentage memStatus = some percentage)
    (atMost : toUnsigned percentage ≤ 100) :
    memString memStatus mode true usePowerlineLeft usePowerlineRight
      segmentsToLeft leftColor =
      .ok (openMemoryText (lutStyle memLut (toUnsigned percentage)) usePowerlineLeft
          usePowerlineRight segmentsToLeft leftColor ++
        memText memStatus mode ++
        closeText (lutStyle memLut (toUnsigned percentage)) usePowerlineLeft
          usePowerlineRight) := by
  have start : memStream.width = 0 := rfl
  have moved := memFigure_oblivious memStatus mode
    (openMemoryText (lutStyle memLut (toUnsigned percentage)) usePowerlineLeft
      usePowerlineRight segmentsToLeft leftColor) memStream
  rw [OutputStream.onto_eq_append_of_written_nil rfl] at moved
  simp only [memString, defined, finite, Outcome.ok_bind, if_true,
    openMemory_eq start atMost, moved]
  rw [closeSegment_eq memLut_wellFormed atMost (by simp [memFigure_width])]
  simp [memText]

theorem memStream_writesOnly : memStream.WritesOnly FigureChar where
  written := by simp [memStream, OutputStream.fresh, OutputStream.setPrecision,
    OutputStream.setFixed, OutputStream.setRight]
  fill := by decide
  fixed := rfl

theorem memFigure_writesOnly {oss : OutputStream} (writes : oss.WritesOnly FigureChar)
    (memStatus : MemoryStatus) (mode : MemoryMode) :
    (memFigure oss memStatus mode).WritesOnly FigureChar := by
  have numbers := fun char => @figureChar_of_fixedChar char
  have slash : ∀ char ∈ "/".toList, FigureChar char := forall_mem_of_all (by decide)
  have megabytes : ∀ char ∈ "MB".toList, FigureChar char := forall_mem_of_all (by decide)
  have gigabytes : ∀ char ∈ "GB".toList, FigureChar char := forall_mem_of_all (by decide)
  have megabytesOf : ∀ char ∈ "MB/".toList, FigureChar char := forall_mem_of_all (by decide)
  have defaultMode : (memFigure oss memStatus .default).WritesOnly FigureChar := by
    simp only [memFigure]
    split_ifs
    · exact (((writes.putUnsigned numbers _).put slash).putUnsigned numbers _).put gigabytes
    · exact (((writes.putUnsigned numbers _).put megabytesOf).putUnsigned numbers _).put
        gigabytes
    · exact (((writes.putUnsigned numbers _).put slash).putUnsigned numbers _).put megabytes
  cases mode with
  | default => exact defaultMode
  | other value => exact defaultMode
  | freeMemory =>
      simp only [memFigure]
      split_ifs
      · exact (writes.putFloat numbers _).put megabytes
      · exact (writes.putFloat numbers _).put gigabytes
  | usagePercentage => exact (writes.putFloat numbers _).putChar (by decide)

theorem figureChar_of_mem_memText {memStatus : MemoryStatus} {mode : MemoryMode}
    {char : Char} (member : char ∈ memText memStatus mode) : FigureChar char :=
  (memFigure_writesOnly memStream_writesOnly memStatus mode).written char member

end TmuxMemCpuLoad
