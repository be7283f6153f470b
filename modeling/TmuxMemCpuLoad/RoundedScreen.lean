import TmuxMemCpuLoad.RoundedLoads
import TmuxMemCpuLoad.ScreenReader

/-!
# The screen in IEEE arithmetic

With every operation rounded, the status line is still made of three segments
with a figure in each, and the figures are read back from the screen.  What is
read are the rounded results of the program.
-/

namespace TmuxMemCpuLoad

open StandardCxx StyledText DecimalReader BinaryRounding

/-! ## Numbers of the formats -/

theorem toFloat_toFloat {value : ℚ} (nonneg : 0 ≤ value) :
    toFloat (toFloat value) = toFloat value :=
  nearestEven.toPrecision_toPrecision (by decide) nonneg

/-- A division by 1024 moves the binary point. -/
theorem toFloat_div_1024 {value : ℚ} (nonneg : 0 ≤ value) :
    toFloat (value / 1024) = toFloat value / 1024 := by
  have power : ∀ number : ℚ, number / 1024 = number * 2 ^ (-10 : Int) := by
    intro number
    norm_num
    ring
  rw [power, power]
  exact nearestEven.toPrecision_mul_zpow 24 nonneg (-10)

/-- The sizes of a status are numbers of type `float`, between zero and a
positive total. -/
structure MemoryStatus.Stored (status : MemoryStatus) : Prop where
  used : toFloat status.usedMem = status.usedMem
  total : toFloat status.totalMem = status.totalMem
  nonneg : 0 ≤ status.usedMem
  atMost : status.usedMem ≤ status.totalMem
  positive : 0 < status.totalMem

namespace Arithmetic

/-! ## The memory segment -/

/-- What the memory figure shows of a status whose sizes are stored. -/
def memoryShown (arith : Arithmetic) (status : MemoryStatus) : MemoryMode → MemoryShown
  | .freeMemory =>
      if arith.freeMem status < 1024 then
        .free (roundedUnits 2 (arith.freeMem status)) .megabytes
      else .free (roundedUnits 2 (arith.freeMem status / 1024)) .gigabytes
  | .usagePercentage => .percentage (roundedUnits 2 (arith.percentageMem status))
  | .default | .other _ => .sizes (defaultDisplay status)

theorem hash_not_mem_scaledText (scaled : Nat) : '#' ∉ scaledText 2 scaled := by
  intro member
  rw [← hundredthsText_eq_scaledText] at member
  exact (figureChar_of_fixedChar (fixedChar_of_mem_hundredthsText member)).1 rfl

theorem hash_not_mem_memoryShown (shown : MemoryShown) : '#' ∉ shown.text := by
  cases shown with
  | sizes display => exact display.hash_not_mem_text
  | free hundredths unit =>
      have inUnit : '#' ∉ unit.text := by cases unit <;> decide
      simp [MemoryShown.text, hash_not_mem_scaledText, inUnit]
  | percentage hundredths => simp [MemoryShown.text, hash_not_mem_scaledText]

section Memory

variable {status : MemoryStatus} (stored : status.Stored)
include stored

theorem freeMem_nonneg : 0 ≤ ieee.freeMem status :=
  toFloat_nonneg (sub_nonneg.mpr stored.atMost)

theorem percentageMem_nonneg : 0 ≤ ieee.percentageMem status := by
  have ratio : 0 ≤ status.usedMem / status.totalMem :=
    div_nonneg stored.nonneg stored.positive.le
  have product : 0 ≤ toFloat (status.usedMem / status.totalMem) * 100 :=
    mul_nonneg (toFloat_nonneg ratio) (by norm_num)
  exact toFloat_nonneg (toDouble_nonneg product)

/-- The free memory in gigabytes is not rounded once more. -/
theorem convertUnit_freeMem :
    ieee.convertUnit (ieee.freeMem status) .gigabytes .megabytes =
      ieee.freeMem status / 1024 := by
  have again : toFloat (ieee.freeMem status) = ieee.freeMem status :=
    toFloat_toFloat (sub_nonneg.mpr stored.atMost)
  show toFloat (ieee.freeMem status / 1024) = _
  rw [toFloat_div_1024 (freeMem_nonneg stored), again]

theorem memFigure_sizes {oss : OutputStream} (noWidth : oss.width = 0) :
    ieee.memFigure oss status .default = oss.append (defaultDisplay status).text := by
  have used : ieee.float (status.usedMem / 1024) = status.usedMem / 1024 := by
    show toFloat _ = _
    rw [toFloat_div_1024 stored.nonneg, stored.used]
  have total : ieee.float (status.totalMem / 1024) = status.totalMem / 1024 := by
    show toFloat _ = _
    rw [toFloat_div_1024 stored.positive.le, stored.total]
  rw [← memFigure_default noWidth]
  simp only [memFigure, used, total]
  rfl

theorem memFigure_eq {oss : OutputStream} (writes : WritesHundredths oss) (mode : MemoryMode) :
    ieee.memFigure oss status mode = oss.append (ieee.memoryShown status mode).text := by
  have free := freeMem_nonneg stored
  have border : ieee.freeMem status / 1024 < 1 ↔ ieee.freeMem status < 1024 := by
    rw [div_lt_iff₀ (by norm_num), one_mul]
  cases mode with
  | default => exact memFigure_sizes stored writes.noWidth
  | other value => exact memFigure_sizes stored writes.noWidth
  | freeMemory =>
      simp only [memFigure, memoryShown, convertUnit_freeMem stored, border]
      split_ifs
      · rw [writes.putScaled free, OutputStream.put_eq_append (by simp [writes.noWidth])]
        simp [MemoryShown.text, SizeUnit.text]
      · rw [writes.putScaled (by positivity), OutputStream.put_eq_append (by simp [writes.noWidth])]
        simp [MemoryShown.text, SizeUnit.text]
  | usagePercentage =>
      simp only [memFigure, memoryShown]
      rw [writes.putScaled (percentageMem_nonneg stored), OutputStream.putChar,
        OutputStream.put_eq_append (by simp [writes.noWidth])]
      simp [MemoryShown.text]

theorem memString_segment (mode : MemoryMode)
    (useColors usePowerlineLeft usePowerlineRight segmentsToLeft : Bool) (leftColor : Int) :
    ∃ segment : Segment, segment.figure = (ieee.memoryShown status mode).text ∧
      ieee.memString status mode useColors usePowerlineLeft usePowerlineRight segmentsToLeft
        leftColor = .ok segment.text := by
  obtain ⟨color, defined, follows⟩ :=
    MemoryStatus.roundedColor_follows stored.nonneg stored.atMost stored.positive
  have percentage : ieee.memPercentage status = some color := defined
  have plain := hash_not_mem_memoryShown (ieee.memoryShown status mode)
  have empty : memStream.written = [] := rfl
  have start : memStream.width = 0 := rfl
  cases useColors with
  | false =>
      refine ⟨.undecorated plain, rfl, ?_⟩
      rw [Segment.undecorated_text]
      simp [memString, percentage, finite, memFigure_eq stored memStream_writesHundredths, empty]
  | true =>
      have writable := memLut_wellFormed.lutStyle_writable follows.index_le
      have opened := memStream_writesHundredths.append
        (openMemoryText (lutStyle memLut (toUnsigned color)) usePowerlineLeft usePowerlineRight
          segmentsToLeft leftColor)
      refine ⟨⟨_, _, _, decoration_openMemoryText writable usePowerlineLeft usePowerlineRight
        segmentsToLeft leftColor, decoration_closeText writable usePowerlineLeft
          usePowerlineRight, plain⟩, rfl, ?_⟩
      simp only [memString, percentage, finite, Outcome.ok_bind, if_true,
        openMemory_eq start follows.index_le, memFigure_eq stored opened]
      rw [closeSegment_eq memLut_wellFormed follows.index_le (by simp [start])]
      simp [Segment.text, empty]

end Memory

/-! ## The CPU segment -/

theorem cpuStream_start (percentage multiplier : ℚ) :
    (ieee.cpuStream percentage multiplier).written = [] ∧
      (ieee.cpuStream percentage multiplier).width = 0 := by
  unfold cpuStream
  split_ifs <;> exact ⟨rfl, rfl⟩

theorem cpuString_segment {host : Host} {cpuUsageDelay : Nat} {percentage : ℚ}
    (defined : host.cpuPercentage cpuUsageDelay = .ok (some percentage))
    (atMost : toUnsigned percentage ≤ 100) (cpuMode : CpuMode) (graphLines : Nat)
    (useColors usePowerlineLeft usePowerlineRight useVertGraph : Bool) :
    ∃ segment : Segment,
      segment.figure =
        ieee.cpuText percentage (ieee.cpuMultiplier host cpuMode) graphLines useVertGraph ∧
      ieee.cpuString host cpuMode cpuUsageDelay graphLines useColors usePowerlineLeft
        usePowerlineRight useVertGraph = .ok segment.text := by
  have plain : '#' ∉ ieee.cpuText percentage (ieee.cpuMultiplier host cpuMode) graphLines
      useVertGraph :=
    hash_not_mem_figure (ieee.hash_not_mem_cpuGraphText percentage graphLines useVertGraph)
      (hash_not_mem_fixedText 1 _)
  obtain ⟨empty, start⟩ := cpuStream_start percentage (ieee.cpuMultiplier host cpuMode)
  cases useColors with
  | false =>
      refine ⟨.undecorated plain, rfl, ?_⟩
      rw [Segment.undecorated_text]
      simp [cpuString, defined, finite, ieee.cpuFigure_written start, empty]
  | true =>
      have writable := cpuPercentageLut_wellFormed.lutStyle_writable atMost
      refine ⟨⟨_, _, _, decoration_openText writable usePowerlineLeft usePowerlineRight,
        decoration_closeText writable usePowerlineLeft usePowerlineRight, plain⟩, rfl, ?_⟩
      simp only [cpuString, defined, finite, Outcome.ok_bind, if_true,
        openSegment_eq cpuPercentageLut_wellFormed atMost start]
      rw [closeSegment_eq cpuPercentageLut_wellFormed atMost rfl]
      simp [Segment.text, cpuFigure_written, start, empty]

/-! ## The load segment -/

/-- The content of the load segment, with the averages that its figures look
like. -/
def loadContent (host : Host) (numAverages : Int) : Outcome LoadContent :=
  if numAverages ≤ 0 ∨ numAverages > 3 then .ok (.fallback ['\x00'])
  else
    match host.loadAverages numAverages.toNat with
    | none => .ok (.fallback " 0.00 0.00 0.00".toList)
    | some averages => do
        let index ← ieee.loadColor host averages
        .ok (.figures (fun i => shownAverage (averages i)) index)

/-- The averages that a call of `getloadavg` leaves in the array are loads. -/
def AnswersLoads (host : Host) (numAverages : Int) : Prop :=
  ¬ (numAverages ≤ 0 ∨ numAverages > 3) →
    ∀ averages, host.loadAverages numAverages.toNat = some averages →
      ∀ i < numAverages.toNat, 0 ≤ averages i ∧ averages i ≤ loadLimit

section Load

variable {host : Host} {numAverages : Int} (processors : host.cpuCount ≠ 0)
  (loads : AnswersLoads host numAverages)
include processors loads

theorem loadString_segment
    (useColors usePowerlineLeft usePowerlineRight segmentsToRight : Bool) (rightColor : Int) :
    ∃ (content : LoadContent) (segment : Segment), loadContent host numAverages = .ok content ∧
      content.Possible numAverages ∧ segment.figure = content.text numAverages ∧
      ieee.loadString host useColors usePowerlineLeft usePowerlineRight numAverages
        segmentsToRight rightColor = .ok segment.text := by
  by_cases outside : numAverages ≤ 0 ∨ numAverages > 3
  · have plain : '#' ∉ ['\x00'] := by decide
    refine ⟨.fallback ['\x00'], .undecorated plain, ?_, .nul, rfl, ?_⟩
    · rw [loadContent, if_pos outside]
    · rw [loadString, if_pos outside, Segment.undecorated_text]
      rfl
  · cases read : host.loadAverages numAverages.toNat with
    | none =>
        have plain : '#' ∉ " 0.00 0.00 0.00".toList := by decide
        refine ⟨.fallback " 0.00 0.00 0.00".toList, .undecorated plain, ?_, .failed, rfl, ?_⟩
        · rw [loadContent, if_neg outside, read]
        · rw [loadString, if_neg outside, read, Segment.undecorated_text]
          rfl
    | some averages =>
        obtain ⟨index, inTable, selected⟩ := ieee.loadColor_of_cpuCount processors averages
        have range := loads outside averages read
        have nonneg : ∀ i < numAverages.toNat, 0 ≤ shownAverage (averages i) :=
          fun i less => shownAverage_nonneg (range i less).1 (range i less).2
        have plain : '#' ∉ loadText (fun i => shownAverage (averages i)) numAverages :=
          fun member => (figureChar_of_mem_loadText member).1 rfl
        have content : loadContent host numAverages =
            .ok (.figures (fun i => shownAverage (averages i)) index) := by
          simp only [loadContent, if_neg outside, read, selected, Outcome.ok_bind]
        have possible := LoadContent.Possible.figures outside nonneg index
        have empty : loadStream.written = [] := rfl
        have start : loadStream.width = 0 := rfl
        cases useColors with
        | false =>
            refine ⟨_, .undecorated plain, content, possible, rfl, ?_⟩
            rw [Segment.undecorated_text]
            simp [loadString, outside, read, selected, loadText,
              loadFigure_eq loadStream_writesHundredths range]
        | true =>
            have writable := loadLut_wellFormed.lutStyle_writable inTable
            have opened := loadStream_writesHundredths.append
              (openText (lutStyle loadLut index) usePowerlineLeft usePowerlineRight)
            have moved := loadFigure_oblivious (fun i => shownAverage (averages i)) numAverages
              (openText (lutStyle loadLut index) usePowerlineLeft usePowerlineRight) loadStream
            rw [OutputStream.onto_eq_append_of_written_nil empty] at moved
            refine ⟨_, ⟨_, _, _, decoration_openText writable usePowerlineLeft usePowerlineRight,
              decoration_closeLoadText writable usePowerlineLeft usePowerlineRight
                segmentsToRight rightColor, plain⟩, content, possible, rfl, ?_⟩
            simp only [loadString, if_neg outside, read, selected, Outcome.ok_bind, if_true,
              openSegment_eq loadLut_wellFormed inTable start, loadFigure_eq opened range, moved]
            rw [closeLoad_eq (by simp [loadFigure_width]) inTable]
            simp [Segment.text, loadText]

end Load

/-! ## The screen -/

/-- Metrics as a host reads them into variables of type `float` and `double`. -/
structure StoredReading (host : Host) (settings : Settings) where
  memStatus : MemoryStatus
  memStatus_eq : host.memStatus = .ok memStatus
  stored : memStatus.Stored
  percentage : ℚ
  percentage_eq : host.cpuPercentage settings.cpuUsageDelay = .ok (some percentage)
  percentage_nonneg : 0 ≤ percentage
  cpu_le : toUnsigned percentage ≤ 100
  processors : host.cpuCount ≠ 0
  loads : AnswersLoads host settings.averagesCount

section Screen

variable {host : Host} {settings : Settings} (reading : StoredReading host settings)

/-- The product that is printed as the CPU figure. -/
def StoredReading.cpuProduct : ℚ :=
  ieee.float (reading.percentage * ieee.cpuMultiplier host settings.cpuMode)

def StoredReading.shown (content : LoadContent) : ScreenShown where
  memory := ieee.memoryShown reading.memStatus settings.memMode
  cpuTenths := roundedUnits 1 reading.cpuProduct
  loads := content.shown settings.averagesCount

theorem StoredReading.cpuProduct_nonneg : 0 ≤ reading.cpuProduct :=
  toFloat_nonneg (mul_nonneg reading.percentage_nonneg
    (ieee.cpuMultiplier_nonneg (fun _ => toFloat_nonneg) _ _))

/-- The line is rendered, and the rounded results are read back from the
characters it draws. -/
theorem readScreen_statusLine (before : Style) :
    ∃ line glyphs after content, ieee.statusLine host settings = .ok line ∧
      loadContent host settings.averagesCount = .ok content ∧
      Draws before line glyphs after ∧
      readScreen (glyphs.map Glyph.char) = some (reading.shown content) := by
  obtain ⟨memory, memoryFigure, memoryEq⟩ := memString_segment reading.stored settings.memMode
    settings.useColors settings.usePowerlineLeft settings.usePowerlineRight
    settings.segmentsToLeft settings.leftColor
  obtain ⟨cpu, cpuFigure, cpuEq⟩ := cpuString_segment reading.percentage_eq reading.cpu_le
    settings.cpuMode settings.graphLength settings.useColors settings.usePowerlineLeft
    settings.usePowerlineRight settings.useVertGraph
  obtain ⟨content, load, read, possible, loadFigure, loadEq⟩ := loadString_segment
    reading.processors reading.loads settings.useColors settings.usePowerlineLeft
    settings.usePowerlineRight settings.segmentsToRight settings.rightColor
  obtain ⟨glyphs, after, start, middle, between, finish, drawn, chars, startSigns, middleSigns,
    betweenSigns, finishSigns⟩ := Segment.draws_line memory cpu load before
  have rendered : ieee.statusLine host settings = .ok (memory.text ++ cpu.text ++ load.text) := by
    simp only [statusLine, reading.memStatus_eq, memoryEq, cpuEq, loadEq, Outcome.ok_bind]
  have graph := ieee.graphText_cpuGraphText reading.percentage settings.graphLength
    settings.useVertGraph
  have nonneg : 0 ≤ ieee.float
      (reading.percentage * ieee.cpuMultiplier host settings.cpuMode) :=
    reading.cpuProduct_nonneg
  refine ⟨_, glyphs, after, content, rendered, read, drawn, ?_⟩
  rw [chars, memoryFigure, cpuFigure, loadFigure, readScreen, skipSigns_append startSigns,
    skipSigns_memoryText, readMemory_text_append]
  show (readCpu _ >>= fun _ => _) = _
  rw [cpuText, readCpu_graph middleSigns graph nonneg]
  show (readLoads 3 _ >>= fun _ => _) = _
  rw [possible.read betweenSigns finishSigns]
  rfl

end Screen

end Arithmetic

end TmuxMemCpuLoad
