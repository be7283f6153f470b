import TmuxMemCpuLoad.CommandLine
import TmuxMemCpuLoad.CpuBackends
import TmuxMemCpuLoad.MeminfoEntries
import TmuxMemCpuLoad.ScreenReader

/-!
# Whole runs on Linux

The platform functions of Linux make a host of the answers of the kernel.  From
the words of the command line to the characters on the screen, a run that
renders shows the figures that the kernel keeps: the memory in use by the
documented formula, the share of the busy time between the two samples, and the
load averages.
-/

namespace TmuxMemCpuLoad

open StandardCxx StyledText DecimalReader GetoptLong

namespace Linux

/-- What the kernel answers during a run: the lines of `/proc/meminfo`, those of
`/proc/stat` at the first opening and after a delay, the number of processors
and `getloadavg`. -/
structure Kernel where
  meminfo : List CxxString
  stat : Option (List CxxString)
  laterStat : Nat → Option (List CxxString)
  cpuCount : Nat
  getloadavg : (Nat → ℚ) → Nat → Int × (Nat → ℚ)

/-- What the variables hold that the program does not initialize. -/
structure Garbage where
  locals : MemoryLocals
  stats : List (BitVec 64)
  stats_length : stats.length = 4
  averages : Nat → ℚ

/-- The host of the functions of `linux/memory.cc` and `linux/cpu.cc`. -/
def host (kernel : Kernel) (garbage : Garbage) : Host where
  memStatus := memStatus kernel.meminfo garbage.locals
  cpuPercentage := fun cpuUsageDelay =>
    cpuPercentage kernel.stat (kernel.laterStat cpuUsageDelay) garbage.stats
  cpuCount := kernel.cpuCount
  averages := garbage.averages
  getloadavg := kernel.getloadavg

/-- The figures that the kernel keeps; the counters are those of the first sample
and those after a delay. -/
structure Figures where
  total : Nat
  free : Nat
  others : List (MeminfoKey × Nat)
  counters : Counters
  laterCounters : Nat → Counters
  loads : Nat → ℚ

namespace Figures

variable (figures : Figures)

/-- `total + shmem - free - buffers - cached - sreclaimable`. -/
def used : Int :=
  usedKilobytes figures.total figures.free figures.others

/-- The status in megabytes. -/
def memStatus : MemoryStatus where
  usedMem := figures.used / 1024
  totalMem := figures.total / 1024

def busyShare (cpuUsageDelay : Nat) : ℚ :=
  TmuxMemCpuLoad.busyShare figures.counters (figures.laterCounters cpuUsageDelay)

end Figures

/-- The kernel answers with the figures: the files are in its format, the memory
in use lies within a total below 4 TiB, the counters increase and `getloadavg`
writes as many averages as it is asked for. -/
structure Kernel.Answers (kernel : Kernel) (figures : Figures) : Prop where
  reads : Reads kernel.meminfo
    ((.memTotal, figures.total) :: (.memFree, figures.free) :: figures.others)
  apart : OtherKeys figures.others
  once : (figures.others.map Prod.fst).Nodup
  total_pos : 0 < figures.total
  total_lt : figures.total < 2 ^ 32
  used_nonneg : 0 ≤ figures.used
  used_le : figures.used ≤ figures.total
  stat : ∃ line rest, kernel.stat = some (line :: rest) ∧ Shows line figures.counters
  laterStat : ∀ cpuUsageDelay, ∃ line rest,
    kernel.laterStat cpuUsageDelay = some (line :: rest) ∧
      Shows line (figures.laterCounters cpuUsageDelay)
  increase : ∀ cpuUsageDelay, Increase figures.counters (figures.laterCounters cpuUsageDelay)
  cpuCount_pos : 0 < kernel.cpuCount
  getloadavg : ∀ before count, count ≤ 3 → kernel.getloadavg before count =
    ((count : Int), fun i => if i < count then figures.loads i else before i)
  loads_nonneg : ∀ i, 0 ≤ figures.loads i

section Metrics

variable {kernel : Kernel} {figures : Figures} (answers : kernel.Answers figures)
  (garbage : Garbage)
include answers

/-- The accumulators hold the sums: none of them wraps. -/
theorem accumulators_toNat :
    (((BitVec.ofInt 32 figures.used).toNat : Nat) : ℚ) = (figures.used : ℚ) ∧
      (BitVec.ofNat 32 figures.total).toNat = figures.total := by
  have usedLt : figures.used < 2 ^ 32 := lt_of_le_of_lt answers.used_le (by
    exact_mod_cast answers.total_lt)
  have natural : ((BitVec.ofInt 32 figures.used).toNat : Int) = figures.used := by
    rw [BitVec.toNat_ofInt]
    have nonneg := answers.used_nonneg
    omega
  exact ⟨by exact_mod_cast natural,
    (BitVec.toNat_ofNat ..).trans (Nat.mod_eq_of_lt answers.total_lt)⟩

theorem memStatus_host : (host kernel garbage).memStatus = .ok figures.memStatus := by
  obtain ⟨used, total⟩ := accumulators_toNat answers
  have status := memStatus_of_reads answers.reads answers.apart answers.once garbage.locals
  rw [total] at status
  show memStatus kernel.meminfo garbage.locals = _
  rw [status, Figures.memStatus, ← used]
  rfl

theorem cpuPercentage_host (cpuUsageDelay : Nat) :
    (host kernel garbage).cpuPercentage cpuUsageDelay =
      .ok (some (figures.busyShare cpuUsageDelay)) := by
  obtain ⟨line, rest, statEq, shows_⟩ := answers.stat
  obtain ⟨laterLine, laterRest, laterEq, laterShows⟩ := answers.laterStat cpuUsageDelay
  show cpuPercentage kernel.stat (kernel.laterStat cpuUsageDelay) garbage.stats = _
  rw [statEq, laterEq, cpuPercentage_of_lines]
  exact percentageOfLines_of_shows garbage.stats_length shows_ laterShows
    (answers.increase cpuUsageDelay)

/-- The table index of the load percentage. -/
def loadIndex (kernel : Kernel) (figures : Figures) : Nat :=
  min (toUnsigned (figures.loads 0 / kernel.cpuCount * (1 / 2) * 100)) 100

theorem loadColor_host {averages : Nat → ℚ} (first : averages 0 = figures.loads 0) :
    loadColor (host kernel garbage) averages = .ok (loadIndex kernel figures) := by
  have processors : ((host kernel garbage).cpuCount : ℚ) ≠ 0 := by
    exact_mod_cast answers.cpuCount_pos.ne'
  simp only [loadColor, Host.loadPercentage, quotient_of_ne_zero _ processors, Option.map_some,
    finite, Outcome.ok_bind, first, loadIndex]
  congr 1
  split_ifs with large
  · exact (Nat.min_eq_right large.le).symm
  · exact (Nat.min_eq_left (Nat.le_of_not_lt large)).symm

/-- The averages in the array after the call. -/
def answeredLoads (figures : Figures) (garbage : Garbage) (count i : Nat) : ℚ :=
  if i < count then figures.loads i else garbage.averages i

omit answers in
theorem answeredLoads_of_lt {count i : Nat} (inside : i < count) :
    answeredLoads figures garbage count i = figures.loads i :=
  if_pos inside

/-- A host with the call of the kernel and the array of the program. -/
theorem loadAverages_of_answers {other : Host} (array : other.averages = garbage.averages)
    (call : other.getloadavg = kernel.getloadavg) {numAverages : Int}
    (inside : ¬ (numAverages ≤ 0 ∨ numAverages > 3)) :
    other.loadAverages numAverages.toNat =
      some (answeredLoads figures garbage numAverages.toNat) := by
  have answer := answers.getloadavg garbage.averages numAverages.toNat (by omega)
  have nonneg : ¬ ((numAverages.toNat : Nat) : Int) < 0 := by omega
  simp only [Host.loadAverages, array, call, answer, if_neg nonneg]
  rfl

theorem loadContent_host {numAverages : Int}
    (inside : ¬ (numAverages ≤ 0 ∨ numAverages > 3)) :
    loadContent (host kernel garbage) numAverages =
      .ok (.figures (answeredLoads figures garbage numAverages.toNat)
        (loadIndex kernel figures)) := by
  have positive : 0 < numAverages.toNat := by omega
  have read : (host kernel garbage).loadAverages numAverages.toNat =
      some (answeredLoads figures garbage numAverages.toNat) :=
    loadAverages_of_answers answers garbage rfl rfl inside
  rw [loadContent, if_neg inside, read]
  simp only [loadColor_host answers garbage (answeredLoads_of_lt garbage positive),
    Outcome.ok_bind]

/-- The hundredths of the averages that a count of one to three shows. -/
def shownLoads (figures : Figures) (numAverages : Int) : List Nat :=
  if numAverages ≤ 0 ∨ numAverages > 3 then []
  else (List.range numAverages.toNat).map fun i => roundedHundredths (figures.loads i)

/-- What the load segment shows, which does not depend on the rest of the
array. -/
structure ShowsAverages (kernel : Kernel) (figures : Figures) (numAverages : Int)
    (content : LoadContent) : Prop where
  shown : content.shown numAverages = shownLoads figures numAverages
  text : content.text numAverages =
    if numAverages ≤ 0 ∨ numAverages > 3 then ['\x00']
    else figuresText (shownLoads figures numAverages)
  index : content.index =
    if numAverages ≤ 0 ∨ numAverages > 3 then none else some (loadIndex kernel figures)
  nonneg : ∀ averages index, content = .figures averages index →
    ∀ i < numAverages.toNat, 0 ≤ averages i

theorem exists_content (numAverages : Int) :
    ∃ content, loadContent (host kernel garbage) numAverages = .ok content ∧
      ShowsAverages kernel figures numAverages content := by
  by_cases outside : numAverages ≤ 0 ∨ numAverages > 3
  · refine ⟨.fallback ['\x00'], by rw [loadContent, if_pos outside], ?_, ?_, ?_, ?_⟩
    · rw [shownLoads, if_pos outside]
      rfl
    · rw [if_pos outside]
      rfl
    · rw [if_pos outside]
      rfl
    · intro averages index equal
      cases equal
  · have same : ∀ i < numAverages.toNat,
        answeredLoads figures garbage numAverages.toNat i = figures.loads i :=
      fun i inside => answeredLoads_of_lt garbage inside
    have nonneg : ∀ i < numAverages.toNat,
        0 ≤ answeredLoads figures garbage numAverages.toNat i := by
      intro i inside
      rw [same i inside]
      exact answers.loads_nonneg i
    have shown : (List.range numAverages.toNat).map (fun i => roundedHundredths
        (answeredLoads figures garbage numAverages.toNat i)) =
          shownLoads figures numAverages := by
      rw [shownLoads, if_neg outside]
      apply List.map_congr_left
      intro i member
      rw [same i (List.mem_range.mp member)]
    refine ⟨_, loadContent_host answers garbage outside, shown, ?_, ?_, ?_⟩
    · have text := loadText_eq _ (by omega : 0 < numAverages.toNat) nonneg
      rw [shown, Int.toNat_of_nonneg (by omega)] at text
      rw [if_neg outside]
      exact text
    · rw [if_neg outside]
      rfl
    · intro averages index equal
      cases equal
      exact nonneg

/-- The metrics read are the figures of the kernel. -/
structure ReadsFigures (kernel : Kernel) (figures : Figures) {garbage : Garbage}
    {settings : Settings} (reading : Reading (host kernel garbage) settings) : Prop where
  memStatus : reading.memStatus = figures.memStatus
  memoryPercentage : reading.memoryPercentage =
    100 * figures.memStatus.usedMem / figures.memStatus.totalMem
  percentage : reading.percentage = figures.busyShare settings.cpuUsageDelay
  content : ShowsAverages kernel figures settings.averagesCount reading.content

theorem memStatus_range : 0 ≤ figures.memStatus.usedMem ∧
    figures.memStatus.usedMem ≤ figures.memStatus.totalMem ∧
    0 < figures.memStatus.totalMem ∧ figures.memStatus.totalMem < 2 ^ 32 := by
  have nonneg : (0 : ℚ) ≤ figures.used := by exact_mod_cast answers.used_nonneg
  have atMost : (figures.used : ℚ) ≤ figures.total := by exact_mod_cast answers.used_le
  have positive : (0 : ℚ) < figures.total := by exact_mod_cast answers.total_pos
  have bounded : (figures.total : ℚ) < 2 ^ 32 := by exact_mod_cast answers.total_lt
  unfold Figures.memStatus
  refine ⟨by positivity, ?_, by positivity, ?_⟩
  · exact div_le_div_of_nonneg_right atMost (by norm_num)
  · rw [div_lt_iff₀ (by norm_num)]
    linarith

theorem exists_reading (settings : Settings) :
    ∃ reading : Reading (host kernel garbage) settings, ReadsFigures kernel figures reading := by
  obtain ⟨nonneg, atMost, positive, _⟩ := memStatus_range answers
  obtain ⟨percentage, defined, index⟩ :=
    memPercentage_index figures.memStatus nonneg atMost positive
  have percentageEq : 100 * figures.memStatus.usedMem / figures.memStatus.totalMem =
      percentage := by
    rw [memPercentage, quotient_of_ne_zero _ positive.ne', Option.some.injEq] at defined
    exact defined
  have share := busyShare_range (answers.increase settings.cpuUsageDelay)
  obtain ⟨content, read, shows_⟩ := exists_content answers garbage settings.averagesCount
  exact ⟨⟨figures.memStatus, memStatus_host answers garbage, percentage, defined, index,
    figures.busyShare settings.cpuUsageDelay,
    cpuPercentage_host answers garbage settings.cpuUsageDelay,
    toUnsigned_le share.1 (by exact_mod_cast share.2) (by decide), content, read⟩,
    rfl, percentageEq.symm, rfl, shows_⟩

omit answers in
/-- What is drawn is determined by the figures. -/
theorem statusLine_of_reads {settings : Settings} {other : Garbage}
    {reading : Reading (host kernel garbage) settings}
    {otherReading : Reading (host kernel other) settings}
    (reads : ReadsFigures kernel figures reading)
    (otherReads : ReadsFigures kernel figures otherReading) :
    statusLine (host kernel garbage) settings = statusLine (host kernel other) settings := by
  have memory : reading.memoryFigure = otherReading.memoryFigure := by
    rw [Reading.memoryFigure, Reading.memoryFigure, reads.memStatus, otherReads.memStatus]
  have cpu : reading.cpuFigure = otherReading.cpuFigure := by
    rw [Reading.cpuFigure, Reading.cpuFigure, reads.percentage, otherReads.percentage]
    rfl
  have loads : reading.loadFigures = otherReading.loadFigures := by
    rw [Reading.loadFigures, Reading.loadFigures, reads.content.text, otherReads.content.text]
  cases colours : settings.useColors with
  | false =>
      rw [reading.statusLine_plain colours, otherReading.statusLine_plain colours, memory, cpu,
        loads]
  | true =>
      have memoryStyle : reading.memoryStyle = otherReading.memoryStyle := by
        rw [Reading.memoryStyle, Reading.memoryStyle, reads.memoryPercentage,
          otherReads.memoryPercentage]
      have cpuStyle : reading.cpuStyle = otherReading.cpuStyle := by
        rw [Reading.cpuStyle, Reading.cpuStyle, reads.percentage, otherReads.percentage]
      rw [reading.statusLine_coloured colours, otherReading.statusLine_coloured colours,
        Reading.colouredLine, Reading.colouredLine, memory, cpu, loads, memoryStyle, cpuStyle,
        reads.content.index, otherReads.content.index]

omit answers in
theorem ReadsFigures.sensible {settings : Settings}
    {reading : Reading (host kernel garbage) settings}
    (reads : ReadsFigures kernel figures reading) (answers : kernel.Answers figures) :
    reading.Sensible where
  used := by
    rw [reads.memStatus]
    exact (memStatus_range answers).1
  total := by
    rw [reads.memStatus]
    exact (memStatus_range answers).2.1
  percentage := by
    rw [reads.percentage]
    exact (busyShare_range (answers.increase settings.cpuUsageDelay)).1
  averages := reads.content.nonneg

end Metrics

/-! ## From the command line to the screen -/

/-- The screen tells the figures of the kernel, as closely as its digits
allow. -/
structure ScreenTells (kernel : Kernel) (figures : Figures) (settings : Settings)
    (shown : ScreenShown) : Prop where
  memory : shown.memory.CloseTo figures.memStatus
  cpu : |(shown.cpuTenths : ℚ) / 10 - figures.busyShare settings.cpuUsageDelay *
    (if settings.cpuMode = .threads then (kernel.cpuCount : ℚ) else 1)| ≤ 1 / 20
  loads : shown.loads = shownLoads figures settings.averagesCount

section Runs

variable {kernel : Kernel} {figures : Figures} (answers : kernel.Answers figures)
  (garbage : Garbage)
include answers

/-- In exact arithmetic a run that renders prints one line, the same whatever the
program leaves uninitialized, and the figures of the kernel are read back from
what the line draws. -/
theorem program_tells_kernel {ordering : OperandOrdering} {argv : List Word}
    {settings : Settings}
    (renders : (program (host kernel garbage) ordering argv).Renders settings)
    (before : Style) :
    ∃ line glyphs after shown,
      (∀ other, program (host kernel other) ordering argv =
        ⟨[.readMetrics settings, .print (.cout (line ++ ['\n']))], .ok exitSuccess⟩) ∧
      Draws before line glyphs after ∧
      readScreen (glyphs.map Glyph.char) = some shown ∧
      ScreenTells kernel figures settings shown := by
  obtain ⟨reading, reads⟩ := exists_reading answers garbage settings
  have sensible := reads.sensible garbage answers
  obtain ⟨line, glyphs, after, rendered, drawn, read⟩ :=
    readScreen_statusLine reading sensible before
  have fits : reading.memStatus.totalMem < 2 ^ 32 := by
    rw [reads.memStatus]
    exact (memStatus_range answers).2.2.2
  have close := shown_close reading sensible fits
  refine ⟨line, glyphs, after, reading.shown, ?_, drawn, read, ?_, ?_, ?_⟩
  · intro other
    obtain ⟨otherReading, otherReads⟩ := exists_reading answers other settings
    have otherRenders : (program (host kernel other) ordering argv).Renders settings :=
      (program_renders_iff _ ordering argv settings).mpr
        ((program_renders_iff _ ordering argv settings).mp renders)
    have same := statusLine_of_reads garbage reads otherReads
    rw [rendered] at same
    rw [program, main_of_renders otherRenders, ← same]
  · rw [← reads.memStatus]
    exact close.memory
  · have cpu := close.cpu
    rw [reads.percentage] at cpu
    exact cpu
  · exact reads.content.shown

end Runs

/-! ## A run -/

/-- The kilobytes of the entries of the sample. -/
def sampleValue : MeminfoKey → Nat
  | .memTotal => 1000
  | .memFree => 500
  | .buffers => 50
  | _ => 60

theorem sampleValue_lt (key : MeminfoKey) : sampleValue key < 2 ^ 62 := by
  cases key <;> decide

theorem sampleValue_short (key : MeminfoKey) :
    (entryText key (sampleValue key)).length < 2 ^ 63 := by
  cases key <;> decide

def sampleEntry (key : MeminfoKey) : CxxString :=
  entryLine key (sampleValue key) (sampleValue_short key)

theorem isEntry_sampleEntry (key : MeminfoKey) :
    IsEntry (sampleEntry key) key (sampleValue key) :=
  isEntry_entryLine (sampleValue_lt key)

/-- 1000 kB with 500 kB free and 110 kB in buffers and cache, a quarter of the
time between the samples, and a load of one on four processors. -/
def sampleKernel : Kernel where
  meminfo := [sampleEntry .memTotal, sampleEntry .memFree, kernelStackLine,
    sampleEntry .buffers, sampleEntry .cached]
  stat := some [sampleFirst]
  laterStat := fun _ => some [sampleSecond]
  cpuCount := 4
  getloadavg := fun before count => ((count : Int), fun i => if i < count then 1 else before i)

def sampleFigures : Figures where
  total := 1000
  free := 500
  others := [(.buffers, 50), (.cached, 60)]
  counters := ⟨100, 0, 100, 1000⟩
  laterCounters := fun _ => ⟨120, 0, 100, 1060⟩
  loads := fun _ => 1

theorem sampleSecond_shows : Shows sampleSecond ⟨120, 0, 100, 1060⟩ :=
  ⟨(1, 0, 0, 0), " 7".toList, by decide, .inr ⟨['7'], by decide⟩⟩

theorem sample_increase : Increase ⟨100, 0, 100, 1000⟩ ⟨120, 0, 100, 1060⟩ :=
  ⟨by decide, by decide, by decide, by decide, by decide, by decide, by decide, by decide,
    by decide, by decide⟩

theorem sampleKernel_answers : sampleKernel.Answers sampleFigures where
  reads := .entry (isEntry_sampleEntry .memTotal) (.entry (isEntry_sampleEntry .memFree)
    (.foreign isForeign_kernelStackLine (.entry (isEntry_sampleEntry .buffers)
      (.entry (isEntry_sampleEntry .cached) .nil))))
  apart := by simp [OtherKeys, sampleFigures]
  once := by simp [sampleFigures]
  total_pos := by decide
  total_lt := by decide
  used_nonneg := by decide
  used_le := by decide
  stat := ⟨sampleFirst, [], rfl, (1, 0, 0, 0), " 7".toList, by decide, .inr ⟨['7'], by decide⟩⟩
  laterStat := fun _ => ⟨sampleSecond, [], rfl, sampleSecond_shows⟩
  increase := fun _ => sample_increase
  cpuCount_pos := by decide
  getloadavg := fun _ _ _ => rfl
  loads_nonneg := fun _ => zero_le_one

def sampleGarbage : Garbage where
  locals := ⟨7, 7⟩
  stats := [1, 2, 3, 4]
  stats_length := rfl
  averages := fun _ => -1

/-- `-q`. -/
theorem program_tells_kernel_sample : ∃ line glyphs after shown,
    (∀ other, program (host sampleKernel other) .permute ["-q".toList] =
      ⟨[.readMetrics (settingsOf [parsedOption ⟨'q', none⟩]),
        .print (.cout (line ++ ['\n']))], .ok exitSuccess⟩) ∧
    Draws defaultStyle line glyphs after ∧
    readScreen (glyphs.map Glyph.char) = some shown ∧
    ScreenTells sampleKernel sampleFigures (settingsOf [parsedOption ⟨'q', none⟩]) shown := by
  have spells : Spells optionTable .permute [] ["-q".toList] [⟨'q', none⟩] [] :=
    .option (.cluster (by decide) (.flag (by decide) [] [])) .finish
  have renders := (program_renders_iff (host sampleKernel sampleGarbage) .permute
    ["-q".toList] (settingsOf [parsedOption ⟨'q', none⟩])).mpr
      ⟨[⟨'q', none⟩], spells, by decide, rfl⟩
  exact program_tells_kernel sampleKernel_answers sampleGarbage renders defaultStyle

end Linux

end TmuxMemCpuLoad
