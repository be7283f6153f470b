import TmuxMemCpuLoad.CpuString
import TmuxMemCpuLoad.LoadString
import TmuxMemCpuLoad.MemoryString
import TmuxMemCpuLoad.OptionSemantics

/-!
# The program

`main` reads its options and operands and, unless it rejects them, renders the
status line: the memory segment, the CPU segment and the load segment, one
after the other.
-/

namespace TmuxMemCpuLoad

open StandardCxx KeyedFold StyledText

/-- The length of the CPU graph: `cpu_string` takes the `short` as an
`unsigned int`. -/
def Settings.graphLength (settings : Settings) : Nat :=
  signedToUnsigned settings.graphLines

/-- The status line that `main` prints for its settings. -/
def statusLine (host : Host) (settings : Settings) : Outcome (List Char) := do
  let memoryStatus ← host.memStatus
  let memory ←
    memString memoryStatus settings.memMode settings.useColors settings.usePowerlineLeft
      settings.usePowerlineRight settings.segmentsToLeft settings.leftColor
  let cpu ←
    cpuString host settings.cpuMode settings.cpuUsageDelay settings.graphLength
      settings.useColors settings.usePowerlineLeft settings.usePowerlineRight
      settings.useVertGraph
  let load ←
    loadString host settings.useColors settings.usePowerlineLeft
      settings.usePowerlineRight settings.averagesCount settings.segmentsToRight
      settings.rightColor
  .ok (memory ++ cpu ++ load)

/-! ## The line on a host that answers -/

/-- Metrics that a host reads for some settings, with their table indices. -/
structure Reading (host : Host) (settings : Settings) where
  memStatus : MemoryStatus
  memStatus_eq : host.memStatus = .ok memStatus
  memoryPercentage : ℚ
  memoryPercentage_eq : memPercentage memStatus = some memoryPercentage
  memory_le : toUnsigned memoryPercentage ≤ 100
  percentage : ℚ
  percentage_eq : host.cpuPercentage settings.cpuUsageDelay = .ok (some percentage)
  cpu_le : toUnsigned percentage ≤ 100
  content : LoadContent
  content_eq : loadContent host settings.averagesCount = .ok content

namespace Reading

variable {host : Host} {settings : Settings} (reading : Reading host settings)

def memoryStyle : Style :=
  lutStyle memLut (toUnsigned reading.memoryPercentage)

def cpuStyle : Style :=
  lutStyle cpuPercentageLut (toUnsigned reading.percentage)

/-- The colours of the load segment; a fallback is shown without any. -/
def loadStyle : Style :=
  match reading.content with
  | .fallback _ => defaultStyle
  | .figures _ index => lutStyle loadLut index

def memoryFigure : List Char :=
  memText reading.memStatus settings.memMode

def cpuFigure : List Char :=
  cpuText reading.percentage (cpuMultiplier host settings.cpuMode) settings.graphLength
    settings.useVertGraph

/-- The load figures, or what is shown in their place. -/
def loadFigures : List Char :=
  reading.content.text settings.averagesCount

/-- The coloured line: each figure between the texts that open and close its
segment. -/
def colouredLine : List Char :=
  (openMemoryText reading.memoryStyle settings.usePowerlineLeft
      settings.usePowerlineRight settings.segmentsToLeft settings.leftColor ++
    reading.memoryFigure ++
    closeText reading.memoryStyle settings.usePowerlineLeft settings.usePowerlineRight) ++
  (openText reading.cpuStyle settings.usePowerlineLeft settings.usePowerlineRight ++
    reading.cpuFigure ++
    closeText reading.cpuStyle settings.usePowerlineLeft settings.usePowerlineRight) ++
  (openLoadText settings.usePowerlineLeft settings.usePowerlineRight
      reading.content.index ++
    reading.loadFigures ++
    endLoadText settings.usePowerlineLeft settings.usePowerlineRight
      settings.segmentsToRight settings.rightColor reading.content.index)

theorem statusLine_coloured (colours : settings.useColors = true) :
    statusLine host settings = .ok reading.colouredLine := by
  have memory := memString_coloured reading.memStatus settings.memMode
    settings.usePowerlineLeft settings.usePowerlineRight settings.segmentsToLeft
    settings.leftColor reading.memoryPercentage_eq reading.memory_le
  have cpu := cpuString_coloured settings.cpuMode settings.graphLength
    settings.usePowerlineLeft settings.usePowerlineRight settings.useVertGraph
    reading.percentage_eq reading.cpu_le
  have load := loadString_coloured settings.usePowerlineLeft settings.usePowerlineRight
    settings.segmentsToRight settings.rightColor reading.content_eq
  simp only [statusLine, reading.memStatus_eq, colours, memory, cpu, load,
    Outcome.ok_bind]
  rfl

theorem memoryStyle_writable : reading.memoryStyle.Writable :=
  memLut_wellFormed.lutStyle_writable reading.memory_le

theorem cpuStyle_writable : reading.cpuStyle.Writable :=
  cpuPercentageLut_wellFormed.lutStyle_writable reading.cpu_le

theorem loadStyle_writable : reading.loadStyle.Writable := by
  have atMost := loadContent_index_le reading.content_eq
  unfold loadStyle
  cases content : reading.content with
  | fallback text => exact defaultStyle_writable
  | figures averages index =>
      rw [content] at atMost
      exact loadLut_wellFormed.lutStyle_writable (atMost index rfl)

theorem memoryFigure_figureChar : ∀ char ∈ reading.memoryFigure, FigureChar char :=
  fun _ => figureChar_of_mem_memText

theorem cpuFigure_figureChar : ∀ char ∈ reading.cpuFigure, FigureChar char :=
  fun _ => figureChar_of_mem_cpuText

theorem loadFigures_figureChar : ∀ char ∈ reading.loadFigures, FigureChar char :=
  fun _ => figureChar_of_mem_content reading.content_eq

end Reading

theorem sampleHost_loadColor : loadColor sampleHost (fun _ => 1) = .ok 12 := by
  decide +kernel

theorem sampleHost_loadContent :
    loadContent sampleHost 3 = .ok (.figures (fun _ => 1) 12) := by
  have inside : ¬ ((3 : Int) ≤ 0 ∨ (3 : Int) > 3) := by decide
  have read : sampleHost.loadAverages (3 : Int).toNat = some fun _ => 1 := rfl
  rw [loadContent, if_neg inside, read]
  simp [sampleHost_loadColor]

/-- What the sample host reads, given the content of the load segment. -/
def sampleReading (settings : Settings) (content : LoadContent)
    (shown : loadContent sampleHost settings.averagesCount = .ok content) :
    Reading sampleHost settings where
  memStatus := ⟨512, 1024⟩
  memStatus_eq := rfl
  memoryPercentage := 50
  memoryPercentage_eq := sampleHost_memPercentage
  memory_le := by decide +kernel
  percentage := 25
  percentage_eq := rfl
  cpu_le := by decide +kernel
  content := content
  content_eq := shown

/-! ## Runs -/

def exitSuccess : Nat := 0

def exitFailure : Nat := 1

/-- What a run of the program does: it prints, or it turns to the metrics of
the host with its settings. -/
inductive Event
  | print (output : Output)
  | readMetrics (settings : Settings)
  deriving DecidableEq, Repr

/-- A run: its events, and the value `main` returns or the fault that ends
it. -/
structure Run where
  events : List Event
  result : Outcome Nat

def operandMessage : List Char :=
  "The interval and graph lines options are now specified with flags.\n\n".toList

/-- `main`, given the options that `getopt_long` yields and the number of
operands after them. -/
def main (host : Host) (options : List ParsedOption) (operands : Nat) : Run :=
  match optionLoop options with
  | .error printed => ⟨printed.map .print, .ok exitFailure⟩
  | .ok settings =>
      if operands > 0 then
        ⟨[.print (.cout operandMessage), .print (.cout helpText)], .ok exitFailure⟩
      else
        match statusLine host settings with
        | .error fault => ⟨[.readMetrics settings], .error fault⟩
        | .ok line =>
            ⟨[.readMetrics settings, .print (.cout (line ++ ['\n']))], .ok exitSuccess⟩

/-- The run gets as far as rendering, with these settings. -/
def Run.Renders (run : Run) (settings : Settings) : Prop :=
  .readMetrics settings ∈ run.events

theorem main_rejected {options : List ParsedOption} {printed : List Output}
    (rejected : optionLoop options = .error printed) (host : Host) (operands : Nat) :
    main host options operands = ⟨printed.map .print, .ok exitFailure⟩ := by
  simp [main, rejected]

theorem main_operands {options : List ParsedOption} {settings : Settings}
    (accepted : optionLoop options = .ok settings) (host : Host) {operands : Nat}
    (some : operands > 0) :
    main host options operands =
      ⟨[.print (.cout operandMessage), .print (.cout helpText)], .ok exitFailure⟩ := by
  simp [main, accepted, some]

/-- Rendering needs valid options and no operand, and happens with the
settings that the options make. -/
theorem main_renders_iff (host : Host) (options : List ParsedOption) (operands : Nat)
    (settings : Settings) :
    (main host options operands).Renders settings ↔
      operands = 0 ∧ (∀ option ∈ options, option.Valid) ∧
        settings = settingsOf options := by
  have loop := optionLoop_eq_ok_iff options
  cases read : optionLoop options with
  | error printed =>
      have invalid : ¬ ∀ option ∈ options, option.Valid := by
        intro valid
        have accepted := (loop (settingsOf options)).mpr ⟨valid, rfl⟩
        rw [read] at accepted
        cases accepted
      simp [main_rejected read, Run.Renders, invalid]
  | ok accepted =>
      obtain ⟨valid, settingsEq⟩ := (loop accepted).mp read
      by_cases none : operands = 0
      · have events : .readMetrics settings ∈ (main host options operands).events ↔
            settings = accepted := by
          simp only [main, read, none]
          cases statusLine host accepted <;> simp
        rw [Run.Renders, events, ← settingsEq]
        simp only [none, true_and, settingsOf]
        exact ⟨fun equal => ⟨valid, equal⟩, fun holds => holds.2⟩
      · simp [main_operands read host (Nat.pos_of_ne_zero none), Run.Renders, none]

/-- A run that does not render fails, and does the same on every host. -/
theorem main_of_not_renders {host : Host} {options : List ParsedOption} {operands : Nat}
    (stops : ∀ settings, ¬ (main host options operands).Renders settings) :
    (main host options operands).result = .ok exitFailure ∧
      ∀ other, main other options operands = main host options operands := by
  cases read : optionLoop options with
  | error printed => simp [main_rejected read]
  | ok settings =>
      by_cases none : operands = 0
      · have accepted := (optionLoop_eq_ok_iff options settings).mp read
        have renders := (main_renders_iff host options operands settings).mpr
          ⟨none, accepted.1, accepted.2.symm⟩
        exact absurd renders (stops settings)
      · simp [main_operands read _ (Nat.pos_of_ne_zero none)]

/-- A run that renders prints the status line and succeeds, unless a fault
ends it. -/
theorem main_of_renders {host : Host} {options : List ParsedOption} {operands : Nat}
    {settings : Settings} (renders : (main host options operands).Renders settings) :
    main host options operands =
      match statusLine host settings with
      | .error fault => ⟨[.readMetrics settings], .error fault⟩
      | .ok line =>
          ⟨[.readMetrics settings, .print (.cout (line ++ ['\n']))], .ok exitSuccess⟩ := by
  obtain ⟨none, valid, rfl⟩ := (main_renders_iff host options operands settings).mp renders
  have read := (optionLoop_eq_ok_iff options (settingsOf options)).mpr ⟨valid, rfl⟩
  simp [main, read, none]

end TmuxMemCpuLoad
