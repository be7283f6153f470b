import TmuxMemCpuLoad.KeyedFold
import TmuxMemCpuLoad.Metrics
import TmuxMemCpuLoad.StandardString

/-!
# The options

`main` reads the options one by one into its settings and stops at the first
one it rejects.  Numbers are read by `atoi`; some are then narrowed to `short`
or multiplied in `int`.
-/

namespace TmuxMemCpuLoad

open StandardCxx

/-- What `getopt_long` yields: one of the options, or `?` for an unknown or
incomplete one. -/
inductive OptionKey
  | help
  | colors
  | powerlineLeft
  | powerlineRight
  | verticalGraph
  | segmentsLeft
  | segmentsRight
  | interval
  | graphLines
  | memMode
  | cpuMode
  | averagesCount
  | unknown
  deriving DecidableEq, Repr

/-- An option with its argument `optarg`, which is not looked at when the
option takes none. -/
structure ParsedOption where
  key : OptionKey
  optarg : List Char
  deriving DecidableEq, Repr

def ParsedOption.value (option : ParsedOption) : Int :=
  atoi option.optarg

def toShort (value : Int) : Int :=
  value.bmod (2 ^ 16)

def signedToUnsigned (value : Int) : Nat :=
  (value % 2 ^ 32).toNat

def FitsInt (value : Int) : Prop :=
  -2 ^ 31 ≤ value ∧ value < 2 ^ 31

instance (value : Int) : Decidable (FitsInt value) :=
  inferInstanceAs (Decidable (_ ∧ _))

/-- The variables of `main` that the options set.  `signedOverflow` is not one
of them: it records that some `int` operation left its range, after which the
standard leaves the run undefined and the wrapped result is kept here. -/
structure Settings where
  cpuUsageDelay : Nat
  averagesCount : Int
  graphLines : Int
  leftColor : Int
  rightColor : Int
  useColors : Bool
  usePowerlineLeft : Bool
  usePowerlineRight : Bool
  useVertGraph : Bool
  segmentsToLeft : Bool
  segmentsToRight : Bool
  memMode : MemoryMode
  cpuMode : CpuMode
  signedOverflow : Bool
  deriving DecidableEq, Repr

def Settings.initial : Settings where
  cpuUsageDelay := 990000
  averagesCount := 3
  graphLines := 10
  leftColor := 0
  rightColor := 0
  useColors := false
  usePowerlineLeft := false
  usePowerlineRight := false
  useVertGraph := false
  segmentsToLeft := false
  segmentsToRight := false
  memMode := .default
  cpuMode := .default
  signedOverflow := false

def toMemoryMode (value : Int) : MemoryMode :=
  match value with
  | 0 => .default
  | 1 => .freeMemory
  | 2 => .usagePercentage
  | value => .other value.toNat

def toCpuMode (value : Int) : CpuMode :=
  match value with
  | 0 => .default
  | 1 => .threads
  | value => .other value.toNat

/-- Text on one of the two output channels. -/
inductive Output
  | cout (text : List Char)
  | cerr (text : List Char)
  deriving DecidableEq, Repr

def helpText : List Char :=
  ("tmux-mem-cpu-load v3.8.3\n" ++
    "Usage: tmux-mem-cpu-load [OPTIONS]\n\n" ++
    "Available options:\n" ++
    "-h, --help\n" ++
    "\t Prints this help message\n" ++
    "-c, --colors\n" ++
    "\tUse tmux colors in output\n" ++
    "-p, --powerline-left\n" ++
    "\tUse powerline left symbols throughout the output, enables --colors\n" ++
    "-q, --powerline-right\n" ++
    "\tUse powerline right symbols throughout the output, enables --colors\n" ++
    "-v, --vertical-graph\n" ++
    "\tUse vertical bar chart for CPU graph\n" ++
    "-l <value>, --segments-left <value>\n" ++
    "\tEnable blending bg/fg color (depending on -p or -q use) with segment to left\n" ++
    "\tProvide color to be used depending on -p or -q option for seamless segment blending\n" ++
    "\tColor is an integer value which uses the standard tmux color palette values\n" ++
    "-r <value>, --segments-right <value>\n" ++
    "\tEnable blending bg/fg color (depending on -p or -q use) with segment to right\n" ++
    "\tProvide color to be used depending on -p or -q option for seamless segment blending\n" ++
    "\tColor is an integer value which uses the standard tmux color palette values\n" ++
    "-i <value>, --interval <value>\n" ++
    "\tSet tmux status refresh interval in seconds. Default: 1 second\n" ++
    "-g <value>, --graph-lines <value>\n" ++
    "\tSet how many lines should be drawn in a graph. Default: 10\n" ++
    "-m <value>, --mem-mode <value>\n" ++
    "\tSet memory display mode. 0: Default, 1: Free memory, 2: Usage percent.\n" ++
    "-t <value>, --cpu-mode <value>\n" ++
    "\tSet cpu % display mode. 0: Default max 100%, 1: Max 100% * number of threads. \n" ++
    "-a <value>, --averages-count <value>\n" ++
    "\tSet how many load-averages should be drawn. Default: 3\n" ++
    "\n").toList

def colorMessage : List Char :=
  "Valid color vaues are from 0 to 255.\n".toList

def intervalMessage : List Char :=
  "Status interval argument must be one or greater.\n".toList

def graphLinesMessage : List Char :=
  "Graph lines argument must be zero or greater.\n".toList

def memModeMessage : List Char :=
  "Memory mode argument must be zero or greater.\n".toList

def cpuModeMessage : List Char :=
  "CPU mode argument must be zero or greater.\n".toList

def averagesCountMessage : List Char :=
  "Valid averages-count arguments are: 0, 1, 2, 3\n".toList

/-- A checked argument: the new settings, or a message and the end of the
program. -/
def checked (valid : Prop) [Decidable valid] (message : List Char)
    (settings : Settings) : Except (List Output) Settings :=
  if valid then .ok settings else .error [.cerr message]

def Settings.setInterval (settings : Settings) (seconds : Int) : Settings :=
  { settings with
    cpuUsageDelay := signedToUnsigned (seconds * 1000000 - 10000)
    signedOverflow := settings.signedOverflow ||
      decide (¬ (FitsInt (seconds * 1000000) ∧ FitsInt (seconds * 1000000 - 10000))) }

/-- One pass of the option loop; a rejected option ends the program with what
it prints. -/
def optionStep (settings : Settings) (option : ParsedOption) :
    Except (List Output) Settings :=
  let value := option.value
  match option.key with
  | .help => .error [.cout helpText]
  | .colors => .ok { settings with useColors := true }
  | .powerlineLeft => .ok { settings with useColors := true, usePowerlineLeft := true }
  | .powerlineRight => .ok { settings with useColors := true, usePowerlineRight := true }
  | .verticalGraph => .ok { settings with useVertGraph := true }
  | .segmentsLeft =>
      checked (¬ (value < 0 ∨ value > 255)) colorMessage
        { settings with segmentsToLeft := true, leftColor := toShort value }
  | .segmentsRight =>
      checked (¬ (value < 0 ∨ value > 255)) colorMessage
        { settings with segmentsToRight := true, rightColor := toShort value }
  | .interval =>
      checked (¬ value < 1) intervalMessage (settings.setInterval value)
  | .graphLines =>
      checked (¬ value < 0) graphLinesMessage
        { settings with graphLines := toShort value }
  | .memMode =>
      checked (¬ value < 0) memModeMessage { settings with memMode := toMemoryMode value }
  | .cpuMode =>
      checked (¬ value < 0) cpuModeMessage { settings with cpuMode := toCpuMode value }
  | .averagesCount =>
      checked (¬ (value < 0 ∨ value > 3)) averagesCountMessage
        { settings with averagesCount := toShort value }
  -- `getopt_long` has printed the message
  | .unknown => .error []

def optionLoop (options : List ParsedOption) : Except (List Output) Settings :=
  options.foldlM optionStep Settings.initial

/-! ## What the loop computes -/

/-- The options and arguments that are not rejected. -/
def ParsedOption.Valid (option : ParsedOption) : Prop :=
  match option.key with
  | .help | .unknown => False
  | .segmentsLeft | .segmentsRight => 0 ≤ option.value ∧ option.value ≤ 255
  | .interval => 1 ≤ option.value
  | .graphLines | .memMode | .cpuMode => 0 ≤ option.value
  | .averagesCount => 0 ≤ option.value ∧ option.value ≤ 3
  | .colors | .powerlineLeft | .powerlineRight | .verticalGraph => True

instance (option : ParsedOption) : Decidable option.Valid := by
  unfold ParsedOption.Valid
  split <;> infer_instance

/-- The settings after an option that is not rejected. -/
def Settings.update (settings : Settings) (option : ParsedOption) : Settings :=
  match option.key with
  | .help | .unknown => settings
  | .colors => { settings with useColors := true }
  | .powerlineLeft => { settings with useColors := true, usePowerlineLeft := true }
  | .powerlineRight => { settings with useColors := true, usePowerlineRight := true }
  | .verticalGraph => { settings with useVertGraph := true }
  | .segmentsLeft =>
      { settings with segmentsToLeft := true, leftColor := toShort option.value }
  | .segmentsRight =>
      { settings with segmentsToRight := true, rightColor := toShort option.value }
  | .interval => settings.setInterval option.value
  | .graphLines => { settings with graphLines := toShort option.value }
  | .memMode => { settings with memMode := toMemoryMode option.value }
  | .cpuMode => { settings with cpuMode := toCpuMode option.value }
  | .averagesCount => { settings with averagesCount := toShort option.value }

theorem checked_eq_ok_iff {valid : Prop} [Decidable valid] {message : List Char}
    {settings result : Settings} :
    checked valid message settings = .ok result ↔ valid ∧ settings = result := by
  unfold checked
  split <;> simp_all

/-- A step accepts exactly the valid options and applies their update. -/
theorem optionStep_eq_ok_iff (settings : Settings) (option : ParsedOption)
    (result : Settings) :
    optionStep settings option = .ok result ↔
      option.Valid ∧ settings.update option = result := by
  cases keyEq : option.key <;>
    simp [optionStep, ParsedOption.Valid, Settings.update, keyEq, checked_eq_ok_iff]

theorem foldlM_optionStep_eq_ok_iff (options : List ParsedOption)
    (settings result : Settings) :
    options.foldlM optionStep settings = .ok result ↔
      (∀ option ∈ options, option.Valid) ∧
        options.foldl Settings.update settings = result := by
  induction options generalizing settings with
  | nil => simp [pure, Except.pure]
  | cons option options induction =>
      rw [List.foldlM_cons, List.foldl_cons]
      cases stepped : optionStep settings option with
      | error printed =>
          have invalid : ¬ option.Valid := by
            intro valid
            have accepted := (optionStep_eq_ok_iff settings option _).mpr ⟨valid, rfl⟩
            rw [stepped] at accepted
            cases accepted
          simp [bind, Except.bind, invalid]
      | ok next =>
          obtain ⟨valid, rfl⟩ := (optionStep_eq_ok_iff settings option next).mp stepped
          simp only [bind, Except.bind]
          rw [induction]
          simp [valid]

theorem optionLoop_eq_ok_iff (options : List ParsedOption) (settings : Settings) :
    optionLoop options = .ok settings ↔
      (∀ option ∈ options, option.Valid) ∧
        options.foldl Settings.update Settings.initial = settings :=
  foldlM_optionStep_eq_ok_iff options Settings.initial settings

end TmuxMemCpuLoad
