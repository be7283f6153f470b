import TmuxMemCpuLoad.GetoptLong
import TmuxMemCpuLoad.StatusLine

/-!
# The command line

`main` hands its words to `getopt_long` and acts on each option as it is
returned.  The words are accepted exactly when they spell valid options and
nothing else; the first option that is rejected, or else an operand, decides
what the program prints instead of the status line.
-/

namespace TmuxMemCpuLoad

open StandardCxx GetoptLong

def optstring : List Char :=
  "hi:cpqvl:r:g:m:a:t:".toList

/-- `long_options`, without the entry of zeros that ends it. -/
def longOptions : List LongOption :=
  [⟨"help".toList, false, 'h'⟩,
    ⟨"colors".toList, false, 'c'⟩,
    ⟨"powerline-left".toList, false, 'p'⟩,
    ⟨"powerline-right".toList, false, 'q'⟩,
    ⟨"vertical-graph".toList, false, 'v'⟩,
    ⟨"interval".toList, true, 'i'⟩,
    ⟨"graph-lines".toList, true, 'g'⟩,
    ⟨"mem-mode".toList, true, 'm'⟩,
    ⟨"cpu-mode".toList, true, 't'⟩,
    ⟨"averages-count".toList, true, 'a'⟩,
    ⟨"segments-left".toList, true, 'l'⟩,
    ⟨"segments-right".toList, true, 'r'⟩]

def optionTable : Table where
  short := parseOptstring optstring
  long := longOptions

/-- The cases of the `switch`.  Its default prints a message of its own, but no
option of the table gets there. -/
def optionKey : Char → OptionKey
  | 'h' => .help
  | 'c' => .colors
  | 'p' => .powerlineLeft
  | 'q' => .powerlineRight
  | 'v' => .verticalGraph
  | 'l' => .segmentsLeft
  | 'r' => .segmentsRight
  | 'i' => .interval
  | 'g' => .graphLines
  | 'm' => .memMode
  | 't' => .cpuMode
  | 'a' => .averagesCount
  | _ => .unknown

def parsedOption (occurrence : Occurrence) : ParsedOption :=
  ⟨optionKey occurrence.val, occurrence.optarg.getD []⟩

/-- What the calls of `getopt_long` return, up to the one that ends the loop. -/
def optionsOf (ordering : OperandOrdering) (argv : List Word) : List ParsedOption :=
  let read := scan optionTable ordering argv
  read.1.map parsedOption ++
    match read.2 with
    | .operands _ => []
    | .unknown => [⟨.unknown, []⟩]

/-- `argc - optind` after the loop. -/
def operandCount (ordering : OperandOrdering) (argv : List Word) : Nat :=
  match (scan optionTable ordering argv).2 with
  | .operands words => words.length
  | .unknown => 0

/-- The program on the words after its name. -/
def program (host : Host) (ordering : OperandOrdering) (argv : List Word) : Run :=
  main host (optionsOf ordering argv) (operandCount ordering argv)

section Spelled

variable {ordering : OperandOrdering} {argv : List Word} {occurrences : List Occurrence}

theorem optionsOf_of_spells {operands : List Word}
    (spells : Spells optionTable ordering [] argv occurrences operands) :
    optionsOf ordering argv = occurrences.map parsedOption := by
  simp [optionsOf, (scan_eq_operands_iff argv occurrences operands).mpr spells]

theorem operandCount_of_spells {operands : List Word}
    (spells : Spells optionTable ordering [] argv occurrences operands) :
    operandCount ordering argv = operands.length := by
  simp [operandCount, (scan_eq_operands_iff argv occurrences operands).mpr spells]

theorem program_of_spells {operands : List Word}
    (spells : Spells optionTable ordering [] argv occurrences operands) (host : Host) :
    program host ordering argv =
      main host (occurrences.map parsedOption) operands.length := by
  rw [program, optionsOf_of_spells spells, operandCount_of_spells spells]

/-- Words that can not be read to their end bring the option `?`. -/
theorem unknown_mem_optionsOf
    (unreadable : (scan optionTable ordering argv).2 = .unknown) :
    ⟨.unknown, []⟩ ∈ optionsOf ordering argv := by
  simp [optionsOf, unreadable]

/-- Options with no operand spell the same in either ordering. -/
theorem spells_of_no_operands {table : Table} (other : OperandOrdering) {nextchar : Word}
    {operands : List Word} (spells : Spells table ordering nextchar argv occurrences operands)
    (none : operands = []) : Spells table other nextchar argv occurrences [] := by
  induction spells with
  | finish => exact .finish
  | terminator argv =>
      subst none
      exact .terminator []
  | stop operand posix argv => cases none
  | operand operand permutes spells induction => cases none
  | option yields spells induction => exact .option yields (induction none)

end Spelled

/-- The program renders exactly when its words spell valid options and no
operand. -/
theorem program_renders_iff (host : Host) (ordering : OperandOrdering) (argv : List Word)
    (settings : Settings) :
    (program host ordering argv).Renders settings ↔
      ∃ occurrences, Spells optionTable ordering [] argv occurrences [] ∧
        (∀ occurrence ∈ occurrences, (parsedOption occurrence).Valid) ∧
        settings = settingsOf (occurrences.map parsedOption) := by
  constructor
  · intro renders
    obtain ⟨noOperand, valid, settingsEq⟩ :=
      (main_renders_iff host _ _ settings).mp renders
    cases ending : (scan optionTable ordering argv).2 with
    | unknown =>
        have invalid := valid _ (unknown_mem_optionsOf ending)
        simp [ParsedOption.Valid] at invalid
    | operands words =>
        have spells : Spells optionTable ordering [] argv _ words :=
          (scan_eq_operands_iff argv _ words).mp (Prod.ext rfl ending)
        rw [operandCount_of_spells spells, List.length_eq_zero_iff] at noOperand
        rw [optionsOf_of_spells spells] at valid settingsEq
        subst noOperand
        exact ⟨_, spells, List.forall_mem_map.mp valid, settingsEq⟩
  · rintro ⟨occurrences, spells, valid, settingsEq⟩
    rw [program_of_spells spells]
    exact (main_renders_iff host _ _ settings).mpr
      ⟨rfl, List.forall_mem_map.mpr valid, settingsEq⟩

/-- Rendering depends on what the words spell, and the value that is returned
does not depend on whether operands are passed over. -/
theorem program_reads_words (host : Host) (argv : List Word) :
    (∀ ordering settings, (program host ordering argv).Renders settings ↔
      ∃ occurrences, Spells optionTable ordering [] argv occurrences [] ∧
        (∀ occurrence ∈ occurrences, (parsedOption occurrence).Valid) ∧
        settings = settingsOf (occurrences.map parsedOption)) ∧
      ∀ ordering other,
        (program host ordering argv).result = (program host other argv).result := by
  refine ⟨fun ordering settings => program_renders_iff host ordering argv settings, ?_⟩
  intro ordering other
  have transfer : ∀ {first second : OperandOrdering} {settings : Settings},
      (program host first argv).Renders settings →
        (program host second argv).Renders settings := by
    intro first second settings renders
    obtain ⟨occurrences, spells, valid, settingsEq⟩ :=
      (program_renders_iff host first argv settings).mp renders
    exact (program_renders_iff host second argv settings).mpr
      ⟨occurrences, spells_of_no_operands second spells rfl, valid, settingsEq⟩
  by_cases renders : ∃ settings, (program host ordering argv).Renders settings
  · obtain ⟨settings, renders⟩ := renders
    have otherRenders : (program host other argv).Renders settings := transfer renders
    rw [program, main_of_renders renders, program, main_of_renders otherRenders]
  · have stops : ∀ settings, ¬ (program host ordering argv).Renders settings :=
      fun settings found => renders ⟨settings, found⟩
    have otherStops : ∀ settings, ¬ (program host other argv).Renders settings :=
      fun settings found => stops settings (transfer found)
    rw [program, (main_of_not_renders stops).1, program, (main_of_not_renders otherStops).1]

/-! ## Options that are rejected -/

/-- What the program prints for an option that it rejects. -/
def ParsedOption.rejection (option : ParsedOption) : List Output :=
  match option.key with
  | .help => [.cout helpText]
  | .segmentsLeft | .segmentsRight => [.cerr colorMessage]
  | .interval => [.cerr intervalMessage]
  | .graphLines => [.cerr graphLinesMessage]
  | .memMode => [.cerr memModeMessage]
  | .cpuMode => [.cerr cpuModeMessage]
  | .averagesCount => [.cerr averagesCountMessage]
  | .unknown | .colors | .powerlineLeft | .powerlineRight | .verticalGraph => []

theorem checked_of_not {valid : Prop} [Decidable valid] (invalid : ¬ valid)
    (message : List Char) (settings : Settings) :
    checked valid message settings = .error [.cerr message] :=
  if_neg invalid

theorem optionStep_of_invalid {option : ParsedOption} (invalid : ¬ option.Valid)
    (settings : Settings) : optionStep settings option = .error option.rejection := by
  cases keyEq : option.key <;>
    simp only [ParsedOption.Valid, keyEq, not_true_eq_false] at invalid <;>
    simp only [optionStep, ParsedOption.rejection, keyEq]
  all_goals exact checked_of_not (by omega) _ _

/-- The loop stops at the first option that is rejected. -/
theorem optionLoop_of_invalid {before after : List ParsedOption} {option : ParsedOption}
    (valid : ∀ earlier ∈ before, earlier.Valid) (invalid : ¬ option.Valid) :
    optionLoop (before ++ option :: after) = .error option.rejection := by
  have accepted : optionLoop before = .ok (settingsOf before) :=
    (optionLoop_eq_ok_iff before _).mpr ⟨valid, rfl⟩
  rw [optionLoop] at accepted ⊢
  rw [List.foldlM_append, accepted]
  simp [bind, Except.bind, optionStep_of_invalid invalid]

/-- Options that are not all valid have a first one that is not. -/
theorem exists_first_invalid {options : List ParsedOption}
    (some : ¬ ∀ option ∈ options, option.Valid) :
    ∃ before option after, options = before ++ option :: after ∧
      (∀ earlier ∈ before, earlier.Valid) ∧ ¬ option.Valid := by
  induction options with
  | nil => simp at some
  | cons option options induction =>
      by_cases valid : option.Valid
      · have later : ¬ ∀ option ∈ options, option.Valid := by
          intro others
          exact some (List.forall_mem_cons.mpr ⟨valid, others⟩)
        obtain ⟨before, first, after, rfl, earlier, invalid⟩ := induction later
        exact ⟨option :: before, first, after, rfl,
          List.forall_mem_cons.mpr ⟨valid, earlier⟩, invalid⟩
      · exact ⟨[], option, options, rfl, by simp, valid⟩

section Outcome

variable (host : Host) (ordering : OperandOrdering) {argv : List Word}
  {occurrences : List Occurrence}

theorem program_of_invalid {before after : List ParsedOption} {option : ParsedOption}
    (read : optionsOf ordering argv = before ++ option :: after)
    (valid : ∀ earlier ∈ before, earlier.Valid) (invalid : ¬ option.Valid) :
    program host ordering argv = ⟨option.rejection.map .print, .ok exitFailure⟩ := by
  have rejected : optionLoop (before ++ option :: after) = .error option.rejection :=
    optionLoop_of_invalid valid invalid
  rw [program, read, main_rejected rejected]

theorem program_of_operands {operand : Word} {operands : List Word}
    (spells : Spells optionTable ordering [] argv occurrences (operand :: operands))
    (valid : ∀ occurrence ∈ occurrences, (parsedOption occurrence).Valid) :
    program host ordering argv =
      ⟨[.print (.cout operandMessage), .print (.cout helpText)], .ok exitFailure⟩ := by
  have accepted : optionLoop (occurrences.map parsedOption) = .ok _ :=
    (optionLoop_eq_ok_iff _ _).mpr ⟨List.forall_mem_map.mpr valid, rfl⟩
  rw [program_of_spells spells, main_operands accepted host (by simp)]

/-- Every run renders, stops at the first option that is rejected, or rejects an
operand after reading all options. -/
theorem program_outcome (argv : List Word) :
    (∃ settings, (program host ordering argv).Renders settings ∧
        program host ordering argv =
          match statusLine host settings with
          | .error fault => ⟨[.readMetrics settings], .error fault⟩
          | .ok line =>
              ⟨[.readMetrics settings, .print (.cout (line ++ ['\n']))], .ok exitSuccess⟩) ∨
      (∃ before option after, optionsOf ordering argv = before ++ option :: after ∧
        (∀ earlier ∈ before, earlier.Valid) ∧ ¬ option.Valid ∧
        program host ordering argv = ⟨option.rejection.map .print, .ok exitFailure⟩) ∨
      ∃ occurrences operand operands,
        Spells optionTable ordering [] argv occurrences (operand :: operands) ∧
        (∀ occurrence ∈ occurrences, (parsedOption occurrence).Valid) ∧
        program host ordering argv =
          ⟨[.print (.cout operandMessage), .print (.cout helpText)], .ok exitFailure⟩ := by
  by_cases valid : ∀ option ∈ optionsOf ordering argv, option.Valid
  · cases ending : (scan optionTable ordering argv).2 with
    | unknown =>
        have invalid := valid _ (unknown_mem_optionsOf ending)
        simp [ParsedOption.Valid] at invalid
    | operands words =>
        have spells : Spells optionTable ordering [] argv _ words :=
          (scan_eq_operands_iff argv _ words).mp (Prod.ext rfl ending)
        rw [optionsOf_of_spells spells, List.forall_mem_map] at valid
        cases words with
        | nil =>
            have renders := (program_renders_iff host ordering argv _).mpr
              ⟨_, spells, valid, rfl⟩
            exact .inl ⟨_, renders, main_of_renders renders⟩
        | cons operand operands =>
            exact .inr (.inr ⟨_, operand, operands, spells, valid,
              program_of_operands host ordering spells valid⟩)
  · obtain ⟨before, option, after, read, earlier, invalid⟩ := exists_first_invalid valid
    exact .inr (.inl ⟨before, option, after, read, earlier, invalid,
      program_of_invalid host ordering read earlier invalid⟩)

/-- Whatever follows an option that is rejected is not looked at. -/
theorem program_ignores_after_rejected {words : List Word} {occurrence : Occurrence}
    (spells : SpellsOptions optionTable [] words (occurrences ++ [occurrence]))
    (valid : ∀ earlier ∈ occurrences, (parsedOption earlier).Valid)
    (rejected : ¬ (parsedOption occurrence).Valid) (more : List Word) :
    program host ordering (words ++ more) =
      ⟨(parsedOption occurrence).rejection.map .print, .ok exitFailure⟩ := by
  have read : optionsOf ordering (words ++ more) =
      occurrences.map parsedOption ++ parsedOption occurrence :: optionsOf ordering more := by
    simp [optionsOf, scan_append spells]
  exact program_of_invalid host ordering read (List.forall_mem_map.mpr valid) rejected

end Outcome

/-- `-h --bogus`. -/
theorem program_ignores_after_rejected_help :
    program sampleHost .permute ["-h".toList, "--bogus".toList] =
      ⟨[.print (.cout helpText)], .ok exitFailure⟩ := by
  have spells : SpellsOptions optionTable [] ["-h".toList] ([] ++ [⟨'h', none⟩]) :=
    .cons (.cluster (by decide) (.flag (by decide) [] [])) .nil
  exact program_ignores_after_rejected sampleHost .permute spells (by simp)
    (by decide) ["--bogus".toList]

/-! ## Short and long spellings -/

/-- The length from which on a name abbreviates this option only. -/
def abbreviationLength (option : LongOption) : Nat :=
  match option.val with
  | 'c' | 't' => 2
  | 'l' | 'r' => 10
  | 'p' | 'q' => 11
  | _ => 1

theorem longOptions_unambiguous : Unambiguous longOptions := by
  decide

theorem sharedLength_longOptions :
    ∀ option ∈ longOptions,
      (∀ other ∈ longOptions, other ≠ option →
        sharedLength option.name other.name < abbreviationLength option) ∧
      ∃ other ∈ longOptions, other ≠ option ∧
        sharedLength option.name other.name + 1 = abbreviationLength option := by
  decide

theorem select_longOptions_iff (name : Word) (option : LongOption) :
    select longOptions name = some option ↔
      option ∈ longOptions ∧ name <+: option.name ∧ abbreviationLength option ≤ name.length := by
  rw [select_eq_some_iff_length longOptions_unambiguous]
  refine and_congr_right fun member => and_congr_right fun _ => ?_
  obtain ⟨longer, other, otherMember, different, least⟩ := sharedLength_longOptions option member
  constructor
  · intro unique
    have shared := unique other otherMember different
    omega
  · intro enough other otherMember different
    have shared := longer other otherMember different
    omega

/-- Each long option has a letter that takes an argument when it does. -/
theorem lookup_longOptions :
    ∀ option ∈ longOptions,
      option.val ≠ '-' ∧ '=' ∉ option.name ∧
        optionTable.short.lookup option.val = some option.hasArg := by
  decide

section Spellings

variable {before : List Word} {occurrences : List Occurrence}
  (spelled : SpellsOptions optionTable [] before occurrences)
include spelled

/-- After other options, two spellings of an option are not told apart. -/
theorem program_of_yields {first second rest : List Word} {occurrence : Occurrence}
    (yields : Yields optionTable [] first occurrence [] rest)
    (again : Yields optionTable [] second occurrence [] rest)
    (host : Host) (ordering : OperandOrdering) :
    program host ordering (before ++ first) = program host ordering (before ++ second) := by
  have same : scan optionTable ordering (before ++ first) =
      scan optionTable ordering (before ++ second) := by
    rw [scan_append spelled, scan_append spelled, scan, scan, Scanner.start, Scanner.start,
      scanFrom_option (call_of_yields ordering yields []),
      scanFrom_option (call_of_yields ordering again [])]
  simp only [program, optionsOf, operandCount, same]

/-- A word that is no option of the program ends it. -/
theorem program_of_unknown {ordering : OperandOrdering} {argv : List Word} {next : Scanner}
    (called : call optionTable ordering (.start argv) = (.unknown, next))
    (valid : ∀ earlier ∈ occurrences, (parsedOption earlier).Valid) (host : Host) :
    program host ordering (before ++ argv) = ⟨[], .ok exitFailure⟩ := by
  have ending : scan optionTable ordering argv = ([], .unknown) := scanFrom_unknown called
  have read : optionsOf ordering (before ++ argv) =
      occurrences.map parsedOption ++ [⟨.unknown, []⟩] := by
    simp [optionsOf, scan_append spelled, ending]
  exact program_of_invalid host ordering read (List.forall_mem_map.mpr valid)
    (by simp [ParsedOption.Valid])

/-- An option can be given by its letter, by its name or by any abbreviation of
the name that is long enough, with its argument attached or in the next word;
shorter abbreviations are rejected. -/
theorem program_spellings {option : LongOption} (member : option ∈ longOptions) {name : Word}
    (nonempty : name ≠ []) (abbreviates : name <+: option.name) (host : Host)
    (ordering : OperandOrdering) (more : List Word) :
    (abbreviationLength option ≤ name.length →
      (option.hasArg = false →
        program host ordering (before ++ ('-' :: '-' :: name) :: more) =
          program host ordering (before ++ ['-', option.val] :: more)) ∧
      (option.hasArg = true → ∀ value,
        program host ordering (before ++ ('-' :: '-' :: name) :: value :: more) =
            program host ordering (before ++ ['-', option.val] :: value :: more) ∧
          program host ordering (before ++ ('-' :: '-' :: (name ++ '=' :: value)) :: more) =
            program host ordering (before ++ ['-', option.val] :: value :: more) ∧
          (value ≠ [] →
            program host ordering (before ++ ('-' :: option.val :: value) :: more) =
              program host ordering (before ++ ['-', option.val] :: value :: more)))) ∧
      (name.length < abbreviationLength option →
        (∀ earlier ∈ occurrences, (parsedOption earlier).Valid) →
        program host ordering (before ++ ('-' :: '-' :: name) :: more) =
          ⟨[], .ok exitFailure⟩) := by
  obtain ⟨short, noEquals, known⟩ := lookup_longOptions option member
  have noValue : '=' ∉ name := fun found => noEquals (abbreviates.subset found)
  constructor
  · intro enough
    have selected : select optionTable.long name = some option :=
      (select_longOptions_iff name option).mpr ⟨member, abbreviates, enough⟩
    constructor
    · intro flag
      rw [flag] at known
      exact program_of_yields spelled (.longFlag nonempty noValue selected flag more)
        (.cluster short (.flag known [] more)) host ordering
    · intro takes value
      rw [takes] at known
      have separate : Yields optionTable [] (['-', option.val] :: value :: more)
          ⟨option.val, some value⟩ [] more := .cluster short (.separate known value more)
      refine ⟨?_, ?_, ?_⟩
      · exact program_of_yields spelled
          (.longSeparate nonempty noValue selected takes value more) separate host ordering
      · exact program_of_yields spelled
          (.longAttached noValue selected takes value more) separate host ordering
      · intro something
        exact program_of_yields spelled
          (.cluster short (.attached known something more)) separate host ordering
  · intro tooShort valid
    have notSelected : select optionTable.long name = none := by
      cases found : select optionTable.long name with
      | none => rfl
      | some other =>
          obtain ⟨_, _, enough⟩ := (select_longOptions_iff name other).mp found
          obtain ⟨_, _, only⟩ := (select_eq_some_iff longOptions_unambiguous name other).mp found
          rw [only option member abbreviates] at tooShort
          omega
    have called : call optionTable ordering (.start (('-' :: '-' :: name) :: more)) =
        (.unknown, ⟨[], more, []⟩) := by
      rw [Scanner.start, call_long nonempty, longOption, takeWhile_name noValue, notSelected]
    exact program_of_unknown spelled called valid host

end Spellings

/-- `-v --color` is `-v -c`. -/
theorem program_spellings_colors :
    program sampleHost .permute (["-v".toList] ++ ["--color".toList]) =
      program sampleHost .permute (["-v".toList] ++ ["-c".toList]) := by
  have spelled : SpellsOptions optionTable [] ["-v".toList] [⟨'v', none⟩] :=
    .cons (.cluster (by decide) (.flag (by decide) [] [])) .nil
  have member : (⟨"colors".toList, false, 'c'⟩ : LongOption) ∈ longOptions := by decide
  exact ((program_spellings spelled member (by decide : "color".toList ≠ []) (by decide)
    sampleHost .permute []).1 (by decide)).1 rfl

example : scan optionTable .permute ["2".toList, "-cvg20".toList, "8".toList, "--inter".toList,
      "-1".toList] =
    ([⟨'c', none⟩, ⟨'v', none⟩, ⟨'g', some "20".toList⟩, ⟨'i', some "-1".toList⟩],
      .operands ["2".toList, "8".toList]) := by
  decide

end TmuxMemCpuLoad
