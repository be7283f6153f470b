import TmuxMemCpuLoad.AcceptedOptions
import TmuxMemCpuLoad.CommandLine

/-!
# Configurations

The settings with which the program can render, and for each of them a command
line that it reads as these settings.
-/

namespace TmuxMemCpuLoad

open StandardCxx GetoptLong KeyedFold

/-- The settings that some command line makes without an overflow on the way. -/
structure Configurable (settings : Settings) : Prop where
  inRange : settings.signedOverflow = false
  left_colors : settings.usePowerlineLeft = true → settings.useColors = true
  right_colors : settings.usePowerlineRight = true → settings.useColors = true
  leftColor : 0 ≤ settings.leftColor ∧ settings.leftColor ≤ 255
  leftColor_unset : settings.segmentsToLeft = false → settings.leftColor = 0
  rightColor : 0 ≤ settings.rightColor ∧ settings.rightColor ≤ 255
  rightColor_unset : settings.segmentsToRight = false → settings.rightColor = 0
  averagesCount : 0 ≤ settings.averagesCount ∧ settings.averagesCount ≤ 3
  graphLines : -2 ^ 15 ≤ settings.graphLines ∧ settings.graphLines < 2 ^ 15
  interval : ∃ seconds, 1 ≤ seconds ∧ seconds ≤ 2147 ∧
    settings.cpuUsageDelay = seconds * 1000000 - 10000
  memMode : ∀ value, settings.memMode = .other value → 3 ≤ value ∧ value < 2 ^ 31
  cpuMode : ∀ value, settings.cpuMode = .other value → 2 ≤ value ∧ value < 2 ^ 31

/-! ## A command line for each configuration -/

def MemoryMode.value : MemoryMode → Nat
  | .default => 0
  | .freeMemory => 1
  | .usagePercentage => 2
  | .other value => value

def CpuMode.value : CpuMode → Nat
  | .default => 0
  | .threads => 1
  | .other value => value

def argument (val : Char) (value : Nat) : Occurrence :=
  ⟨val, some (Nat.toDigits 10 value)⟩

def Settings.flags (settings : Settings) : List Occurrence :=
  (if settings.useColors then [⟨'c', none⟩] else []) ++
    (if settings.usePowerlineLeft then [⟨'p', none⟩] else []) ++
    (if settings.usePowerlineRight then [⟨'q', none⟩] else []) ++
    (if settings.useVertGraph then [⟨'v', none⟩] else [])

def Settings.segments (settings : Settings) : List Occurrence :=
  (if settings.segmentsToLeft then [argument 'l' settings.leftColor.toNat] else []) ++
    (if settings.segmentsToRight then [argument 'r' settings.rightColor.toNat] else [])

def Settings.numbers (settings : Settings) : List Occurrence :=
  [argument 'i' ((settings.cpuUsageDelay + 10000) / 1000000),
    argument 'g' (settings.graphLines % 2 ^ 16).toNat,
    argument 'm' settings.memMode.value,
    argument 't' settings.cpuMode.value,
    argument 'a' settings.averagesCount.toNat]

/-- The options that make the settings. -/
def Settings.occurrences (settings : Settings) : List Occurrence :=
  settings.flags ++ settings.segments ++ settings.numbers

/-- The word of an option, with its argument attached. -/
def optionWord (occurrence : Occurrence) : Word :=
  '-' :: occurrence.val :: occurrence.optarg.getD []

def Settings.commandLine (settings : Settings) : List Word :=
  settings.occurrences.map optionWord

/-- An option of the table with an argument exactly when it takes one. -/
def Spellable (occurrence : Occurrence) : Prop :=
  occurrence.val ≠ '-' ∧ occurrence.optarg ≠ some [] ∧
    optionTable.short.lookup occurrence.val = some occurrence.optarg.isSome

theorem yields_optionWord {occurrence : Occurrence} (spellable : Spellable occurrence)
    (argv : List Word) :
    Yields optionTable [] (optionWord occurrence :: argv) occurrence [] argv := by
  obtain ⟨val, _ | value⟩ := occurrence
  · exact .cluster spellable.1 (.flag spellable.2.2 [] argv)
  · have something : value ≠ [] := by simpa using spellable.2.1
    exact .cluster spellable.1 (.attached spellable.2.2 something argv)

theorem spellsOptions_optionWords {occurrences : List Occurrence}
    (spellable : ∀ occurrence ∈ occurrences, Spellable occurrence) :
    SpellsOptions optionTable [] (occurrences.map optionWord) occurrences := by
  induction occurrences with
  | nil => exact .nil
  | cons occurrence occurrences induction =>
      rw [List.forall_mem_cons] at spellable
      exact .cons (yields_optionWord spellable.1 _) (induction spellable.2)

theorem atoi_toDigits {value : Nat} (bounded : value < 2 ^ 31) :
    atoi (Nat.toDigits 10 value) = value := by
  have digits : ∀ char ∈ Nat.toDigits 10 value, char.isDigit = true :=
    fun char member => Nat.isDigit_of_mem_toDigits (by decide) (by decide) member
  have scanned : scanInteger (Nat.toDigits 10 value) = some (value : Int) := by
    rw [scanInteger_of_digits Nat.toDigits_ne_nil digits, digitsValue,
      Nat.ofDigitChars_ten_toDigits]
  have saturated : max (-2 ^ 63) (min (value : Int) (2 ^ 63 - 1)) = value := by omega
  simp only [atoi, scanned, saturated]
  exact Int.bmod_eq_of_le_mul_two (by omega) (by omega)

/-- The settings after some options of the command line. -/
def Settings.after (settings : Settings) (occurrences : List Occurrence) : Settings :=
  (occurrences.map parsedOption).foldl Settings.update settings

theorem Settings.after_append (settings : Settings) (first second : List Occurrence) :
    settings.after (first ++ second) = (settings.after first).after second := by
  simp [Settings.after]

theorem parsedOption_argument_value (val : Char) {value : Int} (nonneg : 0 ≤ value)
    (bounded : value < 2 ^ 31) : (parsedOption (argument val value.toNat)).value = value := by
  have read : atoi (Nat.toDigits 10 value.toNat) = value.toNat := atoi_toDigits (by omega)
  rw [Int.toNat_of_nonneg nonneg] at read
  exact read

theorem parsedOption_argument_key (val : Char) (value : Nat) :
    (parsedOption (argument val value)).key = optionKey val :=
  rfl

theorem after_ite (settings : Settings) (raised : Bool) (occurrence : Occurrence) :
    settings.after (if raised then [occurrence] else []) =
      if raised then settings.update (parsedOption occurrence) else settings := by
  cases raised <;> rfl

theorem after_flags (settings : Settings) :
    Settings.initial.after settings.flags =
      { Settings.initial with
        useColors :=
          settings.useColors || settings.usePowerlineLeft || settings.usePowerlineRight
        usePowerlineLeft := settings.usePowerlineLeft
        usePowerlineRight := settings.usePowerlineRight
        useVertGraph := settings.useVertGraph } := by
  simp only [Settings.flags, Settings.after_append, after_ite]
  cases settings.useColors <;> cases settings.usePowerlineLeft <;>
    cases settings.usePowerlineRight <;> cases settings.useVertGraph <;> rfl

theorem mem_occurrences {settings : Settings} {occurrence : Occurrence}
    (member : occurrence ∈ settings.occurrences) :
    (∃ val ∈ ['c', 'p', 'q', 'v'], occurrence = ⟨val, none⟩) ∨
      occurrence = argument 'l' settings.leftColor.toNat ∨
      occurrence = argument 'r' settings.rightColor.toNat ∨
      occurrence = argument 'i' ((settings.cpuUsageDelay + 10000) / 1000000) ∨
      occurrence = argument 'g' (settings.graphLines % 2 ^ 16).toNat ∨
      occurrence = argument 'm' settings.memMode.value ∨
      occurrence = argument 't' settings.cpuMode.value ∨
      occurrence = argument 'a' settings.averagesCount.toNat := by
  simp only [Settings.occurrences, Settings.flags, Settings.segments, Settings.numbers,
    List.mem_append, List.mem_ite_nil_right, List.mem_cons, List.not_mem_nil, or_false]
    at member
  simp only [List.mem_cons, List.not_mem_nil, or_false, exists_eq_or_imp, exists_eq_left]
  tauto

theorem spellable_argument {val : Char} (takes : optionTable.short.lookup val = some true)
    (value : Nat) : Spellable (argument val value) := by
  refine ⟨?_, ?_, takes⟩
  · rintro rfl
    revert takes
    decide
  · simp [argument, Nat.toDigits_ne_nil]

theorem occurrences_spellable (settings : Settings) :
    ∀ occurrence ∈ settings.occurrences, Spellable occurrence := by
  intro occurrence member
  rcases mem_occurrences member with ⟨val, flag, rfl⟩ | rfl | rfl | rfl | rfl | rfl | rfl | rfl
  · simp only [List.mem_cons, List.not_mem_nil, or_false] at flag
    rcases flag with rfl | rfl | rfl | rfl <;> exact ⟨by decide, by decide, by decide⟩
  all_goals exact spellable_argument (by decide) _

section Configurable

variable {settings : Settings} (configurable : Configurable settings)
include configurable

theorem after_segmentsLeft (earlier : Settings) (none : earlier.segmentsToLeft = false)
    (unset : earlier.leftColor = 0) :
    earlier.after
        (if settings.segmentsToLeft then [argument 'l' settings.leftColor.toNat] else []) =
      { earlier with
        segmentsToLeft := settings.segmentsToLeft
        leftColor := settings.leftColor } := by
  obtain ⟨nonneg, atMost⟩ := configurable.leftColor
  have read := parsedOption_argument_value 'l' nonneg (by omega)
  have stored := toShort_of_range nonneg (by omega)
  rw [after_ite]
  cases raised : settings.segmentsToLeft with
  | false => simp [configurable.leftColor_unset raised, ← none, ← unset]
  | true =>
      simp [Settings.update, parsedOption_argument_key, optionKey, read, stored]

theorem after_segmentsRight (earlier : Settings) (none : earlier.segmentsToRight = false)
    (unset : earlier.rightColor = 0) :
    earlier.after
        (if settings.segmentsToRight then [argument 'r' settings.rightColor.toNat] else []) =
      { earlier with
        segmentsToRight := settings.segmentsToRight
        rightColor := settings.rightColor } := by
  obtain ⟨nonneg, atMost⟩ := configurable.rightColor
  have read := parsedOption_argument_value 'r' nonneg (by omega)
  have stored := toShort_of_range nonneg (by omega)
  rw [after_ite]
  cases raised : settings.segmentsToRight with
  | false => simp [configurable.rightColor_unset raised, ← none, ← unset]
  | true =>
      simp [Settings.update, parsedOption_argument_key, optionKey, read, stored]

theorem memMode_value : settings.memMode.value < 2 ^ 31 ∧
    toMemoryMode settings.memMode.value = settings.memMode := by
  cases mode : settings.memMode with
  | other value =>
      obtain ⟨atLeast, bounded⟩ := configurable.memMode value mode
      refine ⟨bounded, ?_⟩
      change toMemoryMode (value : Int) = .other value
      unfold toMemoryMode
      split
      all_goals first | omega | rfl
  | _ => exact ⟨by decide, rfl⟩

theorem cpuMode_value : settings.cpuMode.value < 2 ^ 31 ∧
    toCpuMode settings.cpuMode.value = settings.cpuMode := by
  cases mode : settings.cpuMode with
  | other value =>
      obtain ⟨atLeast, bounded⟩ := configurable.cpuMode value mode
      refine ⟨bounded, ?_⟩
      change toCpuMode (value : Int) = .other value
      unfold toCpuMode
      split
      all_goals first | omega | rfl
  | _ => exact ⟨by decide, rfl⟩

theorem interval_value :
    1 ≤ (settings.cpuUsageDelay + 10000) / 1000000 ∧
      (settings.cpuUsageDelay + 10000) / 1000000 ≤ 2147 ∧
      settings.cpuUsageDelay =
        (settings.cpuUsageDelay + 10000) / 1000000 * 1000000 - 10000 := by
  obtain ⟨seconds, positive, atMost, delay⟩ := configurable.interval
  omega

theorem graphLines_value :
    0 ≤ settings.graphLines % 2 ^ 16 ∧ settings.graphLines % 2 ^ 16 < 2 ^ 31 ∧
      toShort (settings.graphLines % 2 ^ 16) = settings.graphLines := by
  obtain ⟨atLeast, atMost⟩ := configurable.graphLines
  refine ⟨by omega, by omega, ?_⟩
  have reduced : toShort (settings.graphLines % 2 ^ 16) = toShort settings.graphLines :=
    mod_cast Int.emod_bmod settings.graphLines (2 ^ 16)
  rw [reduced]
  exact Int.bmod_eq_of_le_mul_two (by omega) (by omega)

theorem setInterval_value (earlier : Settings) (inRange : earlier.signedOverflow = false) :
    earlier.setInterval ((settings.cpuUsageDelay + 10000) / 1000000 : Nat) =
      { earlier with cpuUsageDelay := settings.cpuUsageDelay } := by
  obtain ⟨positive, atMost, delay⟩ := interval_value configurable
  generalize (settings.cpuUsageDelay + 10000) / 1000000 = seconds at positive atMost delay
  have fits : FitsInt ((seconds : Int) * 1000000) ∧ FitsInt ((seconds : Int) * 1000000 - 10000) :=
    (fitsInt_interval_iff (by omega)).mpr (by omega)
  have stored : signedToUnsigned ((seconds : Int) * 1000000 - 10000) =
      settings.cpuUsageDelay := by
    rw [signedToUnsigned]
    omega
  simp only [Settings.setInterval, stored, inRange, fits]
  simp

theorem after_numbers (earlier : Settings) (inRange : earlier.signedOverflow = false) :
    earlier.after settings.numbers =
      { earlier with
        cpuUsageDelay := settings.cpuUsageDelay
        graphLines := settings.graphLines
        memMode := settings.memMode
        cpuMode := settings.cpuMode
        averagesCount := settings.averagesCount } := by
  have seconds := interval_value configurable
  have delay := setInterval_value configurable earlier inRange
  obtain ⟨linesNonneg, linesBounded, lines⟩ := graphLines_value configurable
  obtain ⟨memBounded, memMode⟩ := memMode_value configurable
  obtain ⟨cpuBounded, cpuMode⟩ := cpuMode_value configurable
  obtain ⟨nonneg, atMost⟩ := configurable.averagesCount
  have interval := parsedOption_argument_value 'i' (Int.natCast_nonneg
    ((settings.cpuUsageDelay + 10000) / 1000000)) (by omega)
  have graph := parsedOption_argument_value 'g' linesNonneg linesBounded
  have mem := parsedOption_argument_value 'm' (Int.natCast_nonneg settings.memMode.value)
    (by omega)
  have cpu := parsedOption_argument_value 't' (Int.natCast_nonneg settings.cpuMode.value)
    (by omega)
  have averages := parsedOption_argument_value 'a' nonneg (by omega)
  have stored := toShort_of_range nonneg (by omega)
  rw [Int.toNat_natCast] at interval mem cpu
  simp only [Settings.after, Settings.numbers, List.map_cons, List.map_nil, List.foldl_cons,
    List.foldl_nil, Settings.update, parsedOption_argument_key, optionKey, interval, graph, mem,
    cpu, averages, delay, lines, memMode, cpuMode, stored]

/-- The options of the command line make the settings. -/
theorem settingsOf_occurrences :
    settingsOf (settings.occurrences.map parsedOption) = settings := by
  have made : settingsOf (settings.occurrences.map parsedOption) =
      Settings.initial.after (settings.flags ++ settings.segments ++ settings.numbers) := rfl
  rw [made, Settings.after_append, Settings.after_append, after_flags, Settings.segments,
    Settings.after_append, after_segmentsLeft configurable _ rfl rfl,
    after_segmentsRight configurable _ rfl rfl, after_numbers configurable _ rfl]
  have colors : (settings.useColors || settings.usePowerlineLeft ||
      settings.usePowerlineRight) = settings.useColors := by
    have left := configurable.left_colors
    have right := configurable.right_colors
    grind
  rw [colors]
  simp only [Settings.initial, ← configurable.inRange]

theorem occurrences_valid :
    ∀ occurrence ∈ settings.occurrences, (parsedOption occurrence).Valid := by
  intro occurrence member
  obtain ⟨leftNonneg, leftAtMost⟩ := configurable.leftColor
  obtain ⟨rightNonneg, rightAtMost⟩ := configurable.rightColor
  obtain ⟨nonneg, atMost⟩ := configurable.averagesCount
  obtain ⟨positive, seconds, _⟩ := interval_value configurable
  obtain ⟨linesNonneg, linesBounded, _⟩ := graphLines_value configurable
  rcases mem_occurrences member with ⟨val, flag, rfl⟩ | rfl | rfl | rfl | rfl | rfl | rfl | rfl
  · simp only [List.mem_cons, List.not_mem_nil, or_false] at flag
    rcases flag with rfl | rfl | rfl | rfl <;> trivial
  · have read := parsedOption_argument_value 'l' leftNonneg (by omega)
    simpa [ParsedOption.Valid, parsedOption_argument_key, optionKey, read] using
      ⟨leftNonneg, leftAtMost⟩
  · have read := parsedOption_argument_value 'r' rightNonneg (by omega)
    simpa [ParsedOption.Valid, parsedOption_argument_key, optionKey, read] using
      ⟨rightNonneg, rightAtMost⟩
  · have read := parsedOption_argument_value 'i' (Int.natCast_nonneg
      ((settings.cpuUsageDelay + 10000) / 1000000)) (by omega)
    rw [Int.toNat_natCast] at read
    simp only [ParsedOption.Valid, parsedOption_argument_key, optionKey, read]
    omega
  · have read := parsedOption_argument_value 'g' linesNonneg linesBounded
    simp only [ParsedOption.Valid, parsedOption_argument_key, optionKey, read]
    exact linesNonneg
  · have read := parsedOption_argument_value 'm' (Int.natCast_nonneg settings.memMode.value)
      (mod_cast (memMode_value configurable).1)
    rw [Int.toNat_natCast] at read
    simp [ParsedOption.Valid, parsedOption_argument_key, optionKey, read]
  · have read := parsedOption_argument_value 't' (Int.natCast_nonneg settings.cpuMode.value)
      (mod_cast (cpuMode_value configurable).1)
    rw [Int.toNat_natCast] at read
    simp [ParsedOption.Valid, parsedOption_argument_key, optionKey, read]
  · have read := parsedOption_argument_value 'a' nonneg (by omega)
    simpa [ParsedOption.Valid, parsedOption_argument_key, optionKey, read] using
      ⟨nonneg, atMost⟩

/-- The program renders with a configuration when it is given its command line. -/
theorem program_commandLine (host : Host) (ordering : OperandOrdering) :
    (program host ordering settings.commandLine).Renders settings := by
  have spells := spellsOptions_optionWords (occurrences_spellable settings)
  exact (program_renders_iff host ordering settings.commandLine settings).mpr
    ⟨settings.occurrences, spells.spells, occurrences_valid configurable,
      (settingsOf_occurrences configurable).symm⟩

end Configurable

/-! ## What command lines configure -/

section Valid

variable {options : List ParsedOption}

theorem lastArgument_of_not_occurs {key : OptionKey} (absent : ¬ Occurs key options) :
    lastArgument key options = none := by
  cases last : lastArgument key options with
  | none => rfl
  | some value =>
      obtain ⟨option, member, keyEq, _⟩ := exists_of_lastArgument_eq_some last
      exact absurd ⟨option, member, keyEq⟩ absent

theorem settingsOf_memMode :
    (settingsOf options).memMode =
      ((lastArgument .memMode options).map toMemoryMode).getD .default :=
  register_settingsOf Settings.memMode
    (fun settings option => by
      cases keyEq : option.key <;>
        simp [Settings.update, Settings.setInterval, argumentOf, keyEq]) options

theorem settingsOf_cpuMode :
    (settingsOf options).cpuMode =
      ((lastArgument .cpuMode options).map toCpuMode).getD .default :=
  register_settingsOf Settings.cpuMode
    (fun settings option => by
      cases keyEq : option.key <;>
        simp [Settings.update, Settings.setInterval, argumentOf, keyEq]) options

theorem graphLines_settingsOf_range (options : List ParsedOption) :
    -2 ^ 15 ≤ (settingsOf options).graphLines ∧ (settingsOf options).graphLines < 2 ^ 15 := by
  rw [settingsOf_graphLines]
  cases lastArgument .graphLines options with
  | none => decide
  | some value =>
      have lower : -(2 ^ 16 / 2) ≤ toShort value := Int.le_bmod (by decide)
      have upper : toShort value < (2 ^ 16 + 1) / 2 := Int.bmod_lt (by decide)
      simp only [Option.map_some, Option.getD_some]
      omega

theorem toMemoryMode_other {value : Int} {shown : Nat} (nonneg : 0 ≤ value)
    (bounded : value < 2 ^ 31) (other : toMemoryMode value = .other shown) :
    3 ≤ shown ∧ shown < 2 ^ 31 := by
  obtain ⟨count, rfl⟩ := Int.eq_ofNat_of_zero_le nonneg
  rcases count with _ | _ | _ | count
  case succ.succ.succ =>
    have shownEq : count + 3 = shown := MemoryMode.other.inj other
    omega
  all_goals cases other

theorem toCpuMode_other {value : Int} {shown : Nat} (nonneg : 0 ≤ value)
    (bounded : value < 2 ^ 31) (other : toCpuMode value = .other shown) :
    2 ≤ shown ∧ shown < 2 ^ 31 := by
  obtain ⟨count, rfl⟩ := Int.eq_ofNat_of_zero_le nonneg
  rcases count with _ | _ | count
  case succ.succ =>
    have shownEq : count + 2 = shown := CpuMode.other.inj other
    omega
  all_goals cases other

variable (valid : ∀ option ∈ options, option.Valid)
include valid

/-- The last argument of a key lies between the bounds its option is checked
for. -/
theorem lastArgument_getD_range {key : OptionKey} {lower upper initial : Int}
    (checks : ∀ option : ParsedOption, option.key = key → option.Valid →
      lower ≤ option.value ∧ option.value ≤ upper)
    (initially : lower ≤ initial ∧ initial ≤ upper) :
    lower ≤ (lastArgument key options).getD initial ∧
      (lastArgument key options).getD initial ≤ upper := by
  cases last : lastArgument key options with
  | none => exact initially
  | some value =>
      obtain ⟨option, member, keyEq, rfl⟩ := exists_of_lastArgument_eq_some last
      exact checks option keyEq (valid option member)

theorem interval_settingsOf
    (small : ∀ option ∈ options, option.key = .interval → option.value ≤ 2147) :
    ∃ seconds, 1 ≤ seconds ∧ seconds ≤ 2147 ∧
      (settingsOf options).cpuUsageDelay = seconds * 1000000 - 10000 := by
  have delay := cpuUsageDelay_settingsOf valid small
  cases last : lastArgument .interval options with
  | none =>
      rw [last] at delay
      exact ⟨1, by simp_all; omega⟩
  | some value =>
      obtain ⟨option, member, keyEq, rfl⟩ := exists_of_lastArgument_eq_some last
      have positive : 1 ≤ option.value := by
        simpa [ParsedOption.Valid, keyEq] using valid option member
      have atMost := small option member keyEq
      rw [last] at delay
      simp only [Option.map_some, Option.getD_some] at delay
      exact ⟨option.value.toNat, by omega, by omega, by omega⟩

theorem memMode_settingsOf {shown : Nat}
    (other : (settingsOf options).memMode = .other shown) : 3 ≤ shown ∧ shown < 2 ^ 31 := by
  rw [settingsOf_memMode] at other
  cases last : lastArgument .memMode options with
  | none => simp [last] at other
  | some value =>
      obtain ⟨option, member, keyEq, rfl⟩ := exists_of_lastArgument_eq_some last
      have nonneg : 0 ≤ option.value := by
        simpa [ParsedOption.Valid, keyEq] using valid option member
      have bounded : option.value < 2 ^ 31 := (atoi_range option.optarg).2
      rw [last] at other
      exact toMemoryMode_other nonneg bounded other

theorem cpuMode_settingsOf {shown : Nat}
    (other : (settingsOf options).cpuMode = .other shown) : 2 ≤ shown ∧ shown < 2 ^ 31 := by
  rw [settingsOf_cpuMode] at other
  cases last : lastArgument .cpuMode options with
  | none => simp [last] at other
  | some value =>
      obtain ⟨option, member, keyEq, rfl⟩ := exists_of_lastArgument_eq_some last
      have nonneg : 0 ≤ option.value := by
        simpa [ParsedOption.Valid, keyEq] using valid option member
      have bounded : option.value < 2 ^ 31 := (atoi_range option.optarg).2
      rw [last] at other
      exact toCpuMode_other nonneg bounded other

/-- Valid options make a configuration, unless an interval overflows. -/
theorem configurable_settingsOf (inRange : (settingsOf options).signedOverflow = false) :
    Configurable (settingsOf options) := by
  obtain ⟨leftColor, rightColor, averagesCount⟩ := shortSettings_eq valid
  have small := (signedOverflow_settingsOf_iff valid).mp inRange
  refine ⟨inRange, ?_, ?_, ?_, ?_, ?_, ?_, ?_, graphLines_settingsOf_range options,
    interval_settingsOf valid small, fun _ => memMode_settingsOf valid,
    fun _ => cpuMode_settingsOf valid⟩
  · rw [settingsOf_usePowerlineLeft, settingsOf_useColors]
    exact fun occurs => .inr (.inl occurs)
  · rw [settingsOf_usePowerlineRight, settingsOf_useColors]
    exact fun occurs => .inr (.inr occurs)
  · rw [leftColor]
    apply lastArgument_getD_range valid _ (by decide)
    intro option keyEq
    simp [ParsedOption.Valid, keyEq]
  · intro unset
    rw [← Bool.not_eq_true, settingsOf_segmentsToLeft] at unset
    rw [leftColor, lastArgument_of_not_occurs unset]
    rfl
  · rw [rightColor]
    apply lastArgument_getD_range valid _ (by decide)
    intro option keyEq
    simp [ParsedOption.Valid, keyEq]
  · intro unset
    rw [← Bool.not_eq_true, settingsOf_segmentsToRight] at unset
    rw [rightColor, lastArgument_of_not_occurs unset]
    rfl
  · rw [averagesCount]
    apply lastArgument_getD_range valid _ (by decide)
    intro option keyEq
    simp [ParsedOption.Valid, keyEq]

end Valid

/-- The configurations are the settings with which the program renders when no
`int` overflows, and each of them has a command line. -/
theorem exists_commandLine_iff (host : Host) (ordering : OperandOrdering)
    (settings : Settings) :
    ((∃ argv, (program host ordering argv).Renders settings) ∧
        settings.signedOverflow = false) ↔
      Configurable settings := by
  constructor
  · rintro ⟨⟨argv, renders⟩, inRange⟩
    obtain ⟨occurrences, _, valid, rfl⟩ :=
      (program_renders_iff host ordering argv settings).mp renders
    exact configurable_settingsOf (List.forall_mem_map.mpr valid) inRange
  · intro configurable
    exact ⟨⟨settings.commandLine, program_commandLine configurable host ordering⟩,
      configurable.inRange⟩

end TmuxMemCpuLoad
