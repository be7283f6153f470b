import TmuxMemCpuLoad.StatusLine

/-!
# Accepted command lines

Which options and operands lead to rendering, which settings they make, and
when the numbers among them reach the renderers as they were given.
-/

namespace TmuxMemCpuLoad

open StandardCxx KeyedFold

/-! ## Acceptance and configuration -/

/-- The options and operands that lead to rendering. -/
def Accepted (options : List ParsedOption) (operands : Nat) : Prop :=
  operands = 0 ∧ ¬ Occurs .help options ∧ ¬ Occurs .unknown options ∧
    ∀ option ∈ options,
      ((option.key = .segmentsLeft ∨ option.key = .segmentsRight) →
        0 ≤ option.value ∧ option.value ≤ 255) ∧
      (option.key = .interval → 1 ≤ option.value) ∧
      ((option.key = .graphLines ∨ option.key = .memMode ∨ option.key = .cpuMode) →
        0 ≤ option.value) ∧
      (option.key = .averagesCount → 0 ≤ option.value ∧ option.value ≤ 3)

/-- The settings as the options occurring name them. -/
structure Configures (options : List ParsedOption) (settings : Settings) : Prop where
  useColors : settings.useColors = true ↔
    Occurs .colors options ∨ Occurs .powerlineLeft options ∨ Occurs .powerlineRight options
  usePowerlineLeft : settings.usePowerlineLeft = true ↔ Occurs .powerlineLeft options
  usePowerlineRight : settings.usePowerlineRight = true ↔ Occurs .powerlineRight options
  useVertGraph : settings.useVertGraph = true ↔ Occurs .verticalGraph options
  segmentsToLeft : settings.segmentsToLeft = true ↔ Occurs .segmentsLeft options
  segmentsToRight : settings.segmentsToRight = true ↔ Occurs .segmentsRight options
  leftColor : settings.leftColor = (lastArgument .segmentsLeft options).getD 0
  rightColor : settings.rightColor = (lastArgument .segmentsRight options).getD 0
  averagesCount : settings.averagesCount = (lastArgument .averagesCount options).getD 3

theorem accepted_iff_valid (options : List ParsedOption) (operands : Nat) :
    Accepted options operands ↔
      operands = 0 ∧ ∀ option ∈ options, option.Valid := by
  unfold Accepted Occurs
  constructor
  · rintro ⟨none, noHelp, noUnknown, ranges⟩
    refine ⟨none, fun option member => ?_⟩
    obtain ⟨colors, interval, counts, averages⟩ := ranges option member
    unfold ParsedOption.Valid
    cases keyEq : option.key
    case help => exact noHelp ⟨option, member, keyEq⟩
    case unknown => exact noUnknown ⟨option, member, keyEq⟩
    all_goals simp_all
  · rintro ⟨none, valid⟩
    refine ⟨none, ?_, ?_, fun option member => ?_⟩
    · rintro ⟨option, member, keyEq⟩
      simpa [ParsedOption.Valid, keyEq] using valid option member
    · rintro ⟨option, member, keyEq⟩
      simpa [ParsedOption.Valid, keyEq] using valid option member
    · have holds := valid option member
      unfold ParsedOption.Valid at holds
      cases keyEq : option.key <;> simp_all

theorem configures_settingsOf {options : List ParsedOption}
    (valid : ∀ option ∈ options, option.Valid) :
    Configures options (settingsOf options) where
  useColors := settingsOf_useColors options
  usePowerlineLeft := settingsOf_usePowerlineLeft options
  usePowerlineRight := settingsOf_usePowerlineRight options
  useVertGraph := settingsOf_useVertGraph options
  segmentsToLeft := settingsOf_segmentsToLeft options
  segmentsToRight := settingsOf_segmentsToRight options
  leftColor := (shortSettings_eq valid).1
  rightColor := (shortSettings_eq valid).2.1
  averagesCount := (shortSettings_eq valid).2.2

/-- The program renders exactly when its options and operands are accepted,
with the configuration the options name; otherwise it fails without looking at
the host.  The interleaving of different options does not matter. -/
theorem main_accepts_and_configures (host : Host) (options : List ParsedOption)
    (operands : Nat) :
    ((∃ settings, (main host options operands).Renders settings) ↔
        Accepted options operands) ∧
      ((∀ settings, ¬ (main host options operands).Renders settings) →
        (main host options operands).result = .ok exitFailure ∧
          ∀ other, main other options operands = main host options operands) ∧
      (∀ settings, (main host options operands).Renders settings →
        Configures options settings) ∧
      ∀ reordered, SameOccurrences ParsedOption.key options reordered →
        ∀ settings, (main host options operands).Renders settings ↔
          (main host reordered operands).Renders settings := by
  refine ⟨?_, main_of_not_renders, ?_, ?_⟩
  · simp [main_renders_iff, accepted_iff_valid]
  · intro settings renders
    obtain ⟨_, valid, rfl⟩ := (main_renders_iff host options operands settings).mp renders
    exact configures_settingsOf valid
  · intro reordered same settings
    have sameMembers : (∀ option ∈ options, option.Valid) ↔
        ∀ option ∈ reordered, option.Valid := by
      simp only [same.mem_iff]
    rw [main_renders_iff, main_renders_iff, sameMembers,
      settingsOf_eq_of_sameOccurrences same]

/-! ## Numbers from the command line -/

/-- The numbers given reach the renderers as they are, and computing them
leaves no `int` out of its range. -/
structure NumbersUnchanged (options : List ParsedOption) (settings : Settings) : Prop where
  graphLength : (settings.graphLength : Int) = (lastArgument .graphLines options).getD 10
  cpuUsageDelay : (settings.cpuUsageDelay : Int) =
    ((lastArgument .interval options).map fun seconds =>
      seconds * 1000000 - 10000).getD 990000
  inRange : settings.signedOverflow = false
  leftColor : settings.leftColor = (lastArgument .segmentsLeft options).getD 0
  rightColor : settings.rightColor = (lastArgument .segmentsRight options).getD 0
  averagesCount : settings.averagesCount = (lastArgument .averagesCount options).getD 3

theorem signedToUnsigned_toShort_eq_iff {value : Int} (nonneg : 0 ≤ value)
    (bounded : value < 2 ^ 31) :
    (signedToUnsigned (toShort value) : Int) = value ↔ value ≤ 32767 := by
  constructor
  · intro equal
    have upper : toShort value < (2 ^ 16 + 1) / 2 := Int.bmod_lt (by decide)
    have lower : -(2 ^ 16 / 2) ≤ toShort value := Int.le_bmod (by decide)
    unfold signedToUnsigned at equal
    omega
  · intro atMost
    rw [toShort_of_range nonneg atMost, signedToUnsigned]
    omega

theorem settingsOf_signedOverflow (options : List ParsedOption) :
    (settingsOf options).signedOverflow = true ↔
      ∃ option ∈ options, option.key = .interval ∧
        ¬ (FitsInt (option.value * 1000000) ∧
          FitsInt (option.value * 1000000 - 10000)) := by
  have stepRaises : ∀ (settings : Settings) (option : ParsedOption),
      (settings.update option).signedOverflow =
        (settings.signedOverflow || decide (option.key = .interval ∧
          ¬ (FitsInt (option.value * 1000000) ∧
            FitsInt (option.value * 1000000 - 10000)))) := by
    intro settings option
    cases keyEq : option.key <;> simp [Settings.update, Settings.setInterval, keyEq]
  rw [settingsOf, flag_foldl stepRaises]
  simp only [Settings.initial, Bool.false_or, List.any_eq_true, decide_eq_true_eq]

theorem fitsInt_interval_iff {seconds : Int} (positive : 1 ≤ seconds) :
    (FitsInt (seconds * 1000000) ∧ FitsInt (seconds * 1000000 - 10000)) ↔
      seconds ≤ 2147 := by
  unfold FitsInt
  omega

/-- The numbers that are not changed on their way. -/
def SmallNumbers (options : List ParsedOption) : Prop :=
  (∀ lines, lastArgument .graphLines options = some lines → lines ≤ 32767) ∧
    ∀ option ∈ options, option.key = .interval → option.value ≤ 2147

theorem graphLength_settingsOf_iff {options : List ParsedOption}
    (valid : ∀ option ∈ options, option.Valid) :
    ((settingsOf options).graphLength : Int) =
        (lastArgument .graphLines options).getD 10 ↔
      ∀ lines, lastArgument .graphLines options = some lines → lines ≤ 32767 := by
  rw [Settings.graphLength, settingsOf_graphLines]
  cases last : lastArgument .graphLines options with
  | none => simp [signedToUnsigned]
  | some lines =>
      obtain ⟨option, member, keyEq, valueEq⟩ := exists_of_lastArgument_eq_some last
      have nonneg : 0 ≤ option.value := by
        simpa [ParsedOption.Valid, keyEq] using valid option member
      have bounded : option.value < 2 ^ 31 := (atoi_range option.optarg).2
      rw [valueEq] at nonneg bounded
      simpa using signedToUnsigned_toShort_eq_iff nonneg bounded

theorem signedOverflow_settingsOf_iff {options : List ParsedOption}
    (valid : ∀ option ∈ options, option.Valid) :
    (settingsOf options).signedOverflow = false ↔
      ∀ option ∈ options, option.key = .interval → option.value ≤ 2147 := by
  rw [← Bool.not_eq_true, settingsOf_signedOverflow]
  push Not
  refine forall₂_congr fun option member => forall_congr' fun keyEq => ?_
  have positive : 1 ≤ option.value := by
    simpa [ParsedOption.Valid, keyEq] using valid option member
  rw [← fitsInt_interval_iff positive]

theorem cpuUsageDelay_settingsOf {options : List ParsedOption}
    (valid : ∀ option ∈ options, option.Valid)
    (small : ∀ option ∈ options, option.key = .interval → option.value ≤ 2147) :
    ((settingsOf options).cpuUsageDelay : Int) =
      ((lastArgument .interval options).map fun seconds =>
        seconds * 1000000 - 10000).getD 990000 := by
  rw [settingsOf_cpuUsageDelay]
  cases last : lastArgument .interval options with
  | none => rfl
  | some seconds =>
      obtain ⟨option, member, keyEq, rfl⟩ := exists_of_lastArgument_eq_some last
      have positive : 1 ≤ option.value := by
        simpa [ParsedOption.Valid, keyEq] using valid option member
      have atMost := small option member keyEq
      simp only [Option.map_some, Option.getD_some, signedToUnsigned]
      omega

/-- The numbers of an accepted command line reach the renderers as given
exactly when no interval exceeds 2147 and the last graph length is at most
32767. -/
theorem numbersUnchanged_iff {options : List ParsedOption} {settings : Settings}
    (accepted : optionLoop options = .ok settings) :
    NumbersUnchanged options settings ↔ SmallNumbers options := by
  obtain ⟨valid, rfl⟩ := (optionLoop_eq_ok_iff options settings).mp accepted
  obtain ⟨leftColor, rightColor, averagesCount⟩ := shortSettings_eq valid
  constructor
  · intro unchanged
    exact ⟨(graphLength_settingsOf_iff valid).mp unchanged.graphLength,
      (signedOverflow_settingsOf_iff valid).mp unchanged.inRange⟩
  · rintro ⟨lines, intervals⟩
    exact {
      graphLength := (graphLength_settingsOf_iff valid).mpr lines
      cpuUsageDelay := cpuUsageDelay_settingsOf valid intervals
      inRange := (signedOverflow_settingsOf_iff valid).mpr intervals
      leftColor, rightColor, averagesCount }

/-- `-g 20 -i 5 -a 2`. -/
def sampleOptions : List ParsedOption :=
  [⟨.graphLines, "20".toList⟩, ⟨.interval, "5".toList⟩, ⟨.averagesCount, "2".toList⟩]

theorem numbersUnchanged_sample :
    optionLoop sampleOptions = .ok (settingsOf sampleOptions) ∧
      NumbersUnchanged sampleOptions (settingsOf sampleOptions) := by
  have accepted : optionLoop sampleOptions = .ok (settingsOf sampleOptions) := by
    decide +kernel
  have last : lastArgument .graphLines sampleOptions = some 20 := by decide +kernel
  have lines : ∀ lines, lastArgument .graphLines sampleOptions = some lines →
      lines ≤ 32767 := by
    intro lines given
    rw [last] at given
    cases given
    decide
  exact ⟨accepted, (numbersUnchanged_iff accepted).mpr ⟨lines, by decide +kernel⟩⟩

/-- `-g 40000` is accepted and asks `cpu_string` for 4294941760 lines. -/
theorem numbersUnchanged_fails_at_40000 :
    ∃ settings, optionLoop [⟨.graphLines, "40000".toList⟩] = .ok settings ∧
      settings.graphLength = 4294941760 ∧
      ¬ NumbersUnchanged [⟨.graphLines, "40000".toList⟩] settings := by
  have length : (settingsOf [⟨.graphLines, "40000".toList⟩]).graphLength = 4294941760 := by
    decide +kernel
  have last : lastArgument .graphLines [⟨.graphLines, "40000".toList⟩] = some 40000 := by
    decide +kernel
  refine ⟨settingsOf _, by decide +kernel, length, fun unchanged => ?_⟩
  have equal := unchanged.graphLength
  rw [length, last] at equal
  revert equal
  decide

end TmuxMemCpuLoad
