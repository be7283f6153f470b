import TmuxMemCpuLoad.OptionLoop

/-!
# What the settings hold after the options

Each setting depends on the options of its own key only: a flag is raised when
its option occurs, and a number is the one stored last.  Options of different
keys commute, so that the settings do not depend on how they are interleaved.
-/

namespace TmuxMemCpuLoad

open StandardCxx KeyedFold

def settingsOf (options : List ParsedOption) : Settings :=
  options.foldl Settings.update Settings.initial

/-- The number that an option of the key brings. -/
def argumentOf (key : OptionKey) (option : ParsedOption) : Option Int :=
  if option.key = key then some option.value else none

def lastArgument (key : OptionKey) (options : List ParsedOption) : Option Int :=
  lastWrite (argumentOf key) options

def Occurs (key : OptionKey) (options : List ParsedOption) : Prop :=
  ∃ option ∈ options, option.key = key

theorem exists_of_lastArgument_eq_some {key : OptionKey} {options : List ParsedOption}
    {value : Int} (last : lastArgument key options = some value) :
    ∃ option ∈ options, option.key = key ∧ option.value = value := by
  obtain ⟨option, member, brings⟩ := exists_of_lastWrite_eq_some last
  refine ⟨option, member, ?_⟩
  unfold argumentOf at brings
  split at brings
  · exact ⟨by assumption, by simpa using brings⟩
  · cases brings

/-- A setting that only one key stores. -/
theorem register_settingsOf {Value : Type} (register : Settings → Value)
    {key : OptionKey} {store : Int → Value}
    (stepWrites : ∀ settings option, register (Settings.update settings option) =
      ((argumentOf key option).map store).getD (register settings))
    (options : List ParsedOption) :
    register (settingsOf options) =
      ((lastArgument key options).map store).getD (register .initial) := by
  rw [settingsOf, register_foldl stepWrites, lastWrite_map]
  rfl

theorem flag_settingsOf (flag : Settings → Bool) (raises : OptionKey → Bool)
    (lowered : flag .initial = false)
    (stepRaises : ∀ settings option, flag (Settings.update settings option) =
      (flag settings || raises option.key))
    (options : List ParsedOption) :
    flag (settingsOf options) = true ↔ ∃ option ∈ options, raises option.key = true := by
  rw [settingsOf, flag_foldl stepRaises, lowered, Bool.false_or, List.any_eq_true]

section Fields

variable (options : List ParsedOption)

theorem settingsOf_averagesCount :
    (settingsOf options).averagesCount =
      ((lastArgument .averagesCount options).map toShort).getD 3 :=
  register_settingsOf Settings.averagesCount
    (fun settings option => by
      cases keyEq : option.key <;>
        simp [Settings.update, Settings.setInterval, argumentOf, keyEq]) options

theorem settingsOf_graphLines :
    (settingsOf options).graphLines =
      ((lastArgument .graphLines options).map toShort).getD 10 :=
  register_settingsOf Settings.graphLines
    (fun settings option => by
      cases keyEq : option.key <;>
        simp [Settings.update, Settings.setInterval, argumentOf, keyEq]) options

theorem settingsOf_leftColor :
    (settingsOf options).leftColor =
      ((lastArgument .segmentsLeft options).map toShort).getD 0 :=
  register_settingsOf Settings.leftColor
    (fun settings option => by
      cases keyEq : option.key <;>
        simp [Settings.update, Settings.setInterval, argumentOf, keyEq]) options

theorem settingsOf_rightColor :
    (settingsOf options).rightColor =
      ((lastArgument .segmentsRight options).map toShort).getD 0 :=
  register_settingsOf Settings.rightColor
    (fun settings option => by
      cases keyEq : option.key <;>
        simp [Settings.update, Settings.setInterval, argumentOf, keyEq]) options

theorem settingsOf_cpuUsageDelay :
    (settingsOf options).cpuUsageDelay =
      ((lastArgument .interval options).map fun seconds =>
        signedToUnsigned (seconds * 1000000 - 10000)).getD 990000 :=
  register_settingsOf Settings.cpuUsageDelay
    (fun settings option => by
      cases keyEq : option.key <;>
        simp [Settings.update, Settings.setInterval, argumentOf, keyEq]) options

theorem settingsOf_useColors :
    (settingsOf options).useColors = true ↔
      Occurs .colors options ∨ Occurs .powerlineLeft options ∨
        Occurs .powerlineRight options := by
  have raised := flag_settingsOf Settings.useColors
    (fun key => key = .colors ∨ key = .powerlineLeft ∨ key = .powerlineRight)
    rfl
    (fun settings option => by
      cases keyEq : option.key <;>
        simp [Settings.update, Settings.setInterval, keyEq]) options
  rw [raised]
  simp only [Occurs, decide_eq_true_eq, and_or_left, exists_or]

theorem flag_settingsOf_occurs (flag : Settings → Bool) {key : OptionKey}
    (lowered : flag .initial = false)
    (stepRaises : ∀ settings option, flag (Settings.update settings option) =
      (flag settings || decide (option.key = key))) :
    flag (settingsOf options) = true ↔ Occurs key options := by
  rw [flag_settingsOf flag (fun other => other = key) lowered stepRaises]
  simp [Occurs]

theorem settingsOf_usePowerlineLeft :
    (settingsOf options).usePowerlineLeft = true ↔ Occurs .powerlineLeft options :=
  flag_settingsOf_occurs options Settings.usePowerlineLeft rfl
    fun settings option => by
      cases keyEq : option.key <;> simp [Settings.update, Settings.setInterval, keyEq]

theorem settingsOf_usePowerlineRight :
    (settingsOf options).usePowerlineRight = true ↔ Occurs .powerlineRight options :=
  flag_settingsOf_occurs options Settings.usePowerlineRight rfl
    fun settings option => by
      cases keyEq : option.key <;> simp [Settings.update, Settings.setInterval, keyEq]

theorem settingsOf_useVertGraph :
    (settingsOf options).useVertGraph = true ↔ Occurs .verticalGraph options :=
  flag_settingsOf_occurs options Settings.useVertGraph rfl
    fun settings option => by
      cases keyEq : option.key <;> simp [Settings.update, Settings.setInterval, keyEq]

theorem settingsOf_segmentsToLeft :
    (settingsOf options).segmentsToLeft = true ↔ Occurs .segmentsLeft options :=
  flag_settingsOf_occurs options Settings.segmentsToLeft rfl
    fun settings option => by
      cases keyEq : option.key <;> simp [Settings.update, Settings.setInterval, keyEq]

theorem settingsOf_segmentsToRight :
    (settingsOf options).segmentsToRight = true ↔ Occurs .segmentsRight options :=
  flag_settingsOf_occurs options Settings.segmentsToRight rfl
    fun settings option => by
      cases keyEq : option.key <;> simp [Settings.update, Settings.setInterval, keyEq]

end Fields

/-! ## Numbers that are not changed by narrowing -/

theorem toShort_of_range {value : Int} (nonneg : 0 ≤ value) (atMost : value ≤ 32767) :
    toShort value = value :=
  Int.bmod_eq_of_le_mul_two (by omega) (by omega)

section Valid

variable {options : List ParsedOption}

/-- The last argument of a key whose values fit a `short` is stored as it is. -/
theorem lastArgument_map_toShort {key : OptionKey} (initial : Int)
    (valid : ∀ option ∈ options, option.key = key →
      0 ≤ option.value ∧ option.value ≤ 32767) :
    ((lastArgument key options).map toShort).getD initial =
      (lastArgument key options).getD initial := by
  cases last : lastArgument key options with
  | none => rfl
  | some value =>
      obtain ⟨option, member, keyEq, valueEq⟩ := exists_of_lastArgument_eq_some last
      have range := valid option member keyEq
      rw [valueEq] at range
      simp [toShort_of_range range.1 range.2]

variable (valid : ∀ option ∈ options, option.Valid)
include valid

theorem value_range_of_valid {option : ParsedOption} (member : option ∈ options)
    (key : option.key = .segmentsLeft ∨ option.key = .segmentsRight ∨
      option.key = .averagesCount) :
    0 ≤ option.value ∧ option.value ≤ 32767 := by
  have holds := valid option member
  rcases key with key | key | key <;>
    simp only [ParsedOption.Valid, key] at holds <;> omega

theorem shortSettings_eq :
    (settingsOf options).leftColor = (lastArgument .segmentsLeft options).getD 0 ∧
      (settingsOf options).rightColor = (lastArgument .segmentsRight options).getD 0 ∧
      (settingsOf options).averagesCount =
        (lastArgument .averagesCount options).getD 3 := by
  rw [settingsOf_leftColor, settingsOf_rightColor, settingsOf_averagesCount]
  refine ⟨lastArgument_map_toShort 0 ?_, lastArgument_map_toShort 0 ?_,
    lastArgument_map_toShort 3 ?_⟩ <;>
    · intro option member key
      exact value_range_of_valid valid member (by simp [key])

end Valid

/-! ## Interleavings -/

theorem update_commute (settings : Settings) (first second : ParsedOption)
    (different : first.key ≠ second.key) :
    (settings.update first).update second = (settings.update second).update first := by
  cases firstKey : first.key <;> cases secondKey : second.key <;>
    simp [Settings.update, Settings.setInterval, firstKey, secondKey] <;>
    simp [firstKey, secondKey] at different

/-- The settings depend on the order within each key only. -/
theorem settingsOf_eq_of_sameOccurrences {options reordered : List ParsedOption}
    (same : SameOccurrences ParsedOption.key options reordered) :
    settingsOf options = settingsOf reordered :=
  foldl_eq_of_sameOccurrences update_commute same Settings.initial

end TmuxMemCpuLoad
