import Mathlib.Data.List.TakeWhile
import Mathlib.Tactic.Common

/-!
# Scanning a command line

`getopt_long` is called again and again on the words of a command line.  Each
call yields one option, until the words are used up; words that are no options
are passed over and end up behind the others.  `Spells` says which words spell
which options and operands, and a loop of calls reads exactly what the words
spell.
-/

namespace GetoptLong

abbrev Word := List Char

structure LongOption where
  name : Word
  hasArg : Bool
  val : Char
  deriving DecidableEq, Repr

/-- The options of a program: the characters of its option string, each with
whether a colon follows, and its long options. -/
structure Table where
  short : List (Char × Bool)
  long : List LongOption
  deriving DecidableEq, Repr

/-- Whether operands are passed over, or the first one ends the options as
`POSIXLY_CORRECT` asks for. -/
inductive OperandOrdering
  | permute
  | requireOrder
  deriving DecidableEq, Repr

/-- What a call returns for an option, and `optarg`. -/
structure Occurrence where
  val : Char
  optarg : Option Word
  deriving DecidableEq, Repr

/-- The results of a call: an option, `?`, and minus one. -/
inductive Call
  | option (occurrence : Occurrence)
  | unknown
  | finished
  deriving DecidableEq, Repr

/-- Between two calls: the rest of a word of short options, the words ahead, and
the operands passed over. -/
structure Scanner where
  nextchar : Word
  argv : List Word
  nonOptions : List Word
  deriving DecidableEq, Repr

def Scanner.start (argv : List Word) : Scanner := ⟨[], argv, []⟩

/-- The characters of an option string. -/
def parseOptstring : List Char → List (Char × Bool)
  | [] => []
  | char :: ':' :: rest => (char, true) :: parseOptstring rest
  | char :: rest => (char, false) :: parseOptstring rest

/-- A word with a dash and something after it. -/
def isOption : Word → Bool
  | '-' :: _ :: _ => true
  | _ => false

/-- The long option of a name: the one that has it, or else the only one whose
name it abbreviates. -/
def select (long : List LongOption) (name : Word) : Option LongOption :=
  match long.find? fun option => option.name = name with
  | some option => some option
  | none =>
      match long.filter fun option => name.isPrefixOf option.name with
      | [option] => some option
      | _ => none

/-- An option that requires an argument takes what is attached to it, or else the
next word, whatever that looks like. -/
def takeArgument (val : Char) (attached : Option Word) (argv nonOptions : List Word) :
    Call × Scanner :=
  match attached, argv with
  | some value, argv => (.option ⟨val, some value⟩, ⟨[], argv, nonOptions⟩)
  | none, value :: argv => (.option ⟨val, some value⟩, ⟨[], argv, nonOptions⟩)
  | none, [] => (.unknown, ⟨[], [], nonOptions⟩)

def shortOption (table : Table) (char : Char) (rest : Word) (argv nonOptions : List Word) :
    Call × Scanner :=
  match table.short.lookup char with
  | none => (.unknown, ⟨rest, argv, nonOptions⟩)
  | some false => (.option ⟨char, none⟩, ⟨rest, argv, nonOptions⟩)
  | some true =>
      takeArgument char (if rest = [] then none else some rest) argv nonOptions

/-- What follows the first equals sign, if there is one. -/
def attachedValue (text : Word) : Option Word :=
  match text.dropWhile (· ≠ '=') with
  | [] => none
  | _ :: value => some value

def longOption (table : Table) (text : Word) (argv nonOptions : List Word) :
    Call × Scanner :=
  match select table.long (text.takeWhile (· ≠ '=')) with
  | none => (.unknown, ⟨[], argv, nonOptions⟩)
  | some option =>
      if option.hasArg then takeArgument option.val (attachedValue text) argv nonOptions
      else if attachedValue text = none then
        (.option ⟨option.val, none⟩, ⟨[], argv, nonOptions⟩)
      else (.unknown, ⟨[], argv, nonOptions⟩)

/-- The operands that a call passes over. -/
def passedOver (ordering : OperandOrdering) (argv : List Word) : List Word :=
  match ordering with
  | .permute => argv.takeWhile fun word => !isOption word
  | .requireOrder => []

def call (table : Table) (ordering : OperandOrdering) (scanner : Scanner) : Call × Scanner :=
  match scanner.nextchar with
  | char :: rest => shortOption table char rest scanner.argv scanner.nonOptions
  | [] =>
      let passed := passedOver ordering scanner.argv
      let nonOptions := scanner.nonOptions ++ passed
      match scanner.argv.drop passed.length with
      | [] => (.finished, ⟨[], [], nonOptions⟩)
      | ['-', '-'] :: argv => (.finished, ⟨[], [], nonOptions ++ argv⟩)
      | ('-' :: '-' :: text) :: argv => longOption table text argv nonOptions
      | ('-' :: char :: rest) :: argv => shortOption table char rest argv nonOptions
      | word :: argv => (.finished, ⟨[], [], nonOptions ++ word :: argv⟩)

/-! ## The loop over the calls -/

/-- How a loop of calls ends: with the operands, or at `?`. -/
inductive Ending
  | operands (words : List Word)
  | unknown
  deriving DecidableEq, Repr

def wordsSize : List Word → Nat
  | [] => 0
  | word :: words => word.length + 1 + wordsSize words

/-- At least the number of calls that can yield an option. -/
def Scanner.size (scanner : Scanner) : Nat :=
  scanner.nextchar.length + wordsSize scanner.argv

/-- At most `fuel` calls, up to the first one that yields no option. -/
def loop (table : Table) (ordering : OperandOrdering) : Nat → Scanner → List Occurrence × Ending
  | 0, _ => ([], .unknown)
  | fuel + 1, scanner =>
      match call table ordering scanner with
      | (.option occurrence, next) =>
          let rest := loop table ordering fuel next
          (occurrence :: rest.1, rest.2)
      | (.unknown, _) => ([], .unknown)
      | (.finished, next) => ([], .operands next.nonOptions)

/-- What the calls from a scanner on read. -/
def scanFrom (table : Table) (ordering : OperandOrdering) (scanner : Scanner) :
    List Occurrence × Ending :=
  loop table ordering (scanner.size + 1) scanner

def scan (table : Table) (ordering : OperandOrdering) (argv : List Word) :
    List Occurrence × Ending :=
  scanFrom table ordering (.start argv)

/-! ## What the words spell -/

/-- The rest of a word of short options and the words after it begin with an
option, and leave such a rest and words behind. -/
inductive Yields (table : Table) : Word → List Word → Occurrence → Word → List Word → Prop
  | cluster {char : Char} {rest nextchar : Word} {argv left : List Word}
      {occurrence : Occurrence} (short : char ≠ '-')
      (yields : Yields table (char :: rest) argv occurrence nextchar left) :
      Yields table [] (('-' :: char :: rest) :: argv) occurrence nextchar left
  | flag {char : Char} (known : table.short.lookup char = some false) (rest : Word)
      (argv : List Word) : Yields table (char :: rest) argv ⟨char, none⟩ rest argv
  | attached {char : Char} (known : table.short.lookup char = some true) {value : Word}
      (nonempty : value ≠ []) (argv : List Word) :
      Yields table (char :: value) argv ⟨char, some value⟩ [] argv
  | separate {char : Char} (known : table.short.lookup char = some true) (value : Word)
      (argv : List Word) : Yields table [char] (value :: argv) ⟨char, some value⟩ [] argv
  | longFlag {name : Word} {option : LongOption} (nonempty : name ≠ [])
      (noValue : '=' ∉ name) (selected : select table.long name = some option)
      (flag : option.hasArg = false) (argv : List Word) :
      Yields table [] (('-' :: '-' :: name) :: argv) ⟨option.val, none⟩ [] argv
  | longAttached {name : Word} {option : LongOption} (noValue : '=' ∉ name)
      (selected : select table.long name = some option) (takes : option.hasArg = true)
      (value : Word) (argv : List Word) :
      Yields table [] (('-' :: '-' :: (name ++ '=' :: value)) :: argv)
        ⟨option.val, some value⟩ [] argv
  | longSeparate {name : Word} {option : LongOption} (nonempty : name ≠ [])
      (noValue : '=' ∉ name) (selected : select table.long name = some option)
      (takes : option.hasArg = true) (value : Word) (argv : List Word) :
      Yields table [] (('-' :: '-' :: name) :: value :: argv)
        ⟨option.val, some value⟩ [] argv

/-- The words spell options and operands. -/
inductive Spells (table : Table) (ordering : OperandOrdering) :
    Word → List Word → List Occurrence → List Word → Prop
  | finish : Spells table ordering [] [] [] []
  | terminator (argv : List Word) :
      Spells table ordering [] (['-', '-'] :: argv) [] argv
  | stop {word : Word} (operand : isOption word = false) (posix : ordering = .requireOrder)
      (argv : List Word) : Spells table ordering [] (word :: argv) [] (word :: argv)
  | operand {word : Word} {argv operands : List Word} {occurrences : List Occurrence}
      (operand : isOption word = false) (permutes : ordering = .permute)
      (spells : Spells table ordering [] argv occurrences operands) :
      Spells table ordering [] (word :: argv) occurrences (word :: operands)
  | option {nextchar left : Word} {argv rest operands : List Word}
      {occurrence : Occurrence} {occurrences : List Occurrence}
      (yields : Yields table nextchar argv occurrence left rest)
      (spells : Spells table ordering left rest occurrences operands) :
      Spells table ordering nextchar argv (occurrence :: occurrences) operands

/-- The words are nothing but options. -/
inductive SpellsOptions (table : Table) : Word → List Word → List Occurrence → Prop
  | nil : SpellsOptions table [] [] []
  | cons {nextchar left : Word} {argv rest : List Word} {occurrence : Occurrence}
      {occurrences : List Occurrence} (yields : Yields table nextchar argv occurrence left rest)
      (spells : SpellsOptions table left rest occurrences) :
      SpellsOptions table nextchar argv (occurrence :: occurrences)

/-! ## What a call does with each kind of word -/

theorem word_cases (word : Word) :
    isOption word = false ∨ word = ['-', '-'] ∨
      (∃ text, text ≠ [] ∧ word = '-' :: '-' :: text) ∨
      ∃ char rest, char ≠ '-' ∧ word = '-' :: char :: rest := by
  unfold isOption
  split
  · next char rest =>
      right
      by_cases dash : char = '-'
      · subst dash
        cases rest with
        | nil => exact .inl rfl
        | cons char rest => exact .inr (.inl ⟨char :: rest, by simp, rfl⟩)
      · exact .inr (.inr ⟨char, rest, dash, rfl⟩)
  · exact .inl rfl

/-- A long option with and without a value attached. -/
theorem text_cases (text : Word) :
    ∃ name, '=' ∉ name ∧ (text = name ∨ ∃ value, text = name ++ '=' :: value) := by
  induction text with
  | nil => exact ⟨[], by simp, .inl rfl⟩
  | cons char text induction =>
      by_cases equals : char = '='
      · exact ⟨[], by simp, .inr ⟨text, by simp [equals]⟩⟩
      · obtain ⟨name, noValue, split⟩ := induction
        refine ⟨char :: name, by simp [noValue, Ne.symm equals], ?_⟩
        rcases split with rfl | ⟨value, rfl⟩
        · exact .inl rfl
        · exact .inr ⟨value, rfl⟩

section Names

variable {name : Word} (noValue : '=' ∉ name)
include noValue

theorem ne_equals_of_mem : ∀ char ∈ name, decide (char ≠ '=') = true := by
  intro char member
  rw [decide_eq_true_eq]
  rintro rfl
  exact noValue member

theorem takeWhile_name : name.takeWhile (· ≠ '=') = name :=
  List.takeWhile_eq_self_iff.mpr (ne_equals_of_mem noValue)

theorem takeWhile_name_append (value : Word) :
    (name ++ '=' :: value).takeWhile (· ≠ '=') = name := by
  rw [List.takeWhile_append_of_pos (ne_equals_of_mem noValue)]
  simp

theorem attachedValue_name : attachedValue name = none := by
  rw [attachedValue, List.dropWhile_eq_nil_iff.mpr (ne_equals_of_mem noValue)]

theorem attachedValue_append (value : Word) :
    attachedValue (name ++ '=' :: value) = some value := by
  have dropped : (name ++ '=' :: value).dropWhile (· ≠ '=') = '=' :: value := by
    rw [List.dropWhile_append_of_pos (ne_equals_of_mem noValue)]
    simp
  rw [attachedValue, dropped]

end Names

section Calls

variable {table : Table} {ordering : OperandOrdering} {argv nonOptions : List Word}

@[simp]
theorem call_short (char : Char) (rest : Word) :
    call table ordering ⟨char :: rest, argv, nonOptions⟩ =
      shortOption table char rest argv nonOptions :=
  rfl

@[simp]
theorem call_nil : call table ordering ⟨[], [], nonOptions⟩ =
    (.finished, ⟨[], [], nonOptions⟩) := by
  cases ordering <;> simp [call, passedOver]

theorem passedOver_option {word : Word} (option : isOption word = true) :
    passedOver ordering (word :: argv) = [] := by
  cases ordering <;> simp [passedOver, option]

@[simp]
theorem call_terminator : call table ordering ⟨[], ['-', '-'] :: argv, nonOptions⟩ =
    (.finished, ⟨[], [], nonOptions ++ argv⟩) := by
  have passed : passedOver ordering (['-', '-'] :: argv) = [] := passedOver_option rfl
  simp [call, passed]

theorem call_long {text : Word} (nonempty : text ≠ []) :
    call table ordering ⟨[], ('-' :: '-' :: text) :: argv, nonOptions⟩ =
      longOption table text argv nonOptions := by
  cases text with
  | nil => contradiction
  | cons char text =>
      have passed : passedOver ordering (('-' :: '-' :: char :: text) :: argv) = [] :=
        passedOver_option rfl
      simp [call, passed]

theorem call_cluster {char : Char} (short : char ≠ '-') (rest : Word) :
    call table ordering ⟨[], ('-' :: char :: rest) :: argv, nonOptions⟩ =
      call table ordering ⟨char :: rest, argv, nonOptions⟩ := by
  have passed : passedOver ordering (('-' :: char :: rest) :: argv) = [] :=
    passedOver_option rfl
  simp [call, passed, short]

theorem call_stop {word : Word} (operand : isOption word = false) :
    call table .requireOrder ⟨[], word :: argv, nonOptions⟩ =
      (.finished, ⟨[], [], nonOptions ++ word :: argv⟩) := by
  rcases word with _ | ⟨char, _ | ⟨next, rest⟩⟩
  · simp [call, passedOver]
  · simp [call, passedOver]
  · have noDash : char ≠ '-' := by
      rintro rfl
      simp [isOption] at operand
    simp [call, passedOver, noDash]

/-- A call that passes over an operand goes on as if it had been passed over
before. -/
theorem call_operand {word : Word} (operand : isOption word = false) :
    call table .permute ⟨[], word :: argv, nonOptions⟩ =
      call table .permute ⟨[], argv, nonOptions ++ [word]⟩ := by
  simp [call, passedOver, operand]

end Calls

/-! ## What is read is spelled -/

/-- The result of a call is borne out by the words: an option leaves less to
read, and comes before whatever the rest spells. -/
def Explained (table : Table) (ordering : OperandOrdering) (scanner : Scanner) :
    Call × Scanner → Prop
  | (.option occurrence, next) =>
      next.size < scanner.size ∧
        ∃ passed, next.nonOptions = scanner.nonOptions ++ passed ∧
          ∀ occurrences operands,
            Spells table ordering next.nextchar next.argv occurrences operands →
            Spells table ordering scanner.nextchar scanner.argv
              (occurrence :: occurrences) (passed ++ operands)
  | (.finished, next) =>
      ∃ operands, next.nonOptions = scanner.nonOptions ++ operands ∧
        Spells table ordering scanner.nextchar scanner.argv [] operands
  | (.unknown, _) => True

section Explained

variable {table : Table} {ordering : OperandOrdering} {argv nonOptions : List Word}

theorem Spells.cluster {char : Char} {rest : Word} {argv operands : List Word}
    {occurrences : List Occurrence} (short : char ≠ '-')
    (spells : Spells table ordering (char :: rest) argv occurrences operands) :
    Spells table ordering [] (('-' :: char :: rest) :: argv) occurrences operands := by
  cases spells with
  | option yields spells => exact .option (.cluster short yields) spells

theorem explained_shortOption (char : Char) (rest : Word) :
    Explained table ordering ⟨char :: rest, argv, nonOptions⟩
      (shortOption table char rest argv nonOptions) := by
  unfold shortOption
  split
  · trivial
  · next known =>
      refine ⟨by simp [Scanner.size], [], by simp, ?_⟩
      intro occurrences operands spells
      exact .option (.flag known rest argv) spells
  · next known =>
      by_cases alone : rest = []
      · subst alone
        cases argv with
        | nil => trivial
        | cons value argv =>
            refine ⟨by simp [Scanner.size, wordsSize]; omega, [], by simp, ?_⟩
            intro occurrences operands spells
            exact .option (.separate known value argv) spells
      · rw [if_neg alone]
        refine ⟨by simp [Scanner.size], [], by simp, ?_⟩
        intro occurrences operands spells
        exact .option (.attached known alone argv) spells

theorem explained_longOption {text : Word} (nonempty : text ≠ []) :
    Explained table ordering ⟨[], ('-' :: '-' :: text) :: argv, nonOptions⟩
      (longOption table text argv nonOptions) := by
  obtain ⟨name, noValue, rfl | ⟨value, rfl⟩⟩ := text_cases text
  · simp only [longOption, takeWhile_name noValue, attachedValue_name noValue]
    split
    · trivial
    · next option selected =>
        cases takes : option.hasArg with
        | false =>
            refine ⟨by simp [Scanner.size, wordsSize], [], by simp, ?_⟩
            intro occurrences operands spells
            exact .option (.longFlag nonempty noValue selected takes argv) spells
        | true =>
            cases argv with
            | nil => trivial
            | cons value argv =>
                refine ⟨by simp [Scanner.size, wordsSize]; omega, [], by simp, ?_⟩
                intro occurrences operands spells
                exact .option (.longSeparate nonempty noValue selected takes value argv) spells
  · simp only [longOption, takeWhile_name_append noValue, attachedValue_append noValue]
    split
    · trivial
    · next option selected =>
        cases takes : option.hasArg with
        | false => trivial
        | true =>
            refine ⟨by simp [Scanner.size, wordsSize], [], by simp, ?_⟩
            intro occurrences operands spells
            exact .option (.longAttached noValue selected takes value argv) spells

theorem Explained.cluster {char : Char} {rest : Word} {result : Call × Scanner}
    (short : char ≠ '-')
    (explained : Explained table ordering ⟨char :: rest, argv, nonOptions⟩ result) :
    Explained table ordering ⟨[], ('-' :: char :: rest) :: argv, nonOptions⟩ result := by
  rcases result with ⟨_ | _ | _, next⟩
  · obtain ⟨shorter, passed, nonOptionsEq, spells⟩ := explained
    refine ⟨?_, passed, nonOptionsEq, ?_⟩
    · simp [Scanner.size, wordsSize] at shorter ⊢
      omega
    · intro occurrences operands rest
      exact .cluster short (spells occurrences operands rest)
  · trivial
  · obtain ⟨operands, nonOptionsEq, spells⟩ := explained
    exact ⟨operands, nonOptionsEq, .cluster short spells⟩

theorem Explained.operand {word : Word} {result : Call × Scanner}
    (operand : isOption word = false)
    (explained : Explained table .permute ⟨[], argv, nonOptions ++ [word]⟩ result) :
    Explained table .permute ⟨[], word :: argv, nonOptions⟩ result := by
  rcases result with ⟨_ | _ | _, next⟩
  · obtain ⟨shorter, passed, nonOptionsEq, spells⟩ := explained
    refine ⟨?_, word :: passed, by simp [nonOptionsEq], ?_⟩
    · simp [Scanner.size, wordsSize] at shorter ⊢
      omega
    · intro occurrences operands rest
      exact .operand operand rfl (spells occurrences operands rest)
  · trivial
  · obtain ⟨operands, nonOptionsEq, spells⟩ := explained
    exact ⟨word :: operands, by simp [nonOptionsEq], .operand operand rfl spells⟩

theorem explained_call (scanner : Scanner) :
    Explained table ordering scanner (call table ordering scanner) := by
  rcases scanner with ⟨_ | ⟨char, rest⟩, argv, nonOptions⟩
  · induction argv generalizing nonOptions with
    | nil =>
        rw [call_nil]
        exact ⟨[], by simp, .finish⟩
    | cons word argv induction =>
        rcases word_cases word with operand | rfl | ⟨text, nonempty, rfl⟩ |
          ⟨char, rest, short, rfl⟩
        · cases ordering with
          | permute =>
              rw [call_operand operand]
              exact .operand operand (induction _)
          | requireOrder =>
              rw [call_stop operand]
              exact ⟨word :: argv, rfl, .stop operand rfl argv⟩
        · rw [call_terminator]
          exact ⟨argv, rfl, .terminator argv⟩
        · rw [call_long nonempty]
          exact explained_longOption nonempty
        · rw [call_cluster short, call_short]
          exact .cluster short (explained_shortOption char rest)
  · exact explained_shortOption char rest

theorem spells_of_loop {fuel : Nat} {scanner : Scanner} {occurrences : List Occurrence}
    {words : List Word}
    (read : loop table ordering fuel scanner = (occurrences, .operands words)) :
    ∃ operands, words = scanner.nonOptions ++ operands ∧
      Spells table ordering scanner.nextchar scanner.argv occurrences operands := by
  induction fuel generalizing scanner occurrences with
  | zero => simp [loop] at read
  | succ fuel induction =>
      have explained : Explained table ordering scanner (call table ordering scanner) :=
        explained_call scanner
      unfold loop at read
      split at read
      · next occurrence next called =>
          rw [called] at explained
          obtain ⟨_, passed, nonOptionsEq, spells⟩ := explained
          obtain ⟨rfl, ending⟩ := Prod.mk.inj read
          obtain ⟨operands, wordsEq, rest⟩ := induction (Prod.ext rfl ending)
          exact ⟨passed ++ operands, by simp [wordsEq, nonOptionsEq],
            spells _ operands rest⟩
      · cases (Prod.mk.inj read).2
      · next next called =>
          rw [called] at explained
          obtain ⟨operands, nonOptionsEq, spells⟩ := explained
          obtain ⟨rfl, ending⟩ := Prod.mk.inj read
          exact ⟨operands, by simpa [nonOptionsEq] using ending.symm, spells⟩

end Explained

/-! ## What is spelled is read -/

theorem call_of_yields {table : Table} (ordering : OperandOrdering) {nextchar left : Word}
    {argv rest : List Word} {occurrence : Occurrence}
    (yields : Yields table nextchar argv occurrence left rest) (nonOptions : List Word) :
    call table ordering ⟨nextchar, argv, nonOptions⟩ =
      (.option occurrence, ⟨left, rest, nonOptions⟩) := by
  induction yields with
  | cluster short yields induction => rw [call_cluster short, induction]
  | flag known rest argv => simp [shortOption, known]
  | attached known nonempty argv => simp [shortOption, known, nonempty, takeArgument]
  | separate known value argv => simp [shortOption, known, takeArgument]
  | longFlag nonempty noValue selected flag argv =>
      rw [call_long nonempty, longOption, takeWhile_name noValue]
      simp [selected, flag, attachedValue_name noValue]
  | longAttached noValue selected takes value argv =>
      rw [call_long (by simp), longOption, takeWhile_name_append noValue]
      simp [selected, takes, attachedValue_append noValue, takeArgument]
  | longSeparate nonempty noValue selected takes value argv =>
      rw [call_long nonempty, longOption, takeWhile_name noValue]
      simp [selected, takes, attachedValue_name noValue, takeArgument]

section Loop

variable {table : Table} {ordering : OperandOrdering}

theorem call_size_lt {scanner next : Scanner} {occurrence : Occurrence}
    (called : call table ordering scanner = (.option occurrence, next)) :
    next.size < scanner.size := by
  have explained : Explained table ordering scanner (call table ordering scanner) :=
    explained_call scanner
  rw [called] at explained
  exact explained.1

/-- Fuel beyond the size of the scanner does not matter. -/
theorem loop_of_enough {scanner : Scanner} {fuel other : Nat}
    (enough : scanner.size < fuel) (otherEnough : scanner.size < other) :
    loop table ordering fuel scanner = loop table ordering other scanner := by
  induction fuel generalizing scanner other with
  | zero => omega
  | succ fuel induction =>
      cases other with
      | zero => omega
      | succ other =>
          unfold loop
          split
          · next occurrence next called =>
              have shorter := call_size_lt called
              have same : loop table ordering fuel next = loop table ordering other next :=
                induction (by omega) (by omega)
              simp only [same]
          · rfl
          · rfl

theorem scanFrom_finished {scanner next : Scanner}
    (called : call table ordering scanner = (.finished, next)) :
    scanFrom table ordering scanner = ([], .operands next.nonOptions) := by
  simp [scanFrom, loop, called]

theorem scanFrom_unknown {scanner next : Scanner}
    (called : call table ordering scanner = (.unknown, next)) :
    scanFrom table ordering scanner = ([], .unknown) := by
  simp [scanFrom, loop, called]

theorem scanFrom_option {scanner next : Scanner} {occurrence : Occurrence}
    (called : call table ordering scanner = (.option occurrence, next)) :
    scanFrom table ordering scanner =
      (occurrence :: (scanFrom table ordering next).1, (scanFrom table ordering next).2) := by
  have rest : loop table ordering scanner.size next = scanFrom table ordering next :=
    loop_of_enough (call_size_lt called) (Nat.lt_succ_self _)
  simp [scanFrom, loop, called, rest]

/-- Scanners whose calls do the same are read alike. -/
theorem scanFrom_congr {scanner other : Scanner}
    (same : call table ordering scanner = call table ordering other) :
    scanFrom table ordering scanner = scanFrom table ordering other := by
  cases called : call table ordering other with
  | mk result next =>
      cases result with
      | option occurrence =>
          rw [scanFrom_option called, scanFrom_option (same.trans called)]
      | unknown => rw [scanFrom_unknown called, scanFrom_unknown (same.trans called)]
      | finished => rw [scanFrom_finished called, scanFrom_finished (same.trans called)]

theorem scanFrom_of_spells {nextchar : Word} {argv : List Word}
    {occurrences : List Occurrence} {operands : List Word}
    (spells : Spells table ordering nextchar argv occurrences operands)
    (nonOptions : List Word) :
    scanFrom table ordering ⟨nextchar, argv, nonOptions⟩ =
      (occurrences, .operands (nonOptions ++ operands)) := by
  induction spells generalizing nonOptions with
  | finish => simpa using scanFrom_finished call_nil
  | terminator argv => exact scanFrom_finished call_terminator
  | stop operand posix argv =>
      subst posix
      exact scanFrom_finished (call_stop operand)
  | operand operand permutes spells induction =>
      subst permutes
      rw [scanFrom_congr (call_operand operand), induction]
      simp
  | option yields spells induction =>
      rw [scanFrom_option (call_of_yields ordering yields nonOptions), induction]

/-- The loop reads options and operands exactly as the words spell them. -/
theorem scan_eq_operands_iff (argv : List Word) (occurrences : List Occurrence)
    (operands : List Word) :
    scan table ordering argv = (occurrences, .operands operands) ↔
      Spells table ordering [] argv occurrences operands := by
  constructor
  · intro read
    obtain ⟨words, rfl, spells⟩ := spells_of_loop read
    exact spells
  · intro spells
    exact scanFrom_of_spells spells []

/-- Words have at most one reading. -/
theorem Spells.unique {argv : List Word} {first second : List Occurrence}
    {firstOperands secondOperands : List Word}
    (spells : Spells table ordering [] argv first firstOperands)
    (again : Spells table ordering [] argv second secondOperands) :
    first = second ∧ firstOperands = secondOperands := by
  rw [← scan_eq_operands_iff] at spells again
  simpa using spells.symm.trans again

/-! ## Words after options -/

theorem Yields.append {nextchar left : Word} {argv rest : List Word}
    {occurrence : Occurrence} (yields : Yields table nextchar argv occurrence left rest)
    (more : List Word) :
    Yields table nextchar (argv ++ more) occurrence left (rest ++ more) := by
  induction yields with
  | cluster short yields induction => exact .cluster short induction
  | flag known rest argv => exact .flag known rest _
  | attached known nonempty argv => exact .attached known nonempty _
  | separate known value argv => exact .separate known value _
  | longFlag nonempty noValue selected flag argv =>
      exact .longFlag nonempty noValue selected flag _
  | longAttached noValue selected takes value argv =>
      exact .longAttached noValue selected takes value _
  | longSeparate nonempty noValue selected takes value argv =>
      exact .longSeparate nonempty noValue selected takes value _

theorem SpellsOptions.spells {nextchar : Word} {argv : List Word}
    {occurrences : List Occurrence} (spells : SpellsOptions table nextchar argv occurrences) :
    Spells table ordering nextchar argv occurrences [] := by
  induction spells with
  | nil => exact .finish
  | cons yields spells induction => exact .option yields induction

theorem SpellsOptions.append {nextchar : Word} {argv more : List Word}
    {first second : List Occurrence} (spells : SpellsOptions table nextchar argv first)
    (others : SpellsOptions table [] more second) :
    SpellsOptions table nextchar (argv ++ more) (first ++ second) := by
  induction spells with
  | nil => exact others
  | cons yields spells induction => exact .cons (yields.append more) induction

/-- Options are read whatever follows them. -/
theorem scanFrom_append {nextchar : Word} {argv : List Word}
    {occurrences : List Occurrence} (spells : SpellsOptions table nextchar argv occurrences)
    (more nonOptions : List Word) :
    scanFrom table ordering ⟨nextchar, argv ++ more, nonOptions⟩ =
      (occurrences ++ (scanFrom table ordering ⟨[], more, nonOptions⟩).1,
        (scanFrom table ordering ⟨[], more, nonOptions⟩).2) := by
  induction spells with
  | nil => rfl
  | cons yields spells induction =>
      rw [scanFrom_option (call_of_yields ordering (yields.append more) nonOptions), induction]
      rfl

theorem scan_append {argv : List Word} {occurrences : List Occurrence}
    (spells : SpellsOptions table [] argv occurrences) (more : List Word) :
    scan table ordering (argv ++ more) =
      (occurrences ++ (scan table ordering more).1, (scan table ordering more).2) :=
  scanFrom_append spells more []

end Loop

/-! ## Abbreviated names -/

/-- The length of the longest word that both begin with. -/
def sharedLength : Word → Word → Nat
  | char :: first, other :: second =>
      if char = other then sharedLength first second + 1 else 0
  | _, _ => 0

theorem isPrefix_iff_length_le {name first : Word} (begins : name <+: first)
    (second : Word) : name <+: second ↔ name.length ≤ sharedLength first second := by
  induction name generalizing first second with
  | nil => simp
  | cons char name induction =>
      obtain ⟨rest, rfl⟩ := begins
      cases second with
      | nil => simp [sharedLength]
      | cons other second =>
          by_cases same : char = other
          · subst same
            have begins : name <+: name ++ rest := List.prefix_append name rest
            simp [sharedLength, List.cons_prefix_cons, induction begins second]
          · simp [sharedLength, List.cons_prefix_cons, same]

/-- No option's name abbreviates the name of another. -/
structure Unambiguous (long : List LongOption) : Prop where
  nodup : long.Nodup
  distinct : ∀ option ∈ long, ∀ other ∈ long, option.name <+: other.name → option = other

instance (long : List LongOption) : Decidable (Unambiguous long) :=
  decidable_of_iff
    (long.Nodup ∧ ∀ option ∈ long, ∀ other ∈ long, option.name <+: other.name → option = other)
    ⟨fun ⟨nodup, distinct⟩ => ⟨nodup, distinct⟩, fun ⟨nodup, distinct⟩ => ⟨nodup, distinct⟩⟩

theorem eq_singleton_of_nodup {Item : Type} {items : List Item} {item : Item}
    (nodup : items.Nodup) (member : item ∈ items) (only : ∀ other ∈ items, other = item) :
    items = [item] := by
  obtain ⟨count, rfl⟩ : ∃ count, items = List.replicate count item :=
    ⟨_, List.eq_replicate_iff.mpr ⟨rfl, only⟩⟩
  rw [List.nodup_replicate] at nodup
  rw [List.mem_replicate] at member
  obtain rfl : count = 1 := by omega
  rfl

section Unambiguous

variable {long : List LongOption} (unambiguous : Unambiguous long)
include unambiguous

/-- A name selects the only option it abbreviates. -/
theorem select_eq_some_iff (name : Word) (option : LongOption) :
    select long name = some option ↔
      option ∈ long ∧ name <+: option.name ∧
        ∀ other ∈ long, name <+: other.name → other = option := by
  constructor
  · intro selected
    unfold select at selected
    split at selected
    · next found exactly =>
        obtain rfl := Option.some.inj selected
        have member := List.mem_of_find?_eq_some exactly
        have nameEq : found.name = name := by simpa using List.find?_some exactly
        subst nameEq
        exact ⟨member, List.prefix_rfl, fun other otherMember begins =>
          (unambiguous.distinct found member other otherMember begins).symm⟩
    · split at selected
      · next found only =>
          obtain rfl := Option.some.inj selected
          have abbreviated : ∀ other, other ∈ long ∧ name <+: other.name ↔ other = found := by
            intro other
            rw [← List.mem_singleton, ← only, List.mem_filter, List.isPrefixOf_iff_prefix]
          obtain ⟨member, begins⟩ := (abbreviated found).mpr rfl
          exact ⟨member, begins, fun other otherMember begins =>
            (abbreviated other).mp ⟨otherMember, begins⟩⟩
      · cases selected
  · rintro ⟨member, begins, only⟩
    unfold select
    split
    · next found exactly =>
        have nameEq : found.name = name := by simpa using List.find?_some exactly
        rw [only found (List.mem_of_find?_eq_some exactly) (nameEq ▸ List.prefix_rfl)]
    · have filtered : (long.filter fun option => name.isPrefixOf option.name) = [option] := by
        apply eq_singleton_of_nodup (unambiguous.nodup.filter _)
        · rw [List.mem_filter, List.isPrefixOf_iff_prefix]
          exact ⟨member, begins⟩
        · intro other otherMember
          rw [List.mem_filter, List.isPrefixOf_iff_prefix] at otherMember
          exact only other otherMember.1 otherMember.2
      rw [filtered]

/-- A name selects an option when it is longer than what the option shares with
any other. -/
theorem select_eq_some_iff_length (name : Word) (option : LongOption) :
    select long name = some option ↔
      option ∈ long ∧ name <+: option.name ∧
        ∀ other ∈ long, other ≠ option →
          sharedLength option.name other.name < name.length := by
  rw [select_eq_some_iff unambiguous]
  refine and_congr_right fun _ => and_congr_right fun begins => ?_
  refine forall₂_congr fun other _ => ?_
  rw [isPrefix_iff_length_le begins]
  constructor
  · intro only different
    by_contra short
    exact different (only (Nat.le_of_not_lt short))
  · intro longer short
    by_contra different
    exact Nat.not_le_of_lt (longer different) short

end Unambiguous

end GetoptLong
