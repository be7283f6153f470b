import TmuxMemCpuLoad.LinuxCpu
import TmuxMemCpuLoad.SeparatedFields

/-!
# The grammar of the CPU line

On a line whose only white space is blanks, the loop of `cpu_percentage` over
positions reads the fields after the label one by one.  It accepts the line
exactly when there are four of them that start with an integer.
-/

namespace TmuxMemCpuLoad

open StandardCxx SeparatedFields

/-! ## Integers at the start of a field -/

/-- The field starts with an optionally signed decimal integer, which is `value`
and in the range of `long long`. -/
def StartsWithInteger (field : List Char) (value : Int) : Prop :=
  (∃ sign digits rest, field = sign ++ (digits ++ rest) ∧ digits ≠ [] ∧
    (∀ char ∈ digits, char.isDigit = true) ∧ NoDigitHead rest ∧
    ((sign = [] ∨ sign = ['+']) ∧ value = digitsValue digits ∨
      sign = ['-'] ∧ value = -(digitsValue digits : Int))) ∧
  -2 ^ 63 ≤ value ∧ value < 2 ^ 63

theorem splitSign_of_digits {digits rest : List Char} (nonempty : digits ≠ [])
    (all : ∀ char ∈ digits, char.isDigit = true) :
    splitSign (digits ++ rest) = (false, digits ++ rest) := by
  obtain ⟨first, digits, rfl⟩ := List.exists_cons_of_ne_nil nonempty
  have digit : first.isDigit = true := all first (by simp)
  rw [List.cons_append]
  unfold splitSign
  split
  · rename_i equal
    injection equal with same
    rw [same] at digit
    exact absurd digit (by decide)
  · rename_i equal
    injection equal with same
    rw [same] at digit
    exact absurd digit (by decide)
  · rfl

theorem takeWhile_isDigit_of_digits {digits rest : List Char}
    (all : ∀ char ∈ digits, char.isDigit = true) (stops : NoDigitHead rest) :
    (digits ++ rest).takeWhile Char.isDigit = digits := by
  rw [takeWhile_isDigit_append digits stops]
  exact List.takeWhile_eq_self_iff.mpr all

/-- The sign that is split off, and whether it is a minus. -/
theorem splitSign_spec (field : List Char) :
    ∃ sign, field = sign ++ (splitSign field).2 ∧
      ((sign = [] ∨ sign = ['+']) ∧ (splitSign field).1 = false ∨
        sign = ['-'] ∧ (splitSign field).1 = true) := by
  unfold splitSign
  split
  · exact ⟨['-'], rfl, Or.inr ⟨rfl, rfl⟩⟩
  · exact ⟨['+'], rfl, Or.inl ⟨Or.inr rfl, rfl⟩⟩
  · exact ⟨[], rfl, Or.inl ⟨Or.inl rfl, rfl⟩⟩

theorem noDigitHead_dropWhile (text : List Char) :
    NoDigitHead (text.dropWhile Char.isDigit) := by
  intro char member
  have nonempty : text.dropWhile Char.isDigit ≠ [] := by
    intro nothing
    rw [nothing] at member
    cases member
  have stopped := List.head_dropWhile_not Char.isDigit nonempty
  rw [List.head?_eq_some_head nonempty] at member
  cases member
  exact stopped

section Field

variable {field : List Char} (noSpace : ∀ char ∈ field, isSpace char = false)
  {value : Int}
include noSpace

theorem dropWhile_isSpace_of_noSpace : field.dropWhile isSpace = field := by
  cases field with
  | nil => rfl
  | cons first rest => simp [noSpace first (by simp)]

theorem startsWithInteger_of_stoll (converted : stoll field = .ok value) :
    StartsWithInteger field value := by
  obtain ⟨sign, split, signed⟩ := splitSign_spec field
  simp only [stoll, scanInteger, dropWhile_isSpace_of_noSpace noSpace] at converted
  by_cases empty : (splitSign field).2.takeWhile Char.isDigit = []
  · simp [empty] at converted
  · have shape := List.takeWhile_append_dropWhile (p := Char.isDigit)
      (l := (splitSign field).2)
    have stops := noDigitHead_dropWhile (splitSign field).2
    rw [← shape] at split
    rcases signed with ⟨plus, positive⟩ | ⟨minus, negative⟩
    · simp only [empty, positive, if_false, Bool.false_eq_true] at converted
      split_ifs at converted with range
      cases converted
      exact ⟨⟨sign, _, _, split, empty, fun char => List.mem_takeWhile_imp, stops,
        Or.inl ⟨plus, rfl⟩⟩, range⟩
    · simp only [empty, negative, if_false, if_true] at converted
      split_ifs at converted with range
      cases converted
      exact ⟨⟨sign, _, _, split, empty, fun char => List.mem_takeWhile_imp, stops,
        Or.inr ⟨minus, rfl⟩⟩, range⟩

theorem stoll_of_startsWithInteger (starts : StartsWithInteger field value) :
    stoll field = .ok value := by
  simp only [stoll, scanInteger, dropWhile_isSpace_of_noSpace noSpace]
  obtain ⟨⟨sign, digits, rest, rfl, nonempty, all, stops, signed⟩, range⟩ := starts
  have scanned := takeWhile_isDigit_of_digits all stops
  rcases signed with ⟨rfl | rfl, rfl⟩ | ⟨rfl, rfl⟩
  · rw [List.nil_append, splitSign_of_digits nonempty all]
    simp only [scanned, nonempty, if_false, Bool.false_eq_true, range, and_self, if_true]
  · have split : splitSign (['+'] ++ (digits ++ rest)) = (false, digits ++ rest) := rfl
    rw [split]
    simp only [scanned, nonempty, if_false, Bool.false_eq_true, range, and_self, if_true]
  · have split : splitSign (['-'] ++ (digits ++ rest)) = (true, digits ++ rest) := rfl
    rw [split]
    simp only [scanned, nonempty, if_false, if_true, range, and_self]

/-- `stoll` accepts a field exactly when it starts with an integer. -/
theorem stoll_eq_ok_iff : stoll field = .ok value ↔ StartsWithInteger field value := by
  constructor
  · exact startsWithInteger_of_stoll noSpace
  · exact stoll_of_startsWithInteger noSpace

end Field

/-! ## The loop reads the fields -/

namespace Linux

/-- The fields between blanks. -/
def blankFields (text : List Char) : List (List Char) :=
  fields (fun char => char == ' ') text

/-- No white space but blanks. -/
def OnlyBlanks (line : CxxString) : Prop :=
  ∀ char ∈ line.chars, isSpace char = true → char = ' '

/-- The text from the first blank at position 3 or later on. -/
def afterLabel (line : CxxString) : List Char :=
  (line.chars.drop 3).dropWhile fun char => !(char == ' ')

/-- The loop as a loop over fields: each cell takes the number of one field. -/
def readFields (store : BitVec 64 → Int → BitVec 64) :
    List (BitVec 64) → List (List Char) → Outcome (List (BitVec 64))
  | [], _ => .ok []
  | _ :: _, [] => .error .outOfRange
  | stat :: stats, field :: fields => do
      let value ← stoll field
      let stats ← readFields store stats fields
      .ok (store stat value :: stats)

theorem not_isSpace_of_mem {line : CxxString} (onlyBlanks : OnlyBlanks line) {char : Char}
    (member : char ∈ line.chars) (notBlank : (char == ' ') = false) :
    isSpace char = false := by
  rw [← Bool.not_eq_true]
  intro space
  rw [onlyBlanks char member space] at notBlank
  cases notBlank

/-- The loop over positions reads the fields of the text that remains. -/
theorem parseFields_eq_readFields {line : CxxString} (onlyBlanks : OnlyBlanks line)
    (store : BitVec 64 → Int → BitVec 64) (stats : List (BitVec 64)) (position : Nat) :
    parseFields line store stats position =
      readFields store stats (blankFields (line.chars.drop position)) := by
  induction stats generalizing position with
  | nil => rfl
  | cons stat stats ih =>
      rcases separators_or_field (fun char => char == ' ') (line.chars.drop position) with
        blanks | ⟨leading, field, rest, split, blanks, nonempty, apart, ends⟩
      · have padding : line.chars.drop position =
            List.replicate (line.chars.drop position).length ' ' :=
          List.eq_replicate_of_mem fun char member => by simpa using blanks char member
        rw [parseFields, nextField_of_blank padding, blankFields,
          fields_of_separators blanks]
        rfl
      · have padding : leading = List.replicate leading.length ' ' :=
          List.eq_replicate_of_mem fun char member => by simpa using blanks char member
        have suffix := split
        rw [padding] at suffix
        have noSpace : ∀ char ∈ field, isSpace char = false := by
          intro char member
          apply not_isSpace_of_mem onlyBlanks _ (apart char member)
          apply List.mem_of_mem_drop (i := position)
          rw [split]
          simp [member]
        have endsBlank : rest = [] ∨ ∃ more, rest = ' ' :: more := by
          cases rest with
          | nil => exact Or.inl rfl
          | cons blank more =>
              have isBlank : (blank == ' ') = true := ends blank rfl
              exact Or.inr ⟨more, by rw [show blank = ' ' by simpa using isBlank]⟩
        obtain ⟨next, tail, read⟩ := nextField_eq suffix nonempty noSpace endsBlank
        have split' : blankFields (line.chars.drop position) = field :: blankFields rest := by
          rw [split, blankFields, fields_append_of_separators blanks,
            fields_append_field nonempty apart ends]
          rfl
        rw [parseFields, read, split', readFields]
        cases stoll field with
        | error fault => rfl
        | ok value =>
            simp only [Except.map, Outcome.ok_bind, ih, tail]

theorem parseCpuLine_eq_readFields {line : CxxString} (onlyBlanks : OnlyBlanks line)
    (store : BitVec 64 → Int → BitVec 64) (stats : List (BitVec 64)) :
    parseCpuLine line store stats =
      readFields store stats (blankFields (afterLabel line)) := by
  have label : line.chars.drop (line.findFirstOf [' '] 3) = afterLabel line := by
    have found := drop_findFrom (fun char => [' '].contains char)
      line.length_lt_npos.le 3
    have same : (fun char => !([' '].contains char)) = fun char => !(char == ' ') := by
      funext char
      by_cases blank : char = ' ' <;> simp [blank]
    rw [same] at found
    exact found
  rw [parseCpuLine, parseFields_eq_readFields onlyBlanks, label]

/-! ## The lines that are accepted -/

/-- There are four fields after the label, and the first four start with the
integers. -/
structure Accepts (line : CxxString) (values : List Int) : Prop where
  four : values.length = 4
  starts : List.Forall₂ StartsWithInteger ((blankFields (afterLabel line)).take 4) values

theorem readFields_take (store : BitVec 64 → Int → BitVec 64) (stats : List (BitVec 64))
    (fields : List (List Char)) :
    readFields store stats (fields.take stats.length) = readFields store stats fields := by
  induction stats generalizing fields with
  | nil => cases fields <;> rfl
  | cons stat stats ih =>
      cases fields with
      | nil => rfl
      | cons field fields =>
          simp only [List.length_cons, List.take_succ_cons, readFields, ih]

theorem readFields_of_values {store : BitVec 64 → Int → BitVec 64}
    {stats : List (BitVec 64)} {fields : List (List Char)} {values : List Int}
    (cells : stats.length = values.length)
    (numbers : List.Forall₂ (fun field value => stoll field = .ok value) fields values) :
    readFields store stats fields = .ok (List.zipWith store stats values) := by
  induction numbers generalizing stats with
  | nil =>
      rw [List.length_eq_zero_iff.mp cells]
      rfl
  | @cons field value fields values number _ ih =>
      obtain ⟨stat, rest, rfl⟩ := List.exists_cons_of_length_eq_add_one cells
      have restCells : rest.length = values.length := by simpa using cells
      rw [readFields, number, Outcome.ok_bind, ih restCells]
      rfl

theorem values_of_readFields {store : BitVec 64 → Int → BitVec 64}
    {stats read : List (BitVec 64)} {fields : List (List Char)}
    (returned : readFields store stats fields = .ok read) :
    ∃ values : List Int, values.length = stats.length ∧
      List.Forall₂ (fun field value => stoll field = .ok value)
        (fields.take stats.length) values := by
  induction stats generalizing fields read with
  | nil => exact ⟨[], rfl, by simp⟩
  | cons stat stats ih =>
      cases fields with
      | nil => cases returned
      | cons field fields =>
          obtain ⟨value, number, returned⟩ := Outcome.bind_eq_ok returned
          obtain ⟨rest, readRest, _⟩ := Outcome.bind_eq_ok returned
          obtain ⟨values, length, numbers⟩ := ih readRest
          exact ⟨value :: values, by simp [length], by simpa using ⟨number, numbers⟩⟩

/-- The first loop overwrites the cells. -/
theorem zipWith_keepStat {stats : List (BitVec 64)} {values : List Int}
    (cells : stats.length = values.length) :
    List.zipWith keepStat stats values = values.map (BitVec.ofInt 64) := by
  induction stats generalizing values with
  | nil =>
      rw [List.length_eq_zero_iff.mp cells.symm]
      rfl
  | cons stat stats ih =>
      obtain ⟨value, values, rfl⟩ := List.exists_cons_of_length_eq_add_one cells.symm
      rw [List.zipWith_cons_cons, List.map_cons, ih (by simpa using cells)]
      rfl

/-- Every failure of the loop is an exception. -/
theorem parseFields_ne_undefined (line : CxxString) (store : BitVec 64 → Int → BitVec 64)
    (stats : List (BitVec 64)) (position : Nat) :
    parseFields line store stats position ≠ .error .undefined := by
  have field : ∀ position, nextField line position ≠ .error .undefined := by
    intro position
    simp only [nextField, CxxString.substr]
    split_ifs
    · simp only [Outcome.ok_bind]
      have number := stoll_ne_undefined
        ((line.chars.drop (line.findFirstNotOf [' '] position)).take
          (line.findFirstOf [' '] (line.findFirstNotOf [' '] position)))
      revert number
      cases stoll _ <;> simp
    · simp
  induction stats generalizing position with
  | nil => simp [parseFields]
  | cons stat stats ih =>
      have first := field position
      rw [parseFields]
      cases read : nextField line position with
      | error fault =>
          rw [read] at first
          simpa using first
      | ok found =>
          have rest := ih found.2
          simp only [Outcome.ok_bind]
          revert rest
          cases parseFields line store stats found.2 <;> simp

section Grammar

variable {line other : CxxString} (onlyBlanks : OnlyBlanks line)
  {stats : List (BitVec 64)} (cells : stats.length = 4)
  (store : BitVec 64 → Int → BitVec 64)
include onlyBlanks

theorem forall₂_stoll_iff {values : List Int} :
    List.Forall₂ (fun field value => stoll field = .ok value)
        ((blankFields (afterLabel line)).take 4) values ↔
      List.Forall₂ StartsWithInteger ((blankFields (afterLabel line)).take 4) values := by
  have noSpace : ∀ field ∈ (blankFields (afterLabel line)).take 4,
      ∀ char ∈ field, isSpace char = false := by
    intro field member char inField
    obtain ⟨_, items⟩ := mem_fields (List.mem_of_mem_take member)
    obtain ⟨inText, notBlank⟩ := items char inField
    have inLine : char ∈ line.chars :=
      List.mem_of_mem_drop ((List.dropWhile_sublist _).subset inText)
    exact not_isSpace_of_mem onlyBlanks inLine notBlank
  generalize (blankFields (afterLabel line)).take 4 = fields at noSpace
  induction fields generalizing values with
  | nil => cases values <;> simp
  | cons field fields ih =>
      have fieldIff : ∀ value, stoll field = .ok value ↔ StartsWithInteger field value :=
        fun _ => stoll_eq_ok_iff (noSpace field (by simp))
      have restIff : ∀ values,
          List.Forall₂ (fun field value => stoll field = .ok value) fields values ↔
            List.Forall₂ StartsWithInteger fields values :=
        fun _ => ih fun other member => noSpace other (by simp [member])
      cases values with
      | nil => simp
      | cons value values => simp only [List.forall₂_cons, fieldIff, restIff]

include cells

theorem parseCpuLine_of_accepts {values : List Int} (accepts : Accepts line values) :
    parseCpuLine line store stats = .ok (List.zipWith store stats values) := by
  rw [parseCpuLine_eq_readFields onlyBlanks, ← readFields_take, cells]
  exact readFields_of_values (cells.trans accepts.four.symm)
    ((forall₂_stoll_iff onlyBlanks).mpr accepts.starts)

theorem accepts_of_parseCpuLine {read : List (BitVec 64)}
    (parsed : parseCpuLine line store stats = .ok read) :
    ∃ values, Accepts line values := by
  rw [parseCpuLine_eq_readFields onlyBlanks] at parsed
  obtain ⟨values, length, numbers⟩ := values_of_readFields parsed
  rw [cells] at length numbers
  exact ⟨values, length, (forall₂_stoll_iff onlyBlanks).mp numbers⟩

theorem parseCpuLine_of_not_accepts (rejected : ¬ ∃ values, Accepts line values) :
    ∃ fault, fault ≠ .undefined ∧ parseCpuLine line store stats = .error fault := by
  cases parsed : parseCpuLine line store stats with
  | error fault =>
      refine ⟨fault, ?_, rfl⟩
      rintro rfl
      exact parseFields_ne_undefined line store stats _ parsed
  | ok read =>
      exact absurd (accepts_of_parseCpuLine onlyBlanks cells store parsed) rejected

theorem parseCpuLine_congr (otherOnlyBlanks : OnlyBlanks other)
    (sameFields : (blankFields (afterLabel other)).take 4 =
      (blankFields (afterLabel line)).take 4) :
    parseCpuLine other store stats = parseCpuLine line store stats := by
  rw [parseCpuLine_eq_readFields onlyBlanks, parseCpuLine_eq_readFields otherOnlyBlanks,
    ← readFields_take store stats (blankFields (afterLabel other)), cells, sameFields,
    ← cells, readFields_take]

end Grammar

/-- What the loops and `cpu_percentage` make of a line. -/
structure FollowsGrammar (line : CxxString) (stats : List (BitVec 64)) : Prop where
  accepts_iff : ∀ store, (∃ read, parseCpuLine line store stats = .ok read) ↔
    ∃ values, Accepts line values
  stores : ∀ values, Accepts line values →
    parseCpuLine line keepStat stats = .ok (values.map (BitVec.ofInt 64)) ∧
    parseCpuLine line subtractStat stats =
      .ok (List.zipWith (fun stat value => BitVec.ofInt 64 value - stat) stats values)
  throws : (¬ ∃ values, Accepts line values) → ∀ store,
    ∃ fault, fault ≠ .undefined ∧ parseCpuLine line store stats = .error fault
  no_percentage : (¬ ∃ values, Accepts line values) → ∀ file rest,
    (∃ fault, fault ≠ .undefined ∧
      cpuPercentage (some (line :: rest)) file stats = .error fault) ∧
    ∃ fault, fault ≠ .undefined ∧
      cpuPercentage file (some (line :: rest)) stats = .error fault
  ignores_rest : ∀ other, OnlyBlanks other →
    (blankFields (afterLabel other)).take 4 = (blankFields (afterLabel line)).take 4 →
    (∀ store, parseCpuLine other store stats = parseCpuLine line store stats) ∧
    ∀ second, percentageOfLines other second stats = percentageOfLines line second stats ∧
      percentageOfLines second other stats = percentageOfLines second line stats

theorem percentageOfLines_error_second {first second : CxxString}
    {stats : List (BitVec 64)}
    (rejected : ∀ read : List (BitVec 64), read.length = stats.length →
      ∃ fault, fault ≠ .undefined ∧ parseCpuLine second subtractStat read = .error fault) :
    ∃ fault, fault ≠ .undefined ∧ percentageOfLines first second stats = .error fault := by
  cases parsed : parseCpuLine first keepStat stats with
  | error fault =>
      refine ⟨fault, ?_, by simp only [percentageOfLines, parsed, Outcome.error_bind]⟩
      rintro rfl
      exact parseFields_ne_undefined first keepStat stats _ parsed
  | ok read =>
      obtain ⟨fault, threw, failed⟩ := rejected read (parseFields_length parsed)
      refine ⟨fault, threw, ?_⟩
      simp only [percentageOfLines, parsed, Outcome.ok_bind, failed, Outcome.error_bind]

/-- On every line without white space but blanks the loops accept exactly the
grammar of the CPU line. -/
theorem parseCpuLine_followsGrammar {line : CxxString} (onlyBlanks : OnlyBlanks line)
    {stats : List (BitVec 64)} (cells : stats.length = 4) : FollowsGrammar line stats where
  accepts_iff store := by
    constructor
    · rintro ⟨read, parsed⟩
      exact accepts_of_parseCpuLine onlyBlanks cells store parsed
    · rintro ⟨values, accepts⟩
      exact ⟨_, parseCpuLine_of_accepts onlyBlanks cells store accepts⟩
  stores values accepts := by
    have overwritten := zipWith_keepStat (cells.trans accepts.four.symm)
    rw [parseCpuLine_of_accepts onlyBlanks cells keepStat accepts,
      parseCpuLine_of_accepts onlyBlanks cells subtractStat accepts, overwritten]
    exact ⟨rfl, rfl⟩
  throws rejected store := parseCpuLine_of_not_accepts onlyBlanks cells store rejected
  no_percentage rejected file rest := by
    constructor
    · obtain ⟨fault, threw, failed⟩ :=
        parseCpuLine_of_not_accepts onlyBlanks cells keepStat rejected
      refine ⟨fault, threw, ?_⟩
      simp only [cpuPercentage, firstLine, percentageOfLines, failed, Outcome.error_bind]
    · exact percentageOfLines_error_second fun read length =>
        parseCpuLine_of_not_accepts onlyBlanks (length.trans cells) subtractStat rejected
  ignores_rest other otherOnlyBlanks sameFields := by
    have same : ∀ {read : List (BitVec 64)} store, read.length = 4 →
        parseCpuLine other store read = parseCpuLine line store read :=
      fun store length => parseCpuLine_congr onlyBlanks length store otherOnlyBlanks
        sameFields
    refine ⟨fun store => same store cells, fun second => ⟨?_, ?_⟩⟩
    · simp only [percentageOfLines, same keepStat cells]
    · unfold percentageOfLines
      cases parsed : parseCpuLine second keepStat stats with
      | error fault => rfl
      | ok read =>
          have length := (parseFields_length parsed).trans cells
          simp only [Outcome.ok_bind, same subtractStat length]

theorem parseCpuLine_followsGrammar_sample :
    FollowsGrammar sampleFirst [0, 0, 0, 0] := by
  have onlyBlanks : ∀ char ∈ sampleFirst.chars, isSpace char = true → char = ' ' :=
    StyledText.forall_mem_of_all (by decide +kernel)
  exact parseCpuLine_followsGrammar onlyBlanks rfl

end Linux

end TmuxMemCpuLoad
