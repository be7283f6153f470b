import TmuxMemCpuLoad.CpuCounters
import TmuxMemCpuLoad.LookupTables
import TmuxMemCpuLoad.StandardString

/-!
# CPU percentage on Linux

`cpu_percentage` reads the first line of `/proc/stat` twice.  Each time a loop
walks over the first four fields with two positions; the second loop subtracts
the counters of the first in place.  The position loop is related to the text
that remains to be read, where a field is a word between blanks.
-/

namespace TmuxMemCpuLoad

open StandardCxx

namespace Linux

def cpuLayout : CpuLayout where
  user := 0
  nice := 1
  system := 2
  idle := 3

/-- The line after `getline`: the first line of the file, and no change when
the file could not be opened. -/
def firstLine (file : Option (List CxxString)) (line : CxxString) : CxxString :=
  match file with
  | none => line
  | some [] => .empty
  | some (first :: _) => first

/-- One pass over a field: its number and the new `substr_len`.  The length
given to `substr` is the position of the field's end. -/
def nextField (line : CxxString) (substrLen : Nat) : Outcome (Int × Nat) := do
  let substrStart := line.findFirstNotOf [' '] substrLen
  let substrLen := line.findFirstOf [' '] substrStart
  let field ← line.substr substrStart substrLen
  let value ← stoll field.chars
  .ok (value, substrLen)

/-- The loop over the fields, with what it stores in a cell given the cell and
the number read. -/
def parseFields (line : CxxString) (store : BitVec 64 → Int → BitVec 64) :
    List (BitVec 64) → Nat → Outcome (List (BitVec 64))
  | [], _ => .ok []
  | stat :: stats, substrLen => do
      let (value, substrLen) ← nextField line substrLen
      let stats ← parseFields line store stats substrLen
      .ok (store stat value :: stats)

def parseCpuLine (line : CxxString) (store : BitVec 64 → Int → BitVec 64)
    (stats : List (BitVec 64)) : Outcome (List (BitVec 64)) :=
  parseFields line store stats (line.findFirstOf [' '] 3)

/-- `stats[i] = value`. -/
def keepStat (_ : BitVec 64) (value : Int) : BitVec 64 :=
  BitVec.ofInt 64 value

/-- `stats[i] = value - stats[i]`. -/
def subtractStat (stat : BitVec 64) (value : Int) : BitVec 64 :=
  BitVec.ofInt 64 value - stat

def cell (stats : List (BitVec 64)) (index : Nat) : BitVec 64 :=
  stats.getD index 0

/-- `cpu_percentage` on the two lines it has read; `stats` is the array before
it is written. -/
def percentageOfLines (first second : CxxString) (stats : List (BitVec 64)) :
    Outcome ExactFloat := do
  let stats ← parseCpuLine first keepStat stats
  let stats ← parseCpuLine second subtractStat stats
  let user := cell stats cpuLayout.user
  let nice := cell stats cpuLayout.nice
  let system := cell stats cpuLayout.system
  let idle := cell stats cpuLayout.idle
  .ok (percentageOf (user + nice + system) (user + nice + system + idle))

/-- `cpu_percentage`, given what `/proc/stat` holds at the two openings. -/
def cpuPercentage (firstFile secondFile : Option (List CxxString))
    (stats : List (BitVec 64)) : Outcome ExactFloat :=
  let line := firstLine firstFile .empty
  percentageOfLines line (firstLine secondFile line) stats

theorem cpuPercentage_of_lines (first second : CxxString) (rest1 rest2 : List CxxString)
    (stats : List (BitVec 64)) :
    cpuPercentage (some (first :: rest1)) (some (second :: rest2)) stats =
      percentageOfLines first second stats :=
  rfl

/-! ## The loop on the text that remains -/

section Fields

variable {line : CxxString} {position : Nat}

/-- A field is read up to the blank after it, although more is handed to
`stoll`. -/
theorem nextField_eq {spaces : Nat} {field tail : List Char}
    (suffix : line.chars.drop position =
      List.replicate spaces ' ' ++ (field ++ tail))
    (nonempty : field ≠ []) (noSpace : ∀ char ∈ field, isSpace char = false)
    (ends : tail = [] ∨ ∃ more, tail = ' ' :: more) :
    ∃ next, line.chars.drop next = tail ∧
      nextField line position = (stoll field).map fun value => (value, next) := by
  have notBlank : ∀ char ∈ field, char ≠ ' ' := by
    rintro char member rfl
    exact absurd (noSpace ' ' member) (by decide)
  obtain ⟨start, rest⟩ := CxxString.findFirstNotOf_blank suffix nonempty notBlank
  obtain ⟨next, nextEq⟩ : ∃ next, line.findFirstOf [' '] (position + spaces) = next :=
    ⟨_, rfl⟩
  have fieldKept : ∀ char ∈ field, (!([' '].contains char)) = true := by
    intro char member
    simpa using notBlank char member
  have tailRest : line.chars.drop next = tail := by
    rw [← nextEq, CxxString.findFirstOf, drop_findFrom _ line.length_lt_npos.le, rest,
      List.dropWhile_append_of_pos fieldKept]
    rcases ends with rfl | ⟨more, rfl⟩ <;> simp
  have covers : field.length ≤ next := by
    have longer := congrArg List.length tailRest
    have whole := congrArg List.length rest
    simp only [List.length_drop, List.length_append] at longer whole
    have positive := List.length_pos_of_ne_nil nonempty
    omega
  have stops : NoDigitHead tail := by
    intro char member
    rcases ends with rfl | ⟨more, rfl⟩
    · simp at member
    · cases member
      rfl
  obtain ⟨text, found, value⟩ := line.stoll_substr rest nonempty noSpace stops covers
  refine ⟨next, tailRest, ?_⟩
  simp only [nextField, start, nextEq, found, value, Outcome.ok_bind]
  cases stoll field <;> rfl

theorem nextField_of_blank {spaces : Nat}
    (suffix : line.chars.drop position = List.replicate spaces ' ') :
    nextField line position = .error .outOfRange := by
  have bounded := line.length_lt_npos
  have start : line.findFirstNotOf [' '] position = npos := by
    apply findFrom_eq_npos
    intro char member
    rw [suffix] at member
    simp [List.eq_of_mem_replicate member]
  have beyond : ¬ npos ≤ line.chars.length := by omega
  simp only [nextField, start, CxxString.substr, if_neg beyond, Outcome.error_bind]

/-- Both loops read the same numbers; the second subtracts the cells. -/
theorem parseFields_subtract (stats : List (BitVec 64)) (position : Nat) :
    parseFields line subtractStat stats position =
      (parseFields line keepStat stats position).map fun read =>
        List.zipWith (· - ·) read stats := by
  induction stats generalizing position with
  | nil => rfl
  | cons stat stats induction =>
      simp only [parseFields]
      cases nextField line position with
      | error fault => rfl
      | ok field =>
          simp only [Outcome.ok_bind, induction]
          cases parseFields line keepStat stats field.2 <;> rfl

theorem parseFields_length {store : BitVec 64 → Int → BitVec 64}
    {stats read : List (BitVec 64)} {position : Nat}
    (parsed : parseFields line store stats position = .ok read) :
    read.length = stats.length := by
  induction stats generalizing position read with
  | nil =>
      cases parsed
      rfl
  | cons stat stats induction =>
      obtain ⟨field, _, parsed⟩ := Outcome.bind_eq_ok parsed
      obtain ⟨rest, parsedRest, parsed⟩ := Outcome.bind_eq_ok parsed
      cases parsed
      simp [induction parsedRest]

/-- What the cells hold before does not matter to a loop that overwrites
them. -/
theorem parseFields_keepStat_congr {stats other : List (BitVec 64)}
    (sameLength : stats.length = other.length) (position : Nat) :
    parseFields line keepStat stats position =
      parseFields line keepStat other position := by
  induction stats generalizing other position with
  | nil =>
      rw [List.length_eq_zero_iff.mp sameLength.symm]
  | cons stat stats induction =>
      obtain ⟨first, rest, rfl⟩ : ∃ first rest, other = first :: rest :=
        List.exists_cons_of_length_eq_add_one sameLength.symm
      have restLength : stats.length = rest.length := by simpa using sameLength
      simp only [parseFields, keepStat, induction restLength]

end Fields

/-! ## The percentage of two lines -/

section Lines

variable {first second : CxxString} {stats counters1 counters2 : List (BitVec 64)}

theorem cell_zipWith {minuends subtrahends : List (BitVec 64)} {index : Nat}
    (inMinuends : index < minuends.length) (inSubtrahends : index < subtrahends.length) :
    cell (List.zipWith (· - ·) minuends subtrahends) index =
      cell minuends index - cell subtrahends index := by
  have inBoth : index < (List.zipWith (· - ·) minuends subtrahends).length := by
    simp [inMinuends, inSubtrahends]
  simp [cell, List.getD, inMinuends, inSubtrahends]

/-- When both loops succeed the result is the percentage of the counters that
the lines hold. -/
theorem percentageOfLines_eq (cells : stats.length = 4)
    (read1 : parseCpuLine first keepStat stats = .ok counters1)
    (read2 : parseCpuLine second keepStat stats = .ok counters2) :
    percentageOfLines first second stats =
      .ok (cpuLayout.percentage (cell counters1) (cell counters2)) := by
  have length1 : counters1.length = 4 := (parseFields_length read1).trans cells
  have length2 : counters2.length = 4 := (parseFields_length read2).trans cells
  have reread : parseCpuLine second keepStat counters1 = .ok counters2 := by
    rw [← read2]
    exact parseFields_keepStat_congr (length1.trans cells.symm) _
  have subtracted : parseCpuLine second subtractStat counters1 =
      .ok (List.zipWith (· - ·) counters2 counters1) := by
    unfold parseCpuLine at reread ⊢
    rw [parseFields_subtract, reread]
    rfl
  have difference : ∀ index < 4,
      cell (List.zipWith (· - ·) counters2 counters1) index =
        cell counters2 index - cell counters1 index :=
    fun index bound => cell_zipWith (by omega) (by omega)
  simp only [percentageOfLines, read1, subtracted, Outcome.ok_bind, cpuLayout,
    CpuLayout.percentage, CpuLayout.busyIncrease, CpuLayout.idleIncrease,
    difference 0 (by decide), difference 1 (by decide), difference 2 (by decide),
    difference 3 (by decide)]
  rw [BitVec.add_assoc (_ - _), BitVec.add_comm (cell counters2 1 - cell counters1 1),
    ← BitVec.add_assoc (_ - _)]

end Lines

/-! ## The percentage as a table index -/

/-- A percentage is returned, and `cpu_string` and the graphs can use it: it
lies between 0 and 100, and so does the integer it is cast to, which selects an
entry of the table. -/
def IndexesTable (outcome : Outcome ExactFloat) : Prop :=
  ∃ percentage, outcome = .ok (some percentage) ∧ 0 ≤ percentage ∧ percentage ≤ 100 ∧
    toUnsigned percentage ≤ 100 ∧
    ∃ entry, lutEntry cpuPercentageLut (toUnsigned percentage) = .ok entry

theorem indexesTable_iff {outcome : Outcome ExactFloat} :
    IndexesTable outcome ↔
      ∃ percentage, outcome = .ok (some percentage) ∧ 0 ≤ percentage ∧
        percentage ≤ 100 := by
  constructor
  · rintro ⟨percentage, returned, nonneg, atMost, _⟩
    exact ⟨percentage, returned, nonneg, atMost⟩
  · rintro ⟨percentage, returned, nonneg, atMost⟩
    have index : toUnsigned percentage ≤ 100 :=
      toUnsigned_le nonneg (by exact_mod_cast atMost) (by decide)
    exact ⟨percentage, returned, nonneg, atMost, index,
      cpuPercentageLut_wellFormed.lutEntry_eq_ok_iff.mpr index⟩

/-- The increases between two samples, modulo `2 ^ 64`, do not vanish and add
up within 64 bits. -/
def IncreasesFit (counters1 counters2 : List (BitVec 64)) : Prop :=
  let busy := (cpuLayout.busyIncrease (cell counters1) (cell counters2)).toNat
  let idle := (cpuLayout.idleIncrease (cell counters1) (cell counters2)).toNat
  0 < busy + idle ∧ busy + idle < 2 ^ 64

instance (counters1 counters2 : List (BitVec 64)) :
    Decidable (IncreasesFit counters1 counters2) :=
  inferInstanceAs (Decidable (_ ∧ _))

/-- On two first lines that the loops accept, the result is a percentage
exactly when the increases of their counters fit. -/
theorem cpuPercentage_indexesTable_iff {first second : CxxString}
    {stats counters1 counters2 : List (BitVec 64)} (cells : stats.length = 4)
    (read1 : parseCpuLine first keepStat stats = .ok counters1)
    (read2 : parseCpuLine second keepStat stats = .ok counters2)
    (rest1 rest2 : List CxxString) :
    IndexesTable (cpuPercentage (some (first :: rest1)) (some (second :: rest2)) stats) ↔
      IncreasesFit counters1 counters2 := by
  rw [indexesTable_iff, cpuPercentage_of_lines, percentageOfLines_eq cells read1 read2]
  simp only [Except.ok.injEq]
  exact percentageOf_range_iff

/-- Two lines between which every counter grows or stays. -/
def sampleFirst : CxxString := ⟨"cpu  100 0 100 1000 7".toList, by decide⟩

def sampleSecond : CxxString := ⟨"cpu  120 0 100 1060 7".toList, by decide⟩

/-- A line on which the idle counter is behind the one of `sampleFirst`. -/
def sampleBackward : CxxString := ⟨"cpu  120 0 100 990 7".toList, by decide⟩

theorem sampleFirst_counters :
    parseCpuLine sampleFirst keepStat [0, 0, 0, 0] = .ok [100, 0, 100, 1000] := by
  decide +kernel

theorem sampleSecond_counters :
    parseCpuLine sampleSecond keepStat [0, 0, 0, 0] = .ok [120, 0, 100, 1060] := by
  decide +kernel

theorem cpuPercentage_sample :
    IndexesTable
      (cpuPercentage (some [sampleFirst]) (some [sampleSecond]) [0, 0, 0, 0]) :=
  (cpuPercentage_indexesTable_iff rfl sampleFirst_counters sampleSecond_counters
    [] []).mpr (by decide +kernel)

/-- An idle counter that goes back by 10 while the others grow by 20 gives 200
percent, and two equal lines give no number. -/
theorem cpuPercentage_outside_table :
    cpuPercentage (some [sampleFirst]) (some [sampleBackward]) [0, 0, 0, 0] =
        .ok (some 200) ∧
      cpuPercentage (some [sampleFirst]) (some [sampleFirst]) [0, 0, 0, 0] = .ok none ∧
      ¬ IndexesTable
        (cpuPercentage (some [sampleFirst]) (some [sampleBackward]) [0, 0, 0, 0]) := by
  have doubled : cpuPercentage (some [sampleFirst]) (some [sampleBackward]) [0, 0, 0, 0] =
      .ok (some 200) := by
    decide +kernel
  refine ⟨doubled, by decide +kernel, ?_⟩
  rw [doubled]
  rintro ⟨percentage, returned, _, atMost, _⟩
  cases returned
  revert atMost
  norm_num

end Linux

end TmuxMemCpuLoad
