import TmuxMemCpuLoad.LinuxCpu

/-!
# The CPU percentage of all platforms

The BSD systems and macOS read arrays of counters, each with its own layout and
width, where Linux reads a text.  On samples of the same counters all of them
return the share of the busy time.
-/

namespace TmuxMemCpuLoad

open StandardCxx

/-! ## Arrays of counters -/

/-- The computation that `cpu_percentage` shares on the BSD systems and macOS:
each counter is widened to `unsigned long long` before it is subtracted. -/
def ticksPercentage {width : Nat} (layout : CpuLayout) (load1 load2 : Nat → BitVec width) :
    ExactFloat :=
  let currentUser := (load1 layout.user).setWidth 64
  let currentSystem := (load1 layout.system).setWidth 64
  let currentNice := (load1 layout.nice).setWidth 64
  let currentIdle := (load1 layout.idle).setWidth 64
  let nextUser := (load2 layout.user).setWidth 64
  let nextSystem := (load2 layout.system).setWidth 64
  let nextNice := (load2 layout.nice).setWidth 64
  let nextIdle := (load2 layout.idle).setWidth 64
  let diffUser := nextUser - currentUser
  let diffSystem := nextSystem - currentSystem
  let diffNice := nextNice - currentNice
  let diffIdle := nextIdle - currentIdle
  percentageOf (diffUser + diffSystem + diffNice) (diffUser + diffSystem + diffNice + diffIdle)

namespace FreeBsd

def cpuLayout : CpuLayout where
  user := 0
  nice := 1
  system := 2
  idle := 4

/-- `cpu_percentage` on the two readings of `kern.cp_time`; `width` is that of
`u_long`. -/
def cpuPercentage {width : Nat} (load1 load2 : Nat → BitVec width) : ExactFloat :=
  ticksPercentage cpuLayout load1 load2

end FreeBsd

namespace NetBsd

def cpuLayout : CpuLayout where
  user := 0
  nice := 1
  system := 2
  idle := 4

def cpuPercentage (load1 load2 : Nat → BitVec 64) : ExactFloat :=
  ticksPercentage cpuLayout load1 load2

end NetBsd

namespace OpenBsd

/-- `cpu_percentage` on the two readings of `KERN_CPTIME`; the layout is that
of `sys/sched.h`, and `width` that of `u_long`. -/
def cpuPercentage {width : Nat} (cpuLayout : CpuLayout)
    (load1 load2 : Nat → BitVec width) : ExactFloat :=
  ticksPercentage cpuLayout load1 load2

end OpenBsd

namespace Osx

def cpuLayout : CpuLayout where
  user := 0
  system := 1
  idle := 2
  nice := 3

/-- `_get_cpu_percentage`: the ticks of the kernel, or zeros when it has no
answer. -/
def getCpuPercentage (answer : Option (Nat → BitVec 32)) : Nat → BitVec 32 :=
  answer.getD fun _ => 0

/-- `cpu_percentage` on the two answers of `host_statistics`. -/
def cpuPercentage (answer1 answer2 : Option (Nat → BitVec 32)) : ExactFloat :=
  ticksPercentage cpuLayout (getCpuPercentage answer1) (getCpuPercentage answer2)

end Osx

section Arrays

variable {width : Nat} {layout : CpuLayout} {load1 load2 : Nat → BitVec width}

theorem ticksPercentage_eq (layout : CpuLayout) (load1 load2 : Nat → BitVec width) :
    ticksPercentage layout load1 load2 =
      layout.percentage (fun slot => (load1 slot).setWidth 64)
        fun slot => (load2 slot).setWidth 64 :=
  rfl

theorem Stores.widen {load : Nat → BitVec width} {counters : Counters}
    (stores : Stores layout load counters) (narrow : width ≤ 64) :
    Stores layout (fun slot => (load slot).setWidth 64) counters := by
  have keep : ∀ slot, ((load slot).setWidth 64).toNat = (load slot).toNat :=
    fun slot => BitVec.toNat_setWidth_of_le narrow
  exact ⟨(keep _).trans stores.user_eq, (keep _).trans stores.nice_eq,
    (keep _).trans stores.system_eq, (keep _).trans stores.idle_eq⟩

/-- From arrays of counters that do not wrap the share is computed exactly. -/
theorem ticksPercentage_of_stores {first second : Counters} (narrow : width ≤ 64)
    (stores1 : Stores layout load1 first) (stores2 : Stores layout load2 second)
    (increase : Increase first second) :
    ticksPercentage layout load1 load2 = some (busyShare first second) := by
  rw [ticksPercentage_eq]
  exact percentage_of_stores (stores1.widen narrow) (stores2.widen narrow) increase

end Arrays

/-! ## Lines of counters -/

namespace Linux

/-- Fields of a line, each after one blank and some more. -/
def fieldsText : List (Nat × Nat) → List Char
  | [] => []
  | (spaces, value) :: fields =>
      List.replicate (spaces + 1) ' ' ++ (Nat.toDigits 10 value ++ fieldsText fields)

/-- The line shows the counters after `cpu`; what follows them is separated by
a blank. -/
def Shows (line : CxxString) (counters : Counters) : Prop :=
  ∃ (spaces : Nat × Nat × Nat × Nat) (rest : List Char),
    line.chars = "cpu".toList ++
      (fieldsText [(spaces.1, counters.user), (spaces.2.1, counters.nice),
        (spaces.2.2.1, counters.system), (spaces.2.2.2, counters.idle)] ++ rest) ∧
    (rest = [] ∨ ∃ more, rest = ' ' :: more)

theorem fieldsText_append_head {fields : List (Nat × Nat)} {rest : List Char}
    (ends : rest = [] ∨ ∃ more, rest = ' ' :: more) :
    fieldsText fields ++ rest = [] ∨ ∃ more, fieldsText fields ++ rest = ' ' :: more := by
  cases fields with
  | nil => exact ends
  | cons field fields =>
      exact Or.inr ⟨_, by rw [fieldsText, List.replicate_succ]; rfl⟩

theorem parseFields_of_fieldsText {line : CxxString}
    (store : BitVec 64 → Int → BitVec 64) {fields : List (Nat × Nat)}
    {stats : List (BitVec 64)} {position : Nat} {rest : List Char}
    (suffix : line.chars.drop position = fieldsText fields ++ rest)
    (cells : stats.length = fields.length)
    (bounded : ∀ field ∈ fields, field.2 < 2 ^ 63)
    (ends : rest = [] ∨ ∃ more, rest = ' ' :: more) :
    parseFields line store stats position =
      .ok (List.zipWith (fun stat field => store stat (field.2 : Int)) stats fields) := by
  induction fields generalizing stats position with
  | nil =>
      rw [List.length_eq_zero_iff.mp cells]
      rfl
  | cons field fields induction =>
      obtain ⟨stat, stats, rfl⟩ := List.exists_cons_of_length_eq_add_one cells
      have restCells : stats.length = fields.length := by simpa using cells
      have digits : ∀ char ∈ Nat.toDigits 10 field.2, isSpace char = false :=
        fun char member => isSpace_of_isDigit
          (Nat.isDigit_of_mem_toDigits (by decide) (by decide) member)
      rw [fieldsText, List.append_assoc, List.append_assoc] at suffix
      obtain ⟨next, nextSuffix, nextEq⟩ := nextField_eq suffix Nat.toDigits_ne_nil digits
        (fieldsText_append_head ends)
      have tail := induction nextSuffix restCells
        (fun other member => bounded other (by simp [member]))
      rw [parseFields, nextEq, stoll_toDigits (bounded field (by simp))]
      simp only [Except.map, Outcome.ok_bind, tail]
      rfl

theorem parseCpuLine_of_shows {line : CxxString} {counters : Counters}
    (shows_ : Shows line counters) {stats : List (BitVec 64)} (cells : stats.length = 4)
    (bounded : counters.user < 2 ^ 63 ∧ counters.nice < 2 ^ 63 ∧
      counters.system < 2 ^ 63 ∧ counters.idle < 2 ^ 63) :
    ∃ read, parseCpuLine line keepStat stats = .ok read ∧
      Stores cpuLayout (cell read) counters := by
  obtain ⟨spaces, rest, chars, ends⟩ := shows_
  obtain ⟨userLt, niceLt, systemLt, idleLt⟩ := bounded
  have label : line.chars.drop 3 =
      fieldsText [(spaces.1, counters.user), (spaces.2.1, counters.nice),
        (spaces.2.2.1, counters.system), (spaces.2.2.2, counters.idle)] ++ rest := by
    rw [chars]
    rfl
  have suffix : line.chars.drop (line.findFirstOf [' '] 3) =
      fieldsText [(spaces.1, counters.user), (spaces.2.1, counters.nice),
        (spaces.2.2.1, counters.system), (spaces.2.2.2, counters.idle)] ++ rest := by
    rw [CxxString.findFirstOf, drop_findFrom _ line.length_lt_npos.le, label, fieldsText,
      List.replicate_succ]
    simp
  have parsed := parseFields_of_fieldsText keepStat suffix cells (by simp; omega) ends
  refine ⟨_, parsed, ?_⟩
  obtain ⟨user, nice, system, idle, rfl⟩ := List.length_eq_four.mp cells
  have keep : ∀ value : Nat, value < 2 ^ 63 →
      (BitVec.ofInt 64 (value : Int)).toNat = value := by
    intro value valueLt
    rw [BitVec.ofInt_natCast, BitVec.toNat_ofNat, Nat.mod_eq_of_lt (by omega)]
  exact ⟨keep _ userLt, keep _ niceLt, keep _ systemLt, keep _ idleLt⟩

theorem percentageOfLines_of_shows {line1 line2 : CxxString} {first second : Counters}
    {stats : List (BitVec 64)} (cells : stats.length = 4) (shows1 : Shows line1 first)
    (shows2 : Shows line2 second) (increase : Increase first second) :
    percentageOfLines line1 line2 stats = .ok (some (busyShare first second)) := by
  have secondLt : second.user < 2 ^ 63 ∧ second.nice < 2 ^ 63 ∧
      second.system < 2 ^ 63 ∧ second.idle < 2 ^ 63 :=
    ⟨increase.user_lt, increase.nice_lt, increase.system_lt, increase.idle_lt⟩
  have firstLt : first.user < 2 ^ 63 ∧ first.nice < 2 ^ 63 ∧
      first.system < 2 ^ 63 ∧ first.idle < 2 ^ 63 :=
    ⟨increase.user_le.trans_lt secondLt.1, increase.nice_le.trans_lt secondLt.2.1,
      increase.system_le.trans_lt secondLt.2.2.1, increase.idle_le.trans_lt secondLt.2.2.2⟩
  obtain ⟨read1, parsed1, stores1⟩ := parseCpuLine_of_shows shows1 cells firstLt
  obtain ⟨read2, parsed2, stores2⟩ := parseCpuLine_of_shows shows2 cells secondLt
  rw [percentageOfLines_eq cells parsed1 parsed2,
    percentage_of_stores stores1 stores2 increase]

end Linux

/-! ## Agreement -/

/-- All platforms return the share of the busy time between two samples, which
is a percentage and does not change when a counter is shifted in both. -/
theorem cpuPercentage_agree {first second : Counters} (increase : Increase first second) :
    (∀ line1 line2 rest1 rest2 stats, stats.length = 4 → Linux.Shows line1 first →
      Linux.Shows line2 second →
      Linux.cpuPercentage (some (line1 :: rest1)) (some (line2 :: rest2)) stats =
        .ok (some (busyShare first second))) ∧
    (∀ load1 load2 : Nat → BitVec 64, Stores FreeBsd.cpuLayout load1 first →
      Stores FreeBsd.cpuLayout load2 second →
      FreeBsd.cpuPercentage load1 load2 = some (busyShare first second)) ∧
    (∀ load1 load2, Stores NetBsd.cpuLayout load1 first →
      Stores NetBsd.cpuLayout load2 second →
      NetBsd.cpuPercentage load1 load2 = some (busyShare first second)) ∧
    (∀ cpuLayout, ∀ load1 load2 : Nat → BitVec 64, Stores cpuLayout load1 first →
      Stores cpuLayout load2 second →
      OpenBsd.cpuPercentage cpuLayout load1 load2 = some (busyShare first second)) ∧
    (∀ ticks1 ticks2, Stores Osx.cpuLayout ticks1 first →
      Stores Osx.cpuLayout ticks2 second →
      Osx.cpuPercentage (some ticks1) (some ticks2) = some (busyShare first second)) ∧
    0 ≤ busyShare first second ∧ busyShare first second ≤ 100 ∧
    ∀ shift, busyShare (first.add shift) (second.add shift) = busyShare first second :=
  ⟨fun _ _ _ _ _ cells shows1 shows2 =>
      Linux.percentageOfLines_of_shows cells shows1 shows2 increase,
    fun _ _ stores1 stores2 =>
      ticksPercentage_of_stores (by decide) stores1 stores2 increase,
    fun _ _ stores1 stores2 =>
      ticksPercentage_of_stores (by decide) stores1 stores2 increase,
    fun _ _ _ stores1 stores2 =>
      ticksPercentage_of_stores (by decide) stores1 stores2 increase,
    fun _ _ stores1 stores2 =>
      ticksPercentage_of_stores (by decide) stores1 stores2 increase,
    (busyShare_range increase).1, (busyShare_range increase).2,
    busyShare_add first second⟩

/-- Some user and idle ticks in the array of FreeBSD, between those of other
states. -/
def sampleTicks (user idle : Nat) : Nat → BitVec 64
  | 0 => BitVec.ofNat 64 user
  | 2 => 100
  | 3 => 7
  | 4 => BitVec.ofNat 64 idle
  | _ => 0

theorem sampleTicks_stores {user idle : Nat} (userFits : user < 2 ^ 64)
    (idleFits : idle < 2 ^ 64) :
    Stores FreeBsd.cpuLayout (sampleTicks user idle) ⟨user, 0, 100, idle⟩ :=
  ⟨Nat.mod_eq_of_lt userFits, rfl, rfl, Nat.mod_eq_of_lt idleFits⟩

/-- Twenty more user ticks and sixty more idle ones are 25 percent on every
platform. -/
theorem cpuPercentage_agree_sample :
    Linux.cpuPercentage (some [Linux.sampleFirst]) (some [Linux.sampleSecond])
        [0, 0, 0, 0] =
        .ok (some (busyShare ⟨100, 0, 100, 1000⟩ ⟨120, 0, 100, 1060⟩)) ∧
      FreeBsd.cpuPercentage (sampleTicks 100 1000) (sampleTicks 120 1060) =
        some (busyShare ⟨100, 0, 100, 1000⟩ ⟨120, 0, 100, 1060⟩) ∧
      busyShare ⟨100, 0, 100, 1000⟩ ⟨120, 0, 100, 1060⟩ = 25 := by
  have increase : Increase ⟨100, 0, 100, 1000⟩ ⟨120, 0, 100, 1060⟩ :=
    ⟨by decide, by decide, by decide, by decide, by decide, by decide, by decide,
      by decide, by decide, by decide⟩
  exact ⟨(cpuPercentage_agree increase).1 _ _ [] [] _ rfl
      ⟨(1, 0, 0, 0), " 7".toList, by decide +kernel, Or.inr ⟨_, rfl⟩⟩
      ⟨(1, 0, 0, 0), " 7".toList, by decide +kernel, Or.inr ⟨_, rfl⟩⟩,
    (cpuPercentage_agree increase).2.1 _ _ (sampleTicks_stores (by decide) (by decide))
      (sampleTicks_stores (by decide) (by decide)),
    by decide +kernel⟩

end TmuxMemCpuLoad
