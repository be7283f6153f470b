import TmuxMemCpuLoad.LookupTables
import TmuxMemCpuLoad.Metrics
import TmuxMemCpuLoad.StandardInteger
import TmuxMemCpuLoad.StandardString

/-!
# Memory status on Linux

`mem_status` walks over the lines of `/proc/meminfo` and accumulates six of its
entries in two `unsigned int` variables.  A line is an entry of one of the six
keys, or foreign: it then has no effect, wherever its colon and its `k` stand.
-/

namespace TmuxMemCpuLoad

open StandardCxx StyledText

namespace Linux

structure MemoryLocals where
  totalMem : BitVec 32
  usedMem : BitVec 32
  deriving DecidableEq, Repr

inductive MeminfoKey
  | memTotal
  | memFree
  | shmem
  | buffers
  | cached
  | sReclaimable
  deriving DecidableEq, Repr

def MeminfoKey.name : MeminfoKey → List Char
  | .memTotal => "MemTotal".toList
  | .memFree => "MemFree".toList
  | .shmem => "Shmem".toList
  | .buffers => "Buffers".toList
  | .cached => "Cached".toList
  | .sReclaimable => "SReclaimable".toList

/-- The chain of comparisons with the keys.  The number is converted only where
one matches; the sums are computed in `long`, where they may overflow, and
narrowed to `unsigned int`. -/
def storeEntry (locals : MemoryLocals) (substr : List Char) (number : Outcome Int) :
    Outcome MemoryLocals :=
  if substr = MeminfoKey.memTotal.name then do
    let value ← number
    .ok { locals with totalMem := BitVec.ofInt 32 value }
  else if substr = MeminfoKey.memFree.name then do
    let value ← number
    let difference ← inLong (locals.totalMem.toNat - value)
    .ok { locals with usedMem := BitVec.ofInt 32 difference }
  else if substr = MeminfoKey.shmem.name then do
    let value ← number
    let sum ← inLong (locals.usedMem.toNat + value)
    .ok { locals with usedMem := BitVec.ofInt 32 sum }
  else if substr = MeminfoKey.buffers.name ∨ substr = MeminfoKey.cached.name ∨
      substr = MeminfoKey.sReclaimable.name then do
    let value ← number
    let difference ← inLong (locals.usedMem.toNat - value)
    .ok { locals with usedMem := BitVec.ofInt 32 difference }
  else .ok locals

/-- `stol( line.substr( substr_start, substr_len ) )`. -/
def lineNumber (line : CxxString) (substrStart substrLen : Nat) : Outcome Int := do
  let text ← line.substr substrStart substrLen
  stoll text.chars

def memLine (locals : MemoryLocals) (line : CxxString) : Outcome MemoryLocals := do
  let substrLen := line.findFirstOf [':'] 0
  let substr ← line.substr 0 substrLen
  let substrStart := line.findFirstNotOf [' '] ((substrLen + 1) % 2 ^ 64)
  let substrLen := (line.findFirstOf ['k'] 0 + 2 ^ 64 - substrStart) % 2 ^ 64
  storeEntry locals substr.chars (lineNumber line substrStart substrLen)

def memLoop (lines : List CxxString) (locals : MemoryLocals) : Outcome MemoryLocals :=
  lines.foldlM memLine locals

/-- `mem_status` on the lines of `/proc/meminfo`, none when it cannot be
opened; `locals` is what the variables hold before the loop. -/
def memStatus (lines : List CxxString) (locals : MemoryLocals) : Outcome MemoryStatus := do
  let locals ← memLoop lines locals
  .ok { usedMem := convertUnit locals.usedMem.toNat .megabytes .kilobytes
        totalMem := convertUnit locals.totalMem.toNat .megabytes .kilobytes }

/-! ## Entries and foreign lines -/

/-- An entry: its key, a colon, blanks and a number, with or without a unit. -/
structure IsEntry (line : CxxString) (key : MeminfoKey) (value : Nat) : Prop where
  shape : ∃ spaces digits suffix,
    line.chars = key.name ++ ':' :: (List.replicate spaces ' ' ++ (digits ++ suffix)) ∧
    digits ≠ [] ∧ (∀ char ∈ digits, char.isDigit = true) ∧ digitsValue digits = value ∧
    (suffix = [] ∨ suffix = " kB".toList)
  bounded : value < 2 ^ 62

/-- A line whose part before the first colon, or which as a whole, is none of
the keys. -/
def IsForeign (line : CxxString) : Prop :=
  ∀ key : MeminfoKey, line.chars.takeWhile (· ≠ ':') ≠ key.name

/-- What an entry leaves in the accumulators, computed in their own width. -/
def MemoryLocals.store (locals : MemoryLocals) (entry : MeminfoKey × Int) :
    MemoryLocals :=
  match entry.1 with
  | .memTotal => { locals with totalMem := BitVec.ofInt 32 entry.2 }
  | .memFree => { locals with usedMem := locals.totalMem - BitVec.ofInt 32 entry.2 }
  | .shmem => { locals with usedMem := locals.usedMem + BitVec.ofInt 32 entry.2 }
  | .buffers | .cached | .sReclaimable =>
      { locals with usedMem := locals.usedMem - BitVec.ofInt 32 entry.2 }

/-- The sum that an entry needs in `long`, zero for the total, which needs none. -/
def MemoryLocals.longSum (locals : MemoryLocals) (entry : MeminfoKey × Int) : Int :=
  match entry.1 with
  | .memTotal => 0
  | .memFree => locals.totalMem.toNat - entry.2
  | .shmem => locals.usedMem.toNat + entry.2
  | .buffers | .cached | .sReclaimable => locals.usedMem.toNat - entry.2

/-- An entry is stored unless its sum overflows. -/
def MemoryLocals.storeLong (locals : MemoryLocals) (entry : MeminfoKey × Int) :
    Outcome MemoryLocals := do
  let _ ← inLong (locals.longSum entry)
  .ok (locals.store entry)

theorem MeminfoKey.name_plain (key : MeminfoKey) :
    ∀ char ∈ key.name, char ≠ ':' ∧ char ≠ 'k' := by
  cases key <;> exact forall_mem_of_all (by decide)

theorem digit_plain {char : Char} (digit : char.isDigit = true) :
    char ≠ ' ' ∧ char ≠ 'k' := by
  constructor <;> rintro rfl <;> revert digit <;> decide

theorem MeminfoKey.name_injective : Function.Injective MeminfoKey.name := by
  intro first second
  cases first <;> cases second <;> decide

theorem storeEntry_name (locals : MemoryLocals) (key : MeminfoKey)
    (number : Outcome Int) :
    storeEntry locals key.name number =
      number >>= fun value => locals.storeLong (key, value) := by
  have same := fun other => MeminfoKey.name_injective.eq_iff (a := key) (b := other)
  simp only [storeEntry, same]
  cases number with
  | error fault => cases key <;> rfl
  | ok value =>
      cases key with
      | memTotal => rfl
      | memFree =>
          by_cases fits : FitsLong (locals.totalMem.toNat - value) <;>
            simp [MemoryLocals.storeLong, MemoryLocals.longSum, MemoryLocals.store, inLong, fits,
              ofInt_toNat_sub]
      | shmem =>
          by_cases fits : FitsLong (locals.usedMem.toNat + value) <;>
            simp [MemoryLocals.storeLong, MemoryLocals.longSum, MemoryLocals.store, inLong, fits,
              BitVec.ofInt_add]
      | buffers | cached | sReclaimable =>
          by_cases fits : FitsLong (locals.usedMem.toNat - value) <;>
            simp [MemoryLocals.storeLong, MemoryLocals.longSum, MemoryLocals.store, inLong, fits,
              ofInt_toNat_sub]

/-- The sums of numbers far from the ends of `long` do not overflow. -/
theorem MemoryLocals.storeLong_of_far (locals : MemoryLocals) {key : MeminfoKey} {value : Int}
    (above : -2 ^ 62 < value) (below : value < 2 ^ 62) :
    locals.storeLong (key, value) = .ok (locals.store (key, value)) := by
  have total := locals.totalMem.isLt
  have used := locals.usedMem.isLt
  have fits : FitsLong (locals.longSum (key, value)) := by
    unfold FitsLong
    cases key <;> simp only [MemoryLocals.longSum] <;> omega
  rw [MemoryLocals.storeLong, inLong_of_fits fits]
  rfl

theorem storeEntry_foreign (locals : MemoryLocals) {substr : List Char}
    (foreign : ∀ key : MeminfoKey, substr ≠ key.name) (number : Outcome Int) :
    storeEntry locals substr number = .ok locals := by
  simp only [storeEntry, foreign, if_false, or_self]

section Line

variable {line : CxxString}

/-- The key that the loop compares is the part before the first colon. -/
theorem substr_key (line : CxxString) :
    ∃ substr, line.substr 0 (line.findFirstOf [':'] 0) = .ok substr ∧
      substr.chars = line.chars.takeWhile (· ≠ ':') := by
  refine ⟨_, rfl, ?_⟩
  have rest := drop_findFrom (fun char => [':'].contains char) line.length_lt_npos.le 0
  have split := List.take_append_drop (line.findFirstOf [':'] 0) line.chars
  rw [CxxString.findFirstOf, rest, List.drop_zero] at split
  have whole := List.takeWhile_append_dropWhile (p := fun char => decide (char ≠ ':'))
    (l := line.chars)
  have same : (fun char => !([':'].contains char)) = fun char => decide (char ≠ ':') := by
    funext char
    simp
  rw [same] at split
  exact List.append_cancel_right (split.trans whole.symm)

theorem memLine_foreign (foreign : IsForeign line) (locals : MemoryLocals) :
    memLine locals line = .ok locals := by
  obtain ⟨substr, found, chars⟩ := substr_key line
  have different : ∀ key : MeminfoKey, substr.chars ≠ key.name := by
    intro key
    rw [chars]
    exact foreign key
  simp only [memLine, found, Outcome.ok_bind]
  exact storeEntry_foreign locals different _

/-- The number of an entry is read although more is handed to `stol`. -/
theorem lineNumber_eq {start length : Nat} {digits suffix : List Char}
    (rest : line.chars.drop start = digits ++ suffix) (nonempty : digits ≠ [])
    (all : ∀ char ∈ digits, char.isDigit = true) (bounded : digitsValue digits < 2 ^ 63)
    (stops : NoDigitHead suffix) (covers : digits.length ≤ length) :
    lineNumber line start length = .ok (digitsValue digits : Int) := by
  obtain ⟨text, found, value⟩ := line.stoll_substr rest nonempty
    (fun char member => isSpace_of_isDigit (all char member)) stops covers
  rw [lineNumber, found, Outcome.ok_bind, value, stoll_of_digits nonempty all bounded]

/-! ## The positions in an entry -/

section Entry

variable {key : MeminfoKey} {spaces : Nat} {digits suffix : List Char}
  (chars : line.chars =
    key.name ++ ':' :: (List.replicate spaces ' ' ++ (digits ++ suffix)))
include chars

theorem takeWhile_entry : line.chars.takeWhile (· ≠ ':') = key.name := by
  have before : ∀ char ∈ key.name, decide (char ≠ ':') = true := by
    intro char member
    simpa using (key.name_plain char member).1
  rw [chars, List.takeWhile_append_of_pos before]
  simp

theorem findColon_entry : line.findFirstOf [':'] 0 = key.name.length := by
  have atStart : line.chars.drop 0 =
      key.name ++ ':' :: (List.replicate spaces ' ' ++ (digits ++ suffix)) := by
    rw [chars, List.drop_zero]
  have searched := findFrom_of_drop (fun char => [':'].contains char) atStart
    (fun char member => by simpa using (key.name_plain char member).1) (by simp)
  simpa [CxxString.findFirstOf] using searched

/-- The number starts after the blanks that follow the colon. -/
theorem findNumber_entry (nonempty : digits ≠ [])
    (all : ∀ char ∈ digits, char.isDigit = true) :
    line.findFirstNotOf [' '] (key.name.length + 1) = key.name.length + 1 + spaces ∧
      line.chars.drop (key.name.length + 1 + spaces) = digits ++ suffix := by
  have afterColon : line.chars.drop (key.name.length + 1) =
      List.replicate spaces ' ' ++ (digits ++ suffix) := by
    rw [chars, List.drop_length_add_append]
    rfl
  exact CxxString.findFirstNotOf_blank afterColon nonempty
    fun char member => (digit_plain (all char member)).1

/-- No `k` stands before the end of the number. -/
theorem le_findUnit_entry (all : ∀ char ∈ digits, char.isDigit = true) :
    key.name.length + 1 + spaces + digits.length ≤ line.findFirstOf ['k'] 0 := by
  have front : line.chars =
      (key.name ++ ':' :: (List.replicate spaces ' ' ++ digits)) ++ suffix := by
    rw [chars]
    simp
  have rejected : ∀ char ∈ key.name ++ ':' :: (List.replicate spaces ' ' ++ digits),
      ['k'].contains char = false := by
    intro char member
    simp only [List.mem_append, List.mem_cons] at member
    rcases member with inName | rfl | blank | digit
    · simpa using (key.name_plain char inName).2
    · rfl
    · rw [List.eq_of_mem_replicate blank]
      rfl
    · simpa using (digit_plain (all char digit)).2
  have length : (key.name ++ ':' :: (List.replicate spaces ' ' ++ digits)).length =
      key.name.length + 1 + spaces + digits.length := by
    simp only [List.length_append, List.length_cons, List.length_replicate]
    omega
  have short := line.length_lt_npos
  rw [front, List.length_append] at short
  have searched := le_findFrom suffix rejected (by omega)
  rw [← front, length] at searched
  exact searched

end Entry

theorem memLine_entry {key : MeminfoKey} {value : Nat} (entry : IsEntry line key value)
    (locals : MemoryLocals) : memLine locals line = .ok (locals.store (key, value)) := by
  obtain ⟨⟨spaces, digits, suffix, chars, nonempty, all, rfl, unit⟩, bounded⟩ := entry
  have short := line.length_lt
  have whole := congrArg List.length chars
  simp only [List.length_append, List.length_cons, List.length_replicate] at whole
  obtain ⟨substr, found, substrChars⟩ := substr_key line
  obtain ⟨start, rest⟩ := findNumber_entry chars nonempty all
  have keyEq := substrChars.trans (takeWhile_entry chars)
  have unitAt := le_findUnit_entry chars all
  have unitLe : line.findFirstOf ['k'] 0 ≤ npos :=
    findFrom_le_npos _ line.length_lt_npos.le 0
  have stops : NoDigitHead suffix := by
    intro char member
    rcases unit with rfl | rfl
    · simp at member
    · cases member
      rfl
  have small : (key.name.length + 1) % 2 ^ 64 = key.name.length + 1 :=
    Nat.mod_eq_of_lt (by omega)
  -- in an entry the subtraction of the positions does not wrap
  have covers : digits.length ≤
      (line.findFirstOf ['k'] 0 + 2 ^ 64 - (key.name.length + 1 + spaces)) % 2 ^ 64 := by
    unfold npos at unitLe
    omega
  have number := lineNumber_eq rest nonempty all (by omega) stops covers
  rw [memLine, found]
  simp only [Outcome.ok_bind, findColon_entry chars, small, start, number, keyEq]
  rw [storeEntry_name, Outcome.ok_bind]
  exact locals.storeLong_of_far (by omega) (by omega)

end Line

end Linux

end TmuxMemCpuLoad
