import TmuxMemCpuLoad.MeminfoEntries

/-!
# What the memory status depends on

`mem_status` does not initialise its two accumulators.  The total is assigned by
a `MemTotal` line; the used memory is assigned from the total by a `MemFree`
line and adjusted by the others.  Which of the two are known after a line
depends on its key only.  The loop ends early at a number that cannot be read
and where a sum overflows.
-/

namespace TmuxMemCpuLoad

open StandardCxx

namespace Linux

/-! ## Reading a line apart from the accumulators -/

def MeminfoKey.all : List MeminfoKey :=
  [.memTotal, .memFree, .shmem, .buffers, .cached, .sReclaimable]

def keyNamed (substr : List Char) : Option MeminfoKey :=
  MeminfoKey.all.find? fun key => substr = key.name

/-- The key and the number that a line stores, if it is an entry. -/
def readEntry (line : CxxString) : Outcome (Option (MeminfoKey × Int)) := do
  let substrLen := line.findFirstOf [':'] 0
  let substr ← line.substr 0 substrLen
  let substrStart := line.findFirstNotOf [' '] ((substrLen + 1) % 2 ^ 64)
  let substrLen := (line.findFirstOf ['k'] 0 + 2 ^ 64 - substrStart) % 2 ^ 64
  match keyNamed substr.chars with
  | none => .ok none
  | some key => (lineNumber line substrStart substrLen).map fun value => some (key, value)

/-- The entries of the lines before the first number that cannot be read, and how
the reading ends. -/
def readEntries : List CxxString → List (MeminfoKey × Int) × Outcome Unit
  | [] => ([], .ok ())
  | line :: lines =>
      match readEntry line with
      | .error fault => ([], .error fault)
      | .ok entry => (entry.toList ++ (readEntries lines).1, (readEntries lines).2)

theorem keyNamed_name (key : MeminfoKey) : keyNamed key.name = some key := by
  cases key <;> decide +kernel

theorem keyNamed_eq_none {substr : List Char}
    (foreign : ∀ key : MeminfoKey, substr ≠ key.name) : keyNamed substr = none := by
  apply List.find?_eq_none.mpr
  intro key _
  simpa using foreign key

/-- The chain of comparisons finds the key of the name. -/
theorem storeEntry_eq (locals : MemoryLocals) (substr : List Char) (number : Outcome Int) :
    storeEntry locals substr number =
      match keyNamed substr with
      | none => .ok locals
      | some key => number >>= fun value => locals.storeLong (key, value) := by
  by_cases named : ∃ key : MeminfoKey, substr = key.name
  · obtain ⟨key, rfl⟩ := named
    rw [keyNamed_name]
    exact storeEntry_name locals key number
  · have foreign : ∀ key : MeminfoKey, substr ≠ key.name :=
      fun key equal => named ⟨key, equal⟩
    rw [keyNamed_eq_none foreign]
    exact storeEntry_foreign locals foreign number

theorem memLine_eq (locals : MemoryLocals) (line : CxxString) :
    memLine locals line =
      readEntry line >>= fun entry => entry.toList.foldlM MemoryLocals.storeLong locals := by
  obtain ⟨substr, found, _⟩ := substr_key line
  simp only [memLine, readEntry, found, Outcome.ok_bind, storeEntry_eq]
  cases keyNamed substr.chars with
  | none => rfl
  | some key =>
      cases lineNumber line _ _ with
      | error fault => rfl
      | ok value =>
          simp only [Except.map, Outcome.ok_bind, Option.toList_some, List.foldlM_cons,
            List.foldlM_nil]
          exact (bind_pure _).symm

theorem memLoop_eq (lines : List CxxString) (locals : MemoryLocals) :
    memLoop lines locals =
      (readEntries lines).1.foldlM MemoryLocals.storeLong locals >>= fun locals =>
        (readEntries lines).2.map fun _ => locals := by
  induction lines generalizing locals with
  | nil => rfl
  | cons line lines induction =>
      rw [memLoop, List.foldlM_cons, memLine_eq, readEntries]
      cases readEntry line with
      | error fault => rfl
      | ok entry =>
          simp only [Outcome.ok_bind, List.foldlM_append, bind_assoc]
          exact congrArg _ (funext induction)

/-! ## Sums that fit -/

/-- No sum of the entries leaves `long`. -/
def SumsFit : MemoryLocals → List (MeminfoKey × Int) → Prop
  | _, [] => True
  | locals, entry :: entries =>
      FitsLong (locals.longSum entry) ∧ SumsFit (locals.store entry) entries

theorem foldlM_storeLong_of_fit {locals : MemoryLocals} {entries : List (MeminfoKey × Int)}
    (fit : SumsFit locals entries) :
    entries.foldlM MemoryLocals.storeLong locals =
      .ok (entries.foldl MemoryLocals.store locals) := by
  induction entries generalizing locals with
  | nil => rfl
  | cons entry entries induction =>
      rw [List.foldlM_cons, MemoryLocals.storeLong, inLong_of_fits fit.1, Outcome.ok_bind,
        Outcome.ok_bind, induction fit.2]
      rfl

theorem foldlM_storeLong_of_not_fit {locals : MemoryLocals}
    {entries : List (MeminfoKey × Int)} (overflows : ¬ SumsFit locals entries) :
    entries.foldlM MemoryLocals.storeLong locals = .error .undefined := by
  induction entries generalizing locals with
  | nil => exact absurd trivial overflows
  | cons entry entries induction =>
      rw [List.foldlM_cons, MemoryLocals.storeLong]
      by_cases fits : FitsLong (locals.longSum entry)
      · have later : ¬ SumsFit (locals.store entry) entries := fun fit => overflows ⟨fits, fit⟩
        rw [inLong_of_fits fits, Outcome.ok_bind, Outcome.ok_bind, induction later]
      · rw [inLong_of_not_fits fits]
        rfl

/-! ## What is known of the accumulators -/

/-- Which accumulators no longer depend on what they held on entry. -/
structure Known where
  total : Bool
  used : Bool
  deriving DecidableEq, Repr

def Known.nothing : Known :=
  ⟨false, false⟩

def Known.after (known : Known) : MeminfoKey → Known
  | .memTotal => { known with total := true }
  | .memFree => { known with used := known.total }
  | .shmem | .buffers | .cached | .sReclaimable => known

/-- The accumulators of two runs agree where they are known. -/
structure Known.Agree (known : Known) (locals other : MemoryLocals) : Prop where
  total : known.total = true → locals.totalMem = other.totalMem
  used : known.used = true → locals.usedMem = other.usedMem

theorem Known.Agree.store {known : Known} {locals other : MemoryLocals}
    (agree : known.Agree locals other) (entry : MeminfoKey × Int) :
    (known.after entry.1).Agree (locals.store entry) (other.store entry) := by
  obtain ⟨key, value⟩ := entry
  cases key with
  | memTotal => exact ⟨fun _ => rfl, agree.used⟩
  | memFree =>
      constructor
      · exact agree.total
      · intro total
        simp only [MemoryLocals.store, agree.total total]
  | shmem | buffers | cached | sReclaimable =>
      constructor
      · exact agree.total
      · intro used
        simp only [MemoryLocals.store, agree.used used]

theorem Known.Agree.storeAll {known : Known} {locals other : MemoryLocals}
    (agree : known.Agree locals other) (entries : List (MeminfoKey × Int)) :
    ((entries.map Prod.fst).foldl Known.after known).Agree
      (entries.foldl MemoryLocals.store locals)
      (entries.foldl MemoryLocals.store other) := by
  induction entries generalizing known locals other with
  | nil => exact agree
  | cons entry entries induction => exact induction (agree.store entry)

theorem Known.Agree.eq {locals other : MemoryLocals}
    (agree : Known.Agree ⟨true, true⟩ locals other) : locals = other := by
  obtain ⟨total, used⟩ := locals
  obtain ⟨otherTotal, otherUsed⟩ := other
  rw [MemoryLocals.mk.injEq]
  exact ⟨agree.total rfl, agree.used rfl⟩

/-- The accumulators of two runs differ by one exactly where they are not
known. -/
structure Known.Differ (known : Known) (locals other : MemoryLocals) : Prop where
  total : other.totalMem = locals.totalMem + if known.total then 0 else 1
  used : other.usedMem = locals.usedMem + if known.used then 0 else 1

theorem Known.Differ.store {known : Known} {locals other : MemoryLocals}
    (differ : known.Differ locals other) (entry : MeminfoKey × Int) :
    (known.after entry.1).Differ (locals.store entry) (other.store entry) := by
  obtain ⟨key, value⟩ := entry
  cases key with
  | memTotal => exact ⟨by simp [MemoryLocals.store, Known.after], differ.used⟩
  | memFree =>
      constructor
      · exact differ.total
      · simp only [MemoryLocals.store, Known.after, differ.total]
        simp only [BitVec.sub_eq_add_neg]
        ac_rfl
  | shmem =>
      constructor
      · exact differ.total
      · simp only [MemoryLocals.store, Known.after, differ.used]
        ac_rfl
  | buffers | cached | sReclaimable =>
      constructor
      · exact differ.total
      · simp only [MemoryLocals.store, Known.after, differ.used]
        simp only [BitVec.sub_eq_add_neg]
        ac_rfl

theorem Known.Differ.storeAll {known : Known} {locals other : MemoryLocals}
    (differ : known.Differ locals other) (entries : List (MeminfoKey × Int)) :
    ((entries.map Prod.fst).foldl Known.after known).Differ
      (entries.foldl MemoryLocals.store locals)
      (entries.foldl MemoryLocals.store other) := by
  induction entries generalizing known locals other with
  | nil => exact differ
  | cons entry entries induction => exact induction (differ.store entry)

/-- Only accumulators that are known do not differ. -/
theorem Known.Differ.known_eq {known : Known} {locals : MemoryLocals}
    (differ : known.Differ locals locals) : known = ⟨true, true⟩ := by
  obtain ⟨total, used⟩ := known
  obtain ⟨totalEq, usedEq⟩ := differ
  cases total <;> cases used <;> simp_all

/-! ## When everything is known -/

theorem known_after_total (known : Known) (total : known.total = true)
    (keys : List MeminfoKey) :
    keys.foldl Known.after known = ⟨true, known.used || keys.contains .memFree⟩ := by
  induction keys generalizing known with
  | nil =>
      obtain ⟨knownTotal, used⟩ := known
      simp_all
  | cons key keys induction =>
      obtain ⟨knownTotal, used⟩ := known
      subst total
      have kept : (Known.after ⟨true, used⟩ key).total = true := by
        cases key <;> rfl
      rw [List.foldl_cons, induction _ kept]
      cases key <;> simp [Known.after]

/-- The used memory is known in the end when a free memory comes after a total,
and then the total is known as well. -/
theorem known_after_nothing (keys : List MeminfoKey) :
    (keys.foldl Known.after Known.nothing = ⟨true, true⟩ ↔
      [.memTotal, .memFree].Sublist keys) ∧
    ((keys.foldl Known.after Known.nothing).used = true →
      (keys.foldl Known.after Known.nothing).total = true) := by
  induction keys with
  | nil => decide
  | cons key keys induction =>
      by_cases isTotal : key = .memTotal
      · subst isTotal
        have start : Known.nothing.after .memTotal = ⟨true, false⟩ := rfl
        rw [List.foldl_cons, start, known_after_total _ rfl]
        simp [List.cons_sublist_cons]
      · have stays : Known.nothing.after key = Known.nothing := by
          cases key <;> first | rfl | exact absurd rfl isTotal
        have skipped : [MeminfoKey.memTotal, .memFree].Sublist (key :: keys) ↔
            [MeminfoKey.memTotal, .memFree].Sublist keys := by
          rw [List.sublist_cons_iff]
          constructor
          · rintro (rest | ⟨tail, equal, _⟩)
            · exact rest
            · injection equal with same
              exact absurd same.symm isTotal
          · exact Or.inl
        rw [List.foldl_cons, stays, skipped]
        exact induction

/-! ## The outcome as a function of the content -/

/-- The sizes in megabytes. -/
def MemoryLocals.status (locals : MemoryLocals) : MemoryStatus where
  usedMem := convertUnit locals.usedMem.toNat .megabytes .kilobytes
  totalMem := convertUnit locals.totalMem.toNat .megabytes .kilobytes

theorem MemoryLocals.status_injective : Function.Injective MemoryLocals.status := by
  have shown : ∀ number other : BitVec 32,
      convertUnit number.toNat .megabytes .kilobytes =
        convertUnit other.toNat .megabytes .kilobytes → number = other := by
    intro number other equal
    rw [convertUnit_eq, convertUnit_eq] at equal
    have scaled := (div_left_inj' (by norm_num [ByteUnit.value])).mp equal
    exact BitVec.eq_of_toNat_eq (by exact_mod_cast scaled)
  rintro ⟨total, used⟩ ⟨otherTotal, otherUsed⟩ equal
  simp only [MemoryLocals.status, MemoryStatus.mk.injEq] at equal
  rw [shown used otherUsed equal.1, shown total otherTotal equal.2]

theorem memStatus_of_fit {lines : List CxxString} {locals : MemoryLocals}
    (fit : SumsFit locals (readEntries lines).1) :
    memStatus lines locals = (readEntries lines).2.map fun _ =>
      ((readEntries lines).1.foldl MemoryLocals.store locals).status := by
  rw [memStatus, memLoop_eq, foldlM_storeLong_of_fit fit, Outcome.ok_bind]
  cases (readEntries lines).2 <;> rfl

theorem memStatus_of_not_fit {lines : List CxxString} {locals : MemoryLocals}
    (overflows : ¬ SumsFit locals (readEntries lines).1) :
    memStatus lines locals = .error .undefined := by
  rw [memStatus, memLoop_eq, foldlM_storeLong_of_not_fit overflows]
  rfl

theorem lineNumber_ne_undefined (line : CxxString) (start length : Nat) :
    lineNumber line start length ≠ .error .undefined := by
  unfold lineNumber CxxString.substr
  split_ifs
  · exact stoll_ne_undefined _
  · simp

theorem map_ne_undefined {Value Result : Type} {outcome : Outcome Value}
    (defined : outcome ≠ .error .undefined) (next : Value → Result) :
    outcome.map next ≠ .error .undefined := by
  cases outcome with
  | error fault => simpa [Except.map] using defined
  | ok value => simp [Except.map]

theorem readEntry_ne_undefined (line : CxxString) :
    readEntry line ≠ .error .undefined := by
  obtain ⟨substr, found, _⟩ := substr_key line
  simp only [readEntry, found, Outcome.ok_bind]
  cases keyNamed substr.chars with
  | none => simp
  | some key =>
      have number := lineNumber_ne_undefined line
      exact map_ne_undefined (number _ _) _

theorem readEntries_ne_undefined (lines : List CxxString) :
    (readEntries lines).2 ≠ .error .undefined := by
  induction lines with
  | nil => simp [readEntries]
  | cons line lines induction =>
      have first := readEntry_ne_undefined line
      rw [readEntries]
      cases read : readEntry line with
      | error fault =>
          rw [read] at first
          simpa using first
      | ok entry => exact induction

/-- The key that the line is an entry of. -/
def lineKey (line : CxxString) : Option MeminfoKey :=
  keyNamed (line.chars.takeWhile (· ≠ ':'))

/-- An entry whose number is missing or out of range. -/
def Unreadable (line : CxxString) : Prop :=
  ∃ fault, readEntry line = .error fault

theorem readEntry_key {line : CxxString} {entry : Option (MeminfoKey × Int)}
    (read : readEntry line = .ok entry) : entry.map Prod.fst = lineKey line := by
  obtain ⟨substr, found, chars⟩ := substr_key line
  simp only [readEntry, found, Outcome.ok_bind, chars] at read
  unfold lineKey
  cases named : keyNamed (line.chars.takeWhile (· ≠ ':')) with
  | none =>
      rw [named] at read
      cases read
      rfl
  | some key =>
      rw [named] at read
      simp only [] at read
      cases number : lineNumber line _ _ with
      | error fault =>
          rw [number] at read
          cases read
      | ok value =>
          rw [number] at read
          cases read
          rfl

theorem readEntries_keys {lines : List CxxString} (read : (readEntries lines).2 = .ok ()) :
    (readEntries lines).1.map Prod.fst = lines.filterMap lineKey := by
  induction lines with
  | nil => rfl
  | cons line lines induction =>
      rw [readEntries] at read ⊢
      cases readLine : readEntry line with
      | error fault =>
          rw [readLine] at read
          cases read
      | ok entry =>
          rw [readLine] at read
          rw [List.filterMap_cons, ← readEntry_key readLine, List.map_append, induction read]
          cases entry <;> rfl

theorem readEntries_of_readable {lines : List CxxString} :
    (readEntries lines).2 = .ok () ↔ ¬ ∃ line ∈ lines, Unreadable line := by
  induction lines with
  | nil => simp [readEntries]
  | cons line lines induction =>
      rw [readEntries]
      cases readLine : readEntry line with
      | error fault =>
          have unreadable : Unreadable line := ⟨fault, readLine⟩
          simp [unreadable]
      | ok entry =>
          have readable : ¬ Unreadable line := by
            rintro ⟨fault, unreadable⟩
            rw [readLine] at unreadable
            cases unreadable
          rw [induction]
          simp [readable]

/-- The number of an entry cannot be read, or a `MemFree` line comes after a
`MemTotal` line. -/
def UnreadableOrFreeAfterTotal (lines : List CxxString) : Prop :=
  (∃ line ∈ lines, Unreadable line) ∨
    [.memTotal, .memFree].Sublist (lines.filterMap lineKey)

/-- No sum that is reached leaves `long`, whatever the accumulators hold on
entry. -/
def NoOverflow (lines : List CxxString) : Prop :=
  ∀ locals, SumsFit locals (readEntries lines).1

section Determined

variable {lines : List CxxString}

theorem noOverflow_of_determined {outcome : Outcome MemoryStatus}
    (defined : outcome ≠ .error .undefined)
    (same : ∀ locals, memStatus lines locals = outcome) : NoOverflow lines := by
  intro locals
  by_contra overflows
  rw [← same locals, memStatus_of_not_fit overflows] at defined
  exact defined rfl

/-- Runs that start with different values end with different ones unless
everything is known. -/
theorem unreadableOrFreeAfterTotal_of_determined (fit : NoOverflow lines)
    {outcome : Outcome MemoryStatus} (same : ∀ locals, memStatus lines locals = outcome) :
    UnreadableOrFreeAfterTotal lines := by
  by_cases readable : (readEntries lines).2 = .ok ()
  · have equal := (same ⟨0, 0⟩).trans (same ⟨1, 1⟩).symm
    rw [memStatus_of_fit (fit _), memStatus_of_fit (fit _), readable] at equal
    have start : Known.nothing.Differ ⟨0, 0⟩ ⟨1, 1⟩ := ⟨rfl, rfl⟩
    have differ := start.storeAll (readEntries lines).1
    rw [MemoryLocals.status_injective (Except.ok.inj equal)] at differ
    have known := (known_after_nothing _).1.mp differ.known_eq
    rw [readEntries_keys readable] at known
    exact .inr known
  · rw [readEntries_of_readable, not_not] at readable
    exact .inl readable

theorem determined_of_readable (fit : NoOverflow lines)
    (readable : (readEntries lines).2 = .ok ())
    (follows : [.memTotal, .memFree].Sublist (lines.filterMap lineKey)) (locals : MemoryLocals) :
    memStatus lines locals =
      .ok ((readEntries lines).1.foldl MemoryLocals.store ⟨0, 0⟩).status := by
  rw [← readEntries_keys readable] at follows
  have start : Known.nothing.Agree locals ⟨0, 0⟩ := ⟨by simp [Known.nothing],
    by simp [Known.nothing]⟩
  have agree := start.storeAll (readEntries lines).1
  rw [(known_after_nothing _).1.mpr follows] at agree
  rw [memStatus_of_fit (fit locals), readable, agree.eq]
  rfl

theorem exists_determined (fit : NoOverflow lines)
    (either : UnreadableOrFreeAfterTotal lines) :
    ∃ outcome, outcome ≠ .error .undefined ∧ ∀ locals, memStatus lines locals = outcome := by
  have defined := readEntries_ne_undefined lines
  cases read : (readEntries lines).2 with
  | error fault =>
      rw [read] at defined
      refine ⟨.error fault, by simpa using defined, fun locals => ?_⟩
      rw [memStatus_of_fit (fit locals), read]
      rfl
  | ok done =>
      have follows := either.resolve_left (readEntries_of_readable.mp read)
      exact ⟨_, by simp, determined_of_readable fit read follows⟩

end Determined

/-- The outcome is an exception or a status, the same whatever the accumulators
hold on entry, exactly when no sum overflows and either the number of an entry
cannot be read or the free memory comes after the total. -/
theorem memStatus_determined_iff (lines : List CxxString) :
    (∃ outcome, outcome ≠ .error .undefined ∧
      ∀ locals, memStatus lines locals = outcome) ↔
        UnreadableOrFreeAfterTotal lines ∧ NoOverflow lines := by
  constructor
  · rintro ⟨outcome, defined, same⟩
    have fit := noOverflow_of_determined defined same
    exact ⟨unreadableOrFreeAfterTotal_of_determined fit same, fit⟩
  · rintro ⟨either, fit⟩
    exact exists_determined fit either

/-- A file that cannot be opened counts as one without lines. -/
theorem memStatus_not_determined_unopened :
    ¬ ∃ outcome, outcome ≠ .error .undefined ∧
      ∀ locals, memStatus [] locals = outcome := by
  rintro ⟨outcome, defined, same⟩
  have equal := (same ⟨0, 0⟩).trans (same ⟨1, 0⟩).symm
  rw [memStatus_of_fit (noOverflow_of_determined defined same _),
    memStatus_of_fit (noOverflow_of_determined defined same _)] at equal
  have locals := MemoryLocals.status_injective (Except.ok.inj equal)
  revert locals
  decide

end Linux

end TmuxMemCpuLoad
