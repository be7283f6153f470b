import TmuxMemCpuLoad.LinuxMemory

/-!
# The entries of `/proc/meminfo`

The loop of `mem_status` depends on the entries of the file only, and on those
after the free memory through the sum of their contributions.  The result is
the documented formula modulo `2 ^ 32`, which need not be a size between zero
and the total.
-/

namespace TmuxMemCpuLoad

open StandardCxx

namespace Linux

/-- The entries of the lines, in their order, with any foreign lines between
them. -/
inductive Reads : List CxxString → List (MeminfoKey × Nat) → Prop
  | nil : Reads [] []
  | foreign {line : CxxString} {lines : List CxxString}
      {entries : List (MeminfoKey × Nat)} (foreign : IsForeign line)
      (reads : Reads lines entries) : Reads (line :: lines) entries
  | entry {line : CxxString} {lines : List CxxString} {key : MeminfoKey} {value : Nat}
      {entries : List (MeminfoKey × Nat)} (entry : IsEntry line key value)
      (reads : Reads lines entries) : Reads (line :: lines) ((key, value) :: entries)

def storeAll (locals : MemoryLocals) (entries : List (MeminfoKey × Nat)) :
    MemoryLocals :=
  entries.foldl (fun locals entry => locals.store (entry.1, entry.2)) locals

theorem memLoop_of_reads {lines : List CxxString} {entries : List (MeminfoKey × Nat)}
    (reads : Reads lines entries) (locals : MemoryLocals) :
    memLoop lines locals = .ok (storeAll locals entries) := by
  induction reads generalizing locals with
  | nil => rfl
  | foreign foreign _ induction =>
      rw [memLoop, List.foldlM_cons, memLine_foreign foreign, Outcome.ok_bind]
      exact induction locals
  | entry entry _ induction =>
      rw [memLoop, List.foldlM_cons, memLine_entry entry, Outcome.ok_bind]
      exact induction _

/-! ## Entries after the free memory -/

/-- What an entry after the free memory adds to the used memory. -/
def contribution : MeminfoKey × Nat → Int
  | (.shmem, value) => value
  | (.buffers, value) | (.cached, value) | (.sReclaimable, value) => -value
  | (.memTotal, _) | (.memFree, _) => 0

/-- The value under a key, zero when it is missing. -/
def entryValue (key : MeminfoKey) (entries : List (MeminfoKey × Nat)) : Nat :=
  (entries.lookup key).getD 0

/-- `total_ram + shmem - free_ram - buffered_ram - cached_ram - srclaimable`. -/
def usedKilobytes (total free : Nat) (others : List (MeminfoKey × Nat)) : Int :=
  total + entryValue .shmem others - free - entryValue .buffers others -
    entryValue .cached others - entryValue .sReclaimable others

def OtherKeys (entries : List (MeminfoKey × Nat)) : Prop :=
  ∀ entry ∈ entries, entry.1 ≠ .memTotal ∧ entry.1 ≠ .memFree

theorem store_other (locals : MemoryLocals) {key : MeminfoKey} (value : Nat)
    (other : key ≠ .memTotal ∧ key ≠ .memFree) :
    locals.store (key, value) =
      { locals with
        usedMem := locals.usedMem + BitVec.ofInt 32 (contribution (key, value)) } := by
  cases key <;>
    simp_all [MemoryLocals.store, contribution, BitVec.ofInt_neg, BitVec.sub_eq_add_neg]

theorem storeAll_others (locals : MemoryLocals) {others : List (MeminfoKey × Nat)}
    (apart : OtherKeys others) :
    storeAll locals others =
      { locals with
        usedMem := locals.usedMem + BitVec.ofInt 32 (others.map contribution).sum } := by
  induction others generalizing locals with
  | nil => simp [storeAll]
  | cons entry others induction =>
      have rest : OtherKeys others := fun other member => apart other (by simp [member])
      have step : storeAll locals (entry :: others) =
          storeAll (locals.store (entry.1, entry.2)) others := rfl
      rw [step, induction _ rest, store_other locals entry.2 (apart entry (by simp))]
      simp [BitVec.ofInt_add, BitVec.add_assoc]

theorem entryValue_cons (key : MeminfoKey) (entry : MeminfoKey × Nat)
    (entries : List (MeminfoKey × Nat)) :
    entryValue key (entry :: entries) =
      if key = entry.1 then entry.2 else entryValue key entries := by
  obtain ⟨other, value⟩ := entry
  by_cases same : key = other
  · simp [entryValue, same]
  · have different : (key == other) = false := by simpa using same
    simp [entryValue, List.lookup_cons, same, different]

theorem entryValue_of_not_mem {key : MeminfoKey} {entries : List (MeminfoKey × Nat)}
    (missing : key ∉ entries.map Prod.fst) : entryValue key entries = 0 := by
  have none : entries.lookup key = none := by
    rw [List.lookup_eq_none_iff]
    intro entry member
    have different : key ≠ entry.1 := by
      rintro rfl
      exact missing (List.mem_map_of_mem member)
    simpa using different
  rw [entryValue, none]
  rfl

theorem sum_contribution {others : List (MeminfoKey × Nat)}
    (once : (others.map Prod.fst).Nodup) :
    (others.map contribution).sum =
      (entryValue .shmem others : Int) - entryValue .buffers others -
        entryValue .cached others - entryValue .sReclaimable others := by
  induction others with
  | nil => rfl
  | cons entry others induction =>
      obtain ⟨key, value⟩ := entry
      rw [List.map_cons, List.nodup_cons] at once
      have missing := entryValue_of_not_mem once.1
      rw [List.map_cons, List.sum_cons, induction once.2]
      simp only [entryValue_cons]
      cases key <;> simp only [contribution] <;> simp_all <;> ring

/-! ## The documented formula -/

/-- The accumulators at the end: the total and the documented formula, modulo
`2 ^ 32`. -/
def finalLocals (total free : Nat) (others : List (MeminfoKey × Nat)) : MemoryLocals where
  totalMem := BitVec.ofNat 32 total
  usedMem := BitVec.ofInt 32 (usedKilobytes total free others)

theorem storeAll_eq_finalLocals (locals : MemoryLocals) (total free : Nat)
    {others : List (MeminfoKey × Nat)} (apart : OtherKeys others)
    (once : (others.map Prod.fst).Nodup) :
    storeAll locals ((.memTotal, total) :: (.memFree, free) :: others) =
      finalLocals total free others := by
  have start : storeAll locals ((.memTotal, total) :: (.memFree, free) :: others) =
      storeAll ⟨BitVec.ofInt 32 total, BitVec.ofInt 32 total - BitVec.ofInt 32 free⟩
        others := rfl
  have formula : usedKilobytes total free others =
      ((total : Int) - free) + (others.map contribution).sum := by
    rw [sum_contribution once, usedKilobytes]
    ring
  rw [start, storeAll_others _ apart, finalLocals, formula, BitVec.ofInt_add, ofInt_sub]
  rfl

/-- The documented formula does not depend on the order of the other entries. -/
theorem usedKilobytes_perm (total free : Nat) {others reordered : List (MeminfoKey × Nat)}
    (once : (others.map Prod.fst).Nodup) (same : others.Perm reordered) :
    usedKilobytes total free reordered = usedKilobytes total free others := by
  have reonce : (reordered.map Prod.fst).Nodup := (same.map Prod.fst).nodup_iff.mp once
  have sums := (same.map contribution).sum_eq
  rw [sum_contribution once, sum_contribution reonce] at sums
  unfold usedKilobytes
  linarith

theorem memLoop_eq_finalLocals {lines : List CxxString} {total free : Nat}
    {others : List (MeminfoKey × Nat)}
    (reads : Reads lines ((.memTotal, total) :: (.memFree, free) :: others))
    (apart : OtherKeys others) (once : (others.map Prod.fst).Nodup)
    (locals : MemoryLocals) :
    memLoop lines locals = .ok (finalLocals total free others) := by
  rw [memLoop_of_reads reads, storeAll_eq_finalLocals _ _ _ apart once]

/-- On a file whose entries start with the total and the free memory, the loop
computes the documented formula.  Neither the order of the other entries nor
the foreign lines nor the initial values matter. -/
theorem memLoop_computes_formula {lines : List CxxString} {total free : Nat}
    {others : List (MeminfoKey × Nat)}
    (reads : Reads lines ((.memTotal, total) :: (.memFree, free) :: others))
    (apart : OtherKeys others) (once : (others.map Prod.fst).Nodup)
    (locals : MemoryLocals) :
    memLoop lines locals = .ok (finalLocals total free others) ∧
      ∀ relocated reordered initial,
        Reads relocated ((.memTotal, total) :: (.memFree, free) :: reordered) →
        others.Perm reordered →
        memLoop relocated initial = .ok (finalLocals total free others) := by
  refine ⟨memLoop_eq_finalLocals reads apart once locals, ?_⟩
  intro relocated reordered initial rereads same
  have reapart : OtherKeys reordered :=
    fun entry member => apart entry (same.mem_iff.mpr member)
  have reonce : (reordered.map Prod.fst).Nodup := (same.map Prod.fst).nodup_iff.mp once
  rw [memLoop_eq_finalLocals rereads reapart reonce, finalLocals,
    usedKilobytes_perm total free once same, finalLocals]

/-- The accumulators are divided once: the values come in kilobytes. -/
theorem memStatus_of_reads {lines : List CxxString} {total free : Nat}
    {others : List (MeminfoKey × Nat)}
    (reads : Reads lines ((.memTotal, total) :: (.memFree, free) :: others))
    (apart : OtherKeys others) (once : (others.map Prod.fst).Nodup)
    (locals : MemoryLocals) :
    memStatus lines locals =
      .ok ⟨(BitVec.ofInt 32 (usedKilobytes total free others)).toNat / 1024,
        (BitVec.ofNat 32 total).toNat / 1024⟩ := by
  rw [memStatus, memLoop_eq_finalLocals reads apart once locals]
  simp [finalLocals, convertUnit_eq, ByteUnit.value]

/-- An entry as the kernel writes it. -/
def entryText (key : MeminfoKey) (value : Nat) : List Char :=
  key.name ++ ':' :: (List.replicate 8 ' ' ++ (Nat.toDigits 10 value ++ " kB".toList))

def entryLine (key : MeminfoKey) (value : Nat)
    (short : (entryText key value).length < 2 ^ 63) : CxxString :=
  ⟨entryText key value, short⟩

theorem isEntry_entryLine {key : MeminfoKey} {value : Nat}
    {short : (entryText key value).length < 2 ^ 63} (bounded : value < 2 ^ 62) :
    IsEntry (entryLine key value short) key value where
  shape := ⟨8, Nat.toDigits 10 value, " kB".toList, rfl, Nat.toDigits_ne_nil,
    fun _ member => Nat.isDigit_of_mem_toDigits (by decide) (by decide) member,
    Nat.ofDigitChars_ten_toDigits, Or.inr rfl⟩
  bounded := bounded

def kernelStackLine : CxxString := ⟨"KernelStack: 9 kB".toList, by decide⟩

theorem isForeign_kernelStackLine : IsForeign kernelStackLine := by
  intro key
  cases key <;> decide +kernel

/-- Cached memory and a foreign line after the free memory. -/
theorem memLoop_computes_formula_sample :
    memLoop [entryLine .memTotal 1000 (by decide), entryLine .memFree 300 (by decide),
      kernelStackLine, entryLine .cached 200 (by decide)] ⟨7, 7⟩ =
      .ok (finalLocals 1000 300 [(.cached, 200)]) :=
  (memLoop_computes_formula
    (.entry (isEntry_entryLine (by decide)) (.entry (isEntry_entryLine (by decide))
      (.foreign isForeign_kernelStackLine (.entry (isEntry_entryLine (by decide)) .nil))))
    (by simp [OtherKeys]) (by simp) ⟨7, 7⟩).1

end Linux

end TmuxMemCpuLoad
