import TmuxMemCpuLoad.MeminfoEntries

/-!
# The range of the memory status

The used memory selects a colour and is shown as a size or a percentage, for
which it must lie between zero and the total.  On Linux it does so exactly when
the memory that does not count as used is at most the total.
-/

namespace TmuxMemCpuLoad

open StandardCxx

/-- A status is returned of which `mem_string` can make sense: no more is used
than there is, the colour index selects an entry of the table, the free memory
is not negative and the percentage is at most 100. -/
def MemoryInRange (outcome : Outcome MemoryStatus) : Prop :=
  ∃ status, outcome = .ok status ∧ status.usedMem ≤ status.totalMem ∧
    (∃ percentage entry, memPercentage status = some percentage ∧
      toUnsigned percentage ≤ 100 ∧ lutEntry memLut (toUnsigned percentage) = .ok entry) ∧
    0 ≤ status.freeMem ∧ status.percentageMem ≤ 100

/-- It is enough that the used memory lies between zero and a positive
total. -/
theorem memoryInRange_iff {status : MemoryStatus} (nonneg : 0 ≤ status.usedMem)
    (positive : 0 < status.totalMem) :
    MemoryInRange (.ok status) ↔ status.usedMem ≤ status.totalMem := by
  constructor
  · rintro ⟨returned, equal, atMost, _⟩
    cases equal
    exact atMost
  · intro atMost
    obtain ⟨percentage, defined, index⟩ := memPercentage_index status nonneg atMost positive
    obtain ⟨entry, found⟩ := memLut_wellFormed.lutEntry_eq_ok_iff.mpr index
    refine ⟨status, rfl, atMost, ⟨percentage, entry, defined, index, found⟩, ?_, ?_⟩
    · unfold MemoryStatus.freeMem
      linarith
    · have ratio : status.usedMem / status.totalMem ≤ 1 := (div_le_one positive).mpr atMost
      unfold MemoryStatus.percentageMem
      linarith

namespace Linux

def kernelEntries (total free buffers cached shmem sReclaimable : Nat) :
    List (MeminfoKey × Nat) :=
  [(.memTotal, total), (.memFree, free), (.buffers, buffers), (.cached, cached),
    (.shmem, shmem), (.sReclaimable, sReclaimable)]

section KernelOrder

variable {lines : List CxxString} {total free buffers cached shmem sReclaimable : Nat}
  (reads : Reads lines (kernelEntries total free buffers cached shmem sReclaimable))
include reads

theorem memStatus_kernelEntries (locals : MemoryLocals) :
    memStatus lines locals =
      .ok ⟨(BitVec.ofInt 32
          ((total : Int) + shmem - free - buffers - cached - sReclaimable)).toNat / 1024,
        (BitVec.ofNat 32 total).toNat / 1024⟩ := by
  have values : usedKilobytes total free [(.buffers, buffers), (.cached, cached),
      (.shmem, shmem), (.sReclaimable, sReclaimable)] =
      (total : Int) + shmem - free - buffers - cached - sReclaimable := by
    simp [usedKilobytes, entryValue_cons]
  rw [memStatus_of_reads reads (by simp [OtherKeys]) (by simp) locals, values]

/-- On a file in kernel order the status is in range exactly when the memory
that does not count as used, modulo `2 ^ 32`, is at most the total. -/
theorem memStatus_inRange_iff (totalLt : total < 2 ^ 32) (positive : 0 < total)
    (locals : MemoryLocals) :
    MemoryInRange (memStatus lines locals) ↔
      ((free : Int) + buffers + cached + sReclaimable - shmem) % 2 ^ 32 ≤ total := by
  have totalEq : (BitVec.ofNat 32 total).toNat = total :=
    (BitVec.toNat_ofNat ..).trans (Nat.mod_eq_of_lt totalLt)
  have totalPositive : (0 : ℚ) < (total : ℚ) / 1024 := by
    have : (0 : ℚ) < total := by exact_mod_cast positive
    positivity
  rw [memStatus_kernelEntries reads, totalEq, memoryInRange_iff (by positivity) totalPositive,
    div_le_div_iff_of_pos_right (by norm_num), Nat.cast_le, BitVec.toNat_ofInt]
  omega

end KernelOrder

def sampleMeminfo (free : Nat) (short : (entryText .memFree free).length < 2 ^ 63) :
    List CxxString :=
  [entryLine .memTotal 1000 (by decide), entryLine .memFree free short,
    entryLine .buffers 50 (by decide), entryLine .cached 60 (by decide),
    entryLine .shmem 0 (by decide), entryLine .sReclaimable 0 (by decide)]

theorem sampleMeminfo_reads {free : Nat} (bounded : free < 2 ^ 62)
    (short : (entryText .memFree free).length < 2 ^ 63) :
    Reads (sampleMeminfo free short) (kernelEntries 1000 free 50 60 0 0) :=
  .entry (isEntry_entryLine (by decide)) (.entry (isEntry_entryLine bounded)
    (.entry (isEntry_entryLine (by decide)) (.entry (isEntry_entryLine (by decide))
      (.entry (isEntry_entryLine (by decide)) (.entry (isEntry_entryLine (by decide))
        .nil)))))

theorem memStatus_inRange_sample :
    MemoryInRange (memStatus (sampleMeminfo 500 (by decide)) ⟨0, 0⟩) :=
  (memStatus_inRange_iff (sampleMeminfo_reads (by decide) _) (by decide) (by decide)
    ⟨0, 0⟩).mpr (by decide)

/-- With 900 kB free, more is free or reclaimable than there is in total, and
4294967286 kB are reported as used. -/
theorem memStatus_not_inRange :
    memStatus (sampleMeminfo 900 (by decide)) ⟨0, 0⟩ =
        .ok ⟨4294967286 / 1024, 1000 / 1024⟩ ∧
      ¬ MemoryInRange (memStatus (sampleMeminfo 900 (by decide)) ⟨0, 0⟩) := by
  have status : memStatus (sampleMeminfo 900 (by decide)) ⟨0, 0⟩ =
      .ok ⟨4294967286 / 1024, 1000 / 1024⟩ := by
    rw [memStatus_kernelEntries (sampleMeminfo_reads (by decide) _)]
    simp
  refine ⟨status, ?_⟩
  rw [status, memoryInRange_iff (by norm_num) (by norm_num)]
  norm_num

end Linux

end TmuxMemCpuLoad
