import TmuxMemCpuLoad.MemoryRange

/-!
# The sizes of large machines

Linux and FreeBSD keep the total and the used memory in `unsigned int` numbers
of kilobytes.  What is stored is the true size modulo `2 ^ 32` kilobytes, which
is the true size on machines below 4 TiB only.
-/

namespace TmuxMemCpuLoad

open StandardCxx

namespace FreeBsd

/-- What `mem_status` reads, all of it `u_int`. -/
structure PageCounts where
  pageSize : BitVec 32
  pageCount : BitVec 32
  wired : BitVec 32
  active : BitVec 32
  deriving DecidableEq, Repr

def memStatus (pages : PageCounts) : MemoryStatus :=
  let used := pages.active + pages.wired
  { usedMem := convertUnit (used * (pages.pageSize >>> 10)).toNat .megabytes .kilobytes
    totalMem :=
      convertUnit (pages.pageCount * (pages.pageSize >>> 10)).toNat .megabytes .kilobytes }

namespace PageCounts

variable (pages : PageCounts)

/-- The kilobytes of some pages. -/
def kilobytes (count : Nat) : Nat :=
  count * pages.pageSize.toNat / 1024

/-- A page size that is a power of two of at least 1024 bytes, and no more used
pages than there are. -/
structure Consistent : Prop where
  pageSize_eq : ∃ order, 10 ≤ order ∧ pages.pageSize.toNat = 2 ^ order
  used_le : pages.active.toNat + pages.wired.toNat ≤ pages.pageCount.toNat

variable {pages} (consistent : pages.Consistent)
include consistent

theorem kilobytes_eq (count : Nat) :
    pages.kilobytes count = count * (pages.pageSize.toNat / 1024) := by
  obtain ⟨order, atLeast, sizeEq⟩ := consistent.pageSize_eq
  obtain ⟨extra, rfl⟩ := Nat.exists_eq_add_of_le atLeast
  have power : 2 ^ (10 + extra) = 1024 * 2 ^ extra := by
    rw [pow_add]
    norm_num
  rw [kilobytes, sizeEq, power, Nat.mul_div_cancel_left _ (by omega), Nat.mul_left_comm,
    Nat.mul_div_cancel_left _ (by omega)]

/-- The product of 32-bit numbers is the number of kilobytes, narrowed. -/
theorem memStatus_eq :
    memStatus pages =
      ⟨((pages.kilobytes (pages.active.toNat + pages.wired.toNat) % 2 ^ 32 : Nat) : ℚ) / 1024,
        ((pages.kilobytes pages.pageCount.toNat % 2 ^ 32 : Nat) : ℚ) / 1024⟩ := by
  have usedFits : (pages.active.toNat + pages.wired.toNat) % 2 ^ 32 =
      pages.active.toNat + pages.wired.toNat :=
    Nat.mod_eq_of_lt (consistent.used_le.trans_lt pages.pageCount.isLt)
  have used : ((pages.active + pages.wired) * (pages.pageSize >>> 10)).toNat =
      pages.kilobytes (pages.active.toNat + pages.wired.toNat) % 2 ^ 32 := by
    rw [BitVec.toNat_mul, BitVec.toNat_add, usedFits, BitVec.toNat_ushiftRight,
      Nat.shiftRight_eq_div_pow, kilobytes_eq consistent]
  have total : (pages.pageCount * (pages.pageSize >>> 10)).toNat =
      pages.kilobytes pages.pageCount.toNat % 2 ^ 32 := by
    rw [BitVec.toNat_mul, BitVec.toNat_ushiftRight, Nat.shiftRight_eq_div_pow,
      kilobytes_eq consistent]
  simp [memStatus, used, total, convertUnit_eq, ByteUnit.value]

end PageCounts

end FreeBsd

/-- The outcome of reading a memory of which `total` kilobytes exist and `used`
are in use. -/
inductive SizedReading : Outcome MemoryStatus → Nat → Nat → Prop
  | linux {lines : List CxxString}
      {total free buffers cached shmem sReclaimable used : Nat}
      (locals : Linux.MemoryLocals)
      (reads : Linux.Reads lines
        (Linux.kernelEntries total free buffers cached shmem sReclaimable))
      (used_eq : (used : Int) = total + shmem - free - buffers - cached - sReclaimable)
      (atMost : used ≤ total) :
      SizedReading (Linux.memStatus lines locals) used total
  | freeBsd {pages : FreeBsd.PageCounts} (consistent : pages.Consistent) :
      SizedReading (.ok (FreeBsd.memStatus pages))
        (pages.kilobytes (pages.active.toNat + pages.wired.toNat))
        (pages.kilobytes pages.pageCount.toNat)

/-- The status holds the true sizes in megabytes, and a positive total is not
stored as zero. -/
def SizesSurvive (outcome : Outcome MemoryStatus) (used total : Nat) : Prop :=
  ∃ status, outcome = .ok status ∧ status.totalMem = (total : ℚ) / 1024 ∧
    status.usedMem = (used : ℚ) / 1024 ∧ (0 < total → status.totalMem ≠ 0)

section Sizes

variable {outcome : Outcome MemoryStatus} {used total : Nat}

theorem SizedReading.used_le (reading : SizedReading outcome used total) :
    used ≤ total := by
  cases reading with
  | linux locals reads used_eq atMost => exact atMost
  | freeBsd consistent =>
      apply Nat.div_le_div_right
      exact Nat.mul_le_mul_right _ consistent.used_le

/-- Both platforms store the sizes modulo `2 ^ 32` kilobytes. -/
theorem SizedReading.narrowed (reading : SizedReading outcome used total) :
    outcome = .ok ⟨((used % 2 ^ 32 : Nat) : ℚ) / 1024,
      ((total % 2 ^ 32 : Nat) : ℚ) / 1024⟩ := by
  cases reading with
  | linux locals reads used_eq atMost =>
      rw [Linux.memStatus_kernelEntries reads locals, ← used_eq, BitVec.ofInt_natCast,
        BitVec.toNat_ofNat, BitVec.toNat_ofNat]
  | freeBsd consistent => rw [FreeBsd.PageCounts.memStatus_eq consistent]

/-- The sizes survive exactly when the total is below `2 ^ 32` kilobytes. -/
theorem sizesSurvive_iff (reading : SizedReading outcome used total) :
    SizesSurvive outcome used total ↔ total < 2 ^ 32 := by
  have usedLe := reading.used_le
  rw [reading.narrowed]
  constructor
  · rintro ⟨status, stored, totalEq, _⟩
    cases stored
    have kept : ((total % 2 ^ 32 : Nat) : ℚ) = total :=
      (div_left_inj' (by norm_num)).mp totalEq
    have keptNat : total % 2 ^ 32 = total := by exact_mod_cast kept
    omega
  · intro fits
    rw [Nat.mod_eq_of_lt fits, Nat.mod_eq_of_lt (usedLe.trans_lt fits)]
    refine ⟨_, rfl, rfl, rfl, fun positive => ?_⟩
    have positiveRat : (0 : ℚ) < total := by exact_mod_cast positive
    positivity

end Sizes

/-- A thousand pages of 4096 bytes. -/
def samplePages : FreeBsd.PageCounts := ⟨4096, 1000, 200, 300⟩

theorem samplePages_consistent : samplePages.Consistent :=
  ⟨⟨12, by decide, by decide⟩, by decide⟩

theorem sizesSurvive_samplePages : SizesSurvive (.ok (FreeBsd.memStatus samplePages)) 2000 4000 :=
  (sizesSurvive_iff (.freeBsd samplePages_consistent)).mpr (by decide)

/-- Of 4 TiB the total is stored as zero. -/
theorem not_sizesSurvive_fourTebibytes :
    SizedReading (.ok (FreeBsd.memStatus ⟨4096, 2 ^ 30, 200, 300⟩)) 2000 (2 ^ 32) ∧
      FreeBsd.memStatus ⟨4096, 2 ^ 30, 200, 300⟩ = ⟨2000 / 1024, 0⟩ ∧
      ¬ SizesSurvive (.ok (FreeBsd.memStatus ⟨4096, 2 ^ 30, 200, 300⟩)) 2000 (2 ^ 32) := by
  have status : FreeBsd.memStatus ⟨4096, 2 ^ 30, 200, 300⟩ = ⟨2000 / 1024, 0⟩ := by
    decide +kernel
  have consistent : FreeBsd.PageCounts.Consistent ⟨4096, 2 ^ 30, 200, 300⟩ :=
    ⟨⟨12, by decide, by decide⟩, by decide⟩
  refine ⟨.freeBsd consistent, status, ?_⟩
  rw [status]
  rintro ⟨_, stored, _, _, nonzero⟩
  cases stored
  exact nonzero (by norm_num) rfl

end TmuxMemCpuLoad
