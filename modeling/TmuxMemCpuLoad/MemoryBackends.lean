import TmuxMemCpuLoad.MeminfoEntries

/-!
# The memory status of all platforms

OpenBSD, macOS and Windows report counters where Linux reads a text.  When only
the free memory differs between two readings, the used memory should differ by
as much in the other direction, on every platform.
-/

namespace TmuxMemCpuLoad

open StandardCxx

namespace OpenBsd

structure Uvmexp where
  npages : Int
  free : Int
  pageshift : Nat
  numbufpages : Int
  deriving DecidableEq, Repr

/-- `mem_status`: the pages are widened to `uint64_t` and the results are kept
in `int64_t`. -/
def memStatus (uvmexp : Uvmexp) : MemoryStatus :=
  let usedMem : BitVec 64 :=
    (BitVec.ofInt 64 uvmexp.npages - BitVec.ofInt 64 uvmexp.free) <<< uvmexp.pageshift
  let usedMem := usedMem - BitVec.ofInt 64 uvmexp.numbufpages <<< uvmexp.pageshift
  let totalMem := BitVec.ofInt 64 uvmexp.npages <<< uvmexp.pageshift
  { usedMem := convertUnit usedMem.toInt .megabytes .bytes
    totalMem := convertUnit totalMem.toInt .megabytes .bytes }

def Uvmexp.bytes (uvmexp : Uvmexp) (pages : Int) : Int :=
  pages * 2 ^ uvmexp.pageshift

def Uvmexp.usedPages (uvmexp : Uvmexp) : Int :=
  uvmexp.npages - uvmexp.free - uvmexp.numbufpages

/-- The total and the used memory fit `int64_t`. -/
structure Uvmexp.NoWrap (uvmexp : Uvmexp) : Prop where
  total_ge : -2 ^ 63 ≤ uvmexp.bytes uvmexp.npages
  total_lt : uvmexp.bytes uvmexp.npages < 2 ^ 63
  used_ge : -2 ^ 63 ≤ uvmexp.bytes uvmexp.usedPages
  used_lt : uvmexp.bytes uvmexp.usedPages < 2 ^ 63

/-- Reduced once or after each step, the numbers of bytes are the same. -/
theorem memStatus_eq_toInt (uvmexp : Uvmexp) :
    memStatus uvmexp =
      ⟨((BitVec.ofInt 64 (uvmexp.bytes uvmexp.usedPages)).toInt : ℚ) / 1024 ^ 2,
        ((BitVec.ofInt 64 (uvmexp.bytes uvmexp.npages)).toInt : ℚ) / 1024 ^ 2⟩ := by
  have used : (BitVec.ofInt 64 uvmexp.npages - BitVec.ofInt 64 uvmexp.free) <<<
        uvmexp.pageshift - BitVec.ofInt 64 uvmexp.numbufpages <<< uvmexp.pageshift =
      BitVec.ofInt 64 (uvmexp.bytes uvmexp.usedPages) := by
    rw [← ofInt_sub, ofInt_shiftLeft, ofInt_shiftLeft, ← ofInt_sub, ← Int.sub_mul]
    rfl
  have total : BitVec.ofInt 64 uvmexp.npages <<< uvmexp.pageshift =
      BitVec.ofInt 64 (uvmexp.bytes uvmexp.npages) :=
    ofInt_shiftLeft uvmexp.npages uvmexp.pageshift
  simp only [memStatus, used, total, convertUnit_eq, ByteUnit.value]

theorem memStatus_eq {uvmexp : Uvmexp} (noWrap : uvmexp.NoWrap) :
    memStatus uvmexp =
      ⟨(uvmexp.bytes uvmexp.usedPages : ℚ) / 1024 ^ 2,
        (uvmexp.bytes uvmexp.npages : ℚ) / 1024 ^ 2⟩ := by
  have exact : ∀ bytes : Int, -2 ^ 63 ≤ bytes → bytes < 2 ^ 63 →
      (BitVec.ofInt 64 bytes).toInt = bytes :=
    fun bytes lower upper => BitVec.toInt_ofInt_eq_self (by decide) lower upper
  rw [memStatus_eq_toInt, exact _ noWrap.used_ge noWrap.used_lt,
    exact _ noWrap.total_ge noWrap.total_lt]

end OpenBsd

namespace Osx

/-- The fields of `vm_statistics64` that `mem_status` reads, of type
`natural_t`. -/
structure VmStatistics where
  freeCount : BitVec 32
  externalPageCount : BitVec 32
  speculativeCount : BitVec 32
  deriving DecidableEq, Repr

/-- `mem_status`, given `hw.memsize` and, if the kernel answers, the page size
and the statistics. -/
def memStatus (totalMem : BitVec 64) (answer : Option (BitVec 64 × VmStatistics)) :
    MemoryStatus :=
  let availableMem : ℚ :=
    match answer with
    | none => 0
    | some (pageSize, vmStats) =>
        ((vmStats.freeCount + vmStats.externalPageCount -
          vmStats.speculativeCount).setWidth 64 * pageSize).toNat
  { usedMem := convertUnit (totalMem.toNat - availableMem) .megabytes .bytes
    totalMem := convertUnit totalMem.toNat .megabytes .bytes }

def VmStatistics.availablePages (vmStats : VmStatistics) : Int :=
  vmStats.freeCount.toNat + vmStats.externalPageCount.toNat - vmStats.speculativeCount.toNat

/-- The available pages fit `natural_t` and their bytes 64 bits. -/
structure VmStatistics.NoWrap (vmStats : VmStatistics) (pageSize : BitVec 64) : Prop where
  pages_nonneg : 0 ≤ vmStats.availablePages
  pages_lt : vmStats.availablePages < 2 ^ 32
  bytes_lt : vmStats.availablePages * pageSize.toNat < 2 ^ 64

theorem memStatus_eq (totalMem : BitVec 64) {pageSize : BitVec 64}
    {vmStats : VmStatistics} (noWrap : vmStats.NoWrap pageSize) :
    memStatus totalMem (some (pageSize, vmStats)) =
      ⟨((totalMem.toNat : ℚ) - vmStats.availablePages * pageSize.toNat) / 1024 ^ 2,
        (totalMem.toNat : ℚ) / 1024 ^ 2⟩ := by
  obtain ⟨nonneg, pagesLt, bytesLt⟩ := noWrap
  obtain ⟨pages, pagesEq⟩ := Int.eq_ofNat_of_zero_le nonneg
  have counted : (vmStats.freeCount + vmStats.externalPageCount -
      vmStats.speculativeCount).toNat = pages := by
    have speculativeLt := vmStats.speculativeCount.isLt
    unfold VmStatistics.availablePages at pagesEq pagesLt
    rw [BitVec.toNat_sub, BitVec.toNat_add]
    omega
  rw [pagesEq] at bytesLt ⊢
  have bytes : pages * pageSize.toNat < 2 ^ 64 := by exact_mod_cast bytesLt
  have widened : ((vmStats.freeCount + vmStats.externalPageCount -
      vmStats.speculativeCount).setWidth 64 * pageSize).toNat = pages * pageSize.toNat := by
    rw [BitVec.toNat_mul, BitVec.toNat_setWidth_of_le (by decide), counted,
      Nat.mod_eq_of_lt bytes]
  simp only [memStatus, widened, convertUnit_eq, ByteUnit.value]
  push_cast
  rfl

end Osx

namespace Windows

/-- `mem_status` on the fields of `MEMORYSTATUSEX`: what is stored as used is
the available memory. -/
def memStatus (ullAvailPhys ullTotalPhys : BitVec 64) : MemoryStatus where
  usedMem := convertUnit ullAvailPhys.toNat .megabytes .bytes
  totalMem := convertUnit ullTotalPhys.toNat .megabytes .bytes

end Windows

/-! ## Used memory and free memory -/

/-- The platforms whose `mem_status` reads a free or available counter. -/
inductive MemoryBackend
  | linux
  | openBsd
  | osx
  | windows
  deriving DecidableEq, Repr

/-- The statuses of two readings on one platform that differ in the free memory
only, and the free memory of each in megabytes. -/
inductive DiffersInFree :
    MemoryBackend → Outcome MemoryStatus → Outcome MemoryStatus → ℚ → ℚ → Prop
  | linux {lines1 lines2 : List CxxString} {total free1 free2 : Nat}
      {others : List (Linux.MeminfoKey × Nat)} (locals : Linux.MemoryLocals)
      (reads1 : Linux.Reads lines1 ((.memTotal, total) :: (.memFree, free1) :: others))
      (reads2 : Linux.Reads lines2 ((.memTotal, total) :: (.memFree, free2) :: others))
      (apart : Linux.OtherKeys others) (once : (others.map Prod.fst).Nodup)
      (noWrap1 : 0 ≤ Linux.usedKilobytes total free1 others ∧
        Linux.usedKilobytes total free1 others < 2 ^ 32)
      (noWrap2 : 0 ≤ Linux.usedKilobytes total free2 others ∧
        Linux.usedKilobytes total free2 others < 2 ^ 32) :
      DiffersInFree .linux (Linux.memStatus lines1 locals) (Linux.memStatus lines2 locals)
        (free1 / 1024) (free2 / 1024)
  | openBsd (uvmexp : OpenBsd.Uvmexp) (free : Int) (noWrap1 : uvmexp.NoWrap)
      (noWrap2 : { uvmexp with free := free }.NoWrap) :
      DiffersInFree .openBsd (.ok (OpenBsd.memStatus uvmexp))
        (.ok (OpenBsd.memStatus { uvmexp with free := free }))
        (uvmexp.bytes uvmexp.free / 1024 ^ 2) (uvmexp.bytes free / 1024 ^ 2)
  | osx (totalMem pageSize : BitVec 64) (vmStats : Osx.VmStatistics)
      (freeCount : BitVec 32) (noWrap1 : vmStats.NoWrap pageSize)
      (noWrap2 : { vmStats with freeCount := freeCount }.NoWrap pageSize) :
      DiffersInFree .osx (.ok (Osx.memStatus totalMem (some (pageSize, vmStats))))
        (.ok (Osx.memStatus totalMem
          (some (pageSize, { vmStats with freeCount := freeCount }))))
        (vmStats.freeCount.toNat * pageSize.toNat / 1024 ^ 2)
        (freeCount.toNat * pageSize.toNat / 1024 ^ 2)
  | windows (ullAvailPhys1 ullAvailPhys2 ullTotalPhys : BitVec 64) :
      DiffersInFree .windows (.ok (Windows.memStatus ullAvailPhys1 ullTotalPhys))
        (.ok (Windows.memStatus ullAvailPhys2 ullTotalPhys))
        (ullAvailPhys1.toNat / 1024 ^ 2) (ullAvailPhys2.toNat / 1024 ^ 2)

/-- Both readings return a status with the same total, and the used memory
shrinks by the memory that is free in addition. -/
def UsedFollowsFree (first second : Outcome MemoryStatus) (free1 free2 : ℚ) : Prop :=
  ∃ status1 status2, first = .ok status1 ∧ second = .ok status2 ∧
    status1.totalMem = status2.totalMem ∧
    status1.usedMem - status2.usedMem = free2 - free1

theorem Linux.memStatus_of_fits {lines : List CxxString} {total free : Nat}
    {others : List (Linux.MeminfoKey × Nat)}
    (reads : Linux.Reads lines ((.memTotal, total) :: (.memFree, free) :: others))
    (apart : Linux.OtherKeys others) (once : (others.map Prod.fst).Nodup)
    (locals : Linux.MemoryLocals)
    (noWrap : 0 ≤ Linux.usedKilobytes total free others ∧
      Linux.usedKilobytes total free others < 2 ^ 32) :
    Linux.memStatus lines locals =
      .ok ⟨(Linux.usedKilobytes total free others : ℚ) / 1024,
        ((BitVec.ofNat 32 total).toNat : ℚ) / 1024⟩ := by
  have used : ((BitVec.ofInt 32 (Linux.usedKilobytes total free others)).toNat : Int) =
      Linux.usedKilobytes total free others :=
    toNat_ofInt_of_range noWrap.1 noWrap.2
  have usedRat : ((BitVec.ofInt 32 (Linux.usedKilobytes total free others)).toNat : ℚ) =
      (Linux.usedKilobytes total free others : ℚ) := by
    exact_mod_cast used
  rw [Linux.memStatus_of_reads reads apart once locals, usedRat]

section Pairs

variable {first second : Outcome MemoryStatus} {free1 free2 : ℚ}

theorem DiffersInFree.usedFollowsFree {backend : MemoryBackend}
    (pair : DiffersInFree backend first second free1 free2)
    (notWindows : backend ≠ .windows) : UsedFollowsFree first second free1 free2 := by
  cases pair with
  | linux locals reads1 reads2 apart once noWrap1 noWrap2 =>
      refine ⟨_, _, Linux.memStatus_of_fits reads1 apart once locals noWrap1,
        Linux.memStatus_of_fits reads2 apart once locals noWrap2, rfl, ?_⟩
      simp only [Linux.usedKilobytes]
      push_cast
      ring
  | openBsd uvmexp free noWrap1 noWrap2 =>
      refine ⟨_, _, rfl, rfl, ?_, ?_⟩
      · rw [OpenBsd.memStatus_eq noWrap1, OpenBsd.memStatus_eq noWrap2]
        rfl
      · rw [OpenBsd.memStatus_eq noWrap1, OpenBsd.memStatus_eq noWrap2]
        simp only [OpenBsd.Uvmexp.bytes, OpenBsd.Uvmexp.usedPages]
        push_cast
        ring
  | osx totalMem pageSize vmStats freeCount noWrap1 noWrap2 =>
      refine ⟨_, _, rfl, rfl, ?_, ?_⟩
      · rw [Osx.memStatus_eq totalMem noWrap1, Osx.memStatus_eq totalMem noWrap2]
      · rw [Osx.memStatus_eq totalMem noWrap1, Osx.memStatus_eq totalMem noWrap2]
        simp only [Osx.VmStatistics.availablePages]
        push_cast
        ring
  | windows => exact absurd rfl notWindows

/-- On Windows the used memory grows with the free memory. -/
theorem usedFollowsFree_windows_iff
    (pair : DiffersInFree .windows first second free1 free2) :
    UsedFollowsFree first second free1 free2 ↔ free1 = free2 := by
  cases pair with
  | windows ullAvailPhys1 ullAvailPhys2 ullTotalPhys =>
      have used : ∀ available : BitVec 64,
          (Windows.memStatus available ullTotalPhys).usedMem =
            (available.toNat : ℚ) / 1024 ^ 2 :=
        fun available => convertUnit_eq _ _ _
      constructor
      · rintro ⟨status1, status2, first, second, _, follows⟩
        cases first
        cases second
        rw [used, used] at follows
        linarith
      · intro equal
        refine ⟨_, _, rfl, rfl, rfl, ?_⟩
        rw [used, used, equal]

/-- The used memory follows the free memory exactly when the platform is not
Windows or nothing changes. -/
theorem usedFollowsFree_iff {backend : MemoryBackend}
    (pair : DiffersInFree backend first second free1 free2) :
    UsedFollowsFree first second free1 free2 ↔
      backend ≠ .windows ∨ free1 = free2 := by
  cases backend with
  | windows => simpa using usedFollowsFree_windows_iff pair
  | linux => simpa using pair.usedFollowsFree (by decide)
  | openBsd => simpa using pair.usedFollowsFree (by decide)
  | osx => simpa using pair.usedFollowsFree (by decide)

end Pairs

def sampleUvmexp : OpenBsd.Uvmexp where
  npages := 1000
  free := 300
  pageshift := 12
  numbufpages := 100

/-- On OpenBSD a hundred free pages more are a hundred used pages less. -/
theorem usedFollowsFree_openBsd :
    UsedFollowsFree (.ok (OpenBsd.memStatus sampleUvmexp))
      (.ok (OpenBsd.memStatus { sampleUvmexp with free := 400 }))
      (sampleUvmexp.bytes 300 / 1024 ^ 2) (sampleUvmexp.bytes 400 / 1024 ^ 2) :=
  (usedFollowsFree_iff (.openBsd sampleUvmexp 400
    ⟨by decide, by decide, by decide, by decide⟩
    ⟨by decide, by decide, by decide, by decide⟩)).mpr (Or.inl (by decide))

/-- On Windows one more gigabyte available is one more gigabyte in use. -/
theorem not_usedFollowsFree_windows :
    Windows.memStatus (2 * 2 ^ 30) (8 * 2 ^ 30) = ⟨2048, 8192⟩ ∧
      Windows.memStatus (3 * 2 ^ 30) (8 * 2 ^ 30) = ⟨3072, 8192⟩ ∧
      ∃ free1 free2,
        DiffersInFree .windows (.ok (Windows.memStatus (2 * 2 ^ 30) (8 * 2 ^ 30)))
          (.ok (Windows.memStatus (3 * 2 ^ 30) (8 * 2 ^ 30))) free1 free2 ∧
        ¬ UsedFollowsFree (.ok (Windows.memStatus (2 * 2 ^ 30) (8 * 2 ^ 30)))
          (.ok (Windows.memStatus (3 * 2 ^ 30) (8 * 2 ^ 30))) free1 free2 := by
  have pair := DiffersInFree.windows (2 * 2 ^ 30) (3 * 2 ^ 30) (8 * 2 ^ 30)
  refine ⟨by decide +kernel, by decide +kernel, _, _, pair, ?_⟩
  rw [usedFollowsFree_windows_iff pair]
  decide +kernel

end TmuxMemCpuLoad
