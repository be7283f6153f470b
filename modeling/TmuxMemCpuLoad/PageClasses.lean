import TmuxMemCpuLoad.MemoryBackends
import TmuxMemCpuLoad.MemoryRange

/-!
# The classes of pages

NetBSD, OpenBSD and macOS report how many pages are in each of several classes.
The memory in use is a difference of such counts, and is a size only where the
class that is taken away is part of what it is taken away from.
-/

namespace TmuxMemCpuLoad

open StandardCxx

namespace NetBsd

/-- The fields of `uvmexp_sysctl` that `mem_status` reads, of type `int64_t`. -/
structure Uvmexp where
  npages : Int
  active : Int
  wired : Int
  filepages : Int
  pageshift : Nat
  deriving DecidableEq, Repr

/-- `mem_status`.  C++11 leaves a sum or a shift in `int64_t` undefined where it
does not fit, and the shift of a negative number as well; they are read as
keeping the low 64 bits. -/
def memStatus (mem : Uvmexp) : MemoryStatus :=
  let totalMem : BitVec 64 := BitVec.ofInt 64 mem.npages <<< mem.pageshift
  let usedMem : BitVec 64 :=
    (BitVec.ofInt 64 mem.active + BitVec.ofInt 64 mem.wired -
      BitVec.ofInt 64 mem.filepages) <<< mem.pageshift
  { usedMem := convertUnit usedMem.toInt .megabytes .bytes
    totalMem := convertUnit totalMem.toInt .megabytes .bytes }

def Uvmexp.usedPages (mem : Uvmexp) : Int :=
  mem.active + mem.wired - mem.filepages

end NetBsd

/-! ## Consistent readings -/

/-- What the kernel reports, and on macOS the page size with it. -/
inductive PageReading
  | netBsd (mem : NetBsd.Uvmexp)
  | openBsd (uvmexp : OpenBsd.Uvmexp)
  | osx (totalMem : BitVec 64) (answer : Option (BitVec 64 × Osx.VmStatistics))
  deriving DecidableEq

def PageReading.memStatus : PageReading → MemoryStatus
  | .netBsd mem => NetBsd.memStatus mem
  | .openBsd uvmexp => OpenBsd.memStatus uvmexp
  | .osx totalMem answer => Osx.memStatus totalMem answer

/-- The total is positive, each class has between zero and all pages, and
classes that are disjoint have no more pages than there are. -/
inductive PageReading.Consistent : PageReading → Prop
  | netBsd {mem : NetBsd.Uvmexp} (total : 0 < mem.npages) (active : 0 ≤ mem.active)
      (wired : 0 ≤ mem.wired) (disjoint : mem.active + mem.wired ≤ mem.npages)
      (filepages : 0 ≤ mem.filepages) (filepagesLe : mem.filepages ≤ mem.npages) :
      Consistent (.netBsd mem)
  | openBsd {uvmexp : OpenBsd.Uvmexp} (total : 0 < uvmexp.npages)
      (free : 0 ≤ uvmexp.free) (numbufpages : 0 ≤ uvmexp.numbufpages)
      (disjoint : uvmexp.free + uvmexp.numbufpages ≤ uvmexp.npages) :
      Consistent (.openBsd uvmexp)
  | osxSilent {totalMem : BitVec 64} (total : 0 < totalMem.toNat) :
      Consistent (.osx totalMem none)
  | osx {totalMem pageSize : BitVec 64} {vmStats : Osx.VmStatistics}
      (total : 0 < totalMem.toNat)
      (speculative : vmStats.speculativeCount.toNat ≤ vmStats.freeCount.toNat)
      (pages : vmStats.freeCount.toNat + vmStats.externalPageCount.toNat < 2 ^ 32)
      (disjoint : (vmStats.freeCount.toNat + vmStats.externalPageCount.toNat) *
        pageSize.toNat ≤ totalMem.toNat) :
      Consistent (.osx totalMem (some (pageSize, vmStats)))

/-- The status is one that `mem_string` can show, and no less than nothing is
in use. -/
def ShowsSizes (status : MemoryStatus) : Prop :=
  0 ≤ status.usedMem ∧ MemoryInRange (.ok status)

theorem showsSizes_iff (status : MemoryStatus) :
    ShowsSizes status ↔
      0 ≤ status.usedMem ∧ status.usedMem ≤ status.totalMem ∧ 0 < status.totalMem := by
  constructor
  · rintro ⟨nonneg, inRange⟩
    have defined := inRange
    obtain ⟨returned, equal, atMost, ⟨percentage, entry, percentageEq, _⟩, _⟩ := defined
    cases equal
    refine ⟨nonneg, atMost, lt_of_le_of_ne (nonneg.trans atMost) ?_⟩
    intro zero
    simp [memPercentage, quotient, ← zero] at percentageEq
  · rintro ⟨nonneg, atMost, positive⟩
    exact ⟨nonneg, (memoryInRange_iff nonneg positive).mpr atMost⟩

/-- A status computed from numbers of bytes is in range when the bytes are. -/
theorem showsSizes_of_bytes (used total : ℚ) :
    ShowsSizes ⟨used / 1024 ^ 2, total / 1024 ^ 2⟩ ↔
      0 ≤ used ∧ used ≤ total ∧ 0 < total := by
  have scale : (0 : ℚ) < 1024 ^ 2 := by norm_num
  have nonneg : 0 ≤ used / 1024 ^ 2 ↔ 0 ≤ used := by
    rw [le_div_iff₀ scale, zero_mul]
  have positive : 0 < total / 1024 ^ 2 ↔ 0 < total := by
    rw [lt_div_iff₀ scale, zero_mul]
  rw [showsSizes_iff, nonneg, div_le_div_iff_of_pos_right scale, positive]

/-! ## Counts of pages in 64 bits -/

/-- The bytes of all pages fit `int64_t`. -/
def TotalFits (npages : Int) (pageshift : Nat) : Prop :=
  npages * 2 ^ pageshift < 2 ^ 63

instance (npages : Int) (pageshift : Nat) : Decidable (TotalFits npages pageshift) :=
  inferInstanceAs (Decidable (npages * 2 ^ pageshift < 2 ^ 63))

/-- Of the numbers of pages, only the remainder modulo `2 ^ (64 - pageshift)`
reaches the 64 bits of the bytes.  There are pages, fewer than half as many as
would wrap, and those in use are not more. -/
structure PagesInOrder (used npages : Int) (pageshift : Nat) : Prop where
  used_le : used % 2 ^ (64 - pageshift) ≤ npages % 2 ^ (64 - pageshift)
  total_pos : 0 < npages % 2 ^ (64 - pageshift)
  total_lt : 2 * (npages % 2 ^ (64 - pageshift)) < 2 ^ (64 - pageshift)

theorem toInt_pages_inOrder (used npages : Int) (pageshift : Nat) :
    (0 ≤ (BitVec.ofInt 64 (used * 2 ^ pageshift)).toInt ∧
      (BitVec.ofInt 64 (used * 2 ^ pageshift)).toInt ≤
        (BitVec.ofInt 64 (npages * 2 ^ pageshift)).toInt ∧
      0 < (BitVec.ofInt 64 (npages * 2 ^ pageshift)).toInt) ↔
      PagesInOrder used npages pageshift := by
  have scale : (0 : Int) < 2 ^ pageshift := by positivity
  rw [toInt_inOrder_iff, ← Int.ofNat_le, ← Int.natCast_pos, ← Int.ofNat_lt]
  push_cast
  rw [toNat_ofInt_mul_two_pow, toNat_ofInt_mul_two_pow, ← Int.mul_assoc,
    mul_le_mul_iff_left₀ scale, mul_pos_iff_of_pos_right scale]
  constructor
  · rintro ⟨usedLe, totalPos, totalLt⟩
    refine ⟨usedLe, totalPos, lt_of_mul_lt_mul_right (totalLt.trans_le ?_) scale.le⟩
    have bits : 64 ≤ 64 - pageshift + pageshift := by omega
    calc (2 : Int) ^ 64
        ≤ 2 ^ (64 - pageshift + pageshift) := pow_le_pow_right₀ one_le_two bits
      _ = 2 ^ (64 - pageshift) * 2 ^ pageshift := pow_add ..
  · rintro ⟨usedLe, totalPos, totalLt⟩
    refine ⟨usedLe, totalPos, ?_⟩
    have shiftLe : pageshift ≤ 64 := by
      by_contra above
      rw [Nat.sub_eq_zero_of_le (by omega), pow_zero, Int.emod_one] at totalPos
      exact absurd totalPos (lt_irrefl 0)
    calc 2 * (npages % 2 ^ (64 - pageshift)) * 2 ^ pageshift
        < 2 ^ (64 - pageshift) * 2 ^ pageshift := mul_lt_mul_of_pos_right totalLt scale
      _ = 2 ^ 64 := by rw [← pow_add, Nat.sub_add_cancel shiftLe]

theorem showsSizes_pages (used npages : Int) (pageshift : Nat) :
    ShowsSizes ⟨((BitVec.ofInt 64 (used * 2 ^ pageshift)).toInt : ℚ) / 1024 ^ 2,
      ((BitVec.ofInt 64 (npages * 2 ^ pageshift)).toInt : ℚ) / 1024 ^ 2⟩ ↔
      PagesInOrder used npages pageshift := by
  rw [showsSizes_of_bytes, ← toInt_pages_inOrder]
  norm_cast

/-- Where the bytes of all pages fit, the remainders are in order exactly when
the pages in use are not negative. -/
theorem pagesInOrder_iff_of_fits {used npages : Int} {pageshift : Nat}
    (fits : TotalFits npages pageshift) (total : 0 < npages) (lower : -npages ≤ used)
    (upper : used ≤ npages) : PagesInOrder used npages pageshift ↔ 0 ≤ used := by
  have scale : (0 : Int) < 2 ^ pageshift := by positivity
  have shiftLt : pageshift < 63 := by
    have oneLe : (2 : Int) ^ pageshift ≤ npages * 2 ^ pageshift :=
      le_mul_of_one_le_left scale.le total
    exact (pow_lt_pow_iff_right₀ (by decide)).mp (oneLe.trans_lt fits)
  have totalLt : 2 * npages < 2 ^ (64 - pageshift) := by
    refine lt_of_mul_lt_mul_right ?_ scale.le
    rw [← pow_add, Nat.sub_add_cancel (by omega), Int.mul_assoc]
    unfold TotalFits at fits
    omega
  have totalEq : npages % 2 ^ (64 - pageshift) = npages :=
    Int.emod_eq_of_lt total.le (by omega)
  constructor
  · rintro ⟨usedLe, _, _⟩
    by_contra negative
    have usedEq : used % 2 ^ (64 - pageshift) = used + 2 ^ (64 - pageshift) := by
      rw [← Int.add_emod_right]
      exact Int.emod_eq_of_lt (by omega) (by omega)
    omega
  · intro nonneg
    have usedEq : used % 2 ^ (64 - pageshift) = used :=
      Int.emod_eq_of_lt nonneg (by omega)
    exact ⟨by omega, by omega, by omega⟩

/-! ## Each platform -/

theorem NetBsd.memStatus_eq (mem : Uvmexp) :
    memStatus mem =
      ⟨((BitVec.ofInt 64 (mem.usedPages * 2 ^ mem.pageshift)).toInt : ℚ) / 1024 ^ 2,
        ((BitVec.ofInt 64 (mem.npages * 2 ^ mem.pageshift)).toInt : ℚ) / 1024 ^ 2⟩ := by
  have used : (BitVec.ofInt 64 mem.active + BitVec.ofInt 64 mem.wired -
      BitVec.ofInt 64 mem.filepages) <<< mem.pageshift =
      BitVec.ofInt 64 (mem.usedPages * 2 ^ mem.pageshift) := by
    rw [← BitVec.ofInt_add, ← ofInt_sub, ofInt_shiftLeft]
    rfl
  simp only [memStatus, used, ofInt_shiftLeft, convertUnit_eq, ByteUnit.value]

theorem NetBsd.showsSizes_iff (mem : Uvmexp) :
    ShowsSizes (memStatus mem) ↔ PagesInOrder mem.usedPages mem.npages mem.pageshift := by
  rw [memStatus_eq, showsSizes_pages]

/-- On NetBSD the used memory is a size exactly when all file pages are among
the active and the wired ones. -/
theorem NetBsd.showsSizes_iff_of_fits {mem : Uvmexp}
    (fits : TotalFits mem.npages mem.pageshift) (total : 0 < mem.npages)
    (active : 0 ≤ mem.active) (wired : 0 ≤ mem.wired)
    (disjoint : mem.active + mem.wired ≤ mem.npages) (filepages : 0 ≤ mem.filepages)
    (filepagesLe : mem.filepages ≤ mem.npages) :
    ShowsSizes (memStatus mem) ↔ mem.filepages ≤ mem.active + mem.wired := by
  have lower : -mem.npages ≤ mem.usedPages := by
    unfold Uvmexp.usedPages
    omega
  have upper : mem.usedPages ≤ mem.npages := by
    unfold Uvmexp.usedPages
    omega
  rw [showsSizes_iff, pagesInOrder_iff_of_fits fits total lower upper]
  unfold Uvmexp.usedPages
  omega

theorem OpenBsd.showsSizes_iff (uvmexp : Uvmexp) :
    ShowsSizes (memStatus uvmexp) ↔
      PagesInOrder uvmexp.usedPages uvmexp.npages uvmexp.pageshift := by
  rw [memStatus_eq_toInt]
  exact showsSizes_pages uvmexp.usedPages uvmexp.npages uvmexp.pageshift

theorem OpenBsd.showsSizes_of_fits {uvmexp : Uvmexp}
    (fits : TotalFits uvmexp.npages uvmexp.pageshift) (total : 0 < uvmexp.npages)
    (free : 0 ≤ uvmexp.free) (numbufpages : 0 ≤ uvmexp.numbufpages)
    (disjoint : uvmexp.free + uvmexp.numbufpages ≤ uvmexp.npages) :
    ShowsSizes (memStatus uvmexp) := by
  have used : 0 ≤ uvmexp.usedPages ∧ uvmexp.usedPages ≤ uvmexp.npages := by
    unfold Uvmexp.usedPages
    omega
  rw [showsSizes_iff, pagesInOrder_iff_of_fits fits total (by omega) used.2]
  exact used.1

theorem Osx.showsSizes_silent {totalMem : BitVec 64} (total : 0 < totalMem.toNat) :
    ShowsSizes (memStatus totalMem none) := by
  have positive : (0 : ℚ) < totalMem.toNat := by exact_mod_cast total
  have status : memStatus totalMem none =
      ⟨(totalMem.toNat : ℚ) / 1024 ^ 2, (totalMem.toNat : ℚ) / 1024 ^ 2⟩ := by
    simp [memStatus, convertUnit_eq, ByteUnit.value]
  rw [status, showsSizes_of_bytes]
  exact ⟨positive.le, le_rfl, positive⟩

theorem Osx.showsSizes {totalMem pageSize : BitVec 64} {vmStats : VmStatistics}
    (total : 0 < totalMem.toNat)
    (speculative : vmStats.speculativeCount.toNat ≤ vmStats.freeCount.toNat)
    (pages : vmStats.freeCount.toNat + vmStats.externalPageCount.toNat < 2 ^ 32)
    (disjoint : (vmStats.freeCount.toNat + vmStats.externalPageCount.toNat) *
      pageSize.toNat ≤ totalMem.toNat) :
    ShowsSizes (memStatus totalMem (some (pageSize, vmStats))) := by
  have positive : (0 : ℚ) < totalMem.toNat := by exact_mod_cast total
  obtain ⟨available, availableEq⟩ : ∃ available : Nat,
      vmStats.availablePages = available := by
    refine ⟨vmStats.freeCount.toNat + vmStats.externalPageCount.toNat -
      vmStats.speculativeCount.toNat, ?_⟩
    unfold VmStatistics.availablePages
    omega
  have availableLe : available ≤
      vmStats.freeCount.toNat + vmStats.externalPageCount.toNat := by
    unfold VmStatistics.availablePages at availableEq
    omega
  have bytesLe : available * pageSize.toNat ≤ totalMem.toNat :=
    le_trans (Nat.mul_le_mul_right _ availableLe) disjoint
  have totalLt := totalMem.isLt
  have noWrap : vmStats.NoWrap pageSize := by
    constructor
    · omega
    · omega
    · rw [availableEq]
      exact_mod_cast lt_of_le_of_lt bytesLe totalLt
  rw [memStatus_eq totalMem noWrap, availableEq, showsSizes_of_bytes]
  have bytesLeRat : (available : ℚ) * pageSize.toNat ≤ totalMem.toNat := by
    exact_mod_cast bytesLe
  have bytesNonneg : (0 : ℚ) ≤ (available : ℚ) * pageSize.toNat := by positivity
  push_cast
  refine ⟨?_, ?_, positive⟩
  · linarith
  · linarith

/-! ## All platforms -/

/-- Where the total fits, NetBSD has no more file pages than active and wired
ones; where it does not fit, on NetBSD and OpenBSD, the remainders are in
order. -/
def PageReading.InOrder : PageReading → Prop
  | .netBsd mem =>
      (TotalFits mem.npages mem.pageshift → mem.filepages ≤ mem.active + mem.wired) ∧
        (¬ TotalFits mem.npages mem.pageshift →
          PagesInOrder mem.usedPages mem.npages mem.pageshift)
  | .openBsd uvmexp =>
      ¬ TotalFits uvmexp.npages uvmexp.pageshift →
        PagesInOrder uvmexp.usedPages uvmexp.npages uvmexp.pageshift
  | .osx _ _ => True

/-- The memory of a consistent reading is shown as sizes exactly when its pages
are in order. -/
theorem showsSizes_iff_inOrder {reading : PageReading} (consistent : reading.Consistent) :
    ShowsSizes reading.memStatus ↔ reading.InOrder := by
  cases consistent with
  | @netBsd mem total active wired disjoint filepages filepagesLe =>
      by_cases fits : TotalFits mem.npages mem.pageshift
      · have shown := NetBsd.showsSizes_iff_of_fits fits total active wired disjoint
          filepages filepagesLe
        simpa [PageReading.memStatus, PageReading.InOrder, fits] using shown
      · simpa [PageReading.memStatus, PageReading.InOrder, fits] using NetBsd.showsSizes_iff mem
  | @openBsd uvmexp total free numbufpages disjoint =>
      by_cases fits : TotalFits uvmexp.npages uvmexp.pageshift
      · have shown := OpenBsd.showsSizes_of_fits fits total free numbufpages disjoint
        simpa [PageReading.memStatus, PageReading.InOrder, fits] using shown
      · simpa [PageReading.memStatus, PageReading.InOrder, fits] using OpenBsd.showsSizes_iff uvmexp
  | osxSilent total => exact iff_of_true (Osx.showsSizes_silent total) trivial
  | osx total speculative pages disjoint =>
      exact iff_of_true (Osx.showsSizes total speculative pages disjoint) trivial

def sampleNetBsd (filepages : Int) : NetBsd.Uvmexp where
  npages := 1000
  active := 100
  wired := 50
  filepages := filepages
  pageshift := 12

theorem showsSizes_netBsd : ShowsSizes (PageReading.netBsd (sampleNetBsd 100)).memStatus :=
  (showsSizes_iff_inOrder (.netBsd (by decide) (by decide) (by decide) (by decide)
    (by decide) (by decide))).mpr
    ⟨fun _ => by decide, fun overflows => absurd (by decide) overflows⟩

/-- Most file pages are inactive, and less than nothing is in use. -/
theorem not_showsSizes_netBsd :
    (PageReading.netBsd (sampleNetBsd 400)).Consistent ∧
      ¬ ShowsSizes (PageReading.netBsd (sampleNetBsd 400)).memStatus := by
  refine ⟨.netBsd (by decide) (by decide) (by decide) (by decide) (by decide)
    (by decide), ?_⟩
  rintro ⟨nonneg, _⟩
  revert nonneg
  decide +kernel

end TmuxMemCpuLoad
