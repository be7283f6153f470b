import TmuxMemCpuLoad.StandardOutcome

/-!
# Metrics of the host

The numbers the status line shows come from the platform: the memory status,
the CPU percentage, the number of processors and the load averages.  `Host`
collects the functions that the renderers call for them, as each platform
provides them.
-/

namespace TmuxMemCpuLoad

open StandardCxx

inductive ByteUnit
  | bytes
  | kilobytes
  | megabytes
  | gigabytes
  deriving DecidableEq, Repr

def ByteUnit.value : ByteUnit → Nat
  | .bytes => 0
  | .kilobytes => 1
  | .megabytes => 2
  | .gigabytes => 3

/-- `count` rounds of `num /= 1024`. -/
def divideBy1024 : Nat → ℚ → ℚ
  | 0, num => num
  | count + 1, num => divideBy1024 count (num / 1024)

/-- `convert_unit( num, to, from )`: one division for each unit in between. -/
def convertUnit (num : ℚ) (toUnit fromUnit : ByteUnit) : ℚ :=
  divideBy1024 (toUnit.value - fromUnit.value) num

theorem divideBy1024_eq (count : Nat) (num : ℚ) :
    divideBy1024 count num = num / 1024 ^ count := by
  induction count generalizing num with
  | zero => simp [divideBy1024]
  | succ count induction =>
      rw [divideBy1024, induction, div_div, pow_succ']

theorem convertUnit_eq (num : ℚ) (toUnit fromUnit : ByteUnit) :
    convertUnit num toUnit fromUnit =
      num / 1024 ^ (toUnit.value - fromUnit.value) :=
  divideBy1024_eq _ num

structure MemoryStatus where
  usedMem : ℚ
  totalMem : ℚ
  deriving DecidableEq, Repr

/-- `MEMORY_MODE`; the option stores any non-negative number in it. -/
inductive MemoryMode
  | default
  | freeMemory
  | usagePercentage
  | other (value : Nat)
  deriving DecidableEq, Repr

/-- `CPU_MODE`; the option stores any non-negative number in it. -/
inductive CpuMode
  | default
  | threads
  | other (value : Nat)
  deriving DecidableEq, Repr

/-- What the renderers call the platform for. -/
structure Host where
  memStatus : Outcome MemoryStatus
  cpuPercentage : Nat → Outcome ExactFloat
  cpuCount : Nat
  /-- The array of load averages before it is filled. -/
  averages : Nat → ℚ
  /-- `getloadavg( averages, count )`: the return value and the array after
  the call. -/
  getloadavg : (Nat → ℚ) → Nat → Int × (Nat → ℚ)

def memPercentage (status : MemoryStatus) : ExactFloat :=
  quotient (100 * status.usedMem) status.totalMem

/-- Sizes between zero and a positive total select an index up to 100. -/
theorem memPercentage_index (status : MemoryStatus) (nonneg : 0 ≤ status.usedMem)
    (atMost : status.usedMem ≤ status.totalMem) (positive : 0 < status.totalMem) :
    ∃ percentage, memPercentage status = some percentage ∧
      toUnsigned percentage ≤ 100 := by
  have range : 100 * status.usedMem / status.totalMem ≤ (100 : Nat) := by
    rw [div_le_iff₀ positive]
    push_cast
    linarith
  exact ⟨_, quotient_of_ne_zero _ positive.ne',
    toUnsigned_le (div_nonneg (by linarith) positive.le) range (by decide)⟩

def MemoryStatus.freeMem (status : MemoryStatus) : ℚ :=
  status.totalMem - status.usedMem

def MemoryStatus.percentageMem (status : MemoryStatus) : ℚ :=
  status.usedMem / status.totalMem * 100

/-- The load averages as `load_string` sees them, unless the call fails. -/
def Host.loadAverages (host : Host) (count : Nat) : Option (Nat → ℚ) :=
  let answer := host.getloadavg host.averages count
  if answer.1 < 0 then none else some answer.2

/-- The load percentage before it is limited to 100. -/
def Host.loadPercentage (host : Host) (averages : Nat → ℚ) : ExactFloat :=
  (quotient (averages 0) host.cpuCount).map fun load => load * (1 / 2) * 100

/-- A host with half of its 1024 MB in use, a quarter of its CPU time and a
load of one on four processors. -/
def sampleHost : Host where
  memStatus := .ok ⟨512, 1024⟩
  cpuPercentage := fun _ => .ok (some 25)
  cpuCount := 4
  averages := fun _ => 0
  getloadavg := fun _ count => (count, fun _ => 1)

theorem sampleHost_memPercentage : memPercentage ⟨512, 1024⟩ = some 50 := by
  decide +kernel

end TmuxMemCpuLoad
