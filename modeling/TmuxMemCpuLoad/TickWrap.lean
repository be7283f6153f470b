import TmuxMemCpuLoad.CpuBackends

/-!
# Tick counters that wrap

macOS counts ticks in 32 bits, and so do FreeBSD and OpenBSD where `u_long` has
32 bits.  The counters are widened before they are subtracted, so that a
counter that wraps between the samples seems to go back by almost `2 ^ 32`
ticks.
-/

namespace TmuxMemCpuLoad

open StandardCxx

/-- The versions that read counters of 32 bits. -/
inductive TickBackend
  | osx
  | freeBsd
  | openBsd (cpuLayout : CpuLayout)
  deriving DecidableEq, Repr

namespace TickBackend

def layout : TickBackend → CpuLayout
  | .osx => Osx.cpuLayout
  | .freeBsd => FreeBsd.cpuLayout
  | .openBsd cpuLayout => cpuLayout

def percentage : TickBackend → (Nat → BitVec 32) → (Nat → BitVec 32) → ExactFloat
  | .osx, ticks1, ticks2 => Osx.cpuPercentage (some ticks1) (some ticks2)
  | .freeBsd, load1, load2 => FreeBsd.cpuPercentage load1 load2
  | .openBsd cpuLayout, load1, load2 => OpenBsd.cpuPercentage cpuLayout load1 load2

theorem percentage_eq (backend : TickBackend) (load1 load2 : Nat → BitVec 32) :
    backend.percentage load1 load2 = ticksPercentage backend.layout load1 load2 := by
  cases backend <;> rfl

end TickBackend

/-- Each counter of the second sample is the one of the first advanced by its
increase, modulo `2 ^ 32`; some increase is positive. -/
structure Advances (layout : CpuLayout) (load1 load2 : Nat → BitVec 32)
    (increase : Counters) : Prop where
  user_eq : load2 layout.user = load1 layout.user + BitVec.ofNat 32 increase.user
  nice_eq : load2 layout.nice = load1 layout.nice + BitVec.ofNat 32 increase.nice
  system_eq : load2 layout.system = load1 layout.system + BitVec.ofNat 32 increase.system
  idle_eq : load2 layout.idle = load1 layout.idle + BitVec.ofNat 32 increase.idle
  user_lt : increase.user < 2 ^ 32
  nice_lt : increase.nice < 2 ^ 32
  system_lt : increase.system < 2 ^ 32
  idle_lt : increase.idle < 2 ^ 32
  positive : 0 < increase.busy + increase.idle

/-- One when the counter wraps while it advances, and zero otherwise. -/
def carry (first : BitVec 32) (increase : Nat) : Nat :=
  (first.toNat + increase) / 2 ^ 32

/-- How many of the counters of busy time wrap. -/
def CpuLayout.busyCarries (layout : CpuLayout) (load1 : Nat → BitVec 32)
    (increase : Counters) : Nat :=
  carry (load1 layout.user) increase.user + carry (load1 layout.system) increase.system +
    carry (load1 layout.nice) increase.nice

def CpuLayout.idleCarry (layout : CpuLayout) (load1 : Nat → BitVec 32)
    (increase : Counters) : Nat :=
  carry (load1 layout.idle) increase.idle

/-- No counter wraps; or no busy time has passed; or no idle time has passed,
and the wraps do not take away the whole busy time. -/
def TicksSurvive (layout : CpuLayout) (load1 : Nat → BitVec 32) (increase : Counters) :
    Prop :=
  (layout.busyCarries load1 increase = 0 ∧ layout.idleCarry load1 increase = 0) ∨
    increase.busy = 0 ∨
    (increase.idle = 0 ∧ increase.busy ≠ 2 ^ 32 * layout.busyCarries load1 increase)

instance (layout : CpuLayout) (load1 : Nat → BitVec 32) (increase : Counters) :
    Decidable (TicksSurvive layout load1 increase) :=
  inferInstanceAs (Decidable (_ ∨ _ ∨ _))

/-! ## Ratios of wrapped increases -/

/-- A returned percentage is a given share when the ratios agree. -/
theorem percentageOf_eq_share_iff {busy total : BitVec 64} {busyTime idleTime : Nat}
    (positive : 0 < busyTime + idleTime) :
    percentageOf busy total =
        some (100 * (busyTime : ℚ) / ((busyTime : ℚ) + (idleTime : ℚ))) ↔
      total.toNat ≠ 0 ∧ busy.toNat * (busyTime + idleTime) = busyTime * total.toNat := by
  have shareNonzero : ((busyTime : ℚ) + (idleTime : ℚ)) ≠ 0 := by
    exact_mod_cast positive.ne'
  unfold percentageOf
  by_cases zero : total.toNat = 0
  · simp [zero]
  · have totalNonzero : (total.toNat : ℚ) ≠ 0 := by exact_mod_cast zero
    have ratios : (busy.toNat : ℚ) / total.toNat * 100 =
        100 * busyTime / (busyTime + idleTime) ↔
        (busy.toNat : ℚ) * (busyTime + idleTime) = busyTime * total.toNat := by
      rw [div_mul_eq_mul_div, div_eq_div_iff totalNonzero shareNonzero]
      constructor <;> intro equal <;> linarith
    rw [quotient_of_ne_zero _ totalNonzero, Option.map_some, Option.some.injEq, ratios]
    have cast : (busy.toNat : ℚ) * (busyTime + idleTime) = busyTime * total.toNat ↔
        busy.toNat * (busyTime + idleTime) = busyTime * total.toNat := by
      exact_mod_cast Iff.rfl
    simp [cast, zero]

section Ratio

variable {busyTime idleTime busyWraps idleWraps busy total : Int}

/-- The increase of a wrapped counter falls short by `2 ^ 32`, modulo `2 ^ 64`.
With both busy and idle time the ratio survives only where nothing wraps. -/
theorem ratio_kept_iff_of_positive (busyPositive : 0 < busyTime)
    (idlePositive : 0 < idleTime) (busyLt : busyTime < 3 * 2 ^ 32)
    (idleLt : idleTime < 2 ^ 32) (busyWrapsRange : 0 ≤ busyWraps ∧ busyWraps ≤ 3)
    (idleWrapsRange : 0 ≤ idleWraps ∧ idleWraps ≤ 1)
    (busyEq : busy = (busyTime - 2 ^ 32 * busyWraps) % 2 ^ 64)
    (totalEq : total = (busyTime + idleTime - 2 ^ 32 * (busyWraps + idleWraps)) % 2 ^ 64) :
    (total ≠ 0 ∧ busy * (busyTime + idleTime) = busyTime * total) ↔
      busyWraps = 0 ∧ idleWraps = 0 := by
  have busyNonneg : 0 ≤ busy := by omega
  constructor
  · rintro ⟨_, equal⟩
    have excess : busy * idleTime = busyTime * (total - busy) := by linarith
    have gap : total - busy = idleTime - 2 ^ 32 * idleWraps ∨
        total - busy < 0 ∨ (busy ≤ busyTime ∧ idleTime < total - busy) := by
      omega
    have product : 0 ≤ busy * idleTime := mul_nonneg busyNonneg idlePositive.le
    rcases gap with same | negative | ⟨atMost, more⟩
    · have noIdleWrap : idleWraps = 0 := by
        by_contra wrapped
        have backward : total - busy < 0 := by omega
        have := mul_neg_of_pos_of_neg busyPositive backward
        linarith
      rw [same, noIdleWrap, mul_zero, sub_zero] at excess
      have busySame : busy = busyTime := mul_right_cancel₀ idlePositive.ne' excess
      exact ⟨by omega, noIdleWrap⟩
    · have := mul_neg_of_pos_of_neg busyPositive negative
      linarith
    · have smaller : busy * idleTime ≤ busyTime * idleTime :=
        mul_le_mul_of_nonneg_right atMost idlePositive.le
      have larger : busyTime * idleTime < busyTime * (total - busy) :=
        mul_lt_mul_of_pos_left more busyPositive
      linarith
  · rintro ⟨rfl, rfl⟩
    have busySame : busy = busyTime := by omega
    have totalSame : total = busyTime + idleTime := by omega
    exact ⟨by omega, by rw [busySame, totalSame]⟩

/-- In general the ratio also survives where all the time is idle, or all of it
busy and not lost to the wraps. -/
theorem ratio_kept_iff (busyNonneg : 0 ≤ busyTime) (idleNonneg : 0 ≤ idleTime)
    (positive : 0 < busyTime + idleTime) (busyLt : busyTime < 3 * 2 ^ 32)
    (idleLt : idleTime < 2 ^ 32) (busyWrapsRange : 0 ≤ busyWraps ∧ busyWraps ≤ 3)
    (idleWrapsRange : 0 ≤ idleWraps ∧ idleWraps ≤ 1) (busyWrapsLe : busyWraps ≤ busyTime)
    (idleWrapsLe : idleWraps ≤ idleTime)
    (busyEq : busy = (busyTime - 2 ^ 32 * busyWraps) % 2 ^ 64)
    (totalEq : total = (busyTime + idleTime - 2 ^ 32 * (busyWraps + idleWraps)) % 2 ^ 64) :
    (total ≠ 0 ∧ busy * (busyTime + idleTime) = busyTime * total) ↔
      (busyWraps = 0 ∧ idleWraps = 0) ∨ busyTime = 0 ∨
        (idleTime = 0 ∧ busyTime ≠ 2 ^ 32 * busyWraps) := by
  rcases busyNonneg.eq_or_lt with busyZero | busyPositive
  · have busyNone : busy = 0 := by omega
    have totalSome : total ≠ 0 := by omega
    simp [← busyZero, busyNone, totalSome]
  · rcases idleNonneg.eq_or_lt with idleZero | idlePositive
    · have totalSame : total = busy := by omega
      have some : busy ≠ 0 ↔ busyTime ≠ 2 ^ 32 * busyWraps := by omega
      rw [← idleZero, totalSame, add_zero, mul_comm busyTime, some]
      simp only [and_true, true_and, busyPositive.ne', false_or]
      omega
    · rw [ratio_kept_iff_of_positive busyPositive idlePositive busyLt idleLt busyWrapsRange
        idleWrapsRange busyEq totalEq]
      simp [busyPositive.ne', idlePositive.ne']

end Ratio

/-! ## The percentage of advancing counters -/

theorem toNat_widened_sub {first second : BitVec 32} {increase : Nat}
    (equal : second = first + BitVec.ofNat 32 increase) (bounded : increase < 2 ^ 32) :
    (((second.setWidth 64 - first.setWidth 64).toNat : Nat) : Int) =
      (increase - 2 ^ 32 * (carry first increase : Int)) % 2 ^ 64 ∧
    carry first increase ≤ 1 ∧ carry first increase ≤ increase := by
  have firstLt := first.isLt
  subst equal
  simp only [carry, BitVec.toNat_sub, BitVec.toNat_setWidth, BitVec.toNat_add,
    BitVec.toNat_ofNat]
  omega

/-- The counters as they are subtracted. -/
def widened (load : Nat → BitVec 32) (slot : Nat) : BitVec 64 :=
  (load slot).setWidth 64

section Advance

variable {layout : CpuLayout} {load1 load2 : Nat → BitVec 32} {increase : Counters}
  (advances : Advances layout load1 load2 increase)
include advances

theorem Advances.busyIncrease_eq :
    ((layout.busyIncrease (widened load1) (widened load2)).toNat : Int) =
      (increase.busy - 2 ^ 32 * (layout.busyCarries load1 increase : Int)) % 2 ^ 64 := by
  have user := (toNat_widened_sub advances.user_eq advances.user_lt).1
  have nice := (toNat_widened_sub advances.nice_eq advances.nice_lt).1
  have system := (toNat_widened_sub advances.system_eq advances.system_lt).1
  clear advances
  simp only [CpuLayout.busyIncrease, CpuLayout.busyCarries, Counters.busy, widened,
    BitVec.toNat_add]
  omega

theorem Advances.idleIncrease_eq :
    ((layout.idleIncrease (widened load1) (widened load2)).toNat : Int) =
      (increase.idle - 2 ^ 32 * (layout.idleCarry load1 increase : Int)) % 2 ^ 64 :=
  (toNat_widened_sub advances.idle_eq advances.idle_lt).1

/-- A counter that wraps has advanced. -/
theorem Advances.carries_le :
    layout.busyCarries load1 increase ≤ 3 ∧
      layout.busyCarries load1 increase ≤ increase.busy ∧
      layout.idleCarry load1 increase ≤ 1 ∧
      layout.idleCarry load1 increase ≤ increase.idle := by
  have user := (toNat_widened_sub advances.user_eq advances.user_lt).2
  have nice := (toNat_widened_sub advances.nice_eq advances.nice_lt).2
  have system := (toNat_widened_sub advances.system_eq advances.system_lt).2
  have idle := (toNat_widened_sub advances.idle_eq advances.idle_lt).2
  clear advances
  simp only [CpuLayout.busyCarries, CpuLayout.idleCarry, Counters.busy]
  omega

theorem Advances.busy_lt : increase.busy < 3 * 2 ^ 32 := by
  have user := advances.user_lt
  have nice := advances.nice_lt
  have system := advances.system_lt
  unfold Counters.busy
  omega

/-- The share of the busy time is returned exactly where it survives. -/
theorem Advances.ticksPercentage_iff :
    ticksPercentage layout load1 load2 =
        some (100 * (increase.busy : ℚ) / ((increase.busy : ℚ) + (increase.idle : ℚ))) ↔
      TicksSurvive layout load1 increase := by
  have busyEq := advances.busyIncrease_eq
  have idleEq := advances.idleIncrease_eq
  obtain ⟨busyCarries, busyCarriesLe, idleCarry, idleCarryLe⟩ := advances.carries_le
  have busyLt := advances.busy_lt
  have idleLt := advances.idle_lt
  have positive := advances.positive
  have percentage : ticksPercentage layout load1 load2 =
      percentageOf (layout.busyIncrease (widened load1) (widened load2))
        (layout.busyIncrease (widened load1) (widened load2) +
          layout.idleIncrease (widened load1) (widened load2)) := rfl
  rw [percentage, percentageOf_eq_share_iff positive]
  clear percentage advances
  generalize layout.busyIncrease (widened load1) (widened load2) = busy at busyEq ⊢
  generalize layout.idleIncrease (widened load1) (widened load2) = idle at idleEq ⊢
  unfold TicksSurvive
  generalize layout.busyCarries load1 increase = busyWraps at *
  generalize layout.idleCarry load1 increase = idleWraps at *
  have totalEq : ((busy + idle).toNat : Int) =
      (increase.busy + increase.idle - 2 ^ 32 * ((busyWraps : Int) + idleWraps)) % 2 ^ 64 := by
    rw [BitVec.toNat_add]
    omega
  have kept := ratio_kept_iff (by omega) (by omega) (by omega) (by omega) (by omega)
    (by omega) (by omega) (by omega) (by omega) busyEq totalEq
  exact_mod_cast kept

end Advance

/-- After any first sample and any increases, each version returns the share of
the busy time exactly where it survives. -/
theorem tickPercentage_iff (backend : TickBackend) {load1 load2 : Nat → BitVec 32}
    {increase : Counters} (advances : Advances backend.layout load1 load2 increase) :
    backend.percentage load1 load2 =
        some (100 * (increase.busy : ℚ) / ((increase.busy : ℚ) + (increase.idle : ℚ))) ↔
      TicksSurvive backend.layout load1 increase := by
  rw [backend.percentage_eq]
  exact advances.ticksPercentage_iff

/-- The four ticks of a sample on macOS. -/
def osxTicks (counters : Counters) : Nat → BitVec 32
  | 0 => BitVec.ofNat 32 counters.user
  | 1 => BitVec.ofNat 32 counters.system
  | 2 => BitVec.ofNat 32 counters.idle
  | 3 => BitVec.ofNat 32 counters.nice
  | _ => 0

theorem osxTicks_advances :
    Advances Osx.cpuLayout (osxTicks ⟨100, 0, 0, 200⟩) (osxTicks ⟨101, 0, 0, 203⟩)
      ⟨1, 0, 0, 3⟩ :=
  ⟨by decide, by decide, by decide, by decide, by decide, by decide, by decide,
    by decide, by decide⟩

/-- Far from the end of the counters one busy tick of four is 25 percent. -/
theorem tickPercentage_sample :
    TickBackend.osx.percentage (osxTicks ⟨100, 0, 0, 200⟩) (osxTicks ⟨101, 0, 0, 203⟩) =
      some (100 * ((1 : Nat) : ℚ) / (((1 : Nat) : ℚ) + ((3 : Nat) : ℚ))) :=
  (tickPercentage_iff .osx osxTicks_advances).mpr (by decide)

/-- When the user ticks wrap, one busy tick of four gives a little less than 100
percent, which is 100 as a `float`. -/
theorem tickPercentage_wrapped :
    ∃ load1 load2 increase, Advances Osx.cpuLayout load1 load2 increase ∧
      increase = ⟨1, 0, 0, 3⟩ ∧
      TickBackend.osx.percentage load1 load2 ≠
        some (100 * (increase.busy : ℚ) / ((increase.busy : ℚ) + (increase.idle : ℚ))) := by
  refine ⟨osxTicks ⟨2 ^ 32 - 1, 0, 0, 200⟩, osxTicks ⟨0, 0, 0, 203⟩, ⟨1, 0, 0, 3⟩,
    ⟨by decide, by decide, by decide, by decide, by decide, by decide, by decide,
      by decide, by decide⟩, rfl, ?_⟩
  decide +kernel

end TmuxMemCpuLoad
