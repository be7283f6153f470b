import TmuxMemCpuLoad.StandardOutcome
import Mathlib.Algebra.Order.Field.Basic
import Mathlib.Tactic.FieldSimp
import Mathlib.Tactic.Positivity
import Mathlib.Tactic.Ring

/-!
# CPU time counters

Every platform counts the time spent in some states and computes the CPU
percentage from the increases of four of the counters between two samples, in
64-bit arithmetic.  The samples are compared here with the share of the busy
time that the true increases give.
-/

namespace TmuxMemCpuLoad

open StandardCxx

/-- The slots of the array of counters, as `cpu.h` defines them. -/
structure CpuLayout where
  user : Nat
  system : Nat
  nice : Nat
  idle : Nat
  deriving DecidableEq, Repr

/-- `static_cast<float>( busy ) / static_cast<float>( total ) * 100.0`. -/
def percentageOf (busy total : BitVec 64) : ExactFloat :=
  (quotient busy.toNat total.toNat).map (· * 100)

def CpuLayout.busyIncrease (layout : CpuLayout) (load1 load2 : Nat → BitVec 64) :
    BitVec 64 :=
  (load2 layout.user - load1 layout.user) + (load2 layout.system - load1 layout.system) +
    (load2 layout.nice - load1 layout.nice)

def CpuLayout.idleIncrease (layout : CpuLayout) (load1 load2 : Nat → BitVec 64) :
    BitVec 64 :=
  load2 layout.idle - load1 layout.idle

def CpuLayout.percentage (layout : CpuLayout) (load1 load2 : Nat → BitVec 64) :
    ExactFloat :=
  percentageOf (layout.busyIncrease load1 load2)
    (layout.busyIncrease load1 load2 + layout.idleIncrease load1 load2)

section Range

variable {busy idle : BitVec 64}

theorem percentageOf_of_fits (positive : 0 < busy.toNat + idle.toNat)
    (fits : busy.toNat + idle.toNat < 2 ^ 64) :
    percentageOf busy (busy + idle) =
      some (100 * (busy.toNat : ℚ) / ((busy.toNat : ℚ) + (idle.toNat : ℚ))) := by
  have total : (busy + idle).toNat = busy.toNat + idle.toNat := by
    rw [BitVec.toNat_add, Nat.mod_eq_of_lt fits]
  have nonzero : ((busy.toNat + idle.toNat : Nat) : ℚ) ≠ 0 := by
    exact_mod_cast positive.ne'
  rw [percentageOf, total, quotient_of_ne_zero _ nonzero, Option.map_some]
  push_cast
  congr 1
  ring

theorem share_range {busy idle : ℚ} (busyNonneg : 0 ≤ busy) (idleNonneg : 0 ≤ idle) :
    0 ≤ 100 * busy / (busy + idle) ∧ 100 * busy / (busy + idle) ≤ 100 := by
  constructor
  · positivity
  · apply div_le_of_le_mul₀ (by positivity) (by norm_num)
    linarith

/-- Where the sum of the increases leaves 64 bits, what remains of it is
smaller than the busy part. -/
theorem percentageOf_of_wraps (wraps : 2 ^ 64 ≤ busy.toNat + idle.toNat)
    {percentage : ℚ} (defined : percentageOf busy (busy + idle) = some percentage) :
    100 < percentage := by
  have busyLt := busy.isLt
  have idleLt := idle.isLt
  have smaller : (busy + idle).toNat < busy.toNat := by
    rw [BitVec.toNat_add]
    omega
  unfold percentageOf at defined
  generalize (busy + idle).toNat = total at smaller defined
  by_cases zero : (total : ℚ) = 0
  · rw [zero, quotient_zero] at defined
    cases defined
  · rw [quotient_of_ne_zero _ zero, Option.map_some, Option.some.injEq] at defined
    have positive : (0 : ℚ) < total :=
      lt_of_le_of_ne (Nat.cast_nonneg total) (Ne.symm zero)
    have ratio : 1 < (busy.toNat : ℚ) / total :=
      (one_lt_div positive).mpr (by exact_mod_cast smaller)
    linarith

/-- The percentage is defined and lies between 0 and 100 exactly when the sum
of the increases is positive and fits 64 bits. -/
theorem percentageOf_range_iff :
    (∃ percentage, percentageOf busy (busy + idle) = some percentage ∧
        0 ≤ percentage ∧ percentage ≤ 100) ↔
      0 < busy.toNat + idle.toNat ∧ busy.toNat + idle.toNat < 2 ^ 64 := by
  constructor
  · rintro ⟨percentage, defined, _, atMost⟩
    have fits : busy.toNat + idle.toNat < 2 ^ 64 := by
      by_contra wraps
      have exceeds := percentageOf_of_wraps (Nat.le_of_not_lt wraps) defined
      linarith
    refine ⟨Nat.pos_of_ne_zero fun zero => ?_, fits⟩
    have totalZero : (busy + idle).toNat = 0 := by
      rw [BitVec.toNat_add, zero]
    rw [percentageOf, totalZero, Nat.cast_zero, quotient_zero] at defined
    cases defined
  · rintro ⟨positive, fits⟩
    exact ⟨_, percentageOf_of_fits positive fits,
      share_range (Nat.cast_nonneg _) (Nat.cast_nonneg _)⟩

end Range

/-! ## The true share -/

structure Counters where
  user : Nat
  nice : Nat
  system : Nat
  idle : Nat
  deriving DecidableEq, Repr

namespace Counters

def busy (counters : Counters) : Nat :=
  counters.user + counters.nice + counters.system

def add (counters shift : Counters) : Counters :=
  ⟨counters.user + shift.user, counters.nice + shift.nice,
    counters.system + shift.system, counters.idle + shift.idle⟩

end Counters

/-- The percentage of busy time among the time counted between two samples. -/
def busyShare (first second : Counters) : ℚ :=
  100 * ((second.busy : ℚ) - first.busy) /
    (((second.busy : ℚ) - first.busy) + ((second.idle : ℚ) - first.idle))

/-- Counters below `2 ^ 63` of which none decreases and some increases, with
increases that add up within 64 bits. -/
structure Increase (first second : Counters) : Prop where
  user_le : first.user ≤ second.user
  nice_le : first.nice ≤ second.nice
  system_le : first.system ≤ second.system
  idle_le : first.idle ≤ second.idle
  user_lt : second.user < 2 ^ 63
  nice_lt : second.nice < 2 ^ 63
  system_lt : second.system < 2 ^ 63
  idle_lt : second.idle < 2 ^ 63
  increases : first.busy + first.idle < second.busy + second.idle
  fits : second.busy + second.idle - (first.busy + first.idle) < 2 ^ 64

theorem Increase.busy_le {first second : Counters} (increase : Increase first second) :
    first.busy ≤ second.busy := by
  have := increase.user_le
  have := increase.nice_le
  have := increase.system_le
  unfold Counters.busy
  omega

theorem busyShare_range {first second : Counters} (increase : Increase first second) :
    0 ≤ busyShare first second ∧ busyShare first second ≤ 100 := by
  have busy : (first.busy : ℚ) ≤ second.busy := by exact_mod_cast increase.busy_le
  have idle : (first.idle : ℚ) ≤ second.idle := by exact_mod_cast increase.idle_le
  exact share_range (by linarith) (by linarith)

theorem busyShare_add (first second shift : Counters) :
    busyShare (first.add shift) (second.add shift) = busyShare first second := by
  have busy : ((second.add shift).busy : ℚ) - (first.add shift).busy =
      (second.busy : ℚ) - first.busy := by
    simp only [Counters.add, Counters.busy]
    push_cast
    ring
  have idle : ((second.add shift).idle : ℚ) - (first.add shift).idle =
      (second.idle : ℚ) - first.idle := by
    simp only [Counters.add]
    push_cast
    ring
  unfold busyShare
  rw [busy, idle]

/-- The counters stand in their slots of an array; the other slots hold
anything. -/
structure Stores {width : Nat} (layout : CpuLayout) (load : Nat → BitVec width)
    (counters : Counters) : Prop where
  user_eq : (load layout.user).toNat = counters.user
  nice_eq : (load layout.nice).toNat = counters.nice
  system_eq : (load layout.system).toNat = counters.system
  idle_eq : (load layout.idle).toNat = counters.idle

/-- From arrays of 64-bit counters the share is computed exactly. -/
theorem percentage_of_stores {layout : CpuLayout} {load1 load2 : Nat → BitVec 64}
    {first second : Counters} (stores1 : Stores layout load1 first)
    (stores2 : Stores layout load2 second) (increase : Increase first second) :
    layout.percentage load1 load2 = some (busyShare first second) := by
  obtain ⟨user1, nice1, system1, idle1⟩ := stores1
  obtain ⟨user2, nice2, system2, idle2⟩ := stores2
  obtain ⟨userLe, niceLe, systemLe, idleLe, _, _, _, _, increases, fits⟩ := increase
  have busyLe : first.busy ≤ second.busy := by
    unfold Counters.busy
    omega
  have busy : (layout.busyIncrease load1 load2).toNat = second.busy - first.busy := by
    unfold Counters.busy at increases fits ⊢
    simp only [CpuLayout.busyIncrease, BitVec.toNat_add, BitVec.toNat_sub]
    omega
  have idle : (layout.idleIncrease load1 load2).toNat = second.idle - first.idle := by
    simp only [CpuLayout.idleIncrease, BitVec.toNat_sub]
    omega
  have busyRat : (((layout.busyIncrease load1 load2).toNat : Nat) : ℚ) =
      (second.busy : ℚ) - first.busy := by
    rw [busy, Nat.cast_sub busyLe]
  have idleRat : (((layout.idleIncrease load1 load2).toNat : Nat) : ℚ) =
      (second.idle : ℚ) - first.idle := by
    rw [idle, Nat.cast_sub idleLe]
  rw [CpuLayout.percentage, percentageOf_of_fits (by omega) (by omega), busyRat, idleRat]
  rfl

end TmuxMemCpuLoad
