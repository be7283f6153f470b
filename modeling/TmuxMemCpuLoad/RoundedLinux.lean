import TmuxMemCpuLoad.LinuxRuns
import TmuxMemCpuLoad.RoundedScreen

/-!
# Linux in IEEE arithmetic

The functions of Linux convert the integers of the kernel to `float` and compute
with them.  With every conversion and every operation rounded, from the files of
the kernel to the characters on the screen, the line is rendered, and the screen
tells the figures of the kernel up to a small share of each.
-/

namespace TmuxMemCpuLoad

open StandardCxx StyledText DecimalReader BinaryRounding

/-! ## The memory figure -/

/-- The figure tells sizes that are within a share of those of the status, or a
quantity computed from them as closely as its digits allow. -/
def MemoryShown.NearTo (share : ℚ) (status : MemoryStatus) : MemoryShown → Prop
  | .sizes display =>
      ∃ used total, Within share status.usedMem used ∧ Within share status.totalMem total ∧
        display.Exact used total
  | .free hundredths unit =>
      |(hundredths : ℚ) / 100 - unit.ofMegabytes status.freeMem| ≤
        1 / 200 + unit.ofMegabytes (status.totalMem * share)
  | .percentage hundredths =>
      |(hundredths : ℚ) / 100 - status.percentageMem| ≤ 1 / 200 + 100 * share

/-- The stored sizes are those of a status, rounded once. -/
structure MemoryStatus.Rounds (stored status : MemoryStatus) : Prop where
  stores : stored.Stored
  used : Within (1 / 2 ^ 24) status.usedMem stored.usedMem
  total : Within (1 / 2 ^ 24) status.totalMem stored.totalMem
  nonneg : 0 ≤ status.usedMem
  atMost : status.usedMem ≤ status.totalMem
  positive : 0 < status.totalMem

section Memory

variable {stored status : MemoryStatus} (rounds : stored.Rounds status)
include rounds

theorem MemoryStatus.Rounds.freeMem_close :
    |Arithmetic.ieee.freeMem stored - status.freeMem| ≤ status.totalMem * (1 / 2 ^ 22) := by
  have difference : 0 ≤ stored.totalMem - stored.usedMem := sub_nonneg.mpr rounds.stores.atMost
  have rounded := abs_le.mp (nearestEven.toPrecision_close 24 difference)
  have free : Arithmetic.ieee.freeMem stored =
      nearestEven.toPrecision 24 (stored.totalMem - stored.usedMem) := rfl
  have usedClose := abs_le.mp rounds.used.close
  have totalClose := abs_le.mp rounds.total.close
  have atMost := rounds.atMost
  have usedNonneg := rounds.stores.nonneg
  rw [free, MemoryStatus.freeMem, abs_le]
  constructor <;> linarith [rounds.positive, rounds.total.atMost]

theorem MemoryStatus.Rounds.percentageMem_close :
    |Arithmetic.ieee.percentageMem stored - status.percentageMem| ≤ 100 * (1 / 2 ^ 20) := by
  obtain ⟨percentage, defined, _, follows⟩ := MemoryStatus.roundedPercentage_follows
    rounds.stores.nonneg rounds.stores.atMost rounds.stores.positive
  have computed : Arithmetic.ieee.percentageMem stored = percentage := by
    rw [MemoryStatus.roundedPercentage, quotient_of_ne_zero _ rounds.stores.positive.ne',
      Option.map_some, Option.some.injEq] at defined
    exact defined
  have storedLe : stored.usedMem / stored.totalMem ≤ 1 :=
    (div_le_one₀ rounds.stores.positive).mpr rounds.stores.atMost
  have ratioLe : status.usedMem / status.totalMem ≤ 1 :=
    (div_le_one₀ rounds.positive).mpr rounds.atMost
  have ratio := abs_le.mp (rounds.used.div rounds.nonneg (by norm_num) rounds.total
    rounds.positive (by norm_num) (by norm_num)).close
  have close := abs_le.mp follows.close
  rw [computed, MemoryStatus.percentageMem, abs_le]
  constructor <;> linarith

theorem MemoryStatus.Rounds.memoryShown_near (fits : stored.totalMem < 2 ^ 32)
    (mode : MemoryMode) : (Arithmetic.ieee.memoryShown stored mode).NearTo (1 / 2 ^ 20) status := by
  have shown := memoryShown_close rounds.stores.nonneg rounds.stores.atMost fits .default
  have sizes : (MemoryShown.sizes (defaultDisplay stored)).NearTo (1 / 2 ^ 20) status :=
    ⟨_, _, rounds.used.mono rounds.nonneg (by norm_num),
      rounds.total.mono rounds.positive.le (by norm_num), shown⟩
  have free := Arithmetic.freeMem_nonneg rounds.stores
  have totalPos := rounds.positive
  cases mode with
  | default => exact sizes
  | other value => exact sizes
  | freeMemory =>
      have close := abs_le.mp rounds.freeMem_close
      unfold Arithmetic.memoryShown
      split_ifs
      · have digits := abs_le.mp (hundredths_close free)
        show |_ - status.freeMem| ≤ 1 / 200 + status.totalMem * (1 / 2 ^ 20)
        rw [abs_le]
        constructor <;> linarith
      · have digits := abs_le.mp (hundredths_close
          (by positivity : 0 ≤ Arithmetic.ieee.freeMem stored / 1024))
        show |_ - status.freeMem / 1024| ≤ 1 / 200 + status.totalMem * (1 / 2 ^ 20) / 1024
        rw [abs_le]
        constructor <;> linarith
  | usagePercentage =>
      have digits := abs_le.mp (hundredths_close (Arithmetic.percentageMem_nonneg rounds.stores))
      have close := abs_le.mp rounds.percentageMem_close
      show |_ - status.percentageMem| ≤ 1 / 200 + 100 * (1 / 2 ^ 20)
      rw [abs_le]
      constructor <;> linarith

end Memory

namespace Linux

/-! ## The host -/

section Definitions

variable (arith : Arithmetic)

/-- `mem_status`: the accumulators become `float` before they are divided. -/
def memStatusIn (lines : List CxxString) (locals : MemoryLocals) : Outcome MemoryStatus := do
  let locals ← memLoop lines locals
  .ok { usedMem := arith.convertUnit (arith.float locals.usedMem.toNat) .megabytes .kilobytes
        totalMem := arith.convertUnit (arith.float locals.totalMem.toNat) .megabytes .kilobytes }

def percentageIn (busy total : BitVec 64) : ExactFloat :=
  (quotient (arith.float busy.toNat) (arith.float total.toNat)).map fun ratio =>
    arith.float (arith.double (arith.float ratio * 100))

def percentageOfLinesIn (first second : CxxString) (stats : List (BitVec 64)) :
    Outcome ExactFloat := do
  let stats ← parseCpuLine first keepStat stats
  let stats ← parseCpuLine second subtractStat stats
  let user := cell stats cpuLayout.user
  let nice := cell stats cpuLayout.nice
  let system := cell stats cpuLayout.system
  let idle := cell stats cpuLayout.idle
  .ok (percentageIn arith (user + nice + system) (user + nice + system + idle))

def cpuPercentageIn (firstFile secondFile : Option (List CxxString))
    (stats : List (BitVec 64)) : Outcome ExactFloat :=
  let line := firstLine firstFile .empty
  percentageOfLinesIn arith line (firstLine secondFile line) stats

/-- The host of the functions of Linux over an arithmetic. -/
def hostIn (kernel : Kernel) (garbage : Garbage) : Host where
  memStatus := memStatusIn arith kernel.meminfo garbage.locals
  cpuPercentage := fun cpuUsageDelay =>
    cpuPercentageIn arith kernel.stat (kernel.laterStat cpuUsageDelay) garbage.stats
  cpuCount := kernel.cpuCount
  averages := garbage.averages
  getloadavg := kernel.getloadavg

end Definitions

theorem hostIn_exact (kernel : Kernel) (garbage : Garbage) :
    hostIn .exact kernel garbage = host kernel garbage :=
  rfl

/-! ## What the host reads -/

/-- The second loop leaves the increases of the counters in the array. -/
theorem exists_increases {line1 line2 : CxxString} {first second : Counters}
    {stats : List (BitVec 64)} (cells : stats.length = 4) (shows1 : Shows line1 first)
    (shows2 : Shows line2 second) (increase : Increase first second) :
    ∃ read differences, parseCpuLine line1 keepStat stats = .ok read ∧
      parseCpuLine line2 subtractStat read = .ok differences ∧
      (cell differences 0 + cell differences 1 + cell differences 2).toNat =
        second.busy - first.busy ∧
      (cell differences 3).toNat = second.idle - first.idle := by
  obtain ⟨userLe, niceLe, systemLe, idleLe, userLt, niceLt, systemLt, idleLt, _, fits⟩ := increase
  obtain ⟨read1, parsed1, stores1⟩ := parseCpuLine_of_shows shows1 cells
    ⟨userLe.trans_lt userLt, niceLe.trans_lt niceLt, systemLe.trans_lt systemLt,
      idleLe.trans_lt idleLt⟩
  have length1 : read1.length = 4 := (parseFields_length parsed1).trans cells
  obtain ⟨read2, parsed2, stores2⟩ := parseCpuLine_of_shows shows2 length1
    ⟨userLt, niceLt, systemLt, idleLt⟩
  have length2 : read2.length = 4 := (parseFields_length parsed2).trans length1
  have subtracted : parseCpuLine line2 subtractStat read1 =
      .ok (List.zipWith (· - ·) read2 read1) := by
    unfold parseCpuLine at parsed2 ⊢
    rw [parseFields_subtract, parsed2]
    rfl
  have difference : ∀ index < 4, cell (List.zipWith (· - ·) read2 read1) index =
      cell read2 index - cell read1 index :=
    fun index bound => cell_zipWith (by omega) (by omega)
  obtain ⟨user1, nice1, system1, idle1⟩ := stores1
  obtain ⟨user2, nice2, system2, idle2⟩ := stores2
  simp only [cpuLayout] at user1 nice1 system1 idle1 user2 nice2 system2 idle2
  refine ⟨read1, _, parsed1, subtracted, ?_, ?_⟩
  · rw [difference 0 (by decide), difference 1 (by decide), difference 2 (by decide)]
    unfold Counters.busy at fits ⊢
    simp only [BitVec.toNat_add, BitVec.toNat_sub]
    omega
  · rw [difference 3 (by decide), BitVec.toNat_sub]
    omega

section Metrics

variable {kernel : Kernel} {figures : Figures} (answers : kernel.Answers figures)
  (garbage : Garbage)

/-- The sizes in the variables of type `float`. -/
def Figures.storedStatus (figures : Figures) : MemoryStatus where
  usedMem := toFloat (toFloat figures.used / 1024)
  totalMem := toFloat (toFloat figures.total / 1024)

include answers

theorem memStatus_hostIn :
    (hostIn .ieee kernel garbage).memStatus = .ok figures.storedStatus := by
  obtain ⟨used, total⟩ := accumulators_toNat answers
  have sizes : figures.storedStatus =
      ⟨toFloat (toFloat ((BitVec.ofInt 32 figures.used).toNat : ℚ) / 1024),
        toFloat (toFloat ((BitVec.ofNat 32 figures.total).toNat : ℚ) / 1024)⟩ := by
    rw [used, total]
    rfl
  show memStatusIn .ieee kernel.meminfo garbage.locals = _
  rw [memStatusIn, memLoop_eq_finalLocals answers.reads answers.apart answers.once,
    Outcome.ok_bind, sizes]
  rfl

theorem storedStatus_rounds : figures.storedStatus.Rounds figures.memStatus := by
  obtain ⟨exactNonneg, exactAtMost, exactPositive, _⟩ := memStatus_range answers
  have usedNonneg : (0 : ℚ) ≤ figures.used := by exact_mod_cast answers.used_nonneg
  have usedLe : (figures.used : ℚ) ≤ figures.total := by exact_mod_cast answers.used_le
  have totalNonneg : (0 : ℚ) ≤ figures.total := Nat.cast_nonneg _
  have stored : ∀ {kilobytes : ℚ}, 0 ≤ kilobytes →
      toFloat (toFloat kilobytes / 1024) = toFloat kilobytes / 1024 := by
    intro kilobytes nonneg
    rw [toFloat_div_1024 (toFloat_nonneg nonneg), toFloat_toFloat nonneg]
  have quotientNonneg : ∀ {kilobytes : ℚ}, 0 ≤ kilobytes → 0 ≤ toFloat kilobytes / 1024 :=
    fun nonneg => div_nonneg (toFloat_nonneg nonneg) (by norm_num)
  have within : ∀ {kilobytes : ℚ}, 0 ≤ kilobytes → Within (1 / 2 ^ 24) (kilobytes / 1024)
      (toFloat (toFloat kilobytes / 1024)) := by
    intro kilobytes nonneg
    rw [stored nonneg]
    exact (Within.toPrecision nearestEven 24 nonneg).div_right (by norm_num)
  refine ⟨⟨?_, ?_, ?_, ?_, ?_⟩, within usedNonneg, within totalNonneg, exactNonneg, exactAtMost,
    exactPositive⟩
  · exact toFloat_toFloat (quotientNonneg usedNonneg)
  · exact toFloat_toFloat (quotientNonneg totalNonneg)
  · exact toFloat_nonneg (quotientNonneg usedNonneg)
  · apply toFloat_mono (quotientNonneg usedNonneg)
    exact div_le_div_of_nonneg_right (toFloat_mono usedNonneg usedLe) (by norm_num)
  · show 0 < toFloat (toFloat figures.total / 1024)
    rw [stored totalNonneg]
    exact div_pos (toFloat_pos answers.total_pos) (by norm_num)

theorem storedTotal_lt : figures.storedStatus.totalMem < 2 ^ 32 := by
  have bounded : (figures.total : ℚ) < 2 ^ 32 := by exact_mod_cast answers.total_lt
  have atMost := (storedStatus_rounds answers).total.atMost
  have total : figures.memStatus.totalMem = figures.total / 1024 := rfl
  rw [total] at atMost
  linarith

/-- Below 16 GiB the conversion of the kilobytes is exact. -/
theorem storedStatus_eq (small : figures.total < 2 ^ 24) :
    figures.storedStatus = figures.memStatus := by
  obtain ⟨used, usedEq⟩ := Int.eq_ofNat_of_zero_le answers.used_nonneg
  have usedLt : used < 2 ^ 24 := by
    have usedLe := answers.used_le
    omega
  have kept : ∀ {kilobytes : Nat}, kilobytes < 2 ^ 24 →
      toFloat (toFloat (kilobytes : ℚ) / 1024) = kilobytes / 1024 := by
    intro kilobytes fits
    have natural := toFloat_natCast fits
    rw [natural, toFloat_div_1024 (Nat.cast_nonneg _), natural]
  rw [Figures.storedStatus, Figures.memStatus, kept small, usedEq, Int.cast_natCast, kept usedLt]

theorem cpuPercentage_hostIn (cpuUsageDelay : Nat) : ∃ percentage,
    (hostIn .ieee kernel garbage).cpuPercentage cpuUsageDelay = .ok (some percentage) ∧
      0 ≤ percentage ∧ percentage ≤ 100 ∧
      Within (1 / 2 ^ 20) (figures.busyShare cpuUsageDelay) percentage := by
  have increase := answers.increase cpuUsageDelay
  obtain ⟨line, rest, statEq, shows_⟩ := answers.stat
  obtain ⟨laterLine, laterRest, laterEq, laterShows⟩ := answers.laterStat cpuUsageDelay
  obtain ⟨read, differences, parsed, subtracted, busy, idle⟩ :=
    exists_increases garbage.stats_length shows_ laterShows increase
  have busyLe := increase.busy_le
  have idleLe := increase.idle_le
  have increases := increase.increases
  have fits := increase.fits
  obtain ⟨percentage, computed, nonneg, atMost, within⟩ := within_roundedPercentageOf
    (by omega : 0 < (cell differences 0 + cell differences 1 + cell differences 2).toNat +
      (cell differences 3).toNat) (by omega)
  have share : figures.busyShare cpuUsageDelay =
      100 * ((cell differences 0 + cell differences 1 + cell differences 2).toNat : ℚ) /
        (((cell differences 0 + cell differences 1 + cell differences 2).toNat : ℚ) +
          ((cell differences 3).toNat : ℚ)) := by
    rw [busy, idle, Nat.cast_sub busyLe, Nat.cast_sub idleLe]
    rfl
  refine ⟨percentage, ?_, nonneg, atMost, share ▸ within⟩
  show cpuPercentageIn .ieee kernel.stat (kernel.laterStat cpuUsageDelay) garbage.stats = _
  rw [statEq, laterEq]
  show percentageOfLinesIn .ieee line laterLine garbage.stats = _
  rw [percentageOfLinesIn, parsed, Outcome.ok_bind, subtracted, Outcome.ok_bind, ← computed]
  rfl

variable (limited : ∀ i, figures.loads i ≤ loadLimit)

include limited

theorem answersLoads_hostIn (numAverages : Int) :
    Arithmetic.AnswersLoads (hostIn .ieee kernel garbage) numAverages := by
  intro inside averages read i less
  rw [loadAverages_of_answers answers garbage rfl rfl inside, Option.some.injEq] at read
  rw [← read, answeredLoads_of_lt garbage less]
  exact ⟨answers.loads_nonneg i, limited i⟩

/-- What the program reads on Linux, with the CPU percentage next to the exact
share. -/
theorem exists_storedReading (settings : Settings) :
    ∃ reading : Arithmetic.StoredReading (hostIn .ieee kernel garbage) settings,
      reading.memStatus = figures.storedStatus ∧
      Within (1 / 2 ^ 20) (figures.busyShare settings.cpuUsageDelay) reading.percentage := by
  obtain ⟨percentage, computed, nonneg, atMost, within⟩ :=
    cpuPercentage_hostIn answers garbage settings.cpuUsageDelay
  have processors : (hostIn .ieee kernel garbage).cpuCount ≠ 0 := answers.cpuCount_pos.ne'
  exact ⟨⟨figures.storedStatus, memStatus_hostIn answers garbage,
    (storedStatus_rounds answers).stores, percentage, computed, nonneg,
    toUnsigned_le nonneg (by exact_mod_cast atMost) (by decide), processors,
    answersLoads_hostIn answers garbage limited settings.averagesCount⟩, rfl, within⟩

omit limited in
/-- The averages on the screen are the hundredths of those of the kernel. -/
theorem shown_loads {numAverages : Int} {content : LoadContent}
    (read : Arithmetic.loadContent (hostIn .ieee kernel garbage) numAverages = .ok content) :
    content.shown numAverages = if numAverages ≤ 0 ∨ numAverages > 3 then []
      else (List.range numAverages.toNat).map fun i =>
        (Arithmetic.ieee.hundredths (figures.loads i)).toNat := by
  by_cases outside : numAverages ≤ 0 ∨ numAverages > 3
  · rw [Arithmetic.loadContent, if_pos outside] at read
    cases read
    rw [if_pos outside]
    rfl
  · rw [Arithmetic.loadContent, if_neg outside,
      loadAverages_of_answers answers garbage rfl rfl outside] at read
    obtain ⟨index, _, figuresEq⟩ := Outcome.bind_eq_ok read
    cases figuresEq
    rw [if_neg outside]
    apply List.map_congr_left
    intro i member
    rw [Arithmetic.roundedHundredths_shownAverage,
      answeredLoads_of_lt garbage (List.mem_range.mp member)]

end Metrics

theorem eq_defaultDisplay {status : MemoryStatus} {mode : MemoryMode} {display : MemoryDisplay}
    (shown : Arithmetic.ieee.memoryShown status mode = .sizes display) :
    display = defaultDisplay status := by
  cases mode with
  | default =>
      cases shown
      rfl
  | other value =>
      cases shown
      rfl
  | freeMemory =>
      unfold Arithmetic.memoryShown at shown
      split_ifs at shown
  | usagePercentage => cases shown

theorem cpuTenths_close {host : Host} {share percentage : ℚ} (nonneg : 0 ≤ share)
    (within : Within (1 / 2 ^ 20) share percentage) (cpuMode : CpuMode) :
    |(roundedUnits 1 (Arithmetic.ieee.float
        (percentage * Arithmetic.ieee.cpuMultiplier host cpuMode)) : ℚ) / 10 -
      share * (if cpuMode = .threads then (host.cpuCount : ℚ) else 1)| ≤
    1 / 20 + share * (if cpuMode = .threads then (host.cpuCount : ℚ) else 1) * (1 / 2 ^ 19) := by
  have multiplierNonneg : (0 : ℚ) ≤ if cpuMode = .threads then (host.cpuCount : ℚ) else 1 := by
    split_ifs
    · exact Nat.cast_nonneg _
    · exact zero_le_one
  have multiplier : Within (1 / 2 ^ 24) (if cpuMode = .threads then (host.cpuCount : ℚ) else 1)
      (Arithmetic.ieee.cpuMultiplier host cpuMode) := by
    unfold Arithmetic.cpuMultiplier
    split_ifs
    · exact Within.toPrecision nearestEven 24 (Nat.cast_nonneg _)
    · exact (Within.ofShareZero 1).mono zero_le_one (by norm_num)
  have productNonneg := mul_nonneg nonneg multiplierNonneg
  have product := (within.mul nonneg (by norm_num) multiplier multiplierNonneg
    (by norm_num)).rounded productNonneg (by norm_num) nearestEven 24
  have digits := abs_le.mp (roundedUnits_close 1 (product.nonneg productNonneg (by norm_num)))
  have close := abs_le.mp (product.mono productNonneg
    (by norm_num : _ ≤ (1 : ℚ) / 2 ^ 19)).close
  show |(roundedUnits 1 (nearestEven.toPrecision 24 _) : ℚ) / 10 - _| ≤ _
  norm_num at digits
  rw [abs_le]
  constructor <;> linarith

/-! ## From the kernel to the screen -/

/-- The screen tells the figures of the kernel.  Below 16 GiB the sizes are the
exact ones, and averages that are stated in hundredths are shown as stated. -/
structure RoundedTells (kernel : Kernel) (figures : Figures) (settings : Settings)
    (shown : ScreenShown) : Prop where
  memory : shown.memory.NearTo (1 / 2 ^ 20) figures.memStatus
  sizes : figures.total < 2 ^ 24 → ∀ display, shown.memory = .sizes display →
    display.Exact figures.memStatus.usedMem figures.memStatus.totalMem
  cpu : |(shown.cpuTenths : ℚ) / 10 - figures.busyShare settings.cpuUsageDelay *
      (if settings.cpuMode = .threads then (kernel.cpuCount : ℚ) else 1)| ≤
    1 / 20 + figures.busyShare settings.cpuUsageDelay *
      (if settings.cpuMode = .threads then (kernel.cpuCount : ℚ) else 1) * (1 / 2 ^ 19)
  loads_length : shown.loads.length =
    if settings.averagesCount ≤ 0 ∨ settings.averagesCount > 3 then 0
    else settings.averagesCount.toNat
  loads : ∀ i (inside : i < shown.loads.length),
    |(shown.loads[i] : ℚ) / 100 - figures.loads i| ≤ 1 / 200 + (figures.loads i + 1) / 2 ^ 21
  stated : ∀ i (inside : i < shown.loads.length), ∀ count : Nat, count < 2 ^ 20 →
    figures.loads i = toDouble ((count : ℚ) / 100) → shown.loads[i] = count

section Screen

variable {kernel : Kernel} {figures : Figures} (answers : kernel.Answers figures)
  (garbage : Garbage) (limited : ∀ i, figures.loads i ≤ loadLimit)
include answers limited

/-- For all settings the line is rendered, and the figures of the kernel are
read back from the characters that it draws. -/
theorem roundedStatusLine_tells_kernel (settings : Settings) (before : Style) :
    ∃ line glyphs after shown,
      Arithmetic.ieee.statusLine (hostIn .ieee kernel garbage) settings = .ok line ∧
      Draws before line glyphs after ∧
      readScreen (glyphs.map Glyph.char) = some shown ∧
      RoundedTells kernel figures settings shown := by
  obtain ⟨reading, status, within⟩ := exists_storedReading answers garbage limited settings
  obtain ⟨line, glyphs, after, content, rendered, read, drawn, shownEq⟩ :=
    Arithmetic.readScreen_statusLine reading before
  have rounds := storedStatus_rounds answers
  obtain ⟨nonneg, atMost, _, exactLt⟩ := memStatus_range answers
  have share := (busyShare_range (answers.increase settings.cpuUsageDelay)).1
  have loads := shown_loads answers garbage read
  have entry : ∀ i (inside : i < (reading.shown content).loads.length),
      (reading.shown content).loads[i] = (Arithmetic.ieee.hundredths (figures.loads i)).toNat := by
    intro i inside
    have equal : (reading.shown content).loads = _ := loads
    simp only [equal] at inside ⊢
    split_ifs at inside ⊢
    · simp at inside
    · simp
  refine ⟨line, glyphs, after, reading.shown content, rendered, drawn, shownEq, ?_, ?_, ?_, ?_,
    ?_, ?_⟩
  · show MemoryShown.NearTo _ _ (Arithmetic.ieee.memoryShown reading.memStatus _)
    rw [status]
    exact rounds.memoryShown_near (storedTotal_lt answers) _
  · intro small display sizes
    have shownSizes : Arithmetic.ieee.memoryShown reading.memStatus settings.memMode =
        .sizes display := sizes
    rw [status, storedStatus_eq answers small] at shownSizes
    rw [eq_defaultDisplay shownSizes]
    exact memoryShown_close nonneg atMost exactLt .default
  · exact cpuTenths_close share within settings.cpuMode
  · show (content.shown settings.averagesCount).length = _
    rw [loads]
    split_ifs <;> simp
  · intro i inside
    have least := (Arithmetic.hundredths_range (answers.loads_nonneg i) (limited i)).1
    have close := Arithmetic.hundredths_close (answers.loads_nonneg i)
    rw [← Int.toNat_of_nonneg least, Int.cast_natCast, ← entry i inside] at close
    exact close
  · intro i inside count fits stated
    rw [entry i inside, stated, Arithmetic.hundredths_decimal fits, Int.toNat_natCast]

end Screen

theorem roundedStatusLine_tells_kernel_sample : ∃ line glyphs after shown,
    Arithmetic.ieee.statusLine (hostIn .ieee sampleKernel sampleGarbage) Settings.initial =
      .ok line ∧
    Draws defaultStyle line glyphs after ∧
    readScreen (glyphs.map Glyph.char) = some shown ∧
    RoundedTells sampleKernel sampleFigures Settings.initial shown := by
  have limited : ∀ i, sampleFigures.loads i ≤ loadLimit := by
    intro i
    show (1 : ℚ) ≤ 2 ^ 13
    norm_num
  exact roundedStatusLine_tells_kernel sampleKernel_answers sampleGarbage limited
    Settings.initial defaultStyle

end Linux

end TmuxMemCpuLoad
