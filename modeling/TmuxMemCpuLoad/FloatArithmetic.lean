import TmuxMemCpuLoad.RoundedFigures
import TmuxMemCpuLoad.StatusLine

/-!
# The renderers over an arithmetic

The renderers compute with `float` and `double`.  Here they are written over the
two roundings of an arithmetic.  Without any rounding they render the exact
figures; with those of IEEE arithmetic they render what the program prints.
-/

namespace TmuxMemCpuLoad

open StandardCxx

/-- What a result becomes as a `float` and as a `double`. -/
structure Arithmetic where
  float : ℚ → ℚ
  double : ℚ → ℚ

namespace Arithmetic

/-- Every result is kept as it is. -/
def exact : Arithmetic where
  float := id
  double := id

/-- Every result is rounded to the nearest number of its format. -/
def ieee : Arithmetic where
  float := toFloat
  double := toDouble

variable (arith : Arithmetic)

/-! ## Memory -/

/-- `count` rounds of `num /= 1024` on a `float`. -/
def divideBy1024 : Nat → ℚ → ℚ
  | 0, num => num
  | count + 1, num => divideBy1024 count (arith.float (num / 1024))

def convertUnit (num : ℚ) (toUnit fromUnit : ByteUnit) : ℚ :=
  arith.divideBy1024 (toUnit.value - fromUnit.value) num

def memPercentage (memStatus : MemoryStatus) : ExactFloat :=
  (quotient (arith.float (100 * memStatus.usedMem)) memStatus.totalMem).map arith.float

def freeMem (memStatus : MemoryStatus) : ℚ :=
  arith.float (memStatus.totalMem - memStatus.usedMem)

/-- `100.0` is a `double`, and so is the product before it is stored. -/
def percentageMem (memStatus : MemoryStatus) : ℚ :=
  arith.float (arith.double (arith.float (memStatus.usedMem / memStatus.totalMem) * 100))

def memFigure (oss : OutputStream) (memStatus : MemoryStatus) : MemoryMode → OutputStream
  | .freeMemory =>
      let freeMem := arith.freeMem memStatus
      let freeMemInGigabytes := arith.convertUnit freeMem .gigabytes .megabytes
      if freeMemInGigabytes < 1 then (oss.putFloat freeMem).put "MB".toList
      else (oss.putFloat freeMemInGigabytes).put "GB".toList
  | .usagePercentage =>
      (oss.putFloat (arith.percentageMem memStatus)).putChar '%'
  | .default | .other _ =>
      if memStatus.usedMem > 10000 ∧ memStatus.totalMem > 10000 then
        (((oss.putUnsigned (toUnsigned (arith.float (memStatus.usedMem / 1024)))).put
          "/".toList).putUnsigned (toUnsigned (arith.float (memStatus.totalMem / 1024)))).put
          "GB".toList
      else if memStatus.usedMem < 10000 ∧ memStatus.totalMem > 10000 then
        (((oss.putUnsigned (toUnsigned memStatus.usedMem)).put
          "MB/".toList).putUnsigned (toUnsigned (arith.float (memStatus.totalMem / 1024)))).put
          "GB".toList
      else
        (((oss.putUnsigned (toUnsigned memStatus.usedMem)).put
          "/".toList).putUnsigned (toUnsigned memStatus.totalMem)).put
          "MB".toList

def memString (memStatus : MemoryStatus) (mode : MemoryMode)
    (useColors usePowerlineLeft usePowerlineRight segmentsToLeft : Bool)
    (leftColor : Int) : Outcome (List Char) := do
  let percentage ← finite (arith.memPercentage memStatus)
  let color := toUnsigned percentage
  let oss ←
    if useColors then
      openMemory memStream color usePowerlineLeft usePowerlineRight
        segmentsToLeft leftColor
    else .ok memStream
  let oss := arith.memFigure oss memStatus mode
  let oss ←
    if useColors then closeSegment oss memLut color usePowerlineLeft usePowerlineRight
    else .ok oss
  .ok oss.written

/-! ## CPU -/

/-- `static_cast<float>( value ) / 99.9 * len`, cast to `unsigned`. -/
def barCount (value len : Nat) : Nat :=
  toUnsigned (arith.double (arith.double (arith.float value / arith.double (999 / 10)) *
    arith.double len))

def getGraphByPercentage (value len : Nat) : List Char :=
  drawBars (arith.barCount value len) len

def cpuGraph (oss : OutputStream) (percentage : ℚ) (graphLines : Nat)
    (useVertGraph : Bool) : OutputStream :=
  if useVertGraph then
    ((oss.put "▕".toList).put (getGraphVert (toUnsigned percentage))).put "▏".toList
  else if graphLines > 0 then
    ((oss.put " [".toList).put
      (arith.getGraphByPercentage (toUnsigned percentage) graphLines)).put "]".toList
  else oss

def cpuFigure (oss : OutputStream) (percentage multiplier : ℚ) (graphLines : Nat)
    (useVertGraph : Bool) : OutputStream :=
  let oss := (arith.cpuGraph oss percentage graphLines useVertGraph).setWidth 6
  let oss := ((oss.setFixed.setPrecision 1).setFill ' ').setRight
  (oss.putFloat (arith.float (percentage * multiplier))).put "%".toList

def cpuStream (percentage multiplier : ℚ) : OutputStream :=
  let oss := ((OutputStream.fresh.setPrecision 1).setFixed).setRight
  if arith.float (percentage * multiplier) ≥ 100 then oss.setPrecision 0 else oss

def cpuMultiplier (host : Host) (cpuMode : CpuMode) : ℚ :=
  if cpuMode = .threads then arith.float host.cpuCount else 1

def cpuString (host : Host) (cpuMode : CpuMode) (cpuUsageDelay graphLines : Nat)
    (useColors usePowerlineLeft usePowerlineRight useVertGraph : Bool) :
    Outcome (List Char) := do
  let reading ← host.cpuPercentage cpuUsageDelay
  let multiplier := arith.cpuMultiplier host cpuMode
  let percentage ← finite reading
  let percent := toUnsigned percentage
  let oss := arith.cpuStream percentage multiplier
  let oss ←
    if useColors then
      openSegment oss cpuPercentageLut percent usePowerlineLeft usePowerlineRight
    else .ok oss
  let oss := arith.cpuFigure oss percentage multiplier graphLines useVertGraph
  let oss ←
    if useColors then
      closeSegment oss cpuPercentageLut percent usePowerlineLeft usePowerlineRight
    else .ok oss
  .ok oss.written

/-! ## Load -/

/-- The averages are `double`, and so are the results. -/
def loadPercentage (host : Host) (averages : Nat → ℚ) : ExactFloat :=
  (quotient (averages 0) host.cpuCount).map fun load =>
    arith.double (arith.double (arith.double load * (1 / 2)) * 100)

def loadColor (host : Host) (averages : Nat → ℚ) : Outcome Nat := do
  let load ← finite (arith.loadPercentage host averages)
  let loadPercent := toUnsigned load
  .ok (if loadPercent > 100 then 100 else loadPercent)

/-- `floorf( static_cast<float>( average ) * 100 + 0.5 )`: the product is a
`float`, the sum a `double` and the argument of `floorf` a `float` again. -/
def hundredths (average : ℚ) : Int :=
  ⌊arith.float (arith.double (arith.float (arith.float average * 100) + 1 / 2))⌋

def putAverage (averages : Nat → ℚ) (numAverages : Int) (ss : OutputStream)
    (i : Nat) : OutputStream :=
  let avg : ℚ := arith.float (arith.hundredths (averages i) / 100)
  if (i : Int) = numAverages - 1 then ss.putFloat avg
  else (ss.putFloat avg).put " ".toList

def loadFigure (ss : OutputStream) (averages : Nat → ℚ) (numAverages : Int) :
    OutputStream :=
  (List.range numAverages.toNat).foldl (arith.putAverage averages numAverages)
    (ss.putChar ' ')

def loadString (host : Host) (useColors usePowerlineLeft usePowerlineRight : Bool)
    (numAverages : Int) (segmentsToRight : Bool) (rightColor : Int) :
    Outcome (List Char) :=
  if numAverages ≤ 0 ∨ numAverages > 3 then
    .ok (loadStream.putChar '\x00').written
  else
    match host.loadAverages numAverages.toNat with
    | none => .ok (loadStream.put " 0.00 0.00 0.00".toList).written
    | some averages => do
        let loadPercent ← arith.loadColor host averages
        let ss ←
          if useColors then
            openSegment loadStream loadLut loadPercent usePowerlineLeft usePowerlineRight
          else .ok loadStream
        let ss := arith.loadFigure ss averages numAverages
        let ss ←
          if useColors then
            closeLoad ss loadPercent usePowerlineLeft usePowerlineRight
              segmentsToRight rightColor
          else .ok ss
        .ok ss.written

/-! ## The line -/

def statusLine (host : Host) (settings : Settings) : Outcome (List Char) := do
  let memoryStatus ← host.memStatus
  let memory ←
    arith.memString memoryStatus settings.memMode settings.useColors settings.usePowerlineLeft
      settings.usePowerlineRight settings.segmentsToLeft settings.leftColor
  let cpu ←
    arith.cpuString host settings.cpuMode settings.cpuUsageDelay settings.graphLength
      settings.useColors settings.usePowerlineLeft settings.usePowerlineRight
      settings.useVertGraph
  let load ←
    arith.loadString host settings.useColors settings.usePowerlineLeft
      settings.usePowerlineRight settings.averagesCount settings.segmentsToRight
      settings.rightColor
  .ok (memory ++ cpu ++ load)

end Arithmetic

/-! ## Without rounding -/

namespace Arithmetic

theorem exact_divideBy1024 (count : Nat) (num : ℚ) :
    exact.divideBy1024 count num = TmuxMemCpuLoad.divideBy1024 count num := by
  induction count generalizing num with
  | zero => rfl
  | succ count induction => exact induction (num / 1024)

theorem exact_memFigure (oss : OutputStream) (memStatus : MemoryStatus) (mode : MemoryMode) :
    exact.memFigure oss memStatus mode = TmuxMemCpuLoad.memFigure oss memStatus mode := by
  cases mode with
  | default => rfl
  | freeMemory =>
      simp only [memFigure, convertUnit, exact_divideBy1024]
      rfl
  | usagePercentage => rfl
  | other value => rfl

theorem exact_memString (memStatus : MemoryStatus) (mode : MemoryMode)
    (useColors usePowerlineLeft usePowerlineRight segmentsToLeft : Bool) (leftColor : Int) :
    exact.memString memStatus mode useColors usePowerlineLeft usePowerlineRight
        segmentsToLeft leftColor =
      TmuxMemCpuLoad.memString memStatus mode useColors usePowerlineLeft usePowerlineRight
        segmentsToLeft leftColor := by
  have percentage : exact.memPercentage memStatus =
      TmuxMemCpuLoad.memPercentage memStatus :=
    congrFun Option.map_id _
  simp only [memString, percentage, exact_memFigure]
  rfl

theorem exact_cpuString (host : Host) (cpuMode : CpuMode) (cpuUsageDelay graphLines : Nat)
    (useColors usePowerlineLeft usePowerlineRight useVertGraph : Bool) :
    exact.cpuString host cpuMode cpuUsageDelay graphLines useColors usePowerlineLeft
        usePowerlineRight useVertGraph =
      TmuxMemCpuLoad.cpuString host cpuMode cpuUsageDelay graphLines useColors
        usePowerlineLeft usePowerlineRight useVertGraph :=
  rfl

theorem exact_loadString (host : Host)
    (useColors usePowerlineLeft usePowerlineRight : Bool) (numAverages : Int)
    (segmentsToRight : Bool) (rightColor : Int) :
    exact.loadString host useColors usePowerlineLeft usePowerlineRight numAverages
        segmentsToRight rightColor =
      TmuxMemCpuLoad.loadString host useColors usePowerlineLeft usePowerlineRight
        numAverages segmentsToRight rightColor :=
  rfl

/-- An arithmetic that does not round renders the exact figures. -/
theorem exact_statusLine (host : Host) (settings : Settings) :
    exact.statusLine host settings = TmuxMemCpuLoad.statusLine host settings := by
  simp only [statusLine, exact_memString, exact_cpuString, exact_loadString]
  rfl

end Arithmetic

end TmuxMemCpuLoad
