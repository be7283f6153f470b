import TmuxMemCpuLoad.DecimalReader
import TmuxMemCpuLoad.LoadFigures
import TmuxMemCpuLoad.CpuFormat
import TmuxMemCpuLoad.MemoryUnits
import TmuxMemCpuLoad.StatusLine

/-!
# Reading the screen

The characters of the status line, without its directives, are read back: the
memory figure in each of its modes, the CPU percentage behind either graph or
none, and the load averages.  What is read are the metrics, rounded to the
decimals that are shown.
-/

namespace TmuxMemCpuLoad

open StandardCxx StyledText DecimalReader

/-- The memory figure: the display of the default mode, the free memory in
hundredths of a unit, or hundredths of a percent. -/
inductive MemoryShown
  | sizes (display : MemoryDisplay)
  | free (hundredths : Nat) (unit : SizeUnit)
  | percentage (hundredths : Nat)
  deriving DecidableEq, Repr

/-- The figures on the screen: memory, tenths of a percent of CPU time, and
hundredths of each load average. -/
structure ScreenShown where
  memory : MemoryShown
  cpuTenths : Nat
  loads : List Nat
  deriving DecidableEq, Repr

/-! ## The reader -/

def readUnit : List Char → Option (SizeUnit × List Char)
  | 'M' :: 'B' :: rest => some (.megabytes, rest)
  | 'G' :: 'B' :: rest => some (.gigabytes, rest)
  | _ => none

/-- The total and the final unit, after the slash. -/
def readTotal (used : Nat) (usedUnit : Option SizeUnit) (text : List Char) :
    Option (MemoryShown × List Char) := do
  let (total, rest) ← readNatural text
  let (unit, rest) ← readUnit rest
  some (.sizes ⟨used, usedUnit, total, unit⟩, rest)

/-- A percent sign or a unit, after a number of hundredths. -/
def readQuantity (hundredths : Nat) (text : List Char) : Option (MemoryShown × List Char) :=
  match text with
  | '%' :: rest => some (.percentage hundredths, rest)
  | rest => (readUnit rest).map fun read => (.free hundredths read.1, read.2)

def readMemory (text : List Char) : Option (MemoryShown × List Char) := do
  let (number, rest) ← readNatural text
  match rest with
  | '/' :: rest => readTotal number none rest
  | '.' :: rest => do
      let (fraction, rest) ← readDigits 2 rest
      readQuantity (number * 100 + fraction) rest
  | rest => do
      let (unit, rest) ← readUnit rest
      match rest with
      | '/' :: rest => readTotal number (some unit) rest
      | _ => none

def skipSigns (text : List Char) : List Char :=
  text.dropWhile fun char => IsSign char

/-- The text after a graph, if there is one. -/
def skipGraph (text : List Char) : List Char :=
  match text with
  | '[' :: rest => (rest.dropWhile (· ≠ ']')).drop 1
  | '▕' :: rest => (rest.dropWhile (· ≠ '▏')).drop 1
  | rest => rest

def readCpu (text : List Char) : Option (Nat × List Char) := do
  let (tenths, rest) ← readFixed 1 (skipSigns (skipGraph (skipSigns text)))
  match rest with
  | '%' :: rest => some (tenths, rest)
  | _ => none

/-- At most `limit` load averages; the NUL stands for none. -/
def readLoads : Nat → List Char → Option (List Nat)
  | 0, text => if skipSigns text = [] then some [] else none
  | limit + 1, text =>
      match skipSigns text with
      | [] => some []
      | '\x00' :: rest => if skipSigns rest = [] then some [] else none
      | rest => do
          let (hundredths, rest) ← readFixed 2 rest
          let others ← readLoads limit rest
          some (hundredths :: others)

def readScreen (text : List Char) : Option ScreenShown := do
  let (memory, rest) ← readMemory (skipSigns text)
  let (cpuTenths, rest) ← readCpu rest
  let loads ← readLoads 3 rest
  some ⟨memory, cpuTenths, loads⟩

example : readScreen " 512MB/15GB [||        ]  25.0% 1.00 0.75 0.50 ".toList =
    some ⟨.sizes ⟨512, some .megabytes, 15, .gigabytes⟩, 250, [100, 75, 50]⟩ := by
  decide +kernel

/-! ## Segments -/

/-- A figure between two texts that only decorate it. -/
structure Segment where
  opening : List Char
  figure : List Char
  closing : List Char
  opens : Decoration IsSign opening
  closes : Decoration IsSign closing
  plain : '#' ∉ figure

namespace Segment

def text (segment : Segment) : List Char :=
  segment.opening ++ segment.figure ++ segment.closing

def undecorated {figure : List Char} (plain : '#' ∉ figure) : Segment where
  opening := []
  figure := figure
  closing := []
  opens := .nil
  closes := .nil
  plain := plain

theorem undecorated_text {figure : List Char} (plain : '#' ∉ figure) :
    (undecorated plain).text = figure := by
  simp [undecorated, text]

/-- Three segments draw their figures, with signs around them. -/
theorem draws_line (first second third : Segment) (before : Style) :
    ∃ glyphs after start middle between finish,
      Draws before (first.text ++ second.text ++ third.text) glyphs after ∧
      glyphs.map Glyph.char = start ++ (first.figure ++ (middle ++ (second.figure ++
        (between ++ (third.figure ++ finish))))) ∧
      (∀ char ∈ start, IsSign char) ∧ (∀ char ∈ middle, IsSign char) ∧
      (∀ char ∈ between, IsSign char) ∧ ∀ char ∈ finish, IsSign char := by
  have noHash : ¬ IsSign '#' := fun sign => sign.ne_hash rfl
  obtain ⟨firstGlyphs, afterFirst, start, closing, firstDrawn, firstChars, firstSigns⟩ :=
    first.opens.draws_around first.closes first.plain noHash before
  obtain ⟨secondGlyphs, afterSecond, opening, closed, secondDrawn, secondChars, secondSigns⟩ :=
    second.opens.draws_around second.closes second.plain noHash afterFirst
  obtain ⟨thirdGlyphs, after, opened, finish, thirdDrawn, thirdChars, thirdSigns⟩ :=
    third.opens.draws_around third.closes third.plain noHash afterSecond
  rw [List.forall_mem_append] at firstSigns secondSigns thirdSigns
  refine ⟨_, after, start, closing ++ opening, closed ++ opened, finish,
    (firstDrawn.append secondDrawn).append thirdDrawn, ?_, firstSigns.1,
    List.forall_mem_append.mpr ⟨firstSigns.2, secondSigns.1⟩,
    List.forall_mem_append.mpr ⟨secondSigns.2, thirdSigns.1⟩, thirdSigns.2⟩
  simp [firstChars, secondChars, thirdChars]

end Segment

/-! ## What is drawn -/

section Drawn

variable {host : Host} {settings : Settings} (reading : Reading host settings)

theorem Reading.statusLine_plain (plain : settings.useColors = false) :
    statusLine host settings =
      .ok (reading.memoryFigure ++ reading.cpuFigure ++ reading.loadFigures) := by
  have memory := memString_plain reading.memStatus settings.memMode
    settings.usePowerlineLeft settings.usePowerlineRight settings.segmentsToLeft
    settings.leftColor reading.memoryPercentage_eq
  have cpu := cpuString_plain settings.cpuMode settings.graphLength
    settings.usePowerlineLeft settings.usePowerlineRight settings.useVertGraph
    reading.percentage_eq
  have load := loadString_plain settings.usePowerlineLeft settings.usePowerlineRight
    settings.segmentsToRight settings.rightColor reading.content_eq
  simp only [statusLine, reading.memStatus_eq, plain, memory, cpu, load, Outcome.ok_bind]
  rfl

theorem decoration_openLoadText (usePowerlineLeft usePowerlineRight : Bool)
    {index : Option Nat} (inTable : ∀ selected, index = some selected → selected ≤ 100) :
    Decoration IsSign (openLoadText usePowerlineLeft usePowerlineRight index) := by
  cases index with
  | none => exact .nil
  | some selected =>
      exact decoration_openText
        (loadLut_wellFormed.lutStyle_writable (inTable selected rfl)) _ _

theorem decoration_endLoadText (usePowerlineLeft usePowerlineRight segmentsToRight : Bool)
    (rightColor : Int) {index : Option Nat}
    (inTable : ∀ selected, index = some selected → selected ≤ 100) :
    Decoration IsSign (endLoadText usePowerlineLeft usePowerlineRight segmentsToRight
      rightColor index) := by
  cases index with
  | none => exact .nil
  | some selected =>
      exact decoration_closeLoadText
        (loadLut_wellFormed.lutStyle_writable (inTable selected rfl)) _ _ _ _

/-- The figures are drawn one after the other, with signs around them. -/
def DrawsFigures (before : Style) (line : List Char) : Prop :=
  ∃ glyphs after start first second finish, Draws before line glyphs after ∧
    glyphs.map Glyph.char = start ++ (reading.memoryFigure ++ (first ++ (reading.cpuFigure ++
      (second ++ (reading.loadFigures ++ finish))))) ∧
    (∀ char ∈ start, IsSign char) ∧ (∀ char ∈ first, IsSign char) ∧
    (∀ char ∈ second, IsSign char) ∧ ∀ char ∈ finish, IsSign char

theorem Reading.drawsFigures (before : Style) :
    ∃ line, statusLine host settings = .ok line ∧ DrawsFigures reading before line := by
  have memoryPlain := hash_not_mem_of_figure reading.memoryFigure_figureChar
  have cpuPlain := hash_not_mem_of_figure reading.cpuFigure_figureChar
  have loadPlain := hash_not_mem_of_figure reading.loadFigures_figureChar
  cases colours : settings.useColors with
  | false =>
      have drawn := Segment.draws_line (.undecorated memoryPlain) (.undecorated cpuPlain)
        (.undecorated loadPlain) before
      simp only [Segment.undecorated_text] at drawn
      exact ⟨_, reading.statusLine_plain colours, drawn⟩
  | true =>
      have inTable := loadContent_index_le reading.content_eq
      let memory : Segment := ⟨_, _, _,
        decoration_openMemoryText reading.memoryStyle_writable settings.usePowerlineLeft
          settings.usePowerlineRight settings.segmentsToLeft settings.leftColor,
        decoration_closeText reading.memoryStyle_writable settings.usePowerlineLeft
          settings.usePowerlineRight, memoryPlain⟩
      let cpu : Segment := ⟨_, _, _,
        decoration_openText reading.cpuStyle_writable settings.usePowerlineLeft
          settings.usePowerlineRight,
        decoration_closeText reading.cpuStyle_writable settings.usePowerlineLeft
          settings.usePowerlineRight, cpuPlain⟩
      let load : Segment := ⟨_, _, _,
        decoration_openLoadText settings.usePowerlineLeft settings.usePowerlineRight inTable,
        decoration_endLoadText settings.usePowerlineLeft settings.usePowerlineRight
          settings.segmentsToRight settings.rightColor inTable, loadPlain⟩
      exact ⟨_, reading.statusLine_coloured colours, memory.draws_line cpu load before⟩

end Drawn

/-! ## The memory figure -/

def MemoryShown.text : MemoryShown → List Char
  | .sizes display => display.text
  | .free hundredths unit => scaledText 2 hundredths ++ unit.text
  | .percentage hundredths => scaledText 2 hundredths ++ ['%']

/-- What the memory figure shows of a status. -/
def memoryShown (status : MemoryStatus) : MemoryMode → MemoryShown
  | .freeMemory =>
      if status.freeMem < 1024 then .free (roundedUnits 2 status.freeMem) .megabytes
      else .free (roundedUnits 2 (status.freeMem / 1024)) .gigabytes
  | .usagePercentage => .percentage (roundedUnits 2 status.percentageMem)
  | .default | .other _ => .sizes (defaultDisplay status)

theorem WritesHundredths.putScaled {oss : OutputStream} (writes : WritesHundredths oss)
    {value : ℚ} (nonneg : 0 ≤ value) :
    oss.putFloat value = oss.append (scaledText 2 (roundedUnits 2 value)) := by
  rw [← fixedText_eq_scaledText (by decide) nonneg, OutputStream.putFloat,
    OutputStream.put_eq_append writes.noWidth, OutputStream.floatText, writes.fixed,
    writes.twoDecimals]

theorem memStream_writesHundredths : WritesHundredths memStream :=
  ⟨rfl, rfl, rfl⟩

theorem memText_eq {status : MemoryStatus} (nonneg : 0 ≤ status.usedMem)
    (atMost : status.usedMem ≤ status.totalMem) (mode : MemoryMode) :
    memText status mode = (memoryShown status mode).text := by
  have free : 0 ≤ status.freeMem := sub_nonneg.mpr atMost
  have percentage : 0 ≤ status.percentageMem := by
    have total : 0 ≤ status.totalMem := nonneg.trans atMost
    unfold MemoryStatus.percentageMem
    positivity
  have empty : memStream.written = [] := rfl
  have noWidth : memStream.width = 0 := rfl
  cases mode with
  | default => exact memText_default status
  | other value => exact memText_default status
  | freeMemory =>
      have gigabytes : convertUnit status.freeMem .gigabytes .megabytes =
          status.freeMem / 1024 := rfl
      have border : status.freeMem / 1024 < 1 ↔ status.freeMem < 1024 := by
        rw [div_lt_iff₀ (by norm_num), one_mul]
      simp only [memText, memFigure, memoryShown, gigabytes, border]
      split_ifs
      · rw [memStream_writesHundredths.putScaled free,
          OutputStream.put_eq_append (by simp [noWidth])]
        simp [empty, MemoryShown.text, SizeUnit.text]
      · rw [memStream_writesHundredths.putScaled (by positivity),
          OutputStream.put_eq_append (by simp [noWidth])]
        simp [empty, MemoryShown.text, SizeUnit.text]
  | usagePercentage =>
      simp only [memText, memFigure, memoryShown]
      rw [memStream_writesHundredths.putScaled percentage, OutputStream.putChar,
        OutputStream.put_eq_append (by simp [noWidth])]
      simp [empty, MemoryShown.text]

theorem readUnit_text_append (unit : SizeUnit) (rest : List Char) :
    readUnit (unit.text ++ rest) = some (unit, rest) := by
  cases unit <;> rfl

theorem SizeUnit.append_noDigitHead (unit : SizeUnit) (rest : List Char) :
    NoDigitHead (unit.text ++ rest) := by
  intro char member
  cases unit <;> cases member <;> rfl

theorem readTotal_append (used : Nat) (usedUnit : Option SizeUnit) (total : Nat)
    (unit : SizeUnit) (rest : List Char) :
    readTotal used usedUnit (unsignedText total ++ (unit.text ++ rest)) =
      some (.sizes ⟨used, usedUnit, total, unit⟩, rest) := by
  rw [readTotal, unsignedText, readNatural_toDigits_append _ (unit.append_noDigitHead rest)]
  show (readUnit (unit.text ++ rest) >>= fun _ => _) = _
  rw [readUnit_text_append]
  rfl

theorem point_noDigitHead (rest : List Char) : NoDigitHead ('.' :: rest) := by
  intro char member
  cases member
  rfl

theorem readMemory_sizes (display : MemoryDisplay) (rest : List Char) :
    readMemory (display.text ++ rest) = some (.sizes display, rest) := by
  obtain ⟨used, usedUnit, total, unit⟩ := display
  have text : MemoryDisplay.text ⟨used, usedUnit, total, unit⟩ ++ rest =
      Nat.toDigits 10 used ++ (usedUnit.elim [] SizeUnit.text ++
        '/' :: (unsignedText total ++ (unit.text ++ rest))) := by
    simp [MemoryDisplay.text, unsignedText]
  rw [text, readMemory, readNatural_toDigits_append _ (suffix_noDigitHead usedUnit _)]
  rcases usedUnit with _ | _ | _ <;> exact readTotal_append used _ total unit rest

theorem readMemory_hundredths (hundredths : Nat) (rest : List Char) :
    readMemory (scaledText 2 hundredths ++ rest) = readQuantity hundredths rest := by
  have text : scaledText 2 hundredths ++ rest = Nat.toDigits 10 (hundredths / 10 ^ 2) ++
      '.' :: (paddedDigits 2 (hundredths % 10 ^ 2) ++ rest) := by
    simp [scaledText]
  have fraction : hundredths % 10 ^ 2 < 10 ^ 2 := Nat.mod_lt _ (by decide)
  rw [text, readMemory, readNatural_toDigits_append _ (point_noDigitHead _)]
  show (readDigits 2 _ >>= fun _ => _) = _
  rw [readDigits_paddedDigits_append (by decide) fraction]
  show readQuantity (hundredths / 100 * 100 + hundredths % 100) rest = _
  rw [Nat.div_add_mod']

theorem readMemory_text_append (shown : MemoryShown) (rest : List Char) :
    readMemory (shown.text ++ rest) = some (shown, rest) := by
  cases shown with
  | sizes display => exact readMemory_sizes display rest
  | free hundredths unit =>
      rw [MemoryShown.text, List.append_assoc, readMemory_hundredths]
      cases unit <;> rfl
  | percentage hundredths =>
      rw [MemoryShown.text, List.append_assoc, readMemory_hundredths]
      rfl

/-! ## The CPU figure -/

theorem skipSigns_append {leading : List Char} (signs : ∀ char ∈ leading, IsSign char)
    (text : List Char) : skipSigns (leading ++ text) = skipSigns text := by
  apply List.dropWhile_append_of_pos
  exact fun char member => decide_eq_true (signs char member)

theorem skipSigns_of_not_sign {char : Char} (notSign : ¬ IsSign char) (text : List Char) :
    skipSigns (char :: text) = char :: text := by
  simp [skipSigns, notSign]

theorem scaledText_eq_cons (precision scaled : Nat) :
    ∃ digit digits, scaledText precision scaled = digit :: digits ∧ digit.isDigit = true := by
  cases digits : Nat.toDigits 10 (scaled / 10 ^ precision) with
  | nil => exact absurd digits Nat.toDigits_ne_nil
  | cons digit rest =>
      have member : digit ∈ Nat.toDigits 10 (scaled / 10 ^ precision) := by simp [digits]
      exact ⟨digit, _, by rw [scaledText, digits, List.cons_append],
        isDigit_of_mem_toDigits digit member⟩

theorem skipSigns_scaledText (precision scaled : Nat) (rest : List Char) :
    skipSigns (scaledText precision scaled ++ rest) = scaledText precision scaled ++ rest := by
  obtain ⟨digit, digits, text, isDigit⟩ := scaledText_eq_cons precision scaled
  rw [text]
  exact skipSigns_of_not_sign (not_isSign_of_fixedChar (.inl isDigit)) _

theorem skipGraph_scaledText (precision scaled : Nat) (rest : List Char) :
    skipGraph (scaledText precision scaled ++ rest) = scaledText precision scaled ++ rest := by
  obtain ⟨digit, digits, text, isDigit⟩ := scaledText_eq_cons precision scaled
  rw [text, List.cons_append]
  unfold skipGraph
  split
  · next equal =>
      cases equal
      exact absurd isDigit (by decide)
  · next equal =>
      cases equal
      exact absurd isDigit (by decide)
  · rfl

theorem dropThrough {stop : Char} {inside : List Char} (free : stop ∉ inside)
    (rest : List Char) : ((inside ++ stop :: rest).dropWhile (· ≠ stop)).drop 1 = rest := by
  have skipped : ∀ char ∈ inside, decide (char ≠ stop) = true :=
    fun char member => decide_eq_true (ne_of_mem_of_not_mem member free)
  rw [List.dropWhile_append_of_pos skipped]
  simp

theorem skipGraph_box {bars : List Char} (free : ']' ∉ bars) (rest : List Char) :
    skipGraph ('[' :: (bars ++ ']' :: rest)) = rest :=
  dropThrough free rest

theorem skipGraph_vert {bar : List Char} (free : '▏' ∉ bar) (rest : List Char) :
    skipGraph ('▕' :: (bar ++ '▏' :: rest)) = rest :=
  dropThrough free rest

/-- Nothing, a bar between its bounds, or a box of bars. -/
inductive GraphText : List Char → Prop
  | nothing : GraphText []
  | vert {bar : List Char} (free : '▏' ∉ bar) : GraphText ('▕' :: (bar ++ ['▏']))
  | box {bars : List Char} (free : ']' ∉ bars) : GraphText (' ' :: '[' :: (bars ++ [']']))

theorem Arithmetic.graphText_cpuGraphText (arith : Arithmetic) (percentage : ℚ)
    (graphLines : Nat) (useVertGraph : Bool) :
    GraphText (arith.cpuGraphText percentage graphLines useVertGraph) := by
  have fresh : OutputStream.fresh.width = 0 := rfl
  have empty : OutputStream.fresh.written = [] := rfl
  unfold cpuGraphText cpuGraph
  split_ifs
  · have free : '▏' ∉ getGraphVert (toUnsigned percentage) :=
      fun member => absurd (mem_getGraphVert member) (by decide)
    simp only [OutputStream.put_eq_append, fresh, empty, OutputStream.append_append,
      OutputStream.append_width, OutputStream.append_written, List.nil_append]
    exact .vert free
  · have free : ']' ∉ arith.getGraphByPercentage (toUnsigned percentage) graphLines :=
      fun member => absurd (mem_drawBars member) (by decide)
    simp only [OutputStream.put_eq_append, fresh, empty, OutputStream.append_append,
      OutputStream.append_width, OutputStream.append_written, List.nil_append]
    exact .box free
  · exact .nothing

/-- Behind a graph or none, the number in its field is reached. -/
theorem GraphText.skip {graph : List Char} (isGraph : GraphText graph) (tenths : Nat)
    (rest : List Char) :
    skipSigns (skipGraph (skipSigns (graph ++ (inSixColumns (scaledText 1 tenths) ++ rest)))) =
      scaledText 1 tenths ++ rest := by
  have blanks : ∀ char ∈ List.replicate (6 - (scaledText 1 tenths).length) ' ', IsSign char :=
    fun char member => List.eq_of_mem_replicate member ▸ isSign_blank
  have number : skipSigns (inSixColumns (scaledText 1 tenths) ++ rest) =
      scaledText 1 tenths ++ rest := by
    rw [inSixColumns, List.append_assoc, skipSigns_append blanks, skipSigns_scaledText]
  cases isGraph with
  | nothing => rw [List.nil_append, number, skipGraph_scaledText, skipSigns_scaledText]
  | vert free =>
      rw [List.cons_append, skipSigns_of_not_sign (by decide), List.append_assoc,
        List.cons_append, skipGraph_vert free, List.nil_append, number]
  | box free =>
      have blank : ∀ text, skipSigns (' ' :: text) = skipSigns text := fun _ => rfl
      rw [List.cons_append, blank, List.cons_append, skipSigns_of_not_sign (by decide),
        List.append_assoc, List.cons_append, skipGraph_box free, List.nil_append, number]

/-- The number behind a graph is read. -/
theorem readCpu_graph {leading graph : List Char} (signs : ∀ char ∈ leading, IsSign char)
    (isGraph : GraphText graph) {value : ℚ} (nonneg : 0 ≤ value) (rest : List Char) :
    readCpu (leading ++ (graph ++ inSixColumns (fixedText 1 value) ++ ['%'] ++ rest)) =
      some (roundedUnits 1 value, rest) := by
  rw [readCpu, skipSigns_append signs, fixedText_eq_scaledText (by decide) nonneg,
    List.append_assoc, List.append_assoc, isGraph.skip,
    readFixed_scaledText_append (by decide)]
  rfl

theorem readCpu_append {leading : List Char} (signs : ∀ char ∈ leading, IsSign char)
    (percentage : ℚ) {multiplier : ℚ} (nonneg : 0 ≤ percentage * multiplier)
    (graphLines : Nat) (useVertGraph : Bool) (rest : List Char) :
    readCpu (leading ++ (cpuText percentage multiplier graphLines useVertGraph ++ rest)) =
      some (roundedUnits 1 (percentage * multiplier), rest) := by
  rw [cpuText_eq]
  exact readCpu_graph signs
    (Arithmetic.exact.graphText_cpuGraphText percentage graphLines useVertGraph) nonneg
    rest

theorem skipSigns_memoryText (shown : MemoryShown) (rest : List Char) :
    skipSigns (shown.text ++ rest) = shown.text ++ rest := by
  cases shown with
  | sizes display =>
      cases digits : unsignedText display.used with
      | nil => exact absurd digits Nat.toDigits_ne_nil
      | cons digit more =>
          have written : FixedChar digit :=
            fixedChar_of_mem_unsignedText (by rw [digits]; simp : digit ∈ unsignedText display.used)
          rw [MemoryShown.text, MemoryDisplay.text, digits]
          exact skipSigns_of_not_sign (not_isSign_of_fixedChar written) _
  | free hundredths unit =>
      rw [MemoryShown.text, List.append_assoc, skipSigns_scaledText]
  | percentage hundredths =>
      rw [MemoryShown.text, List.append_assoc, skipSigns_scaledText]

/-! ## The load figures -/

theorem readLoads_cons {leading : List Char} (signs : ∀ char ∈ leading, IsSign char)
    (limit hundredths : Nat) (rest : List Char) :
    readLoads (limit + 1) (leading ++ (hundredthsText hundredths ++ rest)) =
      (readLoads limit rest).map (hundredths :: ·) := by
  have skipped : skipSigns (leading ++ (hundredthsText hundredths ++ rest)) =
      hundredthsText hundredths ++ rest := by
    rw [skipSigns_append signs, hundredthsText_eq_scaledText, skipSigns_scaledText]
  have read : readFixed 2 (hundredthsText hundredths ++ rest) = some (hundredths, rest) :=
    readFixed_scaledText_append (by decide) hundredths rest
  obtain ⟨digit, digits, text, isDigit⟩ := scaledText_eq_cons 2 hundredths
  conv_lhs => unfold readLoads
  rw [skipped]
  split
  · next equal => simp [hundredthsText_eq_scaledText, text] at equal
  · next equal =>
      rw [hundredthsText_eq_scaledText, text] at equal
      cases equal
      exact absurd isDigit (by decide)
  · rw [read]
    show (readLoads limit rest >>= fun others => some (hundredths :: others)) = _
    cases readLoads limit rest <;> rfl

theorem readLoads_signs {trailing : List Char} (signs : ∀ char ∈ trailing, IsSign char)
    (limit : Nat) : readLoads limit trailing = some [] := by
  have skipped : skipSigns trailing = [] := by
    have none := skipSigns_append signs []
    rw [List.append_nil] at none
    exact none
  cases limit <;> simp [readLoads, skipped]

/-- Figures between signs are read up to the limit. -/
theorem readLoads_figures {trailing : List Char} (signs : ∀ char ∈ trailing, IsSign char)
    {hundredths : List Nat} {limit : Nat} (atMost : hundredths.length ≤ limit) {leading : List Char}
    (leadingSigns : ∀ char ∈ leading, IsSign char) :
    readLoads limit (leading ++ (hundredths.flatMap (fun figure => ' ' :: hundredthsText figure) ++
      trailing)) = some hundredths := by
  induction hundredths generalizing limit leading with
  | nil =>
      simp only [List.flatMap_nil, List.nil_append]
      exact readLoads_signs (List.forall_mem_append.mpr ⟨leadingSigns, signs⟩) limit
  | cons figure hundredths induction =>
      obtain ⟨limit, rfl⟩ : ∃ count, limit = count + 1 :=
        Nat.exists_eq_add_one.mpr (by simp at atMost; omega)
      have blank : ∀ char ∈ leading ++ [' '], IsSign char :=
        List.forall_mem_append.mpr ⟨leadingSigns, by simp [isSign_blank]⟩
      have rest : readLoads limit ([] ++ (hundredths.flatMap
          (fun figure => ' ' :: hundredthsText figure) ++ trailing)) = some hundredths :=
        induction (by simpa using atMost) (by simp)
      have text : leading ++ ((figure :: hundredths).flatMap
            (fun figure => ' ' :: hundredthsText figure) ++ trailing) =
          (leading ++ [' ']) ++ (hundredthsText figure ++
            ([] ++ (hundredths.flatMap (fun figure => ' ' :: hundredthsText figure) ++
              trailing))) := by
        simp
      rw [text, readLoads_cons blank, rest]
      rfl

theorem figuresText_eq_flatMap {hundredths : List Nat} (some : hundredths ≠ []) :
    figuresText hundredths = hundredths.flatMap fun figure => ' ' :: hundredthsText figure := by
  induction hundredths with
  | nil => contradiction
  | cons figure hundredths induction =>
      by_cases last : hundredths = []
      · simp [last, figuresText]
      · have joined : figuresText (figure :: hundredths) =
            ' ' :: (hundredthsText figure ++ figuresText hundredths) := by
          rw [figuresText, List.map_cons, List.intercalate_cons_of_ne_nil (by simpa using last)]
          simp [figuresText]
        rw [joined, induction last]
        rfl

/-- The averages that a content shows; a failed call is shown as three zeros. -/
def LoadContent.shown (numAverages : Int) : LoadContent → List Nat
  | .fallback text => if text = ['\x00'] then [] else [0, 0, 0]
  | .figures averages _ =>
      (List.range numAverages.toNat).map fun i => roundedHundredths (averages i)

theorem readLoads_nul {leading trailing : List Char} (leadingSigns : ∀ char ∈ leading, IsSign char)
    (signs : ∀ char ∈ trailing, IsSign char) (limit : Nat) :
    readLoads (limit + 1) (leading ++ ('\x00' :: trailing)) = some [] := by
  have skipped : skipSigns trailing = [] := by
    have none := skipSigns_append signs []
    rw [List.append_nil] at none
    exact none
  rw [readLoads, skipSigns_append leadingSigns, skipSigns_of_not_sign (by decide)]
  exact if_pos skipped

/-- What `load_string` can come to show. -/
inductive LoadContent.Possible (numAverages : Int) : LoadContent → Prop
  | nul : Possible numAverages (.fallback ['\x00'])
  | failed : Possible numAverages (.fallback " 0.00 0.00 0.00".toList)
  | figures (inside : ¬ (numAverages ≤ 0 ∨ numAverages > 3)) {averages : Nat → ℚ}
      (nonneg : ∀ i < numAverages.toNat, 0 ≤ averages i) (index : Nat) :
      Possible numAverages (.figures averages index)

theorem possible_of_loadContent {host : Host} {numAverages : Int} {content : LoadContent}
    (read : loadContent host numAverages = .ok content)
    (nonneg : ∀ averages index, content = .figures averages index →
      ∀ i < numAverages.toNat, 0 ≤ averages i) : content.Possible numAverages := by
  rcases loadContent_cases read with ⟨_, rfl⟩ | ⟨_, _, rfl⟩ |
    ⟨inside, averages, index, _, _, rfl⟩
  · exact .nul
  · exact .failed
  · exact .figures inside (nonneg averages index rfl) index

theorem LoadContent.Possible.read {numAverages : Int} {content : LoadContent}
    (possible : content.Possible numAverages)
    {leading trailing : List Char} (leadingSigns : ∀ char ∈ leading, IsSign char)
    (signs : ∀ char ∈ trailing, IsSign char) :
    readLoads 3 (leading ++ (content.text numAverages ++ trailing)) =
      some (content.shown numAverages) := by
  cases possible with
  | nul => exact readLoads_nul leadingSigns signs 2
  | failed =>
      have zeros : " 0.00 0.00 0.00".toList =
          [0, 0, 0].flatMap fun figure => ' ' :: hundredthsText figure := by decide
      rw [LoadContent.text, zeros, readLoads_figures signs (by decide) leadingSigns]
      rfl
  | @figures inside averages nonneg index =>
      have positive : 0 < numAverages.toNat := by omega
      have count : ((numAverages.toNat : Nat) : Int) = numAverages := by omega
      have text := loadText_eq averages positive nonneg
      have some : (List.range numAverages.toNat).map
          (fun i => roundedHundredths (averages i)) ≠ [] := by
        simp
        omega
      rw [count] at text
      rw [LoadContent.text, text, figuresText_eq_flatMap some,
        readLoads_figures signs (by simp; omega) leadingSigns]
      rfl

/-! ## The screen -/

section Screen

variable {host : Host} {settings : Settings}

/-- What the metrics read look like on the screen. -/
def Reading.shown (reading : Reading host settings) : ScreenShown where
  memory := memoryShown reading.memStatus settings.memMode
  cpuTenths := roundedUnits 1 (reading.percentage * cpuMultiplier host settings.cpuMode)
  loads := reading.content.shown settings.averagesCount

/-- Metrics as a host reads them: memory within its total, and nothing
negative. -/
structure Reading.Sensible (reading : Reading host settings) : Prop where
  used : 0 ≤ reading.memStatus.usedMem
  total : reading.memStatus.usedMem ≤ reading.memStatus.totalMem
  percentage : 0 ≤ reading.percentage
  averages : ∀ averages index, reading.content = .figures averages index →
    ∀ i < settings.averagesCount.toNat, 0 ≤ averages i

theorem readScreen_figures (reading : Reading host settings) (sensible : reading.Sensible)
    {start first second finish : List Char} (startSigns : ∀ char ∈ start, IsSign char)
    (firstSigns : ∀ char ∈ first, IsSign char) (secondSigns : ∀ char ∈ second, IsSign char)
    (finishSigns : ∀ char ∈ finish, IsSign char) :
    readScreen (start ++ (reading.memoryFigure ++ (first ++ (reading.cpuFigure ++
      (second ++ (reading.loadFigures ++ finish)))))) = some reading.shown := by
  have cpuNonneg := mul_nonneg sensible.percentage (cpuMultiplier_nonneg host settings.cpuMode)
  rw [readScreen, skipSigns_append startSigns, Reading.memoryFigure,
    memText_eq sensible.used sensible.total, skipSigns_memoryText, readMemory_text_append]
  show (readCpu _ >>= fun _ => _) = _
  rw [Reading.cpuFigure, readCpu_append firstSigns _ cpuNonneg]
  show (readLoads 3 _ >>= fun _ => _) = _
  rw [Reading.loadFigures, (possible_of_loadContent reading.content_eq sensible.averages).read
    secondSigns finishSigns]
  rfl

theorem readScreen_statusLine (reading : Reading host settings) (sensible : reading.Sensible)
    (before : Style) :
    ∃ line glyphs after, statusLine host settings = .ok line ∧
      Draws before line glyphs after ∧
      readScreen (glyphs.map Glyph.char) = some reading.shown := by
  obtain ⟨line, rendered, glyphs, after, start, first, second, finish, drawn, chars,
    startSigns, firstSigns, secondSigns, finishSigns⟩ := reading.drawsFigures before
  refine ⟨line, glyphs, after, rendered, drawn, ?_⟩
  rw [chars]
  exact readScreen_figures reading sensible startSigns firstSigns secondSigns finishSigns

/-! ## How much the screen tells -/

/-- The memory figure is as close to the sizes as its digits allow. -/
def MemoryShown.CloseTo (status : MemoryStatus) : MemoryShown → Prop
  | .sizes display => display.Exact status.usedMem status.totalMem
  | .free hundredths unit =>
      |(hundredths : ℚ) / 100 - unit.ofMegabytes status.freeMem| ≤ 1 / 200
  | .percentage hundredths => |(hundredths : ℚ) / 100 - status.percentageMem| ≤ 1 / 200

/-- The figures are as close to the metrics as their digits allow. -/
structure ScreenShown.CloseTo (shown : ScreenShown) (reading : Reading host settings) :
    Prop where
  memory : shown.memory.CloseTo reading.memStatus
  cpu : |(shown.cpuTenths : ℚ) / 10 -
    reading.percentage * cpuMultiplier host settings.cpuMode| ≤ 1 / 20
  loads : ∀ averages index, reading.content = .figures averages index →
    shown.loads.length = settings.averagesCount.toNat ∧
    ∀ i (inside : i < shown.loads.length), |(shown.loads[i] : ℚ) / 100 - averages i| ≤ 1 / 200

theorem hundredths_close {value : ℚ} (nonneg : 0 ≤ value) :
    |(roundedUnits 2 value : ℚ) / 100 - value| ≤ 1 / 200 := by
  have close := roundedUnits_close 2 nonneg
  norm_num at close ⊢
  exact close

theorem memoryShown_close {status : MemoryStatus} (nonneg : 0 ≤ status.usedMem)
    (atMost : status.usedMem ≤ status.totalMem) (fits : status.totalMem < 2 ^ 32)
    (mode : MemoryMode) : (memoryShown status mode).CloseTo status := by
  have free : 0 ≤ status.freeMem := sub_nonneg.mpr atMost
  have percentage : 0 ≤ status.percentageMem := by
    have total : 0 ≤ status.totalMem := nonneg.trans atMost
    unfold MemoryStatus.percentageMem
    positivity
  have exact : (defaultDisplay status).Exact status.usedMem status.totalMem := by
    apply (defaultDisplay_exact_iff nonneg atMost).mpr
    by_cases border : status.usedMem = 10000
    · exact .inr (.inr ⟨border, fits⟩)
    · exact .inr (.inl ⟨border, by linarith⟩)
  cases mode with
  | default => exact exact
  | other value => exact exact
  | freeMemory =>
      unfold memoryShown
      split_ifs
      · exact hundredths_close free
      · exact hundredths_close (by positivity : 0 ≤ status.freeMem / 1024)
  | usagePercentage => exact hundredths_close percentage

theorem roundedHundredths_close {average : ℚ} (nonneg : 0 ≤ average) :
    |(roundedHundredths average : ℚ) / 100 - average| ≤ 1 / 200 := by
  have floorNonneg : 0 ≤ ⌊average * 100 + 1 / 2⌋ := Int.floor_nonneg.mpr (by positivity)
  have integer : ((roundedHundredths average : Nat) : Int) = ⌊average * 100 + 1 / 2⌋ :=
    Int.toNat_of_nonneg floorNonneg
  have cast : (roundedHundredths average : ℚ) = ⌊average * 100 + 1 / 2⌋ := by
    rw [← integer, Int.cast_natCast]
  have below := Int.floor_le (average * 100 + 1 / 2)
  have above := Int.lt_floor_add_one (average * 100 + 1 / 2)
  rw [cast, abs_le]
  constructor <;> linarith

theorem shown_close (reading : Reading host settings) (sensible : reading.Sensible)
    (fits : reading.memStatus.totalMem < 2 ^ 32) : reading.shown.CloseTo reading where
  memory := memoryShown_close sensible.used sensible.total fits _
  cpu := by
    have close := roundedUnits_close 1
      (mul_nonneg sensible.percentage (cpuMultiplier_nonneg host settings.cpuMode))
    norm_num at close ⊢
    exact close
  loads := by
    intro averages index content
    have loads : reading.shown.loads = (List.range settings.averagesCount.toNat).map
        fun i => roundedHundredths (averages i) := by
      rw [Reading.shown, content]
      rfl
    have length : reading.shown.loads.length = settings.averagesCount.toNat := by
      rw [loads, List.length_map, List.length_range]
    refine ⟨length, fun i inside => ?_⟩
    rw [length] at inside
    simp only [loads, List.getElem_map, List.getElem_range]
    exact roundedHundredths_close (sensible.averages averages index content i inside)

/-- Whatever the colours, the graph and the modes are, the figures are read back
from the characters on the screen, and are close to the metrics. -/
theorem screen_tells_metrics (reading : Reading host settings) (sensible : reading.Sensible)
    (fits : reading.memStatus.totalMem < 2 ^ 32) (before : Style) :
    ∃ line glyphs after, statusLine host settings = .ok line ∧
      Draws before line glyphs after ∧
      readScreen (glyphs.map Glyph.char) = some reading.shown ∧
      reading.shown.CloseTo reading := by
  obtain ⟨line, glyphs, after, rendered, drawn, read⟩ :=
    readScreen_statusLine reading sensible before
  exact ⟨line, glyphs, after, rendered, drawn, read, shown_close reading sensible fits⟩

end Screen

/-- The settings of `-q -m 1`. -/
def sampleSettings : Settings :=
  { Settings.initial with useColors := true, usePowerlineRight := true, memMode := .freeMemory }

theorem screen_tells_metrics_sample :
    ∃ line glyphs after, statusLine sampleHost sampleSettings = .ok line ∧
      Draws defaultStyle line glyphs after ∧
      readScreen (glyphs.map Glyph.char) =
        some ⟨.free 51200 .megabytes, 250, [100, 100, 100]⟩ := by
  have sensible : (sampleReading sampleSettings _ sampleHost_loadContent).Sensible := by
    refine ⟨by decide +kernel, by decide +kernel, by decide +kernel, ?_⟩
    intro averages index content i _
    cases content
    exact zero_le_one
  obtain ⟨line, glyphs, after, rendered, drawn, read, _⟩ :=
    screen_tells_metrics _ sensible (by decide +kernel) defaultStyle
  refine ⟨line, glyphs, after, rendered, drawn, read.trans (congrArg some ?_)⟩
  decide +kernel

end TmuxMemCpuLoad
