import TmuxMemCpuLoad.LiteralTable
import TmuxMemCpuLoad.LookupTables
import TmuxMemCpuLoad.RoundedFigures

/-!
# The generator of the lookup tables

`generate-luts.py` samples a colormap at each percentage, takes the nearest
colour of the 6 × 6 × 6 cube of the 256-colour palette and writes the table as a
declaration in C.  Whatever the colormap is, the declaration that a compiler
reads is a table the renderers can use.
-/

namespace TmuxMemCpuLoad

open StandardCxx DecimalReader BinaryRounding LiteralTable StyledText

/-- The channels of a sample that the generator reads. -/
structure Rgb where
  red : ℚ
  green : ℚ
  blue : ℚ

/-- `int(round(channel * 5))`. -/
def cubeLevel (channel : ℚ) : Int :=
  roundHalfEven (toDouble (channel * 5))

def cubeColor (rgb : Rgb) : Int :=
  16 + 36 * cubeLevel rgb.red + 6 * cubeLevel rgb.green + cubeLevel rgb.blue

def fgStart : List Char := "#[fg=".toList

def bgStart : List Char := ",bg=colour".toList

/-- The directive between the quotes of a line. -/
def directive (foreground : List Char) (color : Int) : List Char :=
  fgStart ++ (foreground ++ (bgStart ++ (signedText color ++ [']'])))

/-- A round of the loop over the percentages. -/
def writeLine (colormap : ℚ → Rgb) (firstHalfForeground secondHalfForeground : List Char)
    (ii : Nat) : List Char :=
  let foreground := if ii < 50 then firstHalfForeground else secondHalfForeground
  let color := cubeColor (colormap (ii * (1 / 100)))
  let comma := if ii ≠ 100 then [','] else []
  quote :: (directive foreground color ++ quote :: (comma ++ [newline]))

def lutSuffix : List Char := "_lut".toList

def lutOpening : List Char := "_lut[][32] = \x7b".toList

def lutClosing : List Char := "\x7d; // end ".toList

def writeTable (fp : List Char) (colormap : ℚ → Rgb)
    (statName firstHalfForeground secondHalfForeground : List Char) : List Char :=
  let fp := fp ++ staticText ++ statName ++ lutOpening ++ [newline]
  let fp := (List.range 101).foldl
    (fun fp ii => fp ++ writeLine colormap firstHalfForeground secondHalfForeground ii) fp
  fp ++ lutClosing ++ statName ++ lutSuffix ++ [newline, newline]

/-- The entry of a percentage, and those of a table. -/
def tableEntry (colormap : ℚ → Rgb) (firstHalfForeground secondHalfForeground : List Char)
    (ii : Nat) : List Char :=
  directive (if ii < 50 then firstHalfForeground else secondHalfForeground)
    (cubeColor (colormap (ii * (1 / 100))))

def tableEntries (colormap : ℚ → Rgb) (firstHalfForeground secondHalfForeground : List Char) :
    List (List Char) :=
  (List.range 101).map (tableEntry colormap firstHalfForeground secondHalfForeground)

/-- A colormap answers with channels between zero and one. -/
structure Colormap where
  sample : ℚ → Rgb
  red_range : ∀ position, 0 ≤ (sample position).red ∧ (sample position).red ≤ 1
  green_range : ∀ position, 0 ≤ (sample position).green ∧ (sample position).green ≤ 1
  blue_range : ∀ position, 0 ≤ (sample position).blue ∧ (sample position).blue ≤ 1

theorem cubeLevel_range {channel : ℚ} (nonneg : 0 ≤ channel) (atMost : channel ≤ 1) :
    0 ≤ cubeLevel channel ∧ cubeLevel channel ≤ 5 := by
  have product : 0 ≤ channel * 5 := by positivity
  have productLe : channel * 5 ≤ (5 : Nat) := by
    push_cast
    linarith
  constructor
  · exact roundHalfEven_nonneg (toDouble_nonneg product)
  · apply roundHalfEven_le
    exact_mod_cast toDouble_le product productLe (by decide)

theorem cubeColor_range (colormap : Colormap) (position : ℚ) :
    16 ≤ cubeColor (colormap.sample position) ∧ cubeColor (colormap.sample position) ≤ 231 := by
  have red := cubeLevel_range (colormap.red_range position).1 (colormap.red_range position).2
  have green := cubeLevel_range (colormap.green_range position).1
    (colormap.green_range position).2
  have blue := cubeLevel_range (colormap.blue_range position).1 (colormap.blue_range position).2
  unfold cubeColor
  omega

/-- A level of the cube is that of its own fifth. -/
theorem cubeLevel_fifth {level : Nat} (atMost : level ≤ 5) :
    cubeLevel ((level : ℚ) / 5) = level := by
  have product : (level : ℚ) / 5 * 5 = level := by ring
  rw [cubeLevel, product, toDouble_natCast (by omega), roundHalfEven_natCast]

/-! ## Entries -/

/-- A foreground that a table can hold: a word of a style that a literal holds
as it stands, short enough to leave room for the background. -/
structure Foreground where
  text : List Char
  word : IsWord text
  plain : Plain text
  length_le : text.length ≤ 12

def brightwhite : Foreground where
  text := "brightwhite".toList
  word := by decide
  plain := by
    unfold Plain
    exact forall_mem_of_all (by decide)
  length_le := by decide

def black : Foreground where
  text := "black".toList
  word := by decide
  plain := by
    unfold Plain
    exact forall_mem_of_all (by decide)
  length_le := by decide

def colourStart : List Char := "colour".toList

def colourWord (color : Nat) : List Char :=
  colourStart ++ Nat.toDigits 10 color

theorem signedText_natCast (value : Nat) : signedText (value : Int) = Nat.toDigits 10 value := by
  have nonneg : ¬ (value : Int) < 0 := by omega
  rw [signedText, if_neg nonneg, Int.natAbs_natCast]

theorem colourText_eq (style : Style) :
    colourText style = '#' :: '[' :: 'f' :: 'g' :: '=' ::
      (style.fg ++ ',' :: 'b' :: 'g' :: '=' :: (style.bg ++ [']'])) := by
  have fg : "fg".toList = ['f', 'g'] := by decide
  have bg : "bg".toList = ['b', 'g'] := by decide
  rw [colourText, fg, bg]
  simp only [directiveText, settingsText, List.append_assoc, List.cons_append, List.nil_append]

/-- The style of a directive is read off it again. -/
theorem entryStyle_colourText {style : Style} (fgWord : IsWord style.fg) :
    entryStyle (colourText style) = style := by
  have kept : ∀ char ∈ style.fg, (!decide (char = ',')) = true := by
    intro char member
    have other : char ≠ ',' := by
      rintro rfl
      exact fgWord.2 _ member (by decide)
    simpa using other
  rw [colourText_eq, entryStyle]
  simp [List.takeWhile_append_of_pos kept, List.dropWhile_append_of_pos kept]

theorem directive_natCast (foreground : List Char) (color : Nat) :
    directive foreground color = colourText ⟨foreground, colourWord color⟩ := by
  have opening : fgStart = ['#', '[', 'f', 'g', '='] := by decide
  have middle : bgStart = [',', 'b', 'g', '='] ++ colourStart := by decide
  rw [directive, signedText_natCast, opening, middle, colourText_eq, colourWord]
  simp only [List.append_assoc, List.cons_append, List.nil_append]

theorem isWord_colourWord (color : Nat) : IsWord (colourWord color) := by
  have letters : ∀ char ∈ colourStart, char ∉ reserved := forall_mem_of_all (by decide)
  constructor
  · simp [colourWord]
  · intro char member
    rcases List.mem_append.mp member with letter | digit
    · exact letters char letter
    · intro isReserved
      have isDigit := isDigit_of_mem_toDigits char digit
      simp only [reserved, List.mem_cons, List.not_mem_nil, or_false] at isReserved
      rcases isReserved with rfl | rfl | rfl | rfl | rfl <;> exact absurd isDigit (by decide)

theorem plain_colourWord (color : Nat) : Plain (colourWord color) := by
  have letters : Plain colourStart := by
    unfold Plain
    exact forall_mem_of_all (by decide)
  intro char member
  rcases List.mem_append.mp member with letter | digit
  · exact letters char letter
  · have isDigit := isDigit_of_mem_toDigits char digit
    refine ⟨?_, ?_, ?_⟩ <;> rintro rfl <;> exact absurd isDigit (by decide)

section Entries

variable (foreground : Foreground) {color : Nat} (atMost : color ≤ 231)

omit atMost in
theorem entryStyle_directive :
    entryStyle (directive foreground.text color) = ⟨foreground.text, colourWord color⟩ := by
  rw [directive_natCast, entryStyle_colourText foreground.word]

include atMost

theorem directive_setsStyle :
    SetsStyle (directive foreground.text color) ⟨foreground.text, colourWord color⟩ where
  text_eq := directive_natCast foreground.text color
  fg_word := foreground.word
  bg_word := isWord_colourWord color
  length_le := by
    have digits : (Nat.toDigits 10 color).length ≤ 3 :=
      (Nat.length_toDigits_le_iff (by decide) (by decide)).mpr (by omega)
    have short := foreground.length_le
    have opening : fgStart.length = 5 := by decide
    have middle : bgStart.length = 10 := by decide
    rw [directive, signedText_natCast]
    simp only [List.length_append, List.length_singleton, opening, middle]
    omega

end Entries

section Table

variable (colormap : Colormap) (first second : Foreground)

theorem mem_tableEntries {entry : List Char}
    (member : entry ∈ tableEntries colormap.sample first.text second.text) :
    ∃ foreground : Foreground, ∃ color ≤ 231, entry = directive foreground.text (color : Nat) := by
  obtain ⟨ii, _, rfl⟩ := List.mem_map.mp member
  have range := cubeColor_range colormap (ii * (1 / 100))
  obtain ⟨color, colorEq⟩ := Int.eq_ofNat_of_zero_le (by omega : 0 ≤
    cubeColor (colormap.sample (ii * (1 / 100))))
  refine ⟨if ii < 50 then first else second, color, by omega, ?_⟩
  rw [tableEntry, colorEq]
  split_ifs <;> rfl

/-- Whatever the colormap, the table is one that the renderers can use. -/
theorem tableEntries_wellFormed :
    WellFormedLut (tableEntries colormap.sample first.text second.text) where
  length_eq := by simp [tableEntries]
  entries := by
    intro entry member
    obtain ⟨foreground, color, atMost, rfl⟩ := mem_tableEntries colormap first second member
    rw [entryStyle_directive]
    exact directive_setsStyle foreground atMost
  coloured := by
    intro entry member
    obtain ⟨foreground, color, atMost, rfl⟩ := mem_tableEntries colormap first second member
    have starts : defaultStyle.bg.head? = some 'd' := by decide
    have starts' : colourStart.head? = some 'c' := by decide
    rw [entryStyle_directive]
    intro equal
    have heads := congrArg List.head? equal
    rw [starts, colourWord, List.head?_append, starts'] at heads
    cases heads

theorem plain_directive (foreground : Foreground) (color : Nat) :
    Plain (directive foreground.text color) := by
  have opening : Plain fgStart := by
    unfold Plain
    exact forall_mem_of_all (by decide)
  have middle : Plain bgStart := by
    unfold Plain
    exact forall_mem_of_all (by decide)
  have digits : Plain (signedText (color : Int)) := by
    intro char member
    rw [signedText_natCast] at member
    exact plain_colourWord color char (List.mem_append_right _ member)
  have closing : Plain [']'] := by
    unfold Plain
    exact forall_mem_of_all (by decide)
  intro char member
  simp only [directive, List.mem_append] at member
  rcases member with member | member | member | member | member
  · exact opening char member
  · exact foreground.plain char member
  · exact middle char member
  · exact digits char member
  · exact closing char member

end Table

/-! ## The text of a table -/

def endComment : List Char := " // end ".toList

def endWords : List Char := " end ".toList

/-- What is written after the declaration of a table. -/
def tableEnd (statName : List Char) : List Char :=
  endComment ++ (statName ++ (lutSuffix ++ [newline, newline]))

def lutName (statName : List Char) : List Char :=
  statName ++ lutSuffix

section Text

variable (colormap : ℚ → Rgb) (first second : List Char)

/-- The entries of a table with a comma after them. -/
def commaEntries : List (List Char) :=
  (List.range 100).map (tableEntry colormap first second)

theorem tableEntries_eq : tableEntries colormap first second =
    commaEntries colormap first second ++ [tableEntry colormap first second 100] := by
  rw [tableEntries, commaEntries, List.range_succ, List.map_append]
  rfl

theorem writeLine_of_lt {ii : Nat} (inside : ii < 100) :
    writeLine colormap first second ii = entryLine (tableEntry colormap first second ii) := by
  have comma : ii ≠ 100 := by omega
  rw [writeLine, if_pos comma]
  rfl

theorem lines_eq : (List.range 101).flatMap (writeLine colormap first second) =
    entryLines (commaEntries colormap first second) (tableEntry colormap first second 100) := by
  have commas : (List.range 100).flatMap (writeLine colormap first second) =
      (commaEntries colormap first second).flatMap entryLine := by
    rw [commaEntries, List.flatMap_map]
    apply List.flatMap_congr
    intro ii member
    exact writeLine_of_lt colormap first second (List.mem_range.mp member)
  rw [List.range_succ, List.flatMap_append, commas, List.flatMap_singleton]
  rfl

/-- A table is written as a declaration and a comment. -/
theorem writeTable_eq (fp statName : List Char) :
    writeTable fp colormap statName first second =
      fp ++ (declarationText "32".toList (lutName statName)
        (commaEntries colormap first second) (tableEntry colormap first second 100) ++
          tableEnd statName) := by
  have opening : lutOpening = lutSuffix ++ openingText "32".toList := by decide
  have closing : lutClosing = ['}', ';'] ++ endComment := by decide
  rw [writeTable, List.foldl_append_eq_append, ← List.flatMap_def, lines_eq, opening,
    closing, declarationText, lutName, tableEnd]
  generalize openingText "32".toList = cells
  simp only [List.append_assoc, List.cons_append, List.nil_append]

end Text

section Read

variable (colormap : Colormap) (first second : Foreground)

theorem plain_tableEntries : ∀ entry ∈ tableEntries colormap.sample first.text second.text,
    Plain entry := by
  intro entry member
  obtain ⟨foreground, color, _, rfl⟩ := mem_tableEntries colormap first second member
  exact plain_directive foreground color

/-- The declaration that the generator writes is read, and the comment after it
and the blank lines are skipped. -/
theorem readDeclarations_writeTable {statName : List Char}
    (identifier : isIdentifier (lutName statName)) (fuel : Nat) (rest : List Char) :
    readDeclarations 32 "32".toList (fuel + 4)
        (writeTable [] colormap.sample statName first.text second.text ++ rest) =
      (readDeclarations 32 "32".toList fuel rest).map fun declarations =>
        ⟨lutName statName, 32, tableEntries colormap.sample first.text second.text⟩ ::
          declarations := by
  have plain := plain_tableEntries colormap first second
  have short : ∀ entry ∈ tableEntries colormap.sample first.text second.text,
      entry.length < 32 := by
    intro entry member
    have length := ((tableEntries_wellFormed colormap first second).entries entry member).length_le
    omega
  have words : ∀ char ∈ endWords, char ≠ newline ∧ char ≠ backslash :=
    forall_mem_of_all (by decide)
  have inLine : ∀ char ∈ endWords ++ lutName statName, char ≠ newline ∧ char ≠ backslash := by
    intro char member
    rcases List.mem_append.mp member with word | name
    · exact words char word
    · constructor <;> rintro rfl <;>
        exact not_mem_of_isIdentifier identifier (by decide) name
  have text : tableEnd statName ++ rest =
      ' ' :: '/' :: '/' :: ((endWords ++ lutName statName) ++ newline :: newline :: rest) := by
    have comment : endComment = ' ' :: '/' :: '/' :: endWords := by decide
    simp only [tableEnd, comment, lutName, List.append_assoc, List.cons_append, List.nil_append]
  rw [tableEntries_eq] at plain short ⊢
  rw [writeTable_eq, List.nil_append, List.append_assoc, text,
    readDeclarations_declarationText identifier
      (fun entry member => plain entry (List.mem_append_left _ member))
      (plain _ (List.mem_append_right _ (List.mem_singleton_self _))) short,
    readDeclarations_blank (.inl rfl), readDeclarations_comment inLine,
    readDeclarations_blank (.inr rfl)]

end Read

/-! ## The header -/

def guardLine : List Char := "#ifndef _luts_h".toList

def defineLine : List Char := "#define _luts_h".toList

def endifLine : List Char := "#endif".toList

def lutsGuard : List Char := "_luts_h".toList

def cpuPercentageName : List Char := "cpu_percentage".toList

def memName : List Char := "mem".toList

def loadName : List Char := "load".toList

/-- `luts.h`, from the colormaps `hot`, `gist_earth` and `bone`. -/
def writeHeader (hot gistEarth bone : ℚ → Rgb) : List Char :=
  let fp := guardLine ++ [newline] ++ defineLine ++ [newline, newline]
  let fp := writeTable fp hot cpuPercentageName brightwhite.text black.text
  let fp := writeTable fp gistEarth memName brightwhite.text black.text
  let fp := writeTable fp bone loadName brightwhite.text black.text
  fp ++ endifLine ++ [newline]

theorem writeTable_append (fp : List Char) (colormap : ℚ → Rgb)
    (statName first second : List Char) :
    writeTable fp colormap statName first second =
      fp ++ writeTable [] colormap statName first second := by
  rw [writeTable_eq, writeTable_eq, List.nil_append]

section Header

variable (hot gistEarth bone : Colormap)

/-- What stands between the lines of the include guard. -/
def writtenTables : List Char :=
  newline :: (writeTable [] hot.sample cpuPercentageName brightwhite.text black.text ++
    (writeTable [] gistEarth.sample memName brightwhite.text black.text ++
      (writeTable [] bone.sample loadName brightwhite.text black.text ++
        (endifText ++ [newline]))))

theorem writeHeader_eq : writeHeader hot.sample gistEarth.sample bone.sample =
    ifndefText ++ (lutsGuard ++ newline :: (defineText ++ (lutsGuard ++ newline ::
      writtenTables hot gistEarth bone))) := by
  have ifndef : guardLine = ifndefText ++ lutsGuard := by decide
  have define : defineLine = defineText ++ lutsGuard := by decide
  have endif : endifLine = endifText := rfl
  rw [writeHeader, writeTable_append _ bone.sample, writeTable_append _ gistEarth.sample,
    writeTable_append _ hot.sample, ifndef, define, endif, writtenTables]
  simp only [List.append_assoc, List.cons_append, List.nil_append]

theorem readDeclarations_writtenTables (fuel : Nat) :
    readDeclarations 32 "32".toList (fuel + 14) (writtenTables hot gistEarth bone) =
      some [⟨lutName cpuPercentageName, 32, tableEntries hot.sample brightwhite.text black.text⟩,
        ⟨lutName memName, 32, tableEntries gistEarth.sample brightwhite.text black.text⟩,
        ⟨lutName loadName, 32, tableEntries bone.sample brightwhite.text black.text⟩] := by
  rw [writtenTables, readDeclarations_blank (.inr rfl),
    readDeclarations_writeTable _ _ _ (by decide), readDeclarations_writeTable _ _ _ (by decide),
    readDeclarations_writeTable _ _ _ (by decide), readDeclarations_endif]
  rfl

/-- Whatever the colormaps are, the header is read as three declarations between
the lines of its guard and nothing else; they are tables that the renderers can
use, sampled from the colormaps. -/
theorem writeHeader_reads :
    readHeader 32 "32".toList (writeHeader hot.sample gistEarth.sample bone.sample) =
      some ⟨lutsGuard,
        [⟨lutName cpuPercentageName, 32, tableEntries hot.sample brightwhite.text black.text⟩,
          ⟨lutName memName, 32, tableEntries gistEarth.sample brightwhite.text black.text⟩,
          ⟨lutName loadName, 32, tableEntries bone.sample brightwhite.text black.text⟩]⟩ ∧
    ∀ colormap ∈ [hot, gistEarth, bone],
      WellFormedLut (tableEntries colormap.sample brightwhite.text black.text) := by
  constructor
  · have long : 13 ≤ (writtenTables hot gistEarth bone).length := by
      have comment : endComment.length = 8 := by decide
      rw [writtenTables, writeTable_eq, writeTable_eq]
      simp only [tableEnd, List.length_cons, List.length_append, comment]
      omega
    obtain ⟨fuel, enough⟩ := Nat.exists_eq_add_of_le' long
    rw [writeHeader_eq]
    apply readHeader_of_declarations (by decide)
    rw [enough]
    exact readDeclarations_writtenTables hot gistEarth bone fuel
  · exact fun colormap _ => tableEntries_wellFormed colormap brightwhite black

end Header

/-! ## The tables that come from a colormap -/

/-- The sample of a colour of the cube. -/
def cubeSample (color : Nat) : Rgb where
  red := (min ((color - 16) / 36) 5 : Nat) / 5
  green := ((color - 16) / 6 % 6 : Nat) / 5
  blue := ((color - 16) % 6 : Nat) / 5

theorem fifth_range {level : Nat} (atMost : level ≤ 5) :
    0 ≤ (level : ℚ) / 5 ∧ (level : ℚ) / 5 ≤ 1 := by
  have cast : (level : ℚ) ≤ 5 := by exact_mod_cast atMost
  constructor
  · positivity
  · linarith

theorem cubeColor_cubeSample {color : Nat} (atLeast : 16 ≤ color) (atMost : color ≤ 231) :
    cubeColor (cubeSample color) = color := by
  rw [cubeColor, cubeSample, cubeLevel_fifth (Nat.min_le_right _ _), cubeLevel_fifth (by omega),
    cubeLevel_fifth (by omega)]
  omega

/-- A colormap with given colours at the percentages. -/
def Colormap.ofColors (colors : Nat → Nat) : Colormap where
  sample position := cubeSample (colors (roundHalfEven (position * 100)).toNat)
  red_range _ := fifth_range (Nat.min_le_right _ _)
  green_range position := by
    have atMost : (colors (roundHalfEven (position * 100)).toNat - 16) / 6 % 6 ≤ 5 := by omega
    exact fifth_range atMost
  blue_range position := by
    have atMost : (colors (roundHalfEven (position * 100)).toNat - 16) % 6 ≤ 5 := by omega
    exact fifth_range atMost

theorem tableEntry_ofColors {colors : Nat → Nat} {ii : Nat} (atLeast : 16 ≤ colors ii)
    (atMost : colors ii ≤ 231) (first second : List Char) :
    tableEntry (Colormap.ofColors colors).sample first second ii =
      directive (if ii < 50 then first else second) (colors ii : Nat) := by
  have position : (ii : ℚ) * (1 / 100) * 100 = ii := by ring
  have sample : (Colormap.ofColors colors).sample (ii * (1 / 100)) = cubeSample (colors ii) := by
    show cubeSample (colors (roundHalfEven ((ii : ℚ) * (1 / 100) * 100)).toNat) = _
    rw [position, roundHalfEven_natCast, Int.toNat_natCast]
  rw [tableEntry, sample, cubeColor_cubeSample atLeast atMost]

/-- The colour of the background that an entry names. -/
def entryColor (entry : List Char) : Nat :=
  digitsValue ((entryStyle entry).bg.drop colourStart.length)

theorem entryColor_directive (foreground : Foreground) (color : Nat) :
    entryColor (directive foreground.text color) = color := by
  rw [entryColor, entryStyle_directive, colourWord, List.drop_left, digitsValue,
    Nat.ofDigitChars_ten_toDigits]

/-- An entry is a directive of a foreground and of a colour of the cube. -/
structure FromCube (foreground : Foreground) (entry : List Char) : Prop where
  atLeast : 16 ≤ entryColor entry
  atMost : entryColor entry ≤ 231
  directive_eq : entry = directive foreground.text (entryColor entry : Nat)

instance (foreground : Foreground) (entry : List Char) : Decidable (FromCube foreground entry) :=
  decidable_of_iff
    (16 ≤ entryColor entry ∧ entryColor entry ≤ 231 ∧
      entry = directive foreground.text (entryColor entry : Nat))
    ⟨fun ⟨atLeast, atMost, equal⟩ => ⟨atLeast, atMost, equal⟩,
      fun cube => ⟨cube.atLeast, cube.atMost, cube.directive_eq⟩⟩

theorem fromCube_foreground {first second : Foreground} {entry : List Char}
    (firstCube : FromCube first entry) (secondCube : FromCube second entry) :
    first.text = second.text := by
  have styles := congrArg entryStyle (firstCube.directive_eq.symm.trans secondCube.directive_eq)
  rw [entryStyle_directive, entryStyle_directive] at styles
  exact congrArg Style.fg styles

/-- The foreground of the half of the table that an index lies in. -/
def halfForeground (first second : Foreground) (ii : Nat) : Foreground :=
  if ii < 50 then first else second

theorem halfForeground_text (first second : Foreground) (ii : Nat) :
    (halfForeground first second ii).text = if ii < 50 then first.text else second.text := by
  unfold halfForeground
  split_ifs <;> rfl

theorem fromCube_tableEntry (colormap : Colormap) (first second : Foreground) (ii : Nat) :
    FromCube (halfForeground first second ii)
      (tableEntry colormap.sample first.text second.text ii) := by
  have range := cubeColor_range colormap (ii * (1 / 100))
  obtain ⟨color, colorEq⟩ := Int.eq_ofNat_of_zero_le (by omega : 0 ≤
    cubeColor (colormap.sample (ii * (1 / 100))))
  have entry : tableEntry colormap.sample first.text second.text ii =
      directive (halfForeground first second ii).text (color : Nat) := by
    rw [tableEntry, colorEq, halfForeground_text]
  constructor
  · rw [entry, entryColor_directive]
    omega
  · rw [entry, entryColor_directive]
    omega
  · rw [entry, entryColor_directive]

theorem exists_colormap_of_fromCube {first second : Foreground} {lut : List (List Char)}
    (length : lut.length = 101)
    (cube : ∀ ii < 101, FromCube (halfForeground first second ii) (lut.getD ii [])) :
    ∃ colormap : Colormap, tableEntries colormap.sample first.text second.text = lut := by
  obtain ⟨colors, colorsEq⟩ : ∃ colors : Nat → Nat, ∀ ii, colors ii = entryColor (lut.getD ii []) :=
    ⟨_, fun _ => rfl⟩
  refine ⟨.ofColors colors, ?_⟩
  apply List.ext_getElem
  · simp [tableEntries, length]
  · intro ii inside insideLut
    have entry := cube ii (by omega)
    have found : lut.getD ii [] = lut[ii] := by simp [List.getD, insideLut]
    have atLeast := entry.atLeast
    have atMost := entry.atMost
    have directiveEq := entry.directive_eq
    rw [← colorsEq] at atLeast atMost directiveEq
    simp only [tableEntries, List.getElem_map, List.getElem_range]
    rw [tableEntry_ofColors atLeast atMost, ← halfForeground_text, ← directiveEq, found]

/-- The tables that the generator writes for some colormap. -/
theorem exists_colormap_iff (first second : Foreground) (lut : List (List Char)) :
    (∃ colormap : Colormap, tableEntries colormap.sample first.text second.text = lut) ↔
      lut.length = 101 ∧ (∀ entry ∈ lut.take 50, FromCube first entry) ∧
        ∀ entry ∈ lut.drop 50, FromCube second entry := by
  constructor
  · rintro ⟨colormap, rfl⟩
    refine ⟨by simp [tableEntries], ?_, ?_⟩
    · intro entry member
      rw [tableEntries, ← List.map_take] at member
      obtain ⟨ii, index, rfl⟩ := List.mem_map.mp member
      rw [List.take_range, List.mem_range] at index
      have cube := fromCube_tableEntry colormap first second ii
      rwa [halfForeground, if_pos (by omega)] at cube
    · intro entry member
      rw [tableEntries, ← List.map_drop] at member
      obtain ⟨ii, index, rfl⟩ := List.mem_map.mp member
      have atLeast : 50 ≤ ii := by
        rw [List.range_eq_range', List.drop_range'] at index
        exact (List.mem_range'_1.mp index).1
      have cube := fromCube_tableEntry colormap first second ii
      rwa [halfForeground, if_neg (by omega)] at cube
  · rintro ⟨length, firstHalf, secondHalf⟩
    apply exists_colormap_of_fromCube length
    intro ii inside
    have found : lut.getD ii [] = lut[ii] := by simp [List.getD, length, inside]
    rw [found]
    by_cases half : ii < 50
    · rw [halfForeground, if_pos half]
      apply firstHalf
      rw [List.mem_take_iff_getElem]
      exact ⟨ii, by omega, rfl⟩
    · rw [halfForeground, if_neg half]
      apply secondHalf
      rw [List.mem_drop_iff_getElem]
      exact ⟨ii - 50, by omega, by congr 1; omega⟩

theorem exists_colormap_of_runs {first second : Foreground}
    {firstRuns secondRuns : List (Nat × String)}
    (firstLength : (fromRuns firstRuns).length = 50)
    (secondLength : (fromRuns secondRuns).length = 51)
    (firstCube : ∀ run ∈ firstRuns, FromCube first run.2.toList)
    (secondCube : ∀ run ∈ secondRuns, FromCube second run.2.toList) :
    ∃ colormap : Colormap, tableEntries colormap.sample first.text second.text =
      fromRuns (firstRuns ++ secondRuns) := by
  have halves : fromRuns (firstRuns ++ secondRuns) = fromRuns firstRuns ++ fromRuns secondRuns :=
    List.flatMap_append
  rw [exists_colormap_iff, halves, List.take_left' firstLength, List.drop_left' firstLength,
    List.length_append, firstLength, secondLength]
  exact ⟨rfl, forall_mem_fromRuns firstCube, forall_mem_fromRuns secondCube⟩

theorem exists_colormap_of_all {foreground : Foreground} {lut : List (List Char)}
    (length : lut.length = 101) (cube : ∀ entry ∈ lut, FromCube foreground entry) :
    ∃ colormap : Colormap,
      tableEntries colormap.sample foreground.text foreground.text = lut := by
  rw [exists_colormap_iff]
  exact ⟨length, fun entry member => cube entry (List.mem_of_mem_take member),
    fun entry member => cube entry (List.mem_of_mem_drop member)⟩

/-- The memory and load tables of the program are tables of the generator.  The
CPU table is one with the bright foreground in both halves: no colormap gives
it with the foregrounds of the script. -/
theorem lutTables_of_generator :
    (∃ gistEarth : Colormap,
      tableEntries gistEarth.sample brightwhite.text black.text = memLut) ∧
    (∃ bone : Colormap, tableEntries bone.sample brightwhite.text black.text = loadLut) ∧
    (∃ hot : Colormap,
      tableEntries hot.sample brightwhite.text brightwhite.text = cpuPercentageLut) ∧
    ∀ hot : Colormap,
      tableEntries hot.sample brightwhite.text black.text ≠ cpuPercentageLut := by
  have cpuCube : ∀ entry ∈ cpuPercentageLut, FromCube brightwhite entry :=
    forall_mem_fromRuns (by decide +kernel)
  refine ⟨?_, ?_, ?_, ?_⟩
  · rw [memLut, ← List.take_append_drop 9 memRuns]
    exact exists_colormap_of_runs (by decide +kernel) (by decide +kernel) (by decide +kernel)
      (by decide +kernel)
  · rw [loadLut, ← List.take_append_drop 6 loadRuns]
    exact exists_colormap_of_runs (by decide +kernel) (by decide +kernel) (by decide +kernel)
      (by decide +kernel)
  · exact exists_colormap_of_all cpuPercentageLut_wellFormed.length_eq cpuCube
  · intro hot equal
    obtain ⟨length, _, secondHalf⟩ := (exists_colormap_iff _ _ _).mp ⟨hot, equal⟩
    have someEntry : (cpuPercentageLut.drop 50) ≠ [] := by
      apply List.ne_nil_of_length_pos
      rw [List.length_drop]
      omega
    obtain ⟨entry, member⟩ := List.exists_mem_of_ne_nil _ someEntry
    -- the foreground of an entry cannot be both words
    exact absurd (fromCube_foreground (secondHalf entry member)
      (cpuCube entry (List.mem_of_mem_drop member))) (by decide)

end TmuxMemCpuLoad
