import TmuxMemCpuLoad.Decorations
import TmuxMemCpuLoad.StatusLine

/-!
# Powerline seams

With powerline flags the segments of the line touch at separators.  Each
separator is drawn in the backgrounds of the two segments it stands between,
and there is exactly one between two figures.
-/

namespace TmuxMemCpuLoad

open StandardCxx StyledText

def IsSeparator (glyph : Glyph) : Prop :=
  glyph.char = pwlLeftFilled ∨ glyph.char = pwlRightFilled

instance : DecidablePred IsSeparator :=
  fun _ => inferInstanceAs (Decidable (_ ∨ _))

/-- A separator that continues the backgrounds on its two sides: the filled
part has the colour of the segment it points away from. -/
def Joins (left right : List Char) (glyph : Glyph) : Prop :=
  (glyph.char = pwlLeftFilled → glyph.style = ⟨left, right⟩) ∧
    (glyph.char = pwlRightFilled → glyph.style = ⟨right, left⟩)

/-- What is drawn between two backgrounds: blanks and separators that join
them. -/
structure IsSeam (left right : List Char) (glyphs : List Glyph) : Prop where
  signs : ∀ glyph ∈ glyphs, IsSign glyph.char
  joins : ∀ glyph ∈ glyphs, Joins left right glyph

theorem IsSeam.nil (left right : List Char) : IsSeam left right [] :=
  ⟨by simp, by simp⟩

theorem IsSeam.cons {left right : List Char} {glyph : Glyph} {glyphs : List Glyph}
    (sign : IsSign glyph.char) (joins : Joins left right glyph)
    (seam : IsSeam left right glyphs) : IsSeam left right (glyph :: glyphs) where
  signs := List.forall_mem_cons.mpr ⟨sign, seam.signs⟩
  joins := List.forall_mem_cons.mpr ⟨joins, seam.joins⟩

section Glyphs

variable {left right : List Char} {glyphs : List Glyph} (seam : IsSeam left right glyphs)
include seam

theorem IsSeam.blank (style : Style) : IsSeam left right (⟨' ', style⟩ :: glyphs) := by
  have notLeft : ' ' ≠ pwlLeftFilled := by decide
  have notRight : ' ' ≠ pwlRightFilled := by decide
  exact seam.cons isSign_blank
    ⟨fun equal => absurd equal notLeft, fun equal => absurd equal notRight⟩

theorem IsSeam.leftFilled : IsSeam left right (⟨pwlLeftFilled, ⟨left, right⟩⟩ :: glyphs) := by
  have different : pwlLeftFilled ≠ pwlRightFilled := by decide
  exact seam.cons isSign_leftFilled ⟨fun _ => rfl, fun equal => absurd equal different⟩

theorem IsSeam.rightFilled :
    IsSeam left right (⟨pwlRightFilled, ⟨right, left⟩⟩ :: glyphs) := by
  have different : pwlRightFilled ≠ pwlLeftFilled := by decide
  exact seam.cons isSign_rightFilled ⟨fun equal => absurd equal different, fun _ => rfl⟩

end Glyphs

def separatorCount (glyphs : List Glyph) : Nat :=
  glyphs.countP fun glyph => IsSeparator glyph

/-- The background beyond an end of the line: the colour given for the
neighbouring segment, or tmux's own. -/
def outerBackground (segments : Bool) (color : Int) : List Char :=
  if segments then paletteColour color else defaultStyle.bg

section Seams

variable {usePowerlineLeft usePowerlineRight : Bool}
  (powerline : usePowerlineLeft = true ∨ usePowerlineRight = true)
include powerline

/-- Between two figures. -/
theorem draws_between {left right : Style} (leftWritable : left.Writable)
    (rightWritable : right.Writable) :
    ∃ glyphs,
      Draws left
        (closeText left usePowerlineLeft usePowerlineRight ++
          openText right usePowerlineLeft usePowerlineRight) glyphs right ∧
      IsSeam left.bg right.bg glyphs ∧ separatorCount glyphs = 1 := by
  have close := draws_powerlineText_left_backgroundOnly left leftWritable
  have opening := draws_powerlineText_left ⟨left.bg, left.bg⟩ rightWritable
  have openRight := fun before =>
    draws_powerlineText_right before rightWritable false
  cases usePowerlineRight with
  | true =>
      cases usePowerlineLeft with
      | true =>
          exact ⟨_, close.append (openRight _),
            (((IsSeam.nil _ _).rightFilled.blank _).blank _), rfl⟩
      | false =>
          exact ⟨_, (Draws.nil left).append (openRight left),
            ((IsSeam.nil _ _).rightFilled.blank _), rfl⟩
  | false =>
      cases usePowerlineLeft with
      | true => exact ⟨_, close.append opening, (IsSeam.nil _ _).leftFilled.blank _, rfl⟩
      | false => simp at powerline

theorem draws_openMemoryText (before : Style) {style : Style}
    (writable : style.Writable) (segmentsToLeft : Bool) (leftColor : Int) :
    ∃ glyphs,
      Draws before
        (openMemoryText style usePowerlineLeft usePowerlineRight segmentsToLeft leftColor)
        glyphs style ∧
      IsSeam (outerBackground segmentsToLeft leftColor) style.bg glyphs := by
  have blank : Draws style [' '] [⟨' ', style⟩] style :=
    isSign_blank.draws (Draws.nil style)
  have defaultBackground := draws_bgText before defaultStyle_writable.bg_word
  cases usePowerlineRight with
  | true =>
      cases segmentsToLeft with
      | true =>
          exact ⟨_, (draws_powerlineCharText_right before writable leftColor).append blank,
            (((IsSeam.nil _ _).blank _).rightFilled.blank _)⟩
      | false =>
          exact ⟨_, (defaultBackground.append
              (draws_powerlineText_right _ writable false)).append blank,
            (((IsSeam.nil _ _).blank _).rightFilled.blank _)⟩
  | false =>
      cases usePowerlineLeft with
      | true =>
          cases segmentsToLeft with
          | true =>
              exact ⟨_, (draws_powerlineCharText_left before writable leftColor).append
                blank, ((IsSeam.nil _ _).blank _).leftFilled⟩
          | false =>
              exact ⟨_, (draws_colourText before writable).append blank,
                (IsSeam.nil _ _).blank _⟩
      | false => simp at powerline

theorem draws_closeLoadText {style : Style} (writable : style.Writable)
    (segmentsToRight : Bool) (rightColor : Int) :
    ∃ glyphs after,
      Draws style
        (closeLoadText style usePowerlineLeft usePowerlineRight segmentsToRight rightColor)
        glyphs after ∧
      IsSeam style.bg (outerBackground segmentsToRight rightColor) glyphs := by
  have close := draws_powerlineText_left_backgroundOnly style writable
  cases usePowerlineLeft with
  | true =>
      cases segmentsToRight with
      | true =>
          exact ⟨_, _, close.append (draws_powerlineCharText_left_eol _ writable rightColor),
            (IsSeam.nil _ _).leftFilled.blank _⟩
      | false =>
          exact ⟨_, _, close.append (draws_powerlineText_left _ defaultStyle_writable),
            (IsSeam.nil _ _).leftFilled.blank _⟩
  | false =>
      cases usePowerlineRight with
      | true =>
          cases segmentsToRight with
          | true =>
              exact ⟨_, _, draws_powerlineCharText_right_eol style writable rightColor,
                (IsSeam.nil _ _).rightFilled.blank _⟩
          | false => exact ⟨_, _, Draws.nil style, IsSeam.nil _ _⟩
      | false => simp at powerline

end Seams

/-! ## The whole line -/

/-- The line draws the three figures, each in the style of its segment, and
only seams around and between them. -/
structure DrawnSeamlessly {host : Host} {settings : Settings}
    (reading : Reading host settings) (glyphs : List Glyph) : Prop where
  parts : ∃ start first second finish,
    glyphs = start ++ inStyle reading.memoryStyle reading.memoryFigure ++
      first ++ inStyle reading.cpuStyle reading.cpuFigure ++
      second ++ inStyle reading.loadStyle reading.loadFigures ++ finish ∧
    IsSeam (outerBackground settings.segmentsToLeft settings.leftColor)
      reading.memoryStyle.bg start ∧
    IsSeam reading.memoryStyle.bg reading.cpuStyle.bg first ∧ separatorCount first = 1 ∧
    IsSeam reading.cpuStyle.bg reading.loadStyle.bg second ∧ separatorCount second = 1 ∧
    IsSeam reading.loadStyle.bg
      (outerBackground settings.segmentsToRight settings.rightColor) finish
  figures : ∀ char ∈ reading.memoryFigure ++ reading.cpuFigure ++ reading.loadFigures,
    char ≠ pwlLeftFilled ∧ char ≠ pwlRightFilled

section Line

variable {host : Host} {settings : Settings} (reading : Reading host settings)

theorem Reading.exists_figures
    (counted : 1 ≤ settings.averagesCount ∧ settings.averagesCount ≤ 3)
    (answered : 0 ≤ (host.getloadavg host.averages settings.averagesCount.toNat).1) :
    ∃ averages index, reading.content = .figures averages index := by
  rcases loadContent_cases reading.content_eq with ⟨outside, _⟩ | ⟨_, failed, _⟩ |
    ⟨_, averages, index, _, _, content⟩
  · omega
  · simp only [Host.loadAverages, ite_eq_left_iff, reduceCtorEq, imp_false,
      Decidable.not_not] at failed
    omega
  · exact ⟨averages, index, content⟩

/-- With a powerline flag and load figures to show, the line parses completely
and joins its segments at their seams, whatever the style before it. -/
theorem statusLine_seams (colours : settings.useColors = true)
    (powerline : settings.usePowerlineLeft = true ∨ settings.usePowerlineRight = true)
    (counted : 1 ≤ settings.averagesCount ∧ settings.averagesCount ≤ 3)
    (answered : 0 ≤ (host.getloadavg host.averages settings.averagesCount.toNat).1)
    (before : Style) :
    ∃ line glyphs after, statusLine host settings = .ok line ∧
      Draws before line glyphs after ∧ DrawnSeamlessly reading glyphs := by
  obtain ⟨averages, index, content⟩ := reading.exists_figures counted answered
  have contentIndex : reading.content.index = some index := by rw [content]; rfl
  have loadStyle : reading.loadStyle = lutStyle loadLut index := by
    rw [Reading.loadStyle, content]
  obtain ⟨start, startDrawn, startSeam⟩ := draws_openMemoryText powerline before
    reading.memoryStyle_writable settings.segmentsToLeft settings.leftColor
  obtain ⟨first, firstDrawn, firstSeam, firstCount⟩ := draws_between powerline
    reading.memoryStyle_writable reading.cpuStyle_writable
  obtain ⟨second, secondDrawn, secondSeam, secondCount⟩ := draws_between powerline
    reading.cpuStyle_writable reading.loadStyle_writable
  obtain ⟨finish, after, finishDrawn, finishSeam⟩ := draws_closeLoadText powerline
    reading.loadStyle_writable settings.segmentsToRight settings.rightColor
  have memory := Draws.plain reading.memoryStyle
    fun member => (reading.memoryFigure_figureChar '#' member).1 rfl
  have cpu := Draws.plain reading.cpuStyle
    fun member => (reading.cpuFigure_figureChar '#' member).1 rfl
  have load := Draws.plain reading.loadStyle
    fun member => (reading.loadFigures_figureChar '#' member).1 rfl
  have drawn := (((((startDrawn.append memory).append firstDrawn).append cpu).append
    secondDrawn).append load).append finishDrawn
  refine ⟨reading.colouredLine, _, after, reading.statusLine_coloured colours, ?_,
    ⟨start, first, second, finish, rfl, startSeam, firstSeam, firstCount, secondSeam,
      secondCount, finishSeam⟩, ?_⟩
  · simpa [Reading.colouredLine, contentIndex, openLoadText, endLoadText, ← loadStyle]
      using drawn
  · intro char member
    simp only [List.mem_append] at member
    rcases member with (inMemory | inCpu) | inLoad
    · exact (reading.memoryFigure_figureChar char inMemory).2
    · exact (reading.cpuFigure_figureChar char inCpu).2
    · exact (reading.loadFigures_figureChar char inLoad).2

end Line

/-- The seams of the sample host's line with `-p`. -/
theorem statusLine_seams_sample :
    ∃ line glyphs after,
      statusLine sampleHost (settingsOf [⟨.powerlineLeft, []⟩]) = .ok line ∧
        Draws defaultStyle line glyphs after ∧
        DrawnSeamlessly
          (sampleReading (settingsOf [⟨.powerlineLeft, []⟩]) _ sampleHost_loadContent)
          glyphs :=
  statusLine_seams _ rfl (Or.inl rfl) (by decide) (by decide) defaultStyle

end TmuxMemCpuLoad
