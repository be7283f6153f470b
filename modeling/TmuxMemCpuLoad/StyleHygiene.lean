import TmuxMemCpuLoad.PowerlineSeams

/-!
# Style hygiene

With colours but no segment on the right, the line should leave tmux in its
default style and draw every figure in the style of its segment.  It does so
unless `cpu_string` has prepared a separator that `load_string` does not draw.
-/

namespace TmuxMemCpuLoad

open StandardCxx StyledText

/-- The text changes the style and draws nothing but separators and blanks. -/
def Switches (before : Style) (text : List Char) (after : Style) : Prop :=
  ∃ glyphs, Draws before text glyphs after ∧ ∀ glyph ∈ glyphs, IsSign glyph.char

/-- A figure with every character but blanks in the given style or the default
one. -/
structure CleanlyDrawn (own : Style) (figure : List Char) (glyphs : List Glyph) :
    Prop where
  chars : glyphs.map Glyph.char = figure
  styles : ∀ glyph ∈ glyphs, glyph.char ≠ ' ' →
    glyph.style = own ∨ glyph.style = defaultStyle

theorem cleanlyDrawn_inStyle (own : Style) (figure : List Char) :
    CleanlyDrawn own figure (inStyle own figure) where
  chars := inStyle_map_char own figure
  styles := by
    intro glyph member _
    obtain ⟨char, _, rfl⟩ := List.mem_map.mp member
    exact Or.inl rfl

/-- The line starts and ends in the default style, and draws its figures
cleanly with only separators and blanks around them. -/
def Hygienic {host : Host} {settings : Settings} (reading : Reading host settings) :
    Prop :=
  ∃ line start memory first cpu second load finish,
    statusLine host settings = .ok line ∧
    Draws defaultStyle line
      (start ++ memory ++ first ++ cpu ++ second ++ load ++ finish) defaultStyle ∧
    CleanlyDrawn reading.memoryStyle reading.memoryFigure memory ∧
    CleanlyDrawn reading.cpuStyle reading.cpuFigure cpu ∧
    CleanlyDrawn reading.loadStyle reading.loadFigures load ∧
    ∀ glyph ∈ start ++ first ++ second ++ finish, IsSign glyph.char

/-- The style that a closed segment leaves in force when powerline is used to
the left only: its background as the foreground of the coming separator, or
the default style. -/
def closedStyle (usePowerlineLeft : Bool) (style : Style) : Style :=
  if usePowerlineLeft then ⟨style.bg, style.bg⟩ else defaultStyle

section LeftOnly

variable (usePowerlineLeft : Bool) {style : Style} (writable : style.Writable)
include writable

theorem switches_openMemoryText (before : Style) (segmentsToLeft : Bool)
    (leftColor : Int) :
    Switches before
      (openMemoryText style usePowerlineLeft false segmentsToLeft leftColor) style := by
  cases usePowerlineLeft with
  | true =>
      have powerline : true = true ∨ false = true := Or.inl rfl
      obtain ⟨glyphs, drawn, seam⟩ := draws_openMemoryText powerline before writable
        segmentsToLeft leftColor
      exact ⟨glyphs, drawn, seam.signs⟩
  | false => exact ⟨[], draws_colourText before writable, by simp⟩

theorem switches_closeText :
    Switches style (closeText style usePowerlineLeft false)
      (closedStyle usePowerlineLeft style) := by
  cases usePowerlineLeft with
  | true =>
      refine ⟨_, draws_powerlineText_left_backgroundOnly style writable, ?_⟩
      simpa using isSign_blank
  | false => exact ⟨[], draws_colourText style defaultStyle_writable, by simp⟩

theorem switches_openText (before : Style) :
    Switches before (openText style usePowerlineLeft false) style := by
  cases usePowerlineLeft with
  | true =>
      refine ⟨_, draws_powerlineText_left before writable, ?_⟩
      simpa using isSign_leftFilled
  | false => exact ⟨[], draws_colourText before writable, by simp⟩

theorem switches_closeLoadText (rightColor : Int) :
    Switches style (closeLoadText style usePowerlineLeft false false rightColor)
      defaultStyle := by
  cases usePowerlineLeft with
  | true =>
      refine ⟨_, (draws_powerlineText_left_backgroundOnly style writable).append
        (draws_powerlineText_left _ defaultStyle_writable), ?_⟩
      simpa using And.intro isSign_blank isSign_leftFilled
  | false => exact ⟨[], draws_colourText style defaultStyle_writable, by simp⟩

end LeftOnly

theorem switches_nil (style : Style) : Switches style [] style :=
  ⟨[], Draws.nil style, by simp⟩

section Line

variable {host : Host} {settings : Settings} (reading : Reading host settings)

/-- The line draws its figures in these styles: the load figures are drawn in
`shown`, and the line ends in `final`. -/
structure LineStyles (shown final : Style) : Prop where
  opens : Switches (closedStyle settings.usePowerlineLeft reading.cpuStyle)
    (openLoadText settings.usePowerlineLeft false reading.content.index) shown
  closes : Switches shown
    (endLoadText settings.usePowerlineLeft false false settings.rightColor
      reading.content.index) final

/-- What follows the CPU segment decides how the line ends. -/
theorem LineStyles.draws {shown final : Style} (styles : LineStyles reading shown final)
    (noRight : settings.usePowerlineRight = false)
    (noSegment : settings.segmentsToRight = false) :
    ∃ start first second finish,
      Draws defaultStyle reading.colouredLine
        (start ++ inStyle reading.memoryStyle reading.memoryFigure ++ first ++
          inStyle reading.cpuStyle reading.cpuFigure ++ second ++
          inStyle shown reading.loadFigures ++ finish) final ∧
      ∀ glyph ∈ start ++ first ++ second ++ finish, IsSign glyph.char := by
  obtain ⟨start, startDrawn, startSigns⟩ := switches_openMemoryText
    settings.usePowerlineLeft reading.memoryStyle_writable defaultStyle
    settings.segmentsToLeft settings.leftColor
  obtain ⟨closing, closingDrawn, closingSigns⟩ := switches_closeText
    settings.usePowerlineLeft reading.memoryStyle_writable
  obtain ⟨opening, openingDrawn, openingSigns⟩ := switches_openText
    settings.usePowerlineLeft reading.cpuStyle_writable
    (closedStyle settings.usePowerlineLeft reading.memoryStyle)
  obtain ⟨closed, closedDrawn, closedSigns⟩ := switches_closeText
    settings.usePowerlineLeft reading.cpuStyle_writable
  obtain ⟨opened, openedDrawn, openedSigns⟩ := styles.opens
  obtain ⟨finish, finishDrawn, finishSigns⟩ := styles.closes
  have memory := Draws.plain reading.memoryStyle
    fun member => (reading.memoryFigure_figureChar '#' member).1 rfl
  have cpu := Draws.plain reading.cpuStyle
    fun member => (reading.cpuFigure_figureChar '#' member).1 rfl
  have load := Draws.plain shown
    fun member => (reading.loadFigures_figureChar '#' member).1 rfl
  have drawn := (((startDrawn.append memory).append closingDrawn).append
    ((openingDrawn.append cpu).append closedDrawn)).append
      ((openedDrawn.append load).append finishDrawn)
  refine ⟨start, closing ++ opening, closed ++ opened, finish, ?_, ?_⟩
  · simpa [Reading.colouredLine, noRight, noSegment] using drawn
  · intro glyph member
    simp only [List.mem_append] at member
    grind

/-- The load figures follow the CPU segment in their own style. -/
theorem lineStyles_figures {averages : Nat → ℚ} {index : Nat}
    (content : reading.content = .figures averages index) :
    LineStyles reading reading.loadStyle defaultStyle := by
  have loadStyle : reading.loadStyle = lutStyle loadLut index := by
    rw [Reading.loadStyle, content]
  have writable := reading.loadStyle_writable
  rw [loadStyle] at writable ⊢
  constructor <;> rw [content]
  · exact switches_openText settings.usePowerlineLeft writable _
  · exact switches_closeLoadText settings.usePowerlineLeft writable settings.rightColor

/-- A fallback is drawn in whatever style the CPU segment leaves. -/
theorem lineStyles_fallback {text : List Char}
    (content : reading.content = .fallback text) :
    LineStyles reading (closedStyle settings.usePowerlineLeft reading.cpuStyle)
      (closedStyle settings.usePowerlineLeft reading.cpuStyle) := by
  constructor <;> rw [content]
  · exact switches_nil _
  · exact switches_nil _

theorem LineStyles.hygienic (styles : LineStyles reading reading.loadStyle defaultStyle)
    (colours : settings.useColors = true)
    (noRight : settings.usePowerlineRight = false)
    (noSegment : settings.segmentsToRight = false) : Hygienic reading := by
  obtain ⟨start, first, second, finish, drawn, signs⟩ := styles.draws reading noRight noSegment
  exact ⟨_, start, _, first, _, second, _, finish, reading.statusLine_coloured colours,
    drawn, cleanlyDrawn_inStyle _ _, cleanlyDrawn_inStyle _ _, cleanlyDrawn_inStyle _ _,
    signs⟩

/-- A fallback is shown when no averages are asked for or the call for them
fails. -/
theorem Reading.exists_fallback_iff
    (counted : 0 ≤ settings.averagesCount ∧ settings.averagesCount ≤ 3) :
    (∃ text, reading.content = .fallback text) ↔
      settings.averagesCount = 0 ∨
        (host.getloadavg host.averages settings.averagesCount.toNat).1 < 0 := by
  rcases loadContent_cases reading.content_eq with ⟨outside, content⟩ |
    ⟨inside, failed, content⟩ | ⟨inside, averages, index, read, _, content⟩
  · have zero : settings.averagesCount = 0 := by omega
    simp [content, zero]
  · have negative : (host.getloadavg host.averages settings.averagesCount.toNat).1 < 0 := by
      by_contra nonneg
      simp [Host.loadAverages, nonneg] at failed
    simp [content, negative]
  · have nonneg : ¬ (host.getloadavg host.averages settings.averagesCount.toNat).1 < 0 := by
      intro negative
      simp [Host.loadAverages, negative] at read
    have positive : settings.averagesCount ≠ 0 := by omega
    simp [content, nonneg, positive]

/-- After `-p` a fallback is drawn in the colours of the separator that should
have followed, and the line ends in them. -/
theorem not_hygienic_of_fallback {text : List Char}
    (content : reading.content = .fallback text)
    (powerline : settings.usePowerlineLeft = true)
    (colours : settings.useColors = true)
    (noRight : settings.usePowerlineRight = false)
    (noSegment : settings.segmentsToRight = false) : ¬ Hygienic reading := by
  rintro ⟨line, start, memory, first, cpu, second, load, finish, rendered, drawn, _⟩
  obtain ⟨_, _, _, _, actual, _⟩ :=
    (lineStyles_fallback reading content).draws reading noRight noSegment
  have lineEq : line = reading.colouredLine := by
    have equal := rendered.symm.trans (reading.statusLine_coloured colours)
    simpa using equal
  rw [lineEq] at drawn
  have final := (drawn.unique actual).2
  have background : reading.cpuStyle.bg = defaultStyle.bg := by
    rw [final, closedStyle, if_pos powerline]
  exact cpuPercentageLut_wellFormed.lutStyle_bg_ne_default reading.cpu_le background

theorem hygienic_of_fallback {text : List Char}
    (content : reading.content = .fallback text)
    (noPowerline : settings.usePowerlineLeft = false)
    (colours : settings.useColors = true)
    (noRight : settings.usePowerlineRight = false)
    (noSegment : settings.segmentsToRight = false) : Hygienic reading := by
  have loadStyle : reading.loadStyle = defaultStyle := by
    simp [Reading.loadStyle, content]
  have styles := lineStyles_fallback reading content
  rw [noPowerline] at styles
  apply LineStyles.hygienic reading _ colours noRight noSegment
  rw [loadStyle]
  exact styles

/-- With colours, and neither `-q` nor `-r`, the line is drawn hygienically
exactly when there is no separator left waiting for load figures that do not
come. -/
theorem hygienic_iff (colours : settings.useColors = true)
    (noRight : settings.usePowerlineRight = false)
    (noSegment : settings.segmentsToRight = false)
    (counted : 0 ≤ settings.averagesCount ∧ settings.averagesCount ≤ 3) :
    Hygienic reading ↔
      ¬ (settings.usePowerlineLeft = true ∧
        (settings.averagesCount = 0 ∨
          (host.getloadavg host.averages settings.averagesCount.toNat).1 < 0)) := by
  rw [← reading.exists_fallback_iff counted]
  constructor
  · rintro hygienic ⟨powerline, text, content⟩
    exact not_hygienic_of_fallback reading content powerline colours noRight noSegment
      hygienic
  · intro noWaiting
    cases content : reading.content with
    | figures averages index =>
        exact (lineStyles_figures reading content).hygienic reading colours noRight noSegment
    | fallback text =>
        have noPowerline : settings.usePowerlineLeft = false := by
          by_contra powerline
          exact noWaiting ⟨by simpa using powerline, text, content⟩
        exact hygienic_of_fallback reading content noPowerline colours noRight noSegment

end Line

/-- The sample host's line with `-p` is hygienic. -/
theorem hygienic_powerlineLeft :
    Hygienic (sampleReading (settingsOf [⟨.powerlineLeft, []⟩]) _ sampleHost_loadContent) :=
  (hygienic_iff _ rfl rfl rfl (by decide)).mpr (by decide)

/-- With `-p -a 0` it is not. -/
theorem not_hygienic_without_averages :
    ∃ settings,
      optionLoop [⟨.powerlineLeft, []⟩, ⟨.averagesCount, "0".toList⟩] = .ok settings ∧
      ∃ reading : Reading sampleHost settings, ¬ Hygienic reading := by
  let options : List ParsedOption := [⟨.powerlineLeft, []⟩, ⟨.averagesCount, "0".toList⟩]
  have accepted : optionLoop options = .ok (settingsOf options) := by decide +kernel
  have zero : (settingsOf options).averagesCount = 0 := by decide +kernel
  have shown : loadContent sampleHost (settingsOf options).averagesCount =
      .ok (.fallback ['\x00']) := by
    rw [zero]
    rfl
  exact ⟨_, accepted, sampleReading _ _ shown,
    not_hygienic_of_fallback _ rfl rfl rfl rfl rfl⟩

end TmuxMemCpuLoad
