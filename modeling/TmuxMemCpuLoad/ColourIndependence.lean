import TmuxMemCpuLoad.Decorations

/-!
# Colours leave the data alone

With colours each renderer writes the text it writes without them, between two
decorations that depend on the metrics through the table index only.
-/

namespace TmuxMemCpuLoad

open StandardCxx StyledText

/-- The renderer, told whether to use colours, writes the same text without a
directive; colours add two decorations chosen by the index of the input. -/
def OnlyDecorates {Input Index : Type} (selects : Input → Index → Prop)
    (render : Bool → Input → Outcome (List Char)) : Prop :=
  ∃ before after : Index → List Char, ∀ input index, selects input index →
    Decoration IsSign (before index) ∧ Decoration IsSign (after index) ∧
      ∃ text, render false input = .ok text ∧ '#' ∉ text ∧
        render true input = .ok (before index ++ text ++ after index)

theorem hash_not_mem_of_figure {text : List Char}
    (figure : ∀ char ∈ text, FigureChar char) : '#' ∉ text :=
  fun member => (figure '#' member).1 rfl

/-- On the screen the coloured text is the plain one between separators and
blanks. -/
theorem OnlyDecorates.draws {Input Index : Type} {selects : Input → Index → Prop}
    {render : Bool → Input → Outcome (List Char)} (decorates : OnlyDecorates selects render)
    {input : Input} {index : Index} (selected : selects input index) (before : Style) :
    ∃ text coloured opening closing after,
      render false input = .ok text ∧ render true input = .ok coloured ∧
      (∃ glyphs, Draws before coloured glyphs after ∧
        glyphs.map Glyph.char = opening ++ text ++ closing) ∧
      ∀ char ∈ opening ++ closing, IsSign char := by
  obtain ⟨_, _, holds⟩ := decorates
  obtain ⟨decorationBefore, decorationAfter, text, plain, noDirective, coloured⟩ :=
    holds input index selected
  have hashPlain : ¬ IsSign '#' := fun sign => sign.ne_hash rfl
  obtain ⟨glyphs, after, opening, closing, drawn, chars, signs⟩ :=
    decorationBefore.draws_around decorationAfter noDirective hashPlain before
  exact ⟨text, _, opening, closing, after, plain, coloured, ⟨glyphs, drawn, chars⟩, signs⟩

/-- With or without colours the plain text stands between decorations that the
index chooses, and without colours there are none. -/
theorem OnlyDecorates.around {Input Index : Type} {selects : Input → Index → Prop}
    {render : Bool → Input → Outcome (List Char)} (decorates : OnlyDecorates selects render)
    (useColors : Bool) :
    ∃ before after : Index → List Char, ∀ input index text, selects input index →
      render false input = .ok text →
        Decoration IsSign (before index) ∧ Decoration IsSign (after index) ∧
        (useColors = false → before index = [] ∧ after index = []) ∧
        render useColors input = .ok (before index ++ text ++ after index) := by
  cases useColors with
  | false =>
      refine ⟨fun _ => [], fun _ => [], fun input index text _ plain => ?_⟩
      exact ⟨.nil, .nil, fun _ => ⟨rfl, rfl⟩, by simpa using plain⟩
  | true =>
      obtain ⟨before, after, holds⟩ := decorates
      refine ⟨before, after, fun input index text selected plain => ?_⟩
      obtain ⟨decorationBefore, decorationAfter, own, ownPlain, _, coloured⟩ :=
        holds input index selected
      have same : own = text := Except.ok.inj (ownPlain.symm.trans plain)
      exact ⟨decorationBefore, decorationAfter, by simp, same ▸ coloured⟩

/-! ## The memory segment -/

structure MemoryInput where
  memStatus : MemoryStatus
  mode : MemoryMode

def MemoryInput.Selects (input : MemoryInput) (index : Nat) : Prop :=
  ∃ percentage, memPercentage input.memStatus = some percentage ∧
    toUnsigned percentage = index ∧ index ≤ 100

theorem memString_onlyDecorates
    (usePowerlineLeft usePowerlineRight segmentsToLeft : Bool) (leftColor : Int) :
    OnlyDecorates MemoryInput.Selects fun useColors input =>
      memString input.memStatus input.mode useColors usePowerlineLeft usePowerlineRight
        segmentsToLeft leftColor := by
  refine ⟨fun index => openMemoryText (lutStyle memLut index) usePowerlineLeft
      usePowerlineRight segmentsToLeft leftColor,
    fun index => closeText (lutStyle memLut index) usePowerlineLeft usePowerlineRight, ?_⟩
  rintro input index ⟨percentage, defined, rfl, atMost⟩
  have writable := memLut_wellFormed.lutStyle_writable atMost
  exact ⟨decoration_openMemoryText writable _ _ _ _, decoration_closeText writable _ _,
    memText input.memStatus input.mode, memString_plain _ _ _ _ _ _ defined,
    hash_not_mem_of_figure fun char => figureChar_of_mem_memText,
    memString_coloured _ _ _ _ _ _ defined atMost⟩

theorem memString_segments_irrelevant (memStatus : MemoryStatus) (mode : MemoryMode)
    (useColors first second : Bool) (firstColor secondColor : Int) :
    memString memStatus mode useColors false false first firstColor =
      memString memStatus mode useColors false false second secondColor := by
  simp only [memString, openMemory_plain]

-- half of the memory in use selects the middle of the table
example : MemoryInput.Selects ⟨⟨512, 1024⟩, .default⟩ 50 :=
  ⟨50, sampleHost_memPercentage, by decide +kernel, by decide⟩

/-! ## The CPU segment -/

structure CpuInput where
  host : Host
  cpuMode : CpuMode
  cpuUsageDelay : Nat
  graphLines : Nat
  useVertGraph : Bool

def CpuInput.Selects (input : CpuInput) (index : Nat) : Prop :=
  ∃ percentage, input.host.cpuPercentage input.cpuUsageDelay = .ok (some percentage) ∧
    toUnsigned percentage = index ∧ index ≤ 100

theorem cpuString_onlyDecorates (usePowerlineLeft usePowerlineRight : Bool) :
    OnlyDecorates CpuInput.Selects fun useColors input =>
      cpuString input.host input.cpuMode input.cpuUsageDelay input.graphLines useColors
        usePowerlineLeft usePowerlineRight input.useVertGraph := by
  refine ⟨fun index => openText (lutStyle cpuPercentageLut index) usePowerlineLeft
      usePowerlineRight,
    fun index => closeText (lutStyle cpuPercentageLut index) usePowerlineLeft
      usePowerlineRight, ?_⟩
  rintro input index ⟨percentage, defined, rfl, atMost⟩
  have writable := cpuPercentageLut_wellFormed.lutStyle_writable atMost
  exact ⟨decoration_openText writable _ _, decoration_closeText writable _ _,
    cpuText percentage (cpuMultiplier input.host input.cpuMode) input.graphLines
      input.useVertGraph,
    cpuString_plain _ _ _ _ _ defined,
    hash_not_mem_of_figure fun char => figureChar_of_mem_cpuText,
    cpuString_coloured _ _ _ _ _ defined atMost⟩

/-! ## The load segment -/

structure LoadInput where
  host : Host
  numAverages : Int

/-- The content has the index; a fallback has none. -/
def LoadInput.Selects (input : LoadInput) (index : Option Nat) : Prop :=
  ∃ content, loadContent input.host input.numAverages = .ok content ∧
    content.index = index

theorem loadString_onlyDecorates
    (usePowerlineLeft usePowerlineRight segmentsToRight : Bool) (rightColor : Int) :
    OnlyDecorates LoadInput.Selects fun useColors input =>
      loadString input.host useColors usePowerlineLeft usePowerlineRight
        input.numAverages segmentsToRight rightColor := by
  refine ⟨openLoadText usePowerlineLeft usePowerlineRight,
    endLoadText usePowerlineLeft usePowerlineRight segmentsToRight rightColor, ?_⟩
  rintro input index ⟨content, shown, rfl⟩
  have decorations :
      Decoration IsSign (openLoadText usePowerlineLeft usePowerlineRight content.index) ∧
      Decoration IsSign (endLoadText usePowerlineLeft usePowerlineRight segmentsToRight
        rightColor content.index) := by
    cases number : content.index with
    | none => exact ⟨.nil, .nil⟩
    | some index =>
        have atMost := loadContent_index_le shown index number
        have writable := loadLut_wellFormed.lutStyle_writable atMost
        exact ⟨decoration_openText writable _ _, decoration_closeLoadText writable _ _ _ _⟩
  exact ⟨decorations.1, decorations.2, content.text input.numAverages,
    loadString_plain _ _ _ _ shown,
    hash_not_mem_of_figure fun char => figureChar_of_mem_content shown,
    loadString_coloured _ _ _ _ shown⟩

theorem loadString_segments_irrelevant (host : Host) (numAverages : Int)
    (useColors first second : Bool) (firstColor secondColor : Int) :
    loadString host useColors false false numAverages first firstColor =
      loadString host useColors false false numAverages second secondColor := by
  simp only [loadString, closeLoad_plain]

/-- In every renderer colours only add decorations, and without powerline flags
nothing depends on the neighbouring segments. -/
theorem colours_only_decorate (usePowerlineLeft usePowerlineRight segments : Bool)
    (color : Int) :
    OnlyDecorates MemoryInput.Selects (fun useColors input =>
      memString input.memStatus input.mode useColors usePowerlineLeft usePowerlineRight
        segments color) ∧
    OnlyDecorates CpuInput.Selects (fun useColors input =>
      cpuString input.host input.cpuMode input.cpuUsageDelay input.graphLines useColors
        usePowerlineLeft usePowerlineRight input.useVertGraph) ∧
    OnlyDecorates LoadInput.Selects (fun useColors input =>
      loadString input.host useColors usePowerlineLeft usePowerlineRight
        input.numAverages segments color) ∧
    ∀ useColors otherSegments otherColor,
      (∀ memStatus mode,
        memString memStatus mode useColors false false segments color =
          memString memStatus mode useColors false false otherSegments otherColor) ∧
      ∀ host numAverages,
        loadString host useColors false false numAverages segments color =
          loadString host useColors false false numAverages otherSegments otherColor :=
  ⟨memString_onlyDecorates usePowerlineLeft usePowerlineRight segments color,
    cpuString_onlyDecorates usePowerlineLeft usePowerlineRight,
    loadString_onlyDecorates usePowerlineLeft usePowerlineRight segments color,
    fun useColors otherSegments otherColor =>
      ⟨fun memStatus mode => memString_segments_irrelevant memStatus mode useColors
          segments otherSegments color otherColor,
        fun host numAverages => loadString_segments_irrelevant host numAverages useColors
          segments otherSegments color otherColor⟩⟩

end TmuxMemCpuLoad
