import TmuxMemCpuLoad.StandardOutcome
import TmuxMemCpuLoad.StyledText

/-!
# Colour lookup tables

Each metric has a table of 101 tmux colour directives, one for each percentage.
Equal neighbours are written as a run.  Every entry of every table sets both a
foreground and a background, fits its `char[32]` cell, and has a background
other than the default one.
-/

namespace TmuxMemCpuLoad

open StandardCxx StyledText

/-- A table given by its runs of equal entries. -/
def fromRuns (runs : List (Nat × String)) : List (List Char) :=
  runs.flatMap fun run => List.replicate run.1 run.2.toList

theorem forall_mem_fromRuns {runs : List (Nat × String)}
    {property : List Char → Prop}
    (holds : ∀ run ∈ runs, property run.2.toList) :
    ∀ entry ∈ fromRuns runs, property entry := by
  intro entry member
  obtain ⟨run, runMember, entryMember⟩ := List.mem_flatMap.mp member
  rw [List.eq_of_mem_replicate entryMember]
  exact holds run runMember

def cpuPercentageRuns : List (Nat × String) :=
  [ (7, "#[fg=brightwhite,bg=colour16]"),
    (8, "#[fg=brightwhite,bg=colour17]"),
    (7, "#[fg=brightwhite,bg=colour18]"),
    (6, "#[fg=brightwhite,bg=colour19]"),
    (7, "#[fg=brightwhite,bg=colour20]"),
    (6, "#[fg=brightwhite,bg=colour21]"),
    (6, "#[fg=brightwhite,bg=colour57]"),
    (6, "#[fg=brightwhite,bg=colour56]"),
    (6, "#[fg=brightwhite,bg=colour55]"),
    (6, "#[fg=brightwhite,bg=colour54]"),
    (6, "#[fg=brightwhite,bg=colour53]"),
    (6, "#[fg=brightwhite,bg=colour52]"),
    (6, "#[fg=brightwhite,bg=colour88]"),
    (6, "#[fg=brightwhite,bg=colour124]"),
    (6, "#[fg=brightwhite,bg=colour160]"),
    (6, "#[fg=brightwhite,bg=colour196]")]

def memRuns : List (Nat × String) :=
  [ (1, "#[fg=brightwhite,bg=colour16]"),
    (1, "#[fg=brightwhite,bg=colour17]"),
    (6, "#[fg=brightwhite,bg=colour18]"),
    (8, "#[fg=brightwhite,bg=colour24]"),
    (1, "#[fg=brightwhite,bg=colour60]"),
    (12, "#[fg=brightwhite,bg=colour66]"),
    (16, "#[fg=brightwhite,bg=colour72]"),
    (3, "#[fg=brightwhite,bg=colour71]"),
    (2, "#[fg=brightwhite,bg=colour107]"),
    (2, "#[fg=black,bg=colour107]"),
    (5, "#[fg=black,bg=colour108]"),
    (10, "#[fg=black,bg=colour144]"),
    (2, "#[fg=black,bg=colour150]"),
    (3, "#[fg=black,bg=colour186]"),
    (11, "#[fg=black,bg=colour180]"),
    (4, "#[fg=black,bg=colour181]"),
    (4, "#[fg=black,bg=colour187]"),
    (1, "#[fg=black,bg=colour188]"),
    (5, "#[fg=black,bg=colour224]"),
    (4, "#[fg=black,bg=colour231]")]

def loadRuns : List (Nat × String) :=
  [ (9, "#[fg=brightwhite,bg=colour16]"),
    (3, "#[fg=brightwhite,bg=colour17]"),
    (13, "#[fg=brightwhite,bg=colour59]"),
    (10, "#[fg=brightwhite,bg=colour60]"),
    (8, "#[fg=brightwhite,bg=colour102]"),
    (7, "#[fg=brightwhite,bg=colour103]"),
    (2, "#[fg=black,bg=colour103]"),
    (6, "#[fg=black,bg=colour109]"),
    (8, "#[fg=black,bg=colour145]"),
    (2, "#[fg=black,bg=colour146]"),
    (11, "#[fg=black,bg=colour152]"),
    (10, "#[fg=black,bg=colour188]"),
    (4, "#[fg=black,bg=colour195]"),
    (8, "#[fg=black,bg=colour231]")]

def cpuPercentageLut : List (List Char) := fromRuns cpuPercentageRuns

def memLut : List (List Char) := fromRuns memRuns

def loadLut : List (List Char) := fromRuns loadRuns

/-- An entry of a table, read without a bounds check. -/
def lutEntry (lut : List (List Char)) (index : Nat) : Outcome (List Char) :=
  match lut[index]? with
  | some entry => .ok entry
  | none => .error .undefined

def colourText (style : Style) : List Char :=
  directiveText [("fg".toList, style.fg), ("bg".toList, style.bg)]

def fgText (colour : List Char) : List Char :=
  directiveText [("fg".toList, colour)]

def bgText (colour : List Char) : List Char :=
  directiveText [("bg".toList, colour)]

/-- A colour argument that sets `style`: the directive of both colours, short
enough for a table cell. -/
structure SetsStyle (color : List Char) (style : Style) : Prop where
  text_eq : color = colourText style
  fg_word : IsWord style.fg
  bg_word : IsWord style.bg
  length_le : color.length ≤ 31

instance (color : List Char) (style : Style) : Decidable (SetsStyle color style) :=
  decidable_of_iff
    (color = colourText style ∧ IsWord style.fg ∧ IsWord style.bg ∧ color.length ≤ 31)
    ⟨fun ⟨text, fg, bg, length⟩ => ⟨text, fg, bg, length⟩,
      fun sets => ⟨sets.text_eq, sets.fg_word, sets.bg_word, sets.length_le⟩⟩

def defaultStyle : Style := ⟨"default".toList, "default".toList⟩

theorem defaultStyle_writable : defaultStyle.Writable :=
  ⟨by decide, by decide⟩

/-- The style of a directive of the form `#[fg=F,bg=B]`. -/
def entryStyle (entry : List Char) : Style where
  fg := (entry.drop 5).takeWhile (· ≠ ',')
  bg := ((entry.dropWhile (· ≠ ',')).drop 4).dropLast

/-- The style in which a table draws a percentage. -/
def lutStyle (lut : List (List Char)) (index : Nat) : Style :=
  entryStyle (lut.getD index [])

/-- What the renderers rely on in a table. -/
structure WellFormedLut (lut : List (List Char)) : Prop where
  length_eq : lut.length = 101
  entries : ∀ entry ∈ lut, SetsStyle entry (entryStyle entry)
  coloured : ∀ entry ∈ lut, (entryStyle entry).bg ≠ defaultStyle.bg

theorem WellFormedLut.of_runs {runs : List (Nat × String)}
    (length : (fromRuns runs).length = 101)
    (entries : ∀ run ∈ runs,
      SetsStyle run.2.toList (entryStyle run.2.toList) ∧
        (entryStyle run.2.toList).bg ≠ defaultStyle.bg) :
    WellFormedLut (fromRuns runs) where
  length_eq := length
  entries := forall_mem_fromRuns fun run member => (entries run member).1
  coloured := forall_mem_fromRuns fun run member => (entries run member).2

theorem cpuPercentageLut_wellFormed : WellFormedLut cpuPercentageLut :=
  .of_runs (by decide +kernel) (by decide +kernel)

theorem memLut_wellFormed : WellFormedLut memLut :=
  .of_runs (by decide +kernel) (by decide +kernel)

theorem loadLut_wellFormed : WellFormedLut loadLut :=
  .of_runs (by decide +kernel) (by decide +kernel)

section Entries

variable {lut : List (List Char)} {index : Nat}

theorem WellFormedLut.lutEntry_of_le (wellFormed : WellFormedLut lut)
    (atMost : index ≤ 100) :
    ∃ entry, lutEntry lut index = .ok entry ∧
      SetsStyle entry (lutStyle lut index) := by
  have inside : index < lut.length := by
    rw [wellFormed.length_eq]
    omega
  refine ⟨lut[index], by simp [lutEntry, inside], ?_⟩
  have member : lut[index] ∈ lut := List.getElem_mem inside
  simpa [lutStyle, List.getD, inside] using wellFormed.entries _ member

theorem WellFormedLut.lutStyle_bg_ne_default (wellFormed : WellFormedLut lut)
    (atMost : index ≤ 100) : (lutStyle lut index).bg ≠ defaultStyle.bg := by
  have inside : index < lut.length := by
    rw [wellFormed.length_eq]
    omega
  have member : lut[index] ∈ lut := List.getElem_mem inside
  simpa [lutStyle, List.getD, inside] using wellFormed.coloured _ member

theorem WellFormedLut.lutStyle_writable (wellFormed : WellFormedLut lut)
    (atMost : index ≤ 100) : (lutStyle lut index).Writable := by
  obtain ⟨entry, _, sets⟩ := wellFormed.lutEntry_of_le atMost
  exact ⟨sets.fg_word, sets.bg_word⟩

theorem WellFormedLut.lutEntry_eq_ok_iff (wellFormed : WellFormedLut lut) :
    (∃ entry, lutEntry lut index = .ok entry) ↔ index ≤ 100 := by
  constructor
  · rintro ⟨entry, found⟩
    by_contra beyond
    have outside : lut.length ≤ index := by
      rw [wellFormed.length_eq]
      omega
    simp [lutEntry, outside] at found
  · intro atMost
    obtain ⟨entry, found, _⟩ := wellFormed.lutEntry_of_le atMost
    exact ⟨entry, found⟩

end Entries

end TmuxMemCpuLoad
