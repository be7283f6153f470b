import TmuxMemCpuLoad.LoadString
import TmuxMemCpuLoad.MemoryString
import TmuxMemCpuLoad.CpuString

/-!
# The texts around the figures

What the renderers write before and after a figure consists of directives,
separators and blanks.  Each of these texts leaves a known style in force and
draws at most one separator.
-/

namespace TmuxMemCpuLoad

open StandardCxx StyledText

/-- A separator or a blank. -/
def IsSign (char : Char) : Prop :=
  char = pwlLeftFilled ∨ char = pwlRightFilled ∨ char = ' '

instance (char : Char) : Decidable (IsSign char) :=
  inferInstanceAs (Decidable (_ ∨ _ ∨ _))

theorem isSign_leftFilled : IsSign pwlLeftFilled :=
  Or.inl rfl

theorem isSign_rightFilled : IsSign pwlRightFilled :=
  Or.inr (Or.inl rfl)

theorem isSign_blank : IsSign ' ' :=
  Or.inr (Or.inr rfl)

theorem IsSign.ne_hash {char : Char} (sign : IsSign char) : char ≠ '#' := by
  rcases sign with rfl | rfl | rfl <;> decide

theorem not_isSign_of_fixedChar {char : Char} (written : FixedChar char) :
    ¬ IsSign char := by
  unfold FixedChar at written
  rintro (rfl | rfl | rfl) <;> revert written <;> decide

/-- A sign is drawn in the style in force. -/
theorem IsSign.draws {before after : Style} {char : Char} {text : List Char}
    {glyphs : List Glyph} (sign : IsSign char) (draws : Draws before text glyphs after) :
    Draws before (char :: text) (⟨char, before⟩ :: glyphs) after :=
  draws.cons sign.ne_hash

theorem paletteColour_isWord (number : Int) : IsWord (paletteColour number) := by
  rw [paletteColour_eq]
  refine ⟨by simp, fun char member => ?_⟩
  have name : ∀ char ∈ "colour".toList, char ∉ reserved := forall_mem_of_all (by decide)
  have numeral : FixedChar char → char ∉ reserved := by
    intro written isReserved
    simp only [reserved, List.mem_cons, List.not_mem_nil, or_false] at isReserved
    unfold FixedChar at written
    rcases isReserved with rfl | rfl | rfl | rfl | rfl <;> revert written <;> decide
  rcases List.mem_append.mp member with inName | inNumber
  · exact name char inName
  · apply numeral
    unfold signedText at inNumber
    split at inNumber
    · rcases List.mem_cons.mp inNumber with rfl | digit
      · exact Or.inr (Or.inr rfl)
      · exact fixedChar_of_mem_toDigits digit
    · exact fixedChar_of_mem_toDigits inNumber

/-! ## Single directives -/

section Directives

variable (before : Style) {colour : List Char} {style : Style}

theorem isWord_fg : IsWord "fg".toList := by
  decide

theorem isWord_bg : IsWord "bg".toList := by
  decide

theorem fgWords (word : IsWord colour) :
    ∀ setting ∈ [("fg".toList, colour)], IsWord setting.1 ∧ IsWord setting.2 := by
  simpa using ⟨isWord_fg, word⟩

theorem bgWords (word : IsWord colour) :
    ∀ setting ∈ [("bg".toList, colour)], IsWord setting.1 ∧ IsWord setting.2 := by
  simpa using ⟨isWord_bg, word⟩

theorem styleWords (writable : style.Writable) :
    ∀ setting ∈ [("fg".toList, style.fg), ("bg".toList, style.bg)],
      IsWord setting.1 ∧ IsWord setting.2 := by
  simpa using ⟨⟨isWord_fg, writable.fg_word⟩, isWord_bg, writable.bg_word⟩

theorem draws_fgText (word : IsWord colour) :
    Draws before (fgText colour) [] { before with fg := colour } :=
  Draws.directive before (by simp) (fgWords word)

theorem draws_bgText (word : IsWord colour) :
    Draws before (bgText colour) [] { before with bg := colour } :=
  Draws.directive before (by simp) (bgWords word)

theorem draws_colourText (writable : style.Writable) :
    Draws before (colourText style) [] style :=
  Draws.directive before (by simp) (styleWords writable)

theorem decoration_fgText (word : IsWord colour) : Decoration IsSign (fgText colour) :=
  .of_directive (by simp) (fgWords word)

theorem decoration_bgText (word : IsWord colour) : Decoration IsSign (bgText colour) :=
  .of_directive (by simp) (bgWords word)

theorem decoration_colourText (writable : style.Writable) :
    Decoration IsSign (colourText style) :=
  .of_directive (by simp) (styleWords writable)

end Directives

/-! ## The texts are decorations -/

section Texts

variable {style : Style} (writable : style.Writable)
include writable

theorem decoration_powerlineText (direction : PowerlineDirection)
    (backgroundOnly : Bool) :
    Decoration IsSign (powerlineText style direction backgroundOnly) := by
  have colours := decoration_colourText writable
  have foreground := decoration_fgText writable.bg_word
  have background := decoration_bgText writable.bg_word
  cases direction with
  | none => exact colours
  | left =>
      cases backgroundOnly with
      | true => exact .sign isSign_blank foreground
      | false => exact background.append (.sign isSign_leftFilled colours)
  | right =>
      exact .sign isSign_blank (foreground.append (.sign isSign_rightFilled colours))

theorem decoration_powerlineCharText (staticColor : Int)
    (direction : PowerlineDirection) (eol : Bool) :
    Decoration IsSign (powerlineCharText style staticColor direction eol) := by
  have colours := decoration_colourText writable
  have foreground := decoration_fgText writable.bg_word
  have paletteForeground := decoration_fgText (paletteColour_isWord staticColor)
  have paletteBackground := decoration_bgText (paletteColour_isWord staticColor)
  cases direction with
  | none => exact .nil
  | left =>
      cases eol with
      | true =>
          exact (foreground.append paletteBackground).append (.sign isSign_leftFilled colours)
      | false =>
          exact (colours.append paletteForeground).append (.sign isSign_leftFilled colours)
  | right =>
      cases eol with
      | true =>
          exact ((colours.append paletteForeground).append (.sign isSign_blank .nil)).append
            (.sign isSign_rightFilled colours)
      | false =>
          exact (foreground.append (.sign isSign_blank paletteBackground)).append
            (.sign isSign_rightFilled colours)

theorem decoration_openText (usePowerlineLeft usePowerlineRight : Bool) :
    Decoration IsSign (openText style usePowerlineLeft usePowerlineRight) := by
  unfold openText
  split_ifs <;> exact decoration_powerlineText writable _ _

theorem decoration_closeText (usePowerlineLeft usePowerlineRight : Bool) :
    Decoration IsSign (closeText style usePowerlineLeft usePowerlineRight) := by
  unfold closeText
  split_ifs
  · exact decoration_powerlineText writable _ _
  · exact decoration_colourText defaultStyle_writable
  · exact .nil

theorem decoration_openMemoryText
    (usePowerlineLeft usePowerlineRight segmentsToLeft : Bool) (leftColor : Int) :
    Decoration IsSign (openMemoryText style usePowerlineLeft usePowerlineRight
      segmentsToLeft leftColor) := by
  have blank : Decoration IsSign [' '] := .sign isSign_blank .nil
  unfold openMemoryText
  split_ifs
  · exact (decoration_powerlineCharText writable _ _ _).append blank
  · exact ((decoration_bgText defaultStyle_writable.bg_word).append
      (decoration_powerlineText writable _ _)).append blank
  · exact (decoration_powerlineCharText writable _ _ _).append blank
  · exact (decoration_powerlineText writable _ _).append blank
  · exact decoration_powerlineText writable _ _

theorem decoration_closeLoadText
    (usePowerlineLeft usePowerlineRight segmentsToRight : Bool) (rightColor : Int) :
    Decoration IsSign (closeLoadText style usePowerlineLeft usePowerlineRight
      segmentsToRight rightColor) := by
  unfold closeLoadText
  split_ifs
  · exact (decoration_powerlineText writable _ _).append
      (decoration_powerlineCharText writable _ _ _)
  · exact (decoration_powerlineText writable _ _).append
      (decoration_powerlineText defaultStyle_writable _ _)
  · exact decoration_colourText defaultStyle_writable
  · exact decoration_powerlineCharText writable _ _ _
  · exact .nil

end Texts

/-! ## What the texts draw -/

section Drawing

variable (before : Style) {style : Style} (writable : style.Writable)
include writable

theorem draws_powerlineText_left :
    Draws before (powerlineText style .left false)
      [⟨pwlLeftFilled, ⟨before.fg, style.bg⟩⟩] style :=
  (draws_bgText before writable.bg_word).append
    (isSign_leftFilled.draws (draws_colourText _ writable))

theorem draws_powerlineText_left_backgroundOnly :
    Draws before (powerlineText style .left true) [⟨' ', before⟩]
      ⟨style.bg, before.bg⟩ :=
  isSign_blank.draws (draws_fgText before writable.bg_word)

theorem draws_powerlineText_right (backgroundOnly : Bool) :
    Draws before (powerlineText style .right backgroundOnly)
      [⟨' ', before⟩, ⟨pwlRightFilled, ⟨style.bg, before.bg⟩⟩] style :=
  isSign_blank.draws ((draws_fgText before writable.bg_word).append
    (isSign_rightFilled.draws (draws_colourText _ writable)))

theorem draws_powerlineCharText_left (staticColor : Int) :
    Draws before (powerlineCharText style staticColor .left false)
      [⟨pwlLeftFilled, ⟨paletteColour staticColor, style.bg⟩⟩] style :=
  ((draws_colourText before writable).append
    (draws_fgText style (paletteColour_isWord staticColor))).append
      (isSign_leftFilled.draws (draws_colourText _ writable))

theorem draws_powerlineCharText_left_eol (staticColor : Int) :
    Draws before (powerlineCharText style staticColor .left true)
      [⟨pwlLeftFilled, ⟨style.bg, paletteColour staticColor⟩⟩] style :=
  ((draws_fgText before writable.bg_word).append
    (draws_bgText _ (paletteColour_isWord staticColor))).append
      (isSign_leftFilled.draws (draws_colourText _ writable))

theorem draws_powerlineCharText_right (staticColor : Int) :
    Draws before (powerlineCharText style staticColor .right false)
      [⟨' ', ⟨style.bg, before.bg⟩⟩,
        ⟨pwlRightFilled, ⟨style.bg, paletteColour staticColor⟩⟩] style :=
  ((draws_fgText before writable.bg_word).append
    (isSign_blank.draws (draws_bgText _ (paletteColour_isWord staticColor)))).append
      (isSign_rightFilled.draws (draws_colourText _ writable))

theorem draws_powerlineCharText_right_eol (staticColor : Int) :
    Draws before (powerlineCharText style staticColor .right true)
      [⟨' ', ⟨paletteColour staticColor, style.bg⟩⟩,
        ⟨pwlRightFilled, ⟨paletteColour staticColor, style.bg⟩⟩] style :=
  (((draws_colourText before writable).append
    (draws_fgText style (paletteColour_isWord staticColor))).append
      (isSign_blank.draws (Draws.nil _))).append
        (isSign_rightFilled.draws (draws_colourText _ writable))

end Drawing

end TmuxMemCpuLoad
