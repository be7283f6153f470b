import TmuxMemCpuLoad.LookupTables
import TmuxMemCpuLoad.OutputStream
import Mathlib.Data.List.TakeWhile

/-!
# Powerline separators

`powerline` and `powerline_char` open and close the coloured segments of the
status line.  On a colour argument that sets a style each of them appends a
fixed text, and that text draws at most one separator, whose colours depend on
the style in force when it is reached.
-/

namespace TmuxMemCpuLoad

open StandardCxx StyledText

inductive PowerlineDirection
  | none
  | left
  | right
  deriving DecidableEq, Repr

def pwlLeftFilled : Char := '\ue0b0'

def pwlRightFilled : Char := '\ue0b2'

/-- The text from the first comma on, as `strchr` finds it; empty where
`strchr` returns a null pointer. -/
def fromComma (color : List Char) : List Char :=
  color.dropWhile (· ≠ ',')

theorem fromComma_append {before : List Char} (free : ',' ∉ before) (after : List Char) :
    fromComma (before ++ ',' :: after) = ',' :: after := by
  have skipped : ∀ char ∈ before, decide (char ≠ ',') = true := by
    intro char member
    have apart : char ≠ ',' := by
      rintro rfl
      exact free member
    simpa using apart
  rw [fromComma, List.dropWhile_append_of_pos skipped]
  simp

theorem fromComma_of_not_mem {color : List Char} (free : ',' ∉ color) :
    fromComma color = [] := by
  apply List.dropWhile_eq_nil_iff.mpr
  intro char member
  have apart : char ≠ ',' := by
    rintro rfl
    exact free member
  simpa using apart

/-- `bg2fg`: the text `#[f` followed by what starts two characters after the
comma.  The result is copied to a buffer of 40 characters. -/
def bg2fg (color : List Char) : Outcome (List Char) :=
  let substr := fromComma color
  if 2 ≤ substr.length ∧ 3 + (substr.drop 2).length < 40 then
    .ok ("#[f".toList ++ substr.drop 2)
  else
    .error .undefined

/-- `colorstr.substr( colorstr.find( "," ) + 1 )`: without a comma, `npos + 1`
is the start of the string. -/
def afterComma (color : List Char) : List Char :=
  if ',' ∈ color then (fromComma color).drop 1 else color

section Background

variable {color background : List Char}
  (suffix : fromComma color = ",bg=".toList ++ background ++ "]".toList)
include suffix

/-- The buffer is long enough for what follows the comma in a short colour. -/
theorem bg2fg_of_fromComma (short : color.length ≤ 38) :
    bg2fg color = .ok ("#[fg=".toList ++ background ++ "]".toList) := by
  have suffixLength : (fromComma color).length ≤ color.length :=
    (List.dropWhile_suffix _).length_le
  have long : 2 ≤ (fromComma color).length := by
    simp [suffix]
  have fits : 3 + ((fromComma color).drop 2).length < 40 := by
    simp only [List.length_drop]
    omega
  rw [bg2fg, if_pos ⟨long, fits⟩, suffix]
  simp

theorem afterComma_of_fromComma :
    afterComma color = "bg=".toList ++ background ++ "]".toList := by
  have comma : ',' ∈ color := by
    apply (List.dropWhile_suffix (· ≠ ',')).subset
    rw [← fromComma, suffix]
    simp
  rw [afterComma, if_pos comma, suffix]
  simp

end Background

def powerline (oss : OutputStream) (color : List Char)
    (direction : PowerlineDirection) (backgroundOnly : Bool) :
    Outcome OutputStream :=
  match direction with
  | .none => .ok (oss.put color)
  | .left =>
      if backgroundOnly then do
        let inverted ← bg2fg color
        .ok ((oss.putChar ' ').put inverted)
      else
        .ok ((((oss.put "#[".toList).put (afterComma color)).putChar
          pwlLeftFilled).put color)
  | .right => do
      let inverted ← bg2fg color
      .ok ((((oss.putChar ' ').put inverted).putChar pwlRightFilled).put color)

def powerlineChar (oss : OutputStream) (dynamicColor : List Char)
    (staticColor : Int) (direction : PowerlineDirection) (eol : Bool) :
    Outcome OutputStream :=
  let writeColor := signedText staticColor
  match direction with
  | .none => .ok oss
  | .left => do
      let oss ←
        if eol then do
          let inverted ← bg2fg dynamicColor
          .ok ((((oss.put inverted).put "#[bg=colour".toList).put writeColor).put
            "]".toList)
        else
          .ok ((((oss.put dynamicColor).put "#[fg=colour".toList).put
            writeColor).put "]".toList)
      .ok ((oss.putChar pwlLeftFilled).put dynamicColor)
  | .right => do
      let oss ←
        if eol then
          .ok ((((oss.put dynamicColor).put "#[fg=colour".toList).put
            writeColor).put "] ".toList)
        else do
          let inverted ← bg2fg dynamicColor
          .ok ((((oss.put inverted).put " #[bg=colour".toList).put
            writeColor).put "]".toList)
      .ok ((oss.putChar pwlRightFilled).put dynamicColor)

/-! ## The text of one call -/

/-- `colour<number>`, as a directive names a palette colour. -/
def paletteColour (number : Int) : List Char :=
  "colour".toList ++ signedText number

-- the generated equation would evaluate the literal
theorem paletteColour_eq (number : Int) :
    paletteColour number = "colour".toList ++ signedText number :=
  rfl

/-- What `powerline` appends for a colour that sets `style`. -/
def powerlineText (style : Style) (direction : PowerlineDirection)
    (backgroundOnly : Bool) : List Char :=
  match direction with
  | .none => colourText style
  | .left =>
      if backgroundOnly then ' ' :: fgText style.bg
      else bgText style.bg ++ pwlLeftFilled :: colourText style
  | .right => ' ' :: fgText style.bg ++ pwlRightFilled :: colourText style

/-- What `powerline_char` appends for a colour that sets `style`. -/
def powerlineCharText (style : Style) (staticColor : Int)
    (direction : PowerlineDirection) (eol : Bool) : List Char :=
  match direction with
  | .none => []
  | .left =>
      (if eol then fgText style.bg ++ bgText (paletteColour staticColor)
        else colourText style ++ fgText (paletteColour staticColor)) ++
        pwlLeftFilled :: colourText style
  | .right =>
      (if eol then colourText style ++ fgText (paletteColour staticColor) ++ [' ']
        else fgText style.bg ++ ' ' :: bgText (paletteColour staticColor)) ++
        pwlRightFilled :: colourText style

section Emission

variable {color : List Char} {style : Style}

theorem SetsStyle.fromComma_eq (sets : SetsStyle color style) :
    fromComma color = ",bg=".toList ++ style.bg ++ "]".toList := by
  have shape : colourText style =
      ("#[fg=".toList ++ style.fg) ++ ',' :: ("bg=".toList ++ style.bg ++ "]".toList) := by
    simp [colourText, directiveText, settingsText]
  have free : ',' ∉ "#[fg=".toList ++ style.fg := by
    intro member
    rcases List.mem_append.mp member with opening | name
    · exact absurd opening (by decide)
    · exact sets.fg_word.2 ',' name (by decide)
  rw [sets.text_eq, shape, fromComma_append free]
  rfl

theorem SetsStyle.bg2fg_eq (sets : SetsStyle color style) :
    bg2fg color = .ok (fgText style.bg) := by
  have bounded := sets.length_le
  rw [bg2fg_of_fromComma sets.fromComma_eq (by omega)]
  simp [fgText, directiveText, settingsText]

theorem SetsStyle.afterComma_eq (sets : SetsStyle color style) :
    "#[".toList ++ afterComma color = bgText style.bg := by
  rw [afterComma_of_fromComma sets.fromComma_eq]
  simp [bgText, directiveText, settingsText]

theorem powerline_eq (sets : SetsStyle color style) {oss : OutputStream}
    (noWidth : oss.width = 0) (direction : PowerlineDirection)
    (backgroundOnly : Bool) :
    powerline oss color direction backgroundOnly =
      .ok (oss.append (powerlineText style direction backgroundOnly)) := by
  have opening := sets.afterComma_eq
  cases direction with
  | none =>
      simp [powerline, powerlineText, OutputStream.put_eq_append, noWidth,
        ← sets.text_eq]
  | left =>
      cases backgroundOnly with
      | true =>
          simp [powerline, powerlineText, OutputStream.put_eq_append,
            OutputStream.putChar, noWidth, sets.bg2fg_eq]
      | false =>
          simp [powerline, powerlineText, OutputStream.put_eq_append,
            OutputStream.putChar, noWidth, ← opening, ← sets.text_eq]
  | right =>
      simp [powerline, powerlineText, OutputStream.put_eq_append,
        OutputStream.putChar, noWidth, sets.bg2fg_eq, ← sets.text_eq]

theorem powerlineChar_eq (sets : SetsStyle color style) {oss : OutputStream}
    (noWidth : oss.width = 0) (staticColor : Int)
    (direction : PowerlineDirection) (eol : Bool) :
    powerlineChar oss color staticColor direction eol =
      .ok (oss.append (powerlineCharText style staticColor direction eol)) := by
  have fgPalette : fgText (paletteColour staticColor) =
      "#[fg=colour".toList ++ (signedText staticColor ++ "]".toList) := by
    simp [fgText, directiveText, settingsText, paletteColour_eq]
  have bgPalette : bgText (paletteColour staticColor) =
      "#[bg=colour".toList ++ (signedText staticColor ++ "]".toList) := by
    simp [bgText, directiveText, settingsText, paletteColour_eq]
  cases direction with
  | none => simp [powerlineChar, powerlineCharText]
  | left =>
      cases eol with
      | true =>
          simp [powerlineChar, powerlineCharText, OutputStream.put_eq_append,
            OutputStream.putChar, noWidth, sets.bg2fg_eq, ← sets.text_eq, bgPalette]
      | false =>
          simp [powerlineChar, powerlineCharText, OutputStream.put_eq_append,
            OutputStream.putChar, noWidth, ← sets.text_eq, fgPalette]
  | right =>
      cases eol with
      | true =>
          simp [powerlineChar, powerlineCharText, OutputStream.put_eq_append,
            OutputStream.putChar, noWidth, ← sets.text_eq, fgPalette]
      | false =>
          simp [powerlineChar, powerlineCharText, OutputStream.put_eq_append,
            OutputStream.putChar, noWidth, sets.bg2fg_eq, ← sets.text_eq, bgPalette]

end Emission

end TmuxMemCpuLoad
