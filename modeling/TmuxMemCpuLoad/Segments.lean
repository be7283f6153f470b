import TmuxMemCpuLoad.Powerline

/-!
# Opening and closing a coloured segment

The CPU and the load segment are opened alike, and the memory and the CPU
segment are closed alike.  On a table index that selects an entry, opening and
closing append fixed texts that depend on the flags and the entry's style only.
-/

namespace TmuxMemCpuLoad

open StandardCxx StyledText

def openSegment (oss : OutputStream) (lut : List (List Char)) (index : Nat)
    (usePowerlineLeft usePowerlineRight : Bool) : Outcome OutputStream := do
  let color ← lutEntry lut index
  if usePowerlineRight then powerline oss color .right false
  else if usePowerlineLeft then powerline oss color .left false
  else powerline oss color .none false

def resetText : List Char := "#[fg=default,bg=default]".toList

def closeSegment (oss : OutputStream) (lut : List (List Char)) (index : Nat)
    (usePowerlineLeft usePowerlineRight : Bool) : Outcome OutputStream :=
  if usePowerlineLeft then do
    let color ← lutEntry lut index
    powerline oss color .left true
  else if !usePowerlineRight then .ok (oss.put resetText)
  else .ok oss

theorem reset_setsStyle : SetsStyle resetText defaultStyle := by
  decide +kernel

def openText (style : Style) (usePowerlineLeft usePowerlineRight : Bool) : List Char :=
  if usePowerlineRight then powerlineText style .right false
  else if usePowerlineLeft then powerlineText style .left false
  else powerlineText style .none false

def closeText (style : Style) (usePowerlineLeft usePowerlineRight : Bool) : List Char :=
  if usePowerlineLeft then powerlineText style .left true
  else if !usePowerlineRight then colourText defaultStyle
  else []

section Segment

variable {lut : List (List Char)} {index : Nat} {oss : OutputStream}

theorem openSegment_eq (wellFormed : WellFormedLut lut) (atMost : index ≤ 100)
    (noWidth : oss.width = 0) (usePowerlineLeft usePowerlineRight : Bool) :
    openSegment oss lut index usePowerlineLeft usePowerlineRight =
      .ok (oss.append
        (openText (lutStyle lut index) usePowerlineLeft usePowerlineRight)) := by
  obtain ⟨entry, found, sets⟩ := wellFormed.lutEntry_of_le atMost
  cases usePowerlineRight <;> cases usePowerlineLeft <;>
    simp [openSegment, openText, found, powerline_eq sets noWidth]

theorem closeSegment_eq (wellFormed : WellFormedLut lut) (atMost : index ≤ 100)
    (noWidth : oss.width = 0) (usePowerlineLeft usePowerlineRight : Bool) :
    closeSegment oss lut index usePowerlineLeft usePowerlineRight =
      .ok (oss.append
        (closeText (lutStyle lut index) usePowerlineLeft usePowerlineRight)) := by
  obtain ⟨entry, found, sets⟩ := wellFormed.lutEntry_of_le atMost
  cases usePowerlineLeft <;> cases usePowerlineRight <;>
    simp [closeSegment, closeText, found, powerline_eq sets noWidth,
      OutputStream.put_eq_append noWidth, reset_setsStyle.text_eq]

end Segment

/-- A character of a figure: neither part of a directive nor a separator. -/
def FigureChar (char : Char) : Prop :=
  char ≠ '#' ∧ char ≠ pwlLeftFilled ∧ char ≠ pwlRightFilled

instance (char : Char) : Decidable (FigureChar char) :=
  inferInstanceAs (Decidable (_ ∧ _ ∧ _))

theorem figureChar_of_fixedChar {char : Char} (written : FixedChar char) :
    FigureChar char := by
  refine ⟨?_, ?_, ?_⟩ <;>
    · rintro rfl
      revert written
      unfold FixedChar
      decide

end TmuxMemCpuLoad
