import TmuxMemCpuLoad.CStrings
import TmuxMemCpuLoad.Powerline

/-!
# The buffer of `bg2fg`

`bg2fg` builds its result in a static buffer of 40 characters, which keeps what
earlier calls have left in it.  Its result as a C string is the text that does
not mention the buffer, on every argument: where a call would leave the buffer
or its argument, that text is undefined as well.
-/

namespace TmuxMemCpuLoad

open StandardCxx StyledText CStrings

def nul : Char := '\x00'

/-- `bg2fg` with the buffer as it finds it and the cells of its argument, and
the buffer as it leaves it. -/
def bg2fgInto (buf s : List Char) : Outcome (List Char) := do
  let substr ← strchr nul ',' s
  let buf ← store buf 0 '#'
  let buf ← store buf 1 '['
  let buf ← store buf 2 'f'
  match substr with
  -- two characters after a null pointer there is nothing to read
  | none => .error .undefined
  | some substr => strcpy nul buf 3 (substr.drop 2)

/-- One call: the buffer after it, and the text that its caller reads there. -/
def bg2fgCall (buf color : List Char) : Outcome (List Char × List Char) := do
  let buf ← bg2fgInto buf (color ++ [nul])
  let text ← readString nul buf
  .ok (buf, text)

def bg2fgCalls : List Char → List (List Char) → Outcome (List Char × List (List Char))
  | buf, [] => .ok (buf, [])
  | buf, color :: colors => do
      let (buf, text) ← bg2fgCall buf color
      let (buf, texts) ← bg2fgCalls buf colors
      .ok (buf, text :: texts)

/-! ## One call -/

section Call

variable {buf : List Char} (size : buf.length = 40)
include size

/-- The prefix is always written within the buffer. -/
theorem bg2fgInto_eq {s : List Char} {substr : Option (List Char)}
    (found : strchr nul ',' s = .ok substr) :
    ∃ started : List Char, started.length = 40 ∧ started.take 3 = "#[f".toList ∧
      bg2fgInto buf s = substr.elim (.error .undefined) fun cells =>
        strcpy nul started 3 (cells.drop 2) := by
  obtain ⟨first, afterFirst, rfl⟩ := List.exists_cons_of_length_eq_add_one size
  have sizeFirst : afterFirst.length = 38 + 1 := by simpa using size
  obtain ⟨second, afterSecond, rfl⟩ := List.exists_cons_of_length_eq_add_one sizeFirst
  have sizeSecond : afterSecond.length = 37 + 1 := by simpa using sizeFirst
  obtain ⟨third, rest, rfl⟩ := List.exists_cons_of_length_eq_add_one sizeSecond
  refine ⟨'#' :: '[' :: 'f' :: rest, size, rfl, ?_⟩
  unfold bg2fgInto
  rw [found, Outcome.ok_bind, store_of_lt (by omega), Outcome.ok_bind,
    List.set_cons_zero, store_of_lt (by simp), Outcome.ok_bind, List.set_cons_succ,
    List.set_cons_zero, store_of_lt (by simp)]
  cases substr <;> rfl

/-- What starts two characters after the comma is copied behind the prefix where
it fits. -/
theorem bg2fgCall_of_fits {before rest : List Char} (skipped : Char) (free : ',' ∉ before)
    (notEndBefore : nul ∉ before) (notEndRest : nul ∉ rest) (fits : 3 + rest.length < 40) :
    ∃ after : List Char, after.length = 40 ∧
      bg2fgCall buf (before ++ ',' :: skipped :: rest) = .ok (after, "#[f".toList ++ rest) := by
  have found := strchr_found free notEndBefore (skipped :: (rest ++ [nul]))
  obtain ⟨started, startedSize, opening, run⟩ := bg2fgInto_eq size found
  have cells : before ++ ',' :: skipped :: rest ++ [nul] =
      before ++ ',' :: (skipped :: (rest ++ [nul])) := by simp
  have copied : (',' :: skipped :: (rest ++ [nul])).drop 2 = rest ++ nul :: [] := rfl
  have notEndText : nul ∉ "#[f".toList ++ rest := by
    rw [List.mem_append, not_or]
    exact ⟨by decide, notEndRest⟩
  have shown : "#[f".toList ++ (rest ++ nul :: started.drop (3 + rest.length + 1)) =
      ("#[f".toList ++ rest) ++ nul :: started.drop (3 + rest.length + 1) := by
    simp
  refine ⟨("#[f".toList ++ rest) ++ nul :: started.drop (3 + rest.length + 1), ?_, ?_⟩
  · simp only [List.length_append, List.length_cons, List.length_drop, startedSize]
    simp
    omega
  · rw [bg2fgCall, cells, run]
    simp only [Option.elim, copied]
    rw [strcpy_of_fits notEndRest (by omega), opening, Outcome.ok_bind, shown,
      readString_text notEndText]
    rfl

/-- A call without a comma, or where the text ends at it or does not fit, leaves
the buffer or its argument. -/
theorem bg2fgCall_of_undefined {color : List Char} (notEnd : nul ∉ color)
    (undefined : ¬ (2 ≤ (fromComma color).length ∧
      3 + ((fromComma color).drop 2).length < 40)) :
    bg2fgCall buf color = .error .undefined := by
  unfold bg2fgCall
  by_cases comma : ',' ∈ color
  · obtain ⟨before, after, rfl, free⟩ := List.eq_append_cons_of_mem comma
    have notEndBefore : nul ∉ before := fun member => notEnd (by simp [member])
    have notEndAfter : nul ∉ after := fun member => notEnd (by simp [member])
    have found := strchr_found free notEndBefore (after ++ [nul])
    obtain ⟨started, startedSize, _, run⟩ := bg2fgInto_eq size found
    rw [fromComma_append free] at undefined
    rw [List.append_assoc, List.cons_append, run]
    cases after with
    | nil =>
        -- one character after the comma the argument has ended
        simp [strcpy]
    | cons skipped rest =>
        have notEndRest : nul ∉ rest := fun member => notEndAfter (by simp [member])
        have copied : (',' :: (skipped :: rest ++ [nul])).drop 2 = rest ++ nul :: [] := rfl
        have overflow : 40 ≤ 3 + rest.length := by
          simpa using undefined
        simp only [Option.elim, copied]
        rw [strcpy_of_overflow notEndRest (by omega)]
        rfl
  · have missing := strchr_missing comma notEnd (by decide) []
    obtain ⟨started, _, _, run⟩ := bg2fgInto_eq size missing
    rw [run]
    rfl

/-- The buffer holds the text without a buffer, whatever it held before. -/
theorem bg2fgCall_refines {color : List Char} (notEnd : nul ∉ color) :
    (bg2fgCall buf color).map Prod.snd = bg2fg color ∧
      ∀ after text, bg2fgCall buf color = .ok (after, text) → after.length = 40 := by
  by_cases defined : 2 ≤ (fromComma color).length ∧
      3 + ((fromComma color).drop 2).length < 40
  · have comma : ',' ∈ color := by
      by_contra free
      simp [fromComma_of_not_mem free] at defined
    obtain ⟨before, after, rfl, free⟩ := List.eq_append_cons_of_mem comma
    have suffix := fromComma_append free after
    rw [suffix] at defined
    cases after with
    | nil => simp at defined
    | cons skipped rest =>
        have notEndBefore : nul ∉ before := fun member => notEnd (by simp [member])
        have notEndRest : nul ∉ rest := fun member => notEnd (by simp [member])
        obtain ⟨final, finalSize, called⟩ := bg2fgCall_of_fits size skipped free
          notEndBefore notEndRest (by simpa using defined)
        rw [called, bg2fg, suffix, if_pos defined]
        constructor
        · rfl
        · intro after text returned
          cases returned
          exact finalSize
  · rw [bg2fgCall_of_undefined size notEnd defined, bg2fg, if_neg defined]
    constructor
    · rfl
    · intro after text returned
      cases returned

end Call

/-! ## Sequences of calls -/

/-- Each call of a sequence shows the text without a buffer. -/
theorem bg2fgCalls_of_texts {buf : List Char} (size : buf.length = 40)
    {colors texts : List (List Char)}
    (inverts : List.Forall₂ (fun color text => nul ∉ color ∧ bg2fg color = .ok text)
      colors texts) :
    ∃ after : List Char, after.length = 40 ∧ bg2fgCalls buf colors = .ok (after, texts) := by
  induction inverts generalizing buf with
  | nil => exact ⟨buf, size, rfl⟩
  | @cons color text colors texts inverts _ ih =>
      obtain ⟨notEnd, inverted⟩ := inverts
      obtain ⟨shown, kept⟩ := bg2fgCall_refines size notEnd
      rw [inverted] at shown
      cases called : bg2fgCall buf color with
      | error fault =>
          rw [called] at shown
          cases shown
      | ok returned =>
          obtain ⟨next, own⟩ := returned
          rw [called] at shown
          cases shown
          obtain ⟨after, afterSize, calls⟩ := ih (kept next own called)
          refine ⟨after, afterSize, ?_⟩
          rw [bg2fgCalls, called]
          simp only [Outcome.ok_bind, calls]

/-! ## Colours -/

/-- `#[fg=F,bg=B]` with at most 31 characters and no comma in `F`. -/
structure IsColour (color background : List Char) : Prop where
  shape : ∃ foreground, ',' ∉ foreground ∧
    color = "#[fg=".toList ++ foreground ++ ",bg=".toList ++ background ++ "]".toList
  short : color.length ≤ 31
  notEnd : nul ∉ color

namespace IsColour

variable {color background : List Char} (colour : IsColour color background)
include colour

theorem fromComma_eq :
    fromComma color = ",bg=".toList ++ background ++ "]".toList := by
  obtain ⟨foreground, free, rfl⟩ := colour.shape
  have freeOpening : ',' ∉ "#[fg=".toList ++ foreground := by
    rw [List.mem_append, not_or]
    exact ⟨by decide, free⟩
  have split := fromComma_append freeOpening ("bg=".toList ++ background ++ "]".toList)
  rw [show "#[fg=".toList ++ foreground ++ ",bg=".toList ++ background ++ "]".toList =
    ("#[fg=".toList ++ foreground) ++ ',' :: ("bg=".toList ++ background ++ "]".toList)
    by simp, split]
  simp

theorem bg2fg_eq : bg2fg color = .ok ("#[fg=".toList ++ background ++ "]".toList) := by
  have short := colour.short
  exact bg2fg_of_fromComma colour.fromComma_eq (by omega)

/-- The separator to the left opens with the background of the colour. -/
theorem powerline_left {oss : OutputStream} (noWidth : oss.width = 0) :
    powerline oss color .left false =
      .ok (oss.append
        ("#[bg=".toList ++ background ++ "]".toList ++ pwlLeftFilled :: color)) := by
  have opening := afterComma_of_fromComma colour.fromComma_eq
  simp [powerline, OutputStream.put_eq_append, OutputStream.putChar, noWidth, opening]

end IsColour

/-- In every sequence of calls with colours, and whatever the buffer holds
before, no call leaves the buffer or its argument and each returns exactly
`#[fg=B]`; the separator to the left opens with `#[bg=B]`. -/
theorem bg2fgCalls_invert {buf : List Char} (size : buf.length = 40)
    {colors backgrounds : List (List Char)}
    (colours : List.Forall₂ IsColour colors backgrounds) :
    (∃ after : List Char, after.length = 40 ∧
      bg2fgCalls buf colors = .ok (after, backgrounds.map fun background =>
        "#[fg=".toList ++ background ++ "]".toList)) ∧
    ∀ color background, IsColour color background → ∀ oss : OutputStream, oss.width = 0 →
      powerline oss color .left false =
        .ok (oss.append
          ("#[bg=".toList ++ background ++ "]".toList ++ pwlLeftFilled :: color)) := by
  constructor
  · apply bg2fgCalls_of_texts size
    rw [List.forall₂_map_right_iff]
    exact colours.imp fun _ _ colour => ⟨colour.notEnd, colour.bg2fg_eq⟩
  · exact fun color background colour oss noWidth => colour.powerline_left noWidth

theorem isColour_black : IsColour "#[fg=black,bg=colour108]".toList "colour108".toList where
  shape := ⟨"black".toList, by decide, by decide⟩
  short := by decide
  notEnd := by decide

theorem isColour_red : IsColour "#[fg=white,bg=red]".toList "red".toList where
  shape := ⟨"white".toList, by decide, by decide⟩
  short := by decide
  notEnd := by decide

/-- A longer result before a shorter one leaves no trace. -/
theorem bg2fgCalls_sample :
    (∃ after : List Char, after.length = 40 ∧
      bg2fgCalls (List.replicate 40 nul)
          ["#[fg=black,bg=colour108]".toList, "#[fg=white,bg=red]".toList] =
        .ok (after, ["#[fg=colour108]".toList, "#[fg=red]".toList])) ∧
      powerline OutputStream.fresh "#[fg=white,bg=red]".toList .left false =
        .ok (OutputStream.fresh.append
          ("#[bg=red]".toList ++ pwlLeftFilled :: "#[fg=white,bg=red]".toList)) := by
  obtain ⟨calls, separators⟩ := bg2fgCalls_invert (by simp : (List.replicate 40 nul).length = 40)
    (.cons isColour_black (.cons isColour_red .nil))
  exact ⟨calls, separators _ _ isColour_red OutputStream.fresh rfl⟩

end TmuxMemCpuLoad
