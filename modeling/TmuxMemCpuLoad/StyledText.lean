import Mathlib.Data.List.Basic
import Mathlib.Tactic.Common

/-!
# Text with style directives

A status line mixes characters with directives `#[name=value,...]`.  A
directive draws nothing: it sets the attributes it names, of which the
foreground and the background are kept here, and leaves the others as they
are.  Every other character is drawn in the style in force.

Drawing is an automaton over the characters of the line.  `Draws` states what
a part of a line draws when it is read between directives; its rules compose
along concatenation, so that a line is understood part by part.
-/

namespace StyledText

structure Style where
  fg : List Char
  bg : List Char
  deriving DecidableEq, Repr

/-- A setting in a directive: the name of an attribute and its new value. -/
abbrev Setting := List Char × List Char

def Style.set (style : Style) (setting : Setting) : Style :=
  if setting.1 = ['f', 'g'] then { style with fg := setting.2 }
  else if setting.1 = ['b', 'g'] then { style with bg := setting.2 }
  else style

/-- The style after a directive, whose settings take effect in order. -/
def Style.apply (style : Style) (settings : List Setting) : Style :=
  settings.foldl Style.set style

/-- A character on the screen. -/
structure Glyph where
  char : Char
  style : Style
  deriving DecidableEq, Repr

/-- Where the reader of a line stands. -/
inductive Scan
  | text
  | hash
  | name (done : List Setting) (read : List Char)
  | value (done : List Setting) (name read : List Char)
  deriving DecidableEq

structure Pen where
  scan : Scan
  style : Style
  deriving DecidableEq

/-- Characters with a meaning inside a directive. -/
def reserved : List Char := ['#', '[', ']', '=', ',']

/-- Read one character; `none` when the line is malformed there. -/
def Pen.step (pen : Pen) (char : Char) : Option (Pen × List Glyph) :=
  match pen.scan with
  | .text =>
      if char = '#' then some (⟨.hash, pen.style⟩, [])
      else some (pen, [⟨char, pen.style⟩])
  | .hash =>
      if char = '[' then some (⟨.name [] [], pen.style⟩, []) else none
  | .name done read =>
      if char = '=' then
        if read = [] then none else some (⟨.value done read [], pen.style⟩, [])
      else if reserved.contains char then none
      else some (⟨.name done (read ++ [char]), pen.style⟩, [])
  | .value done name read =>
      if char = ',' then
        if read = [] then none
        else some (⟨.name (done ++ [(name, read)]) [], pen.style⟩, [])
      else if char = ']' then
        if read = [] then none
        else some (⟨.text, pen.style.apply (done ++ [(name, read)])⟩, [])
      else if reserved.contains char then none
      else some (⟨.value done name (read ++ [char]), pen.style⟩, [])

/-- Read a text; `none` when a directive in it is malformed. -/
def draw : Pen → List Char → Option (Pen × List Glyph)
  | pen, [] => some (pen, [])
  | pen, char :: chars =>
      (pen.step char).bind fun stepped =>
        (draw stepped.1 chars).map fun rest => (rest.1, stepped.2 ++ rest.2)

theorem draw_append (pen : Pen) (first second : List Char) :
    draw pen (first ++ second) =
      (draw pen first).bind fun middle =>
        (draw middle.1 second).map fun rest => (rest.1, middle.2 ++ rest.2) := by
  induction first generalizing pen with
  | nil => simp [draw]
  | cons char first induction =>
      simp only [List.cons_append, draw]
      cases pen.step char with
      | none => rfl
      | some stepped =>
          simp only [Option.bind_some, induction, Option.map_bind,
            Option.bind_map, Function.comp_def, Option.map_map,
            List.append_assoc]

/-- Read between directives in the style `before`, the text draws exactly
`glyphs`, every directive in it is complete and well formed, and `after` is
the style left in force. -/
def Draws (before : Style) (text : List Char) (glyphs : List Glyph)
    (after : Style) : Prop :=
  draw ⟨.text, before⟩ text = some (⟨.text, after⟩, glyphs)

instance (before : Style) (text : List Char) (glyphs : List Glyph)
    (after : Style) : Decidable (Draws before text glyphs after) :=
  inferInstanceAs (Decidable (draw ⟨.text, before⟩ text = some (⟨.text, after⟩, glyphs)))

theorem Draws.nil (style : Style) : Draws style [] [] style :=
  rfl

theorem Draws.append {before middle after : Style} {first second : List Char}
    {firstGlyphs secondGlyphs : List Glyph}
    (drawsFirst : Draws before first firstGlyphs middle)
    (drawsSecond : Draws middle second secondGlyphs after) :
    Draws before (first ++ second) (firstGlyphs ++ secondGlyphs) after := by
  unfold Draws at *
  rw [draw_append, drawsFirst]
  simp [drawsSecond]

/-- What a text draws is determined by the text and the style before it. -/
theorem Draws.unique {before first second : Style} {text : List Char}
    {firstGlyphs secondGlyphs : List Glyph}
    (drawsFirst : Draws before text firstGlyphs first)
    (drawsSecond : Draws before text secondGlyphs second) :
    firstGlyphs = secondGlyphs ∧ first = second := by
  have equal := drawsFirst.symm.trans drawsSecond
  simp only [Option.some.injEq, Prod.mk.injEq, Pen.mk.injEq, true_and] at equal
  exact ⟨equal.2, equal.1⟩

def inStyle (style : Style) (text : List Char) : List Glyph :=
  text.map fun char => ⟨char, style⟩

@[simp]
theorem inStyle_map_char (style : Style) (text : List Char) :
    (inStyle style text).map Glyph.char = text := by
  simp [inStyle, Function.comp_def]

theorem Draws.cons {before after : Style} {char : Char} {text : List Char}
    {glyphs : List Glyph} (charPlain : char ≠ '#')
    (draws : Draws before text glyphs after) :
    Draws before (char :: text) (⟨char, before⟩ :: glyphs) after := by
  unfold Draws at *
  simp [draw, Pen.step, charPlain, draws]

/-- A text without directives is drawn in the style in force. -/
theorem Draws.plain (style : Style) {text : List Char}
    (noDirective : '#' ∉ text) : Draws style text (inStyle style text) style := by
  induction text with
  | nil => rfl
  | cons char text induction =>
      have charPlain : char ≠ '#' := fun equal => noDirective (by simp [equal])
      exact (induction fun member => noDirective (by simp [member])).cons charPlain

/-- A name or a value: not empty and free of reserved characters. -/
def IsWord (word : List Char) : Prop :=
  word ≠ [] ∧ ∀ char ∈ word, char ∉ reserved

-- The check runs over the characters of the word, not over every character.
instance (word : List Char) : Decidable (IsWord word) :=
  haveI := List.decidableBAll (· ∉ reserved) word
  inferInstanceAs (Decidable (word ≠ [] ∧ ∀ char ∈ word, char ∉ reserved))

theorem forall_mem_of_all {property : Char → Prop} [DecidablePred property]
    {text : List Char} (checked : text.all property = true) :
    ∀ char ∈ text, property char := by
  simpa using checked

/-- Both colours can be written in a directive. -/
structure Style.Writable (style : Style) : Prop where
  fg_word : IsWord style.fg
  bg_word : IsWord style.bg

/-- The settings of a directive as they are written. -/
def settingsText : List Setting → List Char
  | [] => []
  | [setting] => setting.1 ++ '=' :: setting.2
  | setting :: rest =>
      setting.1 ++ '=' :: setting.2 ++ ',' :: settingsText rest

/-- `#[name=value,...]`. -/
def directiveText (settings : List Setting) : List Char :=
  '#' :: '[' :: (settingsText settings ++ [']'])

private theorem draw_name (style : Style) (done : List Setting)
    (read name rest : List Char) (free : ∀ char ∈ name, char ∉ reserved) :
    draw ⟨.name done read, style⟩ (name ++ rest) =
      draw ⟨.name done (read ++ name), style⟩ rest := by
  induction name generalizing read with
  | nil => simp
  | cons char name induction =>
      have charFree : char ∉ reserved := free char (by simp)
      have notEquals : char ≠ '=' := by
        rintro rfl
        exact charFree (by decide)
      have next := induction (read ++ [char]) fun other member =>
        free other (by simp [member])
      simp only [List.cons_append, draw, Pen.step, notEquals, charFree,
        List.contains_iff_mem, if_false, Option.bind_some, next,
        List.append_assoc, List.cons_append, List.nil_append]
      cases draw ⟨.name done (read ++ char :: name), style⟩ rest <;> simp

private theorem draw_value (style : Style) (done : List Setting)
    (name read value rest : List Char) (free : ∀ char ∈ value, char ∉ reserved) :
    draw ⟨.value done name read, style⟩ (value ++ rest) =
      draw ⟨.value done name (read ++ value), style⟩ rest := by
  induction value generalizing read with
  | nil => simp
  | cons char value induction =>
      have charFree : char ∉ reserved := free char (by simp)
      have notComma : char ≠ ',' := by
        rintro rfl
        exact charFree (by decide)
      have notClose : char ≠ ']' := by
        rintro rfl
        exact charFree (by decide)
      have next := induction (read ++ [char]) fun other member =>
        free other (by simp [member])
      simp only [List.cons_append, draw, Pen.step, notComma, notClose, charFree,
        List.contains_iff_mem, if_false, Option.bind_some, next,
        List.append_assoc, List.cons_append, List.nil_append]
      cases draw ⟨.value done name (read ++ char :: value), style⟩ rest <;> simp

private theorem draw_setting (style : Style) (done : List Setting)
    (setting : Setting) (nameWord : IsWord setting.1)
    (valueWord : IsWord setting.2) (rest : List Char) :
    draw ⟨.name done [], style⟩ (setting.1 ++ '=' :: setting.2 ++ rest) =
      draw ⟨.value done setting.1 setting.2, style⟩ rest := by
  have opening : ∀ text : List Char,
      draw ⟨.name done setting.1, style⟩ ('=' :: text) =
        draw ⟨.value done setting.1 [], style⟩ text := by
    intro text
    simp only [draw, Pen.step, if_true, nameWord.1, if_false, Option.bind_some]
    cases draw ⟨.value done setting.1 [], style⟩ text <;> simp
  rw [List.append_assoc, draw_name _ _ _ _ _ nameWord.2, List.nil_append,
    List.cons_append, opening, draw_value _ _ _ _ _ _ valueWord.2,
    List.nil_append]

private theorem draw_settings (style : Style) (done : List Setting)
    (settings : List Setting) (nonempty : settings ≠ [])
    (words : ∀ setting ∈ settings,
      IsWord setting.1 ∧ IsWord setting.2) :
    draw ⟨.name done [], style⟩ (settingsText settings ++ [']']) =
      some (⟨.text, style.apply (done ++ settings)⟩, []) := by
  induction settings generalizing done with
  | nil => exact absurd rfl nonempty
  | cons setting rest induction =>
      obtain ⟨nameWord, valueWord⟩ := words setting (by simp)
      cases rest with
      | nil =>
          rw [settingsText, draw_setting _ _ _ nameWord valueWord]
          simp [draw, Pen.step, valueWord.1]
      | cons second rest =>
          have restWords : ∀ other ∈ second :: rest,
              IsWord other.1 ∧ IsWord other.2 :=
            fun other member => words other (by simp [member])
          have tail := induction (done ++ [setting]) (by simp) restWords
          rw [settingsText, List.append_assoc,
            draw_setting _ _ _ nameWord valueWord]
          · simp only [List.cons_append, draw, Pen.step, if_true, valueWord.1,
              if_false, Option.bind_some]
            rw [show done ++ [(setting.1, setting.2)] = done ++ [setting] from rfl,
              tail]
            simp
          · simp

/-- A well-formed directive draws nothing and sets its attributes. -/
theorem Draws.directive (style : Style) {settings : List Setting}
    (nonempty : settings ≠ [])
    (words : ∀ setting ∈ settings,
      IsWord setting.1 ∧ IsWord setting.2) :
    Draws style (directiveText settings) [] (style.apply settings) := by
  have body := draw_settings style [] settings nonempty words
  unfold Draws directiveText
  simp [draw, Pen.step, body]

/-! ## Decorations -/

/-- A text of well-formed directives and of characters that `isSign`
accepts. -/
inductive Decoration (isSign : Char → Prop) : List Char → Prop
  | nil : Decoration isSign []
  | directive {settings : List Setting} {rest : List Char}
      (nonempty : settings ≠ [])
      (words : ∀ setting ∈ settings, IsWord setting.1 ∧ IsWord setting.2)
      (decoration : Decoration isSign rest) :
      Decoration isSign (directiveText settings ++ rest)
  | sign {char : Char} {rest : List Char} (accepted : isSign char)
      (decoration : Decoration isSign rest) : Decoration isSign (char :: rest)

namespace Decoration

variable {isSign : Char → Prop}

theorem append {first second : List Char} (decorationFirst : Decoration isSign first)
    (decorationSecond : Decoration isSign second) :
    Decoration isSign (first ++ second) := by
  induction decorationFirst with
  | nil => exact decorationSecond
  | directive nonempty words _ induction =>
      rw [List.append_assoc]
      exact .directive nonempty words induction
  | sign accepted _ induction => exact .sign accepted induction

theorem of_directive {settings : List Setting} (nonempty : settings ≠ [])
    (words : ∀ setting ∈ settings, IsWord setting.1 ∧ IsWord setting.2) :
    Decoration isSign (directiveText settings) := by
  simpa using Decoration.directive nonempty words .nil

/-- A decoration draws its signs and nothing else. -/
theorem draws {text : List Char} (decoration : Decoration isSign text)
    (plain : ¬ isSign '#') (before : Style) :
    ∃ glyphs after, Draws before text glyphs after ∧
      ∀ glyph ∈ glyphs, isSign glyph.char := by
  induction decoration generalizing before with
  | nil => exact ⟨[], before, Draws.nil before, by simp⟩
  | directive nonempty words _ induction =>
      obtain ⟨glyphs, after, drawn, signs⟩ := induction (before.apply _)
      exact ⟨glyphs, after, (Draws.directive before nonempty words).append drawn, signs⟩
  | @sign char rest accepted _ induction =>
      obtain ⟨glyphs, after, drawn, signs⟩ := induction before
      have charPlain : char ≠ '#' := by
        rintro rfl
        exact plain accepted
      refine ⟨⟨char, before⟩ :: glyphs, after, drawn.cons charPlain, ?_⟩
      intro glyph member
      rcases List.mem_cons.mp member with rfl | member
      · exact accepted
      · exact signs glyph member

/-- A text between two decorations is drawn between signs. -/
theorem draws_around {opening text closing : List Char}
    (decorationOpening : Decoration isSign opening)
    (decorationClosing : Decoration isSign closing) (noDirective : '#' ∉ text)
    (plain : ¬ isSign '#') (before : Style) :
    ∃ glyphs after leading trailing, Draws before (opening ++ text ++ closing) glyphs after ∧
      glyphs.map Glyph.char = leading ++ text ++ trailing ∧
      ∀ char ∈ leading ++ trailing, isSign char := by
  obtain ⟨opened, own, openedDrawn, openedSigns⟩ := decorationOpening.draws plain before
  obtain ⟨closed, after, closedDrawn, closedSigns⟩ := decorationClosing.draws plain own
  have drawn := (openedDrawn.append (Draws.plain own noDirective)).append closedDrawn
  refine ⟨_, after, opened.map Glyph.char, closed.map Glyph.char, drawn, by simp, ?_⟩
  intro char member
  simp only [List.mem_append, List.mem_map] at member
  rcases member with ⟨glyph, inOpened, rfl⟩ | ⟨glyph, inClosed, rfl⟩
  · exact openedSigns glyph inOpened
  · exact closedSigns glyph inClosed

private theorem filter_of_signs [DecidablePred isSign] {leading text trailing : List Char}
    (signs : ∀ char ∈ leading ++ trailing, isSign char) :
    (leading ++ text ++ trailing).filter (fun char => ¬ isSign char) =
      text.filter (fun char => ¬ isSign char) := by
  have noneLeading : leading.filter (fun char => ¬ isSign char) = [] := by
    simpa using fun char member => signs char (List.mem_append_left _ member)
  have noneTrailing : trailing.filter (fun char => ¬ isSign char) = [] := by
    simpa using fun char member => signs char (List.mem_append_right _ member)
  rw [List.filter_append, List.filter_append, noneLeading, noneTrailing,
    List.nil_append, List.append_nil]

/-- The text between two decorations is determined by the whole, up to its
signs. -/
theorem text_unique [DecidablePred isSign]
    {opening text closing otherOpening otherText otherClosing : List Char}
    (decorationOpening : Decoration isSign opening)
    (decorationClosing : Decoration isSign closing) (noDirective : '#' ∉ text)
    (decorationOtherOpening : Decoration isSign otherOpening)
    (decorationOtherClosing : Decoration isSign otherClosing)
    (otherNoDirective : '#' ∉ otherText) (plain : ¬ isSign '#')
    (equal : opening ++ text ++ closing = otherOpening ++ otherText ++ otherClosing) :
    text.filter (fun char => ¬ isSign char) =
      otherText.filter (fun char => ¬ isSign char) := by
  obtain ⟨glyphs, after, leading, trailing, drawn, chars, signs⟩ :=
    decorationOpening.draws_around decorationClosing noDirective plain ⟨[], []⟩
  obtain ⟨otherGlyphs, otherAfter, otherLeading, otherTrailing, otherDrawn, otherChars,
      otherSigns⟩ :=
    decorationOtherOpening.draws_around decorationOtherClosing otherNoDirective plain
      ⟨[], []⟩
  rw [equal] at drawn
  have sameGlyphs := (drawn.unique otherDrawn).1
  have sameChars : leading ++ text ++ trailing =
      otherLeading ++ otherText ++ otherTrailing := by
    rw [← chars, ← otherChars, sameGlyphs]
  rw [← filter_of_signs signs, sameChars, filter_of_signs otherSigns]

end Decoration

end StyledText
