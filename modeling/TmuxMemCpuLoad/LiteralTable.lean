import Mathlib.Tactic.Common

/-!
# Tables of string literals

A reader for the declaration of an array of character arrays in C, whose
initializer lists string literals without escapes.  It takes the declaration
off the front of a text and accepts only literals that fit their cells with the
character that ends them.  A header is read as the declarations between the
lines of its include guard; nothing else may stand there but blanks and
comments.
-/

namespace LiteralTable

def quote : Char := Char.ofNat 34

def backslash : Char := Char.ofNat 92

def newline : Char := Char.ofNat 10

/-- Where the reader of an initializer stands: before a literal, in the text of
one, or after one. -/
inductive Position
  | before
  | within (read : List Char)
  | after
  deriving DecidableEq, Repr

/-- The literals up to the closing brace, and what follows it. -/
def readEntries : Position → List (List Char) → List Char →
    Option (List (List Char) × List Char)
  | _, _, [] => none
  | .before, entries, char :: rest =>
      if char = quote then readEntries (.within []) entries rest
      else if char = '}' then some (entries, rest)
      else if char = ' ' ∨ char = newline then readEntries .before entries rest
      else none
  | .within read, entries, char :: rest =>
      if char = quote then readEntries .after (entries ++ [read]) rest
      else if char = backslash ∨ char = newline then none
      else readEntries (.within (read ++ [char])) entries rest
  | .after, entries, char :: rest =>
      if char = ',' then readEntries .before entries rest
      else if char = '}' then some (entries, rest)
      else if char = ' ' ∨ char = newline then readEntries .after entries rest
      else none

/-- What follows an expected text. -/
def afterText : List Char → List Char → Option (List Char)
  | [], text => some text
  | _ :: _, [] => none
  | expected :: more, char :: text => if char = expected then afterText more text else none

structure Declaration where
  name : List Char
  cellSize : Nat
  entries : List (List Char)
  deriving DecidableEq, Repr

/-- What stands before the name of an array. -/
def staticText : List Char :=
  "static const char ".toList

/-- What stands between the name of an array and its literals. -/
def openingText (sizeText : List Char) : List Char :=
  '[' :: ("][".toList ++ sizeText ++ "] = \x7b".toList)

/-- Letters, digits and underscores, of which the first is no digit. -/
def isIdentifier : List Char → Bool
  | [] => false
  | char :: rest =>
      (char.isAlpha || char == '_') && rest.all fun char => char.isAlphanum || char == '_'

/-- `static const char NAME[][SIZE] = { ... };`, for the given size of a cell. -/
def readDeclaration (cellSize : Nat) (sizeText text : List Char) :
    Option (Declaration × List Char) := do
  let text ← afterText staticText text
  let name := text.takeWhile (· ≠ '[')
  let text ← afterText (openingText sizeText) (text.drop name.length)
  let (entries, text) ← readEntries .before [] text
  let text ← afterText [';'] text
  if isIdentifier name ∧ ∀ entry ∈ entries, entry.length < cellSize then
    some (⟨name, cellSize, entries⟩, text)
  else none

/-- What follows the end of a line, which no backslash continues. -/
def afterLine : List Char → Option (List Char)
  | [] => none
  | char :: text =>
      if char = newline then some text
      else if char = backslash then none
      else afterLine text

/-- The lines of an include guard, up to the name that is guarded with. -/
def ifndefText : List Char := "#ifndef ".toList

def defineText : List Char := "#define ".toList

def endifText : List Char := "#endif".toList

/-- The declarations up to the end of the include guard, with which the text
ends.  Blanks and comments are skipped. -/
def readDeclarations (cellSize : Nat) (sizeText : List Char) :
    Nat → List Char → Option (List Declaration)
  | 0, _ => none
  | _ + 1, [] => none
  | fuel + 1, char :: text =>
      if char = ' ' ∨ char = newline then readDeclarations cellSize sizeText fuel text
      else if char = '/' then do
        let text ← afterText ['/'] text
        let text ← afterLine text
        readDeclarations cellSize sizeText fuel text
      else if char = '#' then
        if char :: text = endifText ++ [newline] then some [] else none
      else do
        let (declaration, text) ← readDeclaration cellSize sizeText (char :: text)
        let declarations ← readDeclarations cellSize sizeText fuel text
        some (declaration :: declarations)

/-- A header and the name that it is guarded with. -/
structure Header where
  guardName : List Char
  declarations : List Declaration
  deriving DecidableEq, Repr

def readHeader (cellSize : Nat) (sizeText text : List Char) : Option Header := do
  let text ← afterText ifndefText text
  let guardName := text.takeWhile (· ≠ newline)
  let text ← afterText (newline :: (defineText ++ guardName ++ [newline]))
    (text.drop guardName.length)
  let declarations ← readDeclarations cellSize sizeText (text.length + 1) text
  if isIdentifier guardName then some ⟨guardName, declarations⟩ else none

/-- A text that a literal holds as it stands. -/
def Plain (text : List Char) : Prop :=
  ∀ char ∈ text, char ≠ quote ∧ char ≠ backslash ∧ char ≠ newline

theorem afterText_append (expected text : List Char) :
    afterText expected (expected ++ text) = some text := by
  induction expected with
  | nil => rfl
  | cons char expected induction => simp [afterText, induction]

theorem readEntries_within {text : List Char} (plain : Plain text) (read : List Char)
    (entries : List (List Char)) (rest : List Char) :
    readEntries (.within read) entries (text ++ quote :: rest) =
      readEntries .after (entries ++ [read ++ text]) rest := by
  induction text generalizing read with
  | nil => simp [readEntries]
  | cons char text induction =>
      obtain ⟨notQuote, notBackslash, notNewline⟩ := plain char (by simp)
      have textPlain : Plain text := fun other member => plain other (by simp [member])
      rw [List.cons_append, readEntries, if_neg notQuote, if_neg (by simp [*]),
        induction textPlain]
      simp

theorem readEntries_literal {text : List Char} (plain : Plain text)
    (entries : List (List Char)) (rest : List Char) :
    readEntries .before entries (quote :: (text ++ quote :: rest)) =
      readEntries .after (entries ++ [text]) rest := by
  rw [readEntries, if_pos rfl, readEntries_within plain, List.nil_append]

theorem readEntries_before_newline (entries : List (List Char)) (rest : List Char) :
    readEntries .before entries (newline :: rest) = readEntries .before entries rest := by
  simp [readEntries, newline, quote]

theorem readEntries_after_newline (entries : List (List Char)) (rest : List Char) :
    readEntries .after entries (newline :: rest) = readEntries .after entries rest := by
  simp [readEntries, newline]

/-- A line of a literal and a comma. -/
def entryLine (entry : List Char) : List Char :=
  quote :: (entry ++ [quote, ',', newline])

theorem readEntries_entryLines {lines : List (List Char)} (plain : ∀ entry ∈ lines, Plain entry)
    (entries : List (List Char)) (rest : List Char) :
    readEntries .before entries (lines.flatMap entryLine ++ rest) =
      readEntries .before (entries ++ lines) rest := by
  induction lines generalizing entries with
  | nil => simp
  | cons entry lines induction =>
      have linesPlain : ∀ other ∈ lines, Plain other := fun other member =>
        plain other (by simp [member])
      have line : (entry :: lines).flatMap entryLine ++ rest =
          quote :: (entry ++ quote :: ',' :: newline :: (lines.flatMap entryLine ++ rest)) := by
        simp [entryLine]
      rw [line, readEntries_literal (plain entry (by simp)), readEntries, if_pos rfl,
        readEntries_before_newline, induction linesPlain, List.append_assoc]
      rfl

/-- The lines of a list of literals, the last of them without a comma. -/
def entryLines (entries : List (List Char)) (last : List Char) : List Char :=
  entries.flatMap entryLine ++ quote :: (last ++ [quote, newline])

theorem readEntries_entryLines_close {entries : List (List Char)} {last : List Char}
    (plain : ∀ entry ∈ entries, Plain entry) (lastPlain : Plain last) (rest : List Char) :
    readEntries .before [] (newline :: (entryLines entries last ++ '}' :: rest)) =
      some (entries ++ [last], rest) := by
  have lines : entryLines entries last ++ '}' :: rest =
      entries.flatMap entryLine ++ quote :: (last ++ quote :: newline :: '}' :: rest) := by
    simp [entryLines]
  rw [readEntries_before_newline, lines, readEntries_entryLines plain,
    readEntries_literal lastPlain, readEntries_after_newline]
  rfl

theorem takeWhile_of_not_mem {stop : Char} {name : List Char} (ends : stop ∉ name)
    (rest : List Char) : (name ++ stop :: rest).takeWhile (· ≠ stop) = name := by
  have inside : ∀ char ∈ name, decide (char ≠ stop) = true := by
    intro char member
    have other : char ≠ stop := fun equal => ends (equal ▸ member)
    simpa using other
  rw [List.takeWhile_append_of_pos inside]
  simp

theorem not_mem_of_isIdentifier {name : List Char} (identifier : isIdentifier name)
    {char : Char} (other : (char.isAlphanum || char == '_') = false) : char ∉ name := by
  cases name with
  | nil => simp
  | cons first rest =>
      simp only [isIdentifier, Bool.and_eq_true, List.all_eq_true] at identifier
      obtain ⟨starts, rests⟩ := identifier
      intro member
      rcases List.mem_cons.mp member with rfl | later
      · simp_all [Char.isAlphanum]
      · simp_all

/-- A declaration as a generator writes it. -/
def declarationText (sizeText name : List Char) (entries : List (List Char))
    (last : List Char) : List Char :=
  staticText ++ (name ++ (openingText sizeText ++
    newline :: (entryLines entries last ++ ['}', ';'])))

theorem readDeclaration_declarationText {cellSize : Nat} {sizeText name : List Char}
    {entries : List (List Char)} {last : List Char} (identifier : isIdentifier name)
    (plain : ∀ entry ∈ entries, Plain entry) (lastPlain : Plain last)
    (short : ∀ entry ∈ entries ++ [last], entry.length < cellSize) (rest : List Char) :
    readDeclaration cellSize sizeText (declarationText sizeText name entries last ++ rest) =
      some (⟨name, cellSize, entries ++ [last]⟩, rest) := by
  have text : declarationText sizeText name entries last ++ rest =
      staticText ++ (name ++ (openingText sizeText ++
        newline :: (entryLines entries last ++ '}' :: ';' :: rest))) := by
    simp only [declarationText, List.append_assoc, List.cons_append, List.nil_append]
  have named : (name ++ (openingText sizeText ++
      newline :: (entryLines entries last ++ '}' :: ';' :: rest))).takeWhile (· ≠ '[') = name := by
    rw [openingText, List.cons_append]
    exact takeWhile_of_not_mem (not_mem_of_isIdentifier identifier (by decide)) _
  rw [text, readDeclaration, afterText_append, Option.bind_eq_bind, Option.bind_some]
  simp only [named, List.drop_left, afterText_append, Option.bind_eq_bind, Option.bind_some,
    readEntries_entryLines_close plain lastPlain]
  simp only [afterText, if_true, Option.bind_some, if_pos (And.intro identifier short)]

/-! ## Headers -/

section File

variable {cellSize : Nat} {sizeText : List Char}

theorem afterLine_append {line : List Char} (inLine : ∀ char ∈ line, char ≠ newline ∧
    char ≠ backslash) (rest : List Char) : afterLine (line ++ newline :: rest) = some rest := by
  induction line with
  | nil => simp [afterLine]
  | cons char line induction =>
      obtain ⟨notNewline, notBackslash⟩ := inLine char (by simp)
      rw [List.cons_append, afterLine, if_neg notNewline, if_neg notBackslash]
      exact induction fun other member => inLine other (by simp [member])

theorem readDeclarations_blank {blank : Char} (isBlank : blank = ' ' ∨ blank = newline)
    (fuel : Nat) (rest : List Char) :
    readDeclarations cellSize sizeText (fuel + 1) (blank :: rest) =
      readDeclarations cellSize sizeText fuel rest := by
  rw [readDeclarations, if_pos isBlank]

theorem readDeclarations_comment {comment : List Char} (inLine : ∀ char ∈ comment,
    char ≠ newline ∧ char ≠ backslash) (fuel : Nat) (rest : List Char) :
    readDeclarations cellSize sizeText (fuel + 1) ('/' :: '/' :: (comment ++ newline :: rest)) =
      readDeclarations cellSize sizeText fuel rest := by
  rw [readDeclarations, if_neg (by decide), if_pos rfl]
  simp [afterText, afterLine_append inLine]

theorem readDeclarations_endif (fuel : Nat) :
    readDeclarations cellSize sizeText (fuel + 1) (endifText ++ [newline]) = some [] := by
  obtain ⟨more, starts⟩ : ∃ more, endifText ++ [newline] = '#' :: more := ⟨_, rfl⟩
  rw [starts, readDeclarations, if_neg (by decide), if_neg (by decide), if_pos rfl, ← starts,
    if_pos rfl]

theorem readDeclarations_declarationText {name : List Char} {entries : List (List Char)}
    {last : List Char} (identifier : isIdentifier name) (plain : ∀ entry ∈ entries, Plain entry)
    (lastPlain : Plain last) (short : ∀ entry ∈ entries ++ [last], entry.length < cellSize)
    (fuel : Nat) (rest : List Char) :
    readDeclarations cellSize sizeText (fuel + 1)
        (declarationText sizeText name entries last ++ rest) =
      (readDeclarations cellSize sizeText fuel rest).map
        fun declarations => ⟨name, cellSize, entries ++ [last]⟩ :: declarations := by
  have reads : readDeclaration cellSize sizeText
      (declarationText sizeText name entries last ++ rest) =
        some (⟨name, cellSize, entries ++ [last]⟩, rest) :=
    readDeclaration_declarationText identifier plain lastPlain short rest
  obtain ⟨more, starts⟩ : ∃ more,
      declarationText sizeText name entries last ++ rest = 's' :: more := ⟨_, rfl⟩
  rw [starts] at reads ⊢
  rw [readDeclarations, if_neg (by decide), if_neg (by decide), if_neg (by decide), reads]
  simp only [Option.bind_eq_bind, Option.bind_some]
  cases readDeclarations cellSize sizeText fuel rest <;> rfl

theorem readHeader_of_declarations {guardName text : List Char} {declarations : List Declaration}
    (identifier : isIdentifier guardName)
    (reads : readDeclarations cellSize sizeText (text.length + 1) text = some declarations) :
    readHeader cellSize sizeText (ifndefText ++ (guardName ++ newline :: (defineText ++
      (guardName ++ newline :: text)))) = some ⟨guardName, declarations⟩ := by
  have named : (guardName ++ newline :: (defineText ++ (guardName ++ newline :: text))).takeWhile
      (· ≠ newline) = guardName :=
    takeWhile_of_not_mem (not_mem_of_isIdentifier identifier (by decide)) _
  have line : newline :: (defineText ++ (guardName ++ newline :: text)) =
      newline :: (defineText ++ guardName ++ [newline]) ++ text := by
    simp
  rw [readHeader, afterText_append]
  simp only [Option.bind_eq_bind, Option.bind_some, named, List.drop_left]
  rw [line, afterText_append]
  simp only [Option.bind_some, reads, if_pos identifier]

end File

end LiteralTable
