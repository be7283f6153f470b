import TmuxMemCpuLoad.NumberText

/-!
# Formatted output to a string stream

An `std::ostringstream` is the text written so far and the formatting state:
precision, field width, fill character and the two format fields.  Inserting
anything pads it to the width and sets the width back to zero, so a write in
the wrong place would take the padding meant for another.
-/

namespace StandardCxx

inductive FloatField
  | general
  | fixed
  deriving DecidableEq, Repr

inductive AdjustField
  | unset
  | left
  | right
  deriving DecidableEq, Repr

structure OutputStream where
  written : List Char
  precision : Nat
  width : Nat
  fill : Char
  floatField : FloatField
  adjustField : AdjustField
  deriving DecidableEq

namespace OutputStream

def fresh : OutputStream where
  written := []
  precision := 6
  width := 0
  fill := ' '
  floatField := .general
  adjustField := .unset

def setPrecision (stream : OutputStream) (precision : Nat) : OutputStream :=
  { stream with precision := precision }

def setWidth (stream : OutputStream) (width : Nat) : OutputStream :=
  { stream with width := width }

def setFill (stream : OutputStream) (fill : Char) : OutputStream :=
  { stream with fill := fill }

/-- `setf( std::ios::fixed, std::ios::floatfield )`. -/
def setFixed (stream : OutputStream) : OutputStream :=
  { stream with floatField := .fixed }

/-- `<< std::right`. -/
def setRight (stream : OutputStream) : OutputStream :=
  { stream with adjustField := .right }

/-- A text padded to the width of the stream. -/
def padded (stream : OutputStream) (text : List Char) : List Char :=
  let padding := List.replicate (stream.width - text.length) stream.fill
  match stream.adjustField with
  | .left => text ++ padding
  | .unset | .right => padding ++ text

def put (stream : OutputStream) (text : List Char) : OutputStream :=
  { stream with written := stream.written ++ stream.padded text, width := 0 }

def putChar (stream : OutputStream) (char : Char) : OutputStream :=
  stream.put [char]

def putUnsigned (stream : OutputStream) (value : Nat) : OutputStream :=
  stream.put (unsignedText value)

/-- Text of a `float` in the notation and precision of the stream. -/
def floatText (stream : OutputStream) (value : ℚ) : List Char :=
  match stream.floatField with
  | .general => generalText stream.precision value
  | .fixed => fixedText stream.precision value

def putFloat (stream : OutputStream) (value : ℚ) : OutputStream :=
  stream.put (stream.floatText value)

/-! ## Writing without a field width -/

/-- The stream after a text that needs no padding. -/
def append (stream : OutputStream) (text : List Char) : OutputStream :=
  { stream with written := stream.written ++ text }

@[simp]
theorem append_written (stream : OutputStream) (text : List Char) :
    (stream.append text).written = stream.written ++ text :=
  rfl

@[simp]
theorem append_width (stream : OutputStream) (text : List Char) :
    (stream.append text).width = stream.width :=
  rfl

@[simp]
theorem append_append (stream : OutputStream) (first second : List Char) :
    (stream.append first).append second = stream.append (first ++ second) := by
  simp [append]

@[simp]
theorem append_nil (stream : OutputStream) : stream.append [] = stream := by
  simp [append]

/-- With width zero an insertion changes nothing but the text. -/
theorem put_eq_append {stream : OutputStream} (noWidth : stream.width = 0)
    (text : List Char) : stream.put text = stream.append text := by
  cases field : stream.adjustField <;>
    simp [put, append, padded, noWidth, field]

@[simp]
theorem put_width (stream : OutputStream) (text : List Char) :
    (stream.put text).width = 0 :=
  rfl

/-! ## Output already in the stream -/

/-- The same formatting state on a stream that already holds `before`. -/
def onto (before : List Char) (stream : OutputStream) : OutputStream :=
  { stream with written := before ++ stream.written }

@[simp]
theorem onto_written (before : List Char) (stream : OutputStream) :
    (onto before stream).written = before ++ stream.written :=
  rfl

@[simp]
theorem onto_width (before : List Char) (stream : OutputStream) :
    (onto before stream).width = stream.width :=
  rfl

/-- A formatted operation looks at the formatting state only, and so does not
depend on what has been written before it. -/
def Oblivious (operation : OutputStream → OutputStream) : Prop :=
  ∀ before stream, operation (onto before stream) = onto before (operation stream)

theorem oblivious_id : Oblivious id :=
  fun _ _ => rfl

theorem Oblivious.comp {first second : OutputStream → OutputStream}
    (firstOblivious : Oblivious first) (secondOblivious : Oblivious second) :
    Oblivious fun stream => second (first stream) := by
  intro before stream
  simp only [firstOblivious before stream, secondOblivious before (first stream)]

theorem oblivious_put (text : List Char) : Oblivious fun stream => stream.put text := by
  intro before stream
  simp [put, onto, padded]

theorem oblivious_putChar (char : Char) : Oblivious fun stream => stream.putChar char :=
  oblivious_put [char]

theorem oblivious_putUnsigned (value : Nat) :
    Oblivious fun stream => stream.putUnsigned value :=
  oblivious_put (unsignedText value)

theorem oblivious_putFloat (value : ℚ) : Oblivious fun stream => stream.putFloat value :=
  fun before stream => oblivious_put (stream.floatText value) before stream

theorem oblivious_setWidth (width : Nat) : Oblivious fun stream => stream.setWidth width :=
  fun _ _ => rfl

theorem oblivious_setPrecision (precision : Nat) :
    Oblivious fun stream => stream.setPrecision precision :=
  fun _ _ => rfl

theorem oblivious_setFill (fill : Char) : Oblivious fun stream => stream.setFill fill :=
  fun _ _ => rfl

theorem oblivious_setFixed : Oblivious setFixed :=
  fun _ _ => rfl

theorem oblivious_setRight : Oblivious setRight :=
  fun _ _ => rfl

theorem onto_eq_append_of_written_nil {stream : OutputStream}
    (empty : stream.written = []) (before : List Char) :
    onto before stream = stream.append before := by
  simp [onto, append, empty]

/-! ## The characters of the output -/

section Characters

variable {allowed : Char → Prop}

/-- Everything written so far, and everything that padding may add, consists
of allowed characters, and numbers are written in fixed notation. -/
structure WritesOnly (allowed : Char → Prop) (stream : OutputStream) : Prop where
  written : ∀ char ∈ stream.written, allowed char
  fill : allowed stream.fill
  fixed : stream.floatField = .fixed

theorem WritesOnly.put {stream : OutputStream} (writes : WritesOnly allowed stream)
    {text : List Char} (textAllowed : ∀ char ∈ text, allowed char) :
    WritesOnly allowed (stream.put text) where
  written := by
    have padding : ∀ char ∈ stream.padded text, allowed char := by
      intro char member
      have cases : char ∈ text ∨
          char ∈ List.replicate (stream.width - text.length) stream.fill := by
        unfold padded at member
        split at member <;> simpa [or_comm] using member
      rcases cases with inText | inPadding
      · exact textAllowed char inText
      · rw [List.eq_of_mem_replicate inPadding]
        exact writes.fill
    intro char member
    rcases List.mem_append.mp member with before | after
    · exact writes.written char before
    · exact padding char after
  fill := writes.fill
  fixed := writes.fixed

theorem WritesOnly.putChar {stream : OutputStream}
    (writes : WritesOnly allowed stream) {char : Char} (charAllowed : allowed char) :
    WritesOnly allowed (stream.putChar char) :=
  writes.put fun _ member => List.mem_singleton.mp member ▸ charAllowed

variable (numbers : ∀ char, FixedChar char → allowed char)

include numbers

theorem WritesOnly.putUnsigned {stream : OutputStream}
    (writes : WritesOnly allowed stream) (value : Nat) :
    WritesOnly allowed (stream.putUnsigned value) :=
  writes.put fun char member => numbers char (fixedChar_of_mem_unsignedText member)

theorem WritesOnly.putFloat {stream : OutputStream}
    (writes : WritesOnly allowed stream) (value : ℚ) :
    WritesOnly allowed (stream.putFloat value) := by
  apply writes.put
  intro char member
  rw [floatText, writes.fixed] at member
  exact numbers char (fixedChar_of_mem_fixedText member)

end Characters

end OutputStream

end StandardCxx
