import TmuxMemCpuLoad.StandardOutcome
import Mathlib.Data.List.Basic

/-!
# Strings in arrays

A C string is the part of an array up to a terminator.  A pointer for reading is
given by the cells from it to the end of its array, so that a read beyond the
array finds no cell; writing goes through an index that is checked.  Both are
undefined outside of the array.
-/

namespace CStrings

open StandardCxx

variable {Cell : Type} [DecidableEq Cell]

/-- `array[index] = cell`. -/
def store (array : List Cell) (index : Nat) (cell : Cell) : Outcome (List Cell) :=
  if index < array.length then .ok (array.set index cell) else .error .undefined

/-- `strchr`: the pointer to the first cell that is wanted, and a null pointer
where the terminator comes first. -/
def strchr (terminator wanted : Cell) : List Cell → Outcome (Option (List Cell))
  | [] => .error .undefined
  | cell :: cells =>
      if cell = wanted then .ok (some (cell :: cells))
      else if cell = terminator then .ok none
      else strchr terminator wanted cells

/-- `strcpy( array + index, source )`: cell by cell, up to the terminator and
with it. -/
def strcpy (terminator : Cell) : List Cell → Nat → List Cell → Outcome (List Cell)
  | _, _, [] => .error .undefined
  | array, index, cell :: source => do
      let array ← store array index cell
      if cell = terminator then .ok array
      else strcpy terminator array (index + 1) source

/-- The string at a pointer. -/
def readString (terminator : Cell) : List Cell → Outcome (List Cell)
  | [] => .error .undefined
  | cell :: cells =>
      if cell = terminator then .ok []
      else (readString terminator cells).map (cell :: ·)

omit [DecidableEq Cell] in
theorem store_of_lt {array : List Cell} {index : Nat} (inside : index < array.length)
    (cell : Cell) : store array index cell = .ok (array.set index cell) :=
  if_pos inside

omit [DecidableEq Cell] in
theorem store_of_le {array : List Cell} {index : Nat} (outside : array.length ≤ index)
    (cell : Cell) : store array index cell = .error .undefined :=
  if_neg (by omega)

variable {terminator wanted : Cell}

theorem strchr_found {before : List Cell} (notWanted : wanted ∉ before)
    (notEnd : terminator ∉ before) (after : List Cell) :
    strchr terminator wanted (before ++ wanted :: after) = .ok (some (wanted :: after)) := by
  induction before with
  | nil => simp [strchr]
  | cons cell before ih =>
      simp only [List.mem_cons, not_or] at notWanted notEnd
      rw [List.cons_append, strchr, if_neg (Ne.symm notWanted.1),
        if_neg (Ne.symm notEnd.1)]
      exact ih notWanted.2 notEnd.2

theorem strchr_missing {text : List Cell} (notWanted : wanted ∉ text)
    (notEnd : terminator ∉ text) (distinct : terminator ≠ wanted) (rest : List Cell) :
    strchr terminator wanted (text ++ terminator :: rest) = .ok none := by
  induction text with
  | nil => simp [strchr, distinct]
  | cons cell text ih =>
      simp only [List.mem_cons, not_or] at notWanted notEnd
      rw [List.cons_append, strchr, if_neg (Ne.symm notWanted.1),
        if_neg (Ne.symm notEnd.1)]
      exact ih notWanted.2 notEnd.2

theorem readString_text {text : List Cell} (notEnd : terminator ∉ text)
    (rest : List Cell) : readString terminator (text ++ terminator :: rest) = .ok text := by
  induction text with
  | nil => simp [readString]
  | cons cell text ih =>
      simp only [List.mem_cons, not_or] at notEnd
      rw [List.cons_append, readString, if_neg (Ne.symm notEnd.1), ih notEnd.2]
      rfl

/-- A string that fits with its terminator replaces the cells it is copied to,
and no others. -/
theorem strcpy_of_fits {array text : List Cell} {index : Nat} (notEnd : terminator ∉ text)
    (fits : index + text.length < array.length) (rest : List Cell) :
    strcpy terminator array index (text ++ terminator :: rest) =
      .ok (array.take index ++ (text ++ terminator ::
        array.drop (index + text.length + 1))) := by
  induction text generalizing array index with
  | nil =>
      simp only [List.length_nil, add_zero] at fits
      rw [List.nil_append, strcpy, store_of_lt fits, Outcome.ok_bind, if_pos rfl,
        List.set_eq_take_append_cons_drop, if_pos fits]
      rfl
  | cons cell text ih =>
      simp only [List.length_cons] at fits
      simp only [List.mem_cons, not_or] at notEnd
      have inside : index < array.length := by omega
      have written : (array.set index cell).take (index + 1) = array.take index ++ [cell] := by
        rw [List.take_add_one, List.take_set_of_le (le_refl index)]
        simp [inside]
      have kept : (array.set index cell).drop (index + 1 + text.length + 1) =
          array.drop (index + (text.length + 1) + 1) := by
        rw [List.drop_set_of_lt (by omega)]
        congr 1
        omega
      rw [List.cons_append, strcpy, store_of_lt inside, Outcome.ok_bind,
        if_neg (Ne.symm notEnd.1), ih notEnd.2 (by rw [List.length_set]; omega), written,
        kept]
      simp

/-- A string that does not fit with its terminator is written beyond the
array. -/
theorem strcpy_of_overflow {array text : List Cell} {index : Nat}
    (notEnd : terminator ∉ text) (overflows : array.length ≤ index + text.length)
    (rest : List Cell) :
    strcpy terminator array index (text ++ terminator :: rest) = .error .undefined := by
  induction text generalizing array index with
  | nil => rw [List.nil_append, strcpy, store_of_le (by simpa using overflows)]; rfl
  | cons cell text ih =>
      simp only [List.length_cons] at overflows
      simp only [List.mem_cons, not_or] at notEnd
      rw [List.cons_append, strcpy]
      by_cases inside : index < array.length
      · rw [store_of_lt inside, Outcome.ok_bind, if_neg (Ne.symm notEnd.1)]
        exact ih notEnd.2 (by rw [List.length_set]; omega)
      · rw [store_of_le (by omega)]
        rfl

end CStrings
