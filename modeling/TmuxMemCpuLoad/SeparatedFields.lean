import Mathlib.Data.List.TakeWhile
import Mathlib.Tactic.Common

/-!
# Fields between separators

The fields of a text are its maximal runs of items that are not separators.  A
text is either made of separators only, or starts with some separators, a field
and then a separator or the end; the rules below read the fields off in either
case.
-/

namespace SeparatedFields

variable {Item : Type} (isSeparator : Item → Bool)

def fields (text : List Item) : List (List Item) :=
  (text.splitOnP isSeparator).filter fun field => !field.isEmpty

variable {isSeparator}

theorem fields_cons_separator {item : Item} (separator : isSeparator item = true)
    (text : List Item) : fields isSeparator (item :: text) = fields isSeparator text := by
  simp [fields, List.splitOnP_cons_eq_if_modifyHead, separator]

theorem fields_append_of_separators {leading : List Item}
    (separators : ∀ item ∈ leading, isSeparator item = true) (text : List Item) :
    fields isSeparator (leading ++ text) = fields isSeparator text := by
  induction leading with
  | nil => rfl
  | cons item leading ih =>
      rw [List.cons_append, fields_cons_separator (separators item (by simp))]
      exact ih fun other member => separators other (by simp [member])

theorem fields_of_separators {text : List Item}
    (separators : ∀ item ∈ text, isSeparator item = true) :
    fields isSeparator text = [] := by
  have whole := fields_append_of_separators separators []
  rw [List.append_nil] at whole
  rw [whole]
  rfl

/-- A field ends at a separator or at the end of the text. -/
theorem fields_append_field {field rest : List Item} (nonempty : field ≠ [])
    (apart : ∀ item ∈ field, isSeparator item = false)
    (ends : ∀ item ∈ rest.head?, isSeparator item = true) :
    fields isSeparator (field ++ rest) = field :: fields isSeparator rest := by
  have kept : ∀ others : List (List Item),
      (field :: others).filter (fun field => !field.isEmpty) =
        field :: others.filter fun field => !field.isEmpty := by
    intro others
    simp [nonempty]
  cases rest with
  | nil =>
      rw [List.append_nil, fields, List.splitOnP_eq_singleton apart, kept]
      rfl
  | cons separator rest =>
      have isEnd : isSeparator separator = true := ends separator rfl
      rw [fields_cons_separator isEnd, fields,
        List.splitOnP_append_cons_of_forall_mem apart separator isEnd, kept]
      rfl

/-- The items of a field are items of the text and no separators. -/
theorem mem_fields {text field : List Item} (member : field ∈ fields isSeparator text) :
    field ≠ [] ∧ ∀ item ∈ field, item ∈ text ∧ isSeparator item = false := by
  obtain ⟨inPieces, nonempty⟩ := List.mem_filter.mp member
  refine ⟨by simpa using nonempty, ?_⟩
  clear member nonempty
  induction text generalizing field with
  | nil =>
      rw [List.splitOnP_nil, List.mem_singleton] at inPieces
      simp [inPieces]
  | cons first text ih =>
      rw [List.splitOnP_cons_eq_if_modifyHead] at inPieces
      obtain ⟨piece, pieces, split⟩ :=
        List.exists_cons_of_ne_nil (List.splitOnP_ne_nil isSeparator text)
      rw [split] at inPieces ih
      by_cases separator : isSeparator first = true
      · rw [if_pos separator, List.mem_cons] at inPieces
        rcases inPieces with rfl | later
        · simp
        · exact fun item inField =>
            ⟨List.mem_cons_of_mem _ (ih later item inField).1, (ih later item inField).2⟩
      · rw [if_neg separator, List.modifyHead_cons, List.mem_cons] at inPieces
        rcases inPieces with rfl | later
        · intro item inField
          rcases List.mem_cons.mp inField with rfl | inPiece
          · exact ⟨by simp, by simpa using separator⟩
          · have earlier := ih (List.mem_cons_self ..) item inPiece
            exact ⟨List.mem_cons_of_mem _ earlier.1, earlier.2⟩
        · exact fun item inField =>
            ⟨List.mem_cons_of_mem _ (ih (List.mem_cons_of_mem _ later) item inField).1,
              (ih (List.mem_cons_of_mem _ later) item inField).2⟩

/-- A text is made of separators, or its first field can be split off. -/
theorem separators_or_field (isSeparator : Item → Bool) (text : List Item) :
    (∀ item ∈ text, isSeparator item = true) ∨
    ∃ leading field rest, text = leading ++ (field ++ rest) ∧
      (∀ item ∈ leading, isSeparator item = true) ∧ field ≠ [] ∧
      (∀ item ∈ field, isSeparator item = false) ∧
      ∀ item ∈ rest.head?, isSeparator item = true := by
  by_cases onlySeparators : text.dropWhile isSeparator = []
  · exact Or.inl (List.dropWhile_eq_nil_iff.mp onlySeparators)
  · right
    obtain ⟨first, after, found⟩ := List.exists_cons_of_ne_nil onlySeparators
    have firstKept : isSeparator first = false := by
      have stopped := List.head_dropWhile_not isSeparator onlySeparators
      simpa [found] using stopped
    refine ⟨text.takeWhile isSeparator, (first :: after).takeWhile fun item => !isSeparator item,
      (first :: after).dropWhile fun item => !isSeparator item, ?_, ?_, ?_, ?_, ?_⟩
    · rw [List.takeWhile_append_dropWhile, ← found, List.takeWhile_append_dropWhile]
    · exact fun item member => List.mem_takeWhile_imp member
    · simp [firstKept]
    · intro item member
      simpa using List.mem_takeWhile_imp member
    · intro item member
      have nonempty : (first :: after).dropWhile (fun item => !isSeparator item) ≠ [] := by
        rintro empty
        rw [empty] at member
        cases member
      have stopped := List.head_dropWhile_not (fun item => !isSeparator item) nonempty
      rw [List.head?_eq_some_head nonempty] at member
      cases member
      simpa using stopped

end SeparatedFields
