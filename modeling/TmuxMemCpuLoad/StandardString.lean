import TmuxMemCpuLoad.StandardOutcome
import Mathlib.Data.List.TakeWhile
import Mathlib.Tactic.Common

/-!
# Searching and reading C++ strings

`std::string` positions are 64-bit numbers with the largest one, `npos`, for
"not found".  The searches, `substr` and the decimal conversions below follow
the standard; the lemmas say where a search ends on a string that is given as
a concatenation.
-/

namespace StandardCxx

def npos : Nat := 2 ^ 64 - 1

/-- A `std::string`.  No string is longer than `max_size()`, so that every
position and every length is below `npos`. -/
structure CxxString where
  chars : List Char
  length_lt : chars.length < 2 ^ 63
  deriving DecidableEq

def CxxString.empty : CxxString := ⟨[], by decide⟩

/-- First position at or after `position` whose character is accepted. -/
def findFrom (accept : Char → Bool) (chars : List Char) (position : Nat) : Nat :=
  match (chars.drop position).findIdx? accept with
  | some offset => position + offset
  | none => npos

namespace CxxString

def findFirstOf (string : CxxString) (set : List Char) (position : Nat) : Nat :=
  findFrom (fun char => set.contains char) string.chars position

def findFirstNotOf (string : CxxString) (set : List Char) (position : Nat) : Nat :=
  findFrom (fun char => !set.contains char) string.chars position

/-- `substr( position, length )`: at most `length` characters, fewer at the
end of the string. -/
def substr (string : CxxString) (position length : Nat) : Outcome CxxString :=
  if position ≤ string.chars.length then
    .ok ⟨(string.chars.drop position).take length, by
      have := string.length_lt
      simp only [List.length_take, List.length_drop]
      omega⟩
  else
    .error .outOfRange

theorem length_lt_npos (string : CxxString) : string.chars.length < npos := by
  have := string.length_lt
  unfold npos
  omega

end CxxString

theorem findFrom_of_drop (accept : Char → Bool) {chars skipped rest : List Char}
    {position : Nat} {found : Char}
    (suffix : chars.drop position = skipped ++ found :: rest)
    (rejected : ∀ char ∈ skipped, accept char = false)
    (accepted : accept found = true) :
    findFrom accept chars position = position + skipped.length := by
  have skippedNone : skipped.findIdx? accept = none := by
    simpa [List.findIdx?_eq_none_iff] using rejected
  simp [findFrom, suffix, List.findIdx?_append, skippedNone,
    List.findIdx?_cons, accepted]

theorem findFrom_eq_npos {accept : Char → Bool} {chars : List Char}
    {position : Nat}
    (rejected : ∀ char ∈ chars.drop position, accept char = false) :
    findFrom accept chars position = npos := by
  have none : (chars.drop position).findIdx? accept = none := by
    simpa [List.findIdx?_eq_none_iff] using rejected
  simp [findFrom, none]

theorem findFrom_le_npos (accept : Char → Bool) {chars : List Char}
    (bounded : chars.length ≤ npos) (position : Nat) :
    findFrom accept chars position ≤ npos := by
  unfold findFrom
  cases found : (chars.drop position).findIdx? accept with
  | none => exact Nat.le_refl npos
  | some offset =>
      obtain ⟨inside, _⟩ := List.findIdx?_eq_some_iff_getElem.mp found
      simp only [List.length_drop] at inside
      show position + offset ≤ npos
      omega

/-- A search ends after the characters that it rejects. -/
theorem le_findFrom {accept : Char → Bool} {front : List Char} (rest : List Char)
    (rejected : ∀ char ∈ front, accept char = false) (bounded : front.length ≤ npos) :
    front.length ≤ findFrom accept (front ++ rest) 0 := by
  unfold findFrom
  cases found : ((front ++ rest).drop 0).findIdx? accept with
  | none => exact bounded
  | some offset =>
      rw [List.drop_zero] at found
      obtain ⟨inside, accepted, _⟩ := List.findIdx?_eq_some_iff_getElem.mp found
      show front.length ≤ 0 + offset
      by_contra early
      have inFront : offset < front.length := by omega
      rw [List.getElem_append_left inFront] at accepted
      have refused := rejected _ (List.getElem_mem inFront)
      rw [accepted] at refused
      cases refused

/-- What follows the place where a search ends; nothing where it fails. -/
theorem drop_findFrom (accept : Char → Bool) {chars : List Char}
    (bounded : chars.length ≤ npos) (position : Nat) :
    chars.drop (findFrom accept chars position) =
      (chars.drop position).dropWhile fun char => !accept char := by
  unfold findFrom
  cases found : (chars.drop position).findIdx? accept with
  | none =>
      have rejected : ∀ char ∈ chars.drop position, (!accept char) = true := by
        simpa [List.findIdx?_eq_none_iff] using found
      rw [List.dropWhile_eq_nil_iff.mpr rejected, List.drop_eq_nil_of_le bounded]
  | some offset =>
      obtain ⟨inside, accepted, before⟩ := List.findIdx?_eq_some_iff_getElem.mp found
      rw [← List.drop_drop]
      generalize chars.drop position = rest at inside accepted before ⊢
      have skipped : ∀ char ∈ rest.take offset, (!accept char) = true := by
        intro char member
        obtain ⟨index, bound, rfl⟩ := List.mem_iff_getElem.mp member
        have earlier : index < offset := by
          simp only [List.length_take] at bound
          omega
        simpa using before index earlier
      have split : rest = rest.take offset ++ rest[offset] :: rest.drop (offset + 1) := by
        rw [← List.drop_eq_getElem_cons inside, List.take_append_drop]
      calc
        rest.drop offset = rest[offset] :: rest.drop (offset + 1) :=
          List.drop_eq_getElem_cons inside
        _ = (rest[offset] :: rest.drop (offset + 1)).dropWhile fun char => !accept char := by
          rw [List.dropWhile_cons_of_neg (by simpa using accepted)]
        _ = rest.dropWhile fun char => !accept char := by
          conv_rhs => rw [split, List.dropWhile_append_of_pos skipped]

theorem le_length_of_drop_eq_append {chars word rest : List Char} {position : Nat}
    (suffix : chars.drop position = word ++ rest) (nonempty : word ≠ []) :
    position ≤ chars.length := by
  by_contra beyond
  rw [List.drop_eq_nil_of_le (by omega)] at suffix
  simp [nonempty] at suffix

/-- Skipping blanks leads to the word after them. -/
theorem CxxString.findFirstNotOf_blank {string : CxxString} {position blanks : Nat}
    {word rest : List Char}
    (suffix : string.chars.drop position = List.replicate blanks ' ' ++ (word ++ rest))
    (nonempty : word ≠ []) (noBlank : ∀ char ∈ word, char ≠ ' ') :
    string.findFirstNotOf [' '] position = position + blanks ∧
      string.chars.drop (position + blanks) = word ++ rest := by
  constructor
  · obtain ⟨head, tail, rfl⟩ := List.exists_cons_of_ne_nil nonempty
    have headKept : head ≠ ' ' := noBlank head (by simp)
    have found := findFrom_of_drop (fun char => !([' '].contains char)) suffix
      (by simp) (by simpa using headKept)
    rw [List.length_replicate] at found
    exact found
  · rw [← List.drop_drop, suffix]
    simp

/-! ## Decimal conversions -/

/-- `isspace` in the C locale. -/
def isSpace (char : Char) : Bool :=
  [' ', '\t', '\n', '\x0b', '\x0c', '\r'].contains char

/-- An optional sign and the characters after it. -/
def splitSign : List Char → Bool × List Char
  | '-' :: rest => (true, rest)
  | '+' :: rest => (false, rest)
  | chars => (false, chars)

/-- Value of a run of decimal digits, most significant first. -/
def digitsValue (digits : List Char) : Nat :=
  Nat.ofDigitChars 10 digits 0

/-- The subject sequence of `strtol` in base ten: leading space, an optional
sign, and the longest run of digits.  `none` when there is no digit. -/
def scanInteger (chars : List Char) : Option Int :=
  let signed := splitSign (chars.dropWhile isSpace)
  let digits := signed.2.takeWhile Char.isDigit
  if digits = [] then none
  else if signed.1 then some (-(digitsValue digits : Int))
  else some (digitsValue digits)

/-- `std::stoll`, and `std::stol` where `long` has 64 bits. -/
def stoll (chars : List Char) : Outcome Int :=
  match scanInteger chars with
  | none => .error .invalidArgument
  | some value =>
    if -2 ^ 63 ≤ value ∧ value < 2 ^ 63 then .ok value else .error .outOfRange

/-- Every failure of `stoll` is an exception. -/
theorem stoll_ne_undefined (chars : List Char) : stoll chars ≠ .error .undefined := by
  unfold stoll
  split
  · simp
  · split_ifs <;> simp

/-- `atoi`: `strtol`, which saturates at the range of `long`, narrowed to
`int`; zero when there is no digit. -/
def atoi (chars : List Char) : Int :=
  match scanInteger chars with
  | none => 0
  | some value => Int.bmod (max (-2 ^ 63) (min value (2 ^ 63 - 1))) (2 ^ 32)

def NoDigitHead (chars : List Char) : Prop :=
  ∀ char ∈ chars.head?, char.isDigit = false

theorem takeWhile_isDigit_append (digits : List Char) {more : List Char}
    (stops : NoDigitHead more) :
    (digits ++ more).takeWhile Char.isDigit = digits.takeWhile Char.isDigit := by
  have moreNone : more.takeWhile Char.isDigit = [] := by
    cases more with
    | nil => rfl
    | cons char more =>
        have notDigit : char.isDigit = false := stops char rfl
        simp [notDigit]
  rw [List.takeWhile_append, moreNone, List.append_nil]
  split_ifs with all
  · exact (List.takeWhile_prefix _).eq_of_length all |>.symm
  · rfl

/-- Where a number ends, it is determined by the text. -/
theorem toDigits_append_unique {first second : Nat} {rest other : List Char}
    (stops : NoDigitHead rest) (otherStops : NoDigitHead other)
    (equal : Nat.toDigits 10 first ++ rest = Nat.toDigits 10 second ++ other) :
    first = second ∧ rest = other := by
  have scanned : ∀ value : Nat,
      (Nat.toDigits 10 value).takeWhile Char.isDigit = Nat.toDigits 10 value := by
    intro value
    apply List.takeWhile_eq_self_iff.mpr
    exact fun char member => Nat.isDigit_of_mem_toDigits (by decide) (by decide) member
  have digits : Nat.toDigits 10 first = Nat.toDigits 10 second := by
    have heads := congrArg (List.takeWhile Char.isDigit) equal
    rwa [takeWhile_isDigit_append _ stops, takeWhile_isDigit_append _ otherStops,
      scanned, scanned] at heads
  have same : first = second := by
    rw [← Nat.ofDigitChars_ten_toDigits (n := first), digits,
      Nat.ofDigitChars_ten_toDigits]
  rw [digits] at equal
  exact ⟨same, List.append_cancel_left equal⟩

/-- Reading an integer depends on the word it starts in only. -/
theorem scanInteger_append {word more : List Char} (nonempty : word ≠ [])
    (noSpace : ∀ char ∈ word, isSpace char = false) (stops : NoDigitHead more) :
    scanInteger (word ++ more) = scanInteger word := by
  cases word with
  | nil => exact absurd rfl nonempty
  | cons first rest =>
      have firstKept : isSpace first = false := noSpace first (by simp)
      have signs : (splitSign (first :: (rest ++ more))).1 = (splitSign (first :: rest)).1 ∧
          (splitSign (first :: (rest ++ more))).2 =
            (splitSign (first :: rest)).2 ++ more := by
        unfold splitSign
        split <;> split <;> simp_all
      unfold scanInteger
      rw [List.cons_append, List.dropWhile_cons_of_neg (by simp [firstKept]),
        List.dropWhile_cons_of_neg (by simp [firstKept])]
      simp only [signs.1, signs.2, takeWhile_isDigit_append _ stops]

theorem stoll_append {word more : List Char} (nonempty : word ≠ [])
    (noSpace : ∀ char ∈ word, isSpace char = false) (stops : NoDigitHead more) :
    stoll (word ++ more) = stoll word := by
  rw [stoll, stoll, scanInteger_append nonempty noSpace stops]

theorem NoDigitHead.take {rest : List Char} (stops : NoDigitHead rest) (count : Nat) :
    NoDigitHead (rest.take count) := by
  intro char member
  cases rest with
  | nil => simp at member
  | cons head tail =>
      cases count with
      | zero => simp at member
      | succ count => exact stops char (by simpa using member)

/-- A word is read although more than it may be handed to `stoll`. -/
theorem CxxString.stoll_substr {string : CxxString} {position length : Nat}
    {word rest : List Char} (suffix : string.chars.drop position = word ++ rest)
    (nonempty : word ≠ []) (noSpace : ∀ char ∈ word, isSpace char = false)
    (stops : NoDigitHead rest) (covers : word.length ≤ length) :
    ∃ field, string.substr position length = .ok field ∧
      stoll field.chars = stoll word := by
  have inside := le_length_of_drop_eq_append suffix nonempty
  refine ⟨_, if_pos inside, ?_⟩
  show stoll ((string.chars.drop position).take length) = stoll word
  rw [suffix, List.take_append, List.take_of_length_le covers]
  exact stoll_append nonempty noSpace (stops.take _)

theorem isSpace_of_isDigit {char : Char} (digit : char.isDigit = true) :
    isSpace char = false := by
  rw [← Bool.not_eq_true]
  intro space
  simp only [isSpace, List.contains_iff_mem, List.mem_cons, List.not_mem_nil,
    or_false] at space
  rcases space with rfl | rfl | rfl | rfl | rfl | rfl <;> revert digit <;> decide

theorem scanInteger_of_digits {digits : List Char} (nonempty : digits ≠ [])
    (all : ∀ char ∈ digits, char.isDigit = true) :
    scanInteger digits = some (digitsValue digits : Int) := by
  have noSpace : digits.dropWhile isSpace = digits := by
    cases digits with
    | nil => rfl
    | cons char rest =>
        exact List.dropWhile_cons_of_neg
          (by simp [isSpace_of_isDigit (all char (by simp))])
  have noSign : splitSign digits = (false, digits) := by
    unfold splitSign
    split
    · exact absurd (all '-' (by simp)) (by decide)
    · exact absurd (all '+' (by simp)) (by decide)
    · rfl
  have whole : digits.takeWhile Char.isDigit = digits := List.takeWhile_eq_self_iff.mpr all
  simp [scanInteger, noSpace, noSign, whole, nonempty]

theorem stoll_of_digits {digits : List Char} (nonempty : digits ≠ [])
    (all : ∀ char ∈ digits, char.isDigit = true) (bounded : digitsValue digits < 2 ^ 63) :
    stoll digits = .ok (digitsValue digits : Int) := by
  have inside : -2 ^ 63 ≤ (digitsValue digits : Int) ∧
      (digitsValue digits : Int) < 2 ^ 63 := by
    omega
  simp only [stoll, scanInteger_of_digits nonempty all, if_pos inside]

/-- A number is read back from its decimal digits. -/
theorem stoll_toDigits {value : Nat} (bounded : value < 2 ^ 63) :
    stoll (Nat.toDigits 10 value) = .ok (value : Int) := by
  have valueEq : digitsValue (Nat.toDigits 10 value) = value :=
    Nat.ofDigitChars_ten_toDigits
  have digits : ∀ char ∈ Nat.toDigits 10 value, char.isDigit = true :=
    fun char member => Nat.isDigit_of_mem_toDigits (by decide) (by decide) member
  rw [stoll_of_digits Nat.toDigits_ne_nil digits (by rw [valueEq]; exact bounded), valueEq]

theorem atoi_range (chars : List Char) :
    -2 ^ 31 ≤ atoi chars ∧ atoi chars < 2 ^ 31 := by
  unfold atoi
  split
  · decide
  · constructor
    · have := Int.le_bmod (x := max (-2 ^ 63) (min ‹Int› (2 ^ 63 - 1)))
        (m := 2 ^ 32) (by decide)
      omega
    · have := Int.bmod_lt (x := max (-2 ^ 63) (min ‹Int› (2 ^ 63 - 1)))
        (m := 2 ^ 32) (by decide)
      omega

end StandardCxx
