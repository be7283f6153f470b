import TmuxMemCpuLoad.StandardOutcome

/-!
# Bar graphs

The horizontal graph counts bars in two loops over one counter; the vertical
graph is a single character looked up by the percentage.
-/

namespace TmuxMemCpuLoad

open StandardCxx

/-- `count` rounds of a loop that appends a character and advances `step`. -/
def appendBars (char : Char) : Nat → Nat × List Char → Nat × List Char
  | 0, state => state
  | count + 1, (step, bars) => appendBars char count (step + 1, bars ++ [char])

/-- `for( ; step < bound; step++ ) bars.append( char )`. -/
def appendBarsBelow (char : Char) (bound : Nat) (state : Nat × List Char) :
    Nat × List Char :=
  appendBars char (bound - state.1) state

def getGraphByPercentage (value len : Nat) : List Char :=
  let barCount := toUnsigned ((value : ℚ) / (999 / 10) * len)
  let bars := appendBarsBelow '|' barCount (0, [])
  (appendBarsBelow ' ' len bars).2

/-- The two loops of a graph, once the bars are counted. -/
def drawBars (barCount len : Nat) : List Char :=
  let bars := appendBarsBelow '|' barCount (0, [])
  (appendBarsBelow ' ' len bars).2

/-- `graph_chars`, in the order of its keys. -/
def graphChars : List (Nat × Char) :=
  [(0, ' '), (10, '▁'), (20, '▂'), (30, '▃'), (40, '▄'),
    (50, '▅'), (60, '▆'), (70, '▇'), (80, '█'), (90, '▲')]

def getGraphVert (value : Nat) : List Char :=
  match graphChars.reverse.find? (fun entry => entry.1 ≤ value) with
  | some entry => [entry.2]
  | none => [' ']

theorem appendBars_eq (char : Char) (count step : Nat) (bars : List Char) :
    appendBars char count (step, bars) =
      (step + count, bars ++ List.replicate count char) := by
  induction count generalizing step bars with
  | zero => simp [appendBars]
  | succ count induction =>
      rw [appendBars, induction]
      simp [List.replicate_succ, Nat.add_comm, Nat.add_left_comm]

theorem drawBars_eq (barCount len : Nat) :
    drawBars barCount len = List.replicate barCount '|' ++ List.replicate (len - barCount) ' ' := by
  simp [drawBars, appendBarsBelow, appendBars_eq]

theorem count_drawBars (barCount len : Nat) : (drawBars barCount len).count '|' = barCount := by
  rw [drawBars_eq]
  simp [List.count_replicate]

theorem mem_drawBars {barCount len : Nat} {char : Char} (member : char ∈ drawBars barCount len) :
    char = '|' ∨ char = ' ' := by
  rw [drawBars_eq] at member
  rcases List.mem_append.mp member with bar | blank
  · exact Or.inl (List.eq_of_mem_replicate bar)
  · exact Or.inr (List.eq_of_mem_replicate blank)

theorem getGraphByPercentage_eq (value len : Nat) :
    getGraphByPercentage value len =
      List.replicate (toUnsigned ((value : ℚ) / (999 / 10) * len)) '|' ++
        List.replicate (len - toUnsigned ((value : ℚ) / (999 / 10) * len)) ' ' :=
  drawBars_eq _ len

theorem mem_getGraphByPercentage {value len : Nat} {char : Char}
    (member : char ∈ getGraphByPercentage value len) : char = '|' ∨ char = ' ' :=
  mem_drawBars member

/-! ## The box of the horizontal graph -/

/-- The graph is made of bars and then of blanks up to its length; there are at
least as many bars as for a smaller value, none for zero and only bars for one
hundred. -/
structure FillsBox (value len : Nat) : Prop where
  box : ∃ bars ≤ len, getGraphByPercentage value len =
    List.replicate bars '|' ++ List.replicate (len - bars) ' '
  length : (getGraphByPercentage value len).length = len
  monotone : ∀ smaller ≤ value,
    (getGraphByPercentage smaller len).count '|' ≤
      (getGraphByPercentage value len).count '|'
  empty : value = 0 → (getGraphByPercentage value len).count '|' = 0
  full : value = 100 → (getGraphByPercentage value len).count '|' = len

theorem count_getGraphByPercentage (value len : Nat) :
    (getGraphByPercentage value len).count '|' = 10 * value * len / 999 % 2 ^ 32 := by
  have scaled : (value : ℚ) / (999 / 10) * len =
      ((10 * value * len : Nat) : ℚ) / ((999 : Nat) : ℚ) := by
    push_cast
    ring
  rw [getGraphByPercentage_eq, scaled, toUnsigned_div]
  simp [List.count_replicate]

theorem length_getGraphByPercentage (value len : Nat) :
    (getGraphByPercentage value len).length =
      max len ((getGraphByPercentage value len).count '|') := by
  rw [getGraphByPercentage_eq]
  simp [List.count_replicate]
  omega

theorem getGraphByPercentage_box (value len : Nat) :
    getGraphByPercentage value len =
      List.replicate ((getGraphByPercentage value len).count '|') '|' ++
        List.replicate (len - (getGraphByPercentage value len).count '|') ' ' := by
  have bars := getGraphByPercentage_eq value len
  have count : (getGraphByPercentage value len).count '|' =
      toUnsigned ((value : ℚ) / (999 / 10) * len) := by
    rw [bars]
    simp [List.count_replicate]
  rw [count]
  exact bars

/-- Scaling by 99.9 keeps the bars in the box below one hundred, and at one
hundred while a thousandth of the length is less than a bar. -/
theorem bars_le_len {value len : Nat} (atMost : value ≤ 100)
    (fits : value < 100 ∨ len < 999) : 10 * value * len / 999 ≤ len := by
  rcases fits with below | short
  · have scaled : value * len ≤ 99 * len := Nat.mul_le_mul_right len (by omega)
    rw [Nat.mul_assoc]
    omega
  · have scaled : value * len ≤ 100 * len := Nat.mul_le_mul_right len atMost
    rw [Nat.mul_assoc]
    omega

/-- In exact arithmetic the graph fills its box except at one hundred percent in
a box of 999 or more characters.  The rounded `double` arithmetic of the program
draws one bar less, and so fills the box, in a box of exactly 999. -/
theorem getGraphByPercentage_fillsBox_iff {value len : Nat} (atMost : value ≤ 100)
    (representable : len < 2 ^ 32) : FillsBox value len ↔ value < 100 ∨ len < 999 := by
  constructor
  · intro fills
    by_contra large
    have full := fills.full (by omega)
    rw [count_getGraphByPercentage, show value = 100 by omega] at full
    omega
  · intro fits
    have bound := bars_le_len atMost fits
    have count : ∀ smaller ≤ value, (getGraphByPercentage smaller len).count '|' =
        10 * smaller * len / 999 := by
      intro smaller less
      have smallerBound := bars_le_len (le_trans less atMost)
        (fits.imp_left (lt_of_le_of_lt less))
      rw [count_getGraphByPercentage]
      omega
    have own := count value le_rfl
    constructor
    · exact ⟨_, by omega, getGraphByPercentage_box value len⟩
    · rw [length_getGraphByPercentage]
      omega
    · intro smaller less
      have scaled : 10 * smaller * len ≤ 10 * value * len :=
        Nat.mul_le_mul_right len (by omega)
      rw [count smaller less, own]
      omega
    · rintro rfl
      omega
    · rintro rfl
      omega

theorem getGraphByPercentage_fillsBox_default : FillsBox 100 10 :=
  (getGraphByPercentage_fillsBox_iff (by decide) (by decide)).mpr (Or.inr (by decide))

/-- There are 1001 bars in a box for 1000, in exact and in rounded arithmetic. -/
theorem getGraphByPercentage_overflows : ¬ FillsBox 100 1000 := by
  intro fills
  have full := fills.full rfl
  rw [count_getGraphByPercentage] at full
  revert full
  decide

/-! ## The vertical graph -/

theorem mem_getGraphVert {value : Nat} {char : Char}
    (member : char ∈ getGraphVert value) :
    char ∈ graphChars.map Prod.snd := by
  unfold getGraphVert at member
  split at member
  · rename_i entry found
    rw [List.mem_singleton.mp member]
    exact List.mem_map_of_mem (List.mem_reverse.mp (List.mem_of_find?_eq_some found))
  · rw [List.mem_singleton.mp member]
    decide

end TmuxMemCpuLoad
