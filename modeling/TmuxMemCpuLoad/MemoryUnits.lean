import TmuxMemCpuLoad.ColourIndependence
import TmuxMemCpuLoad.StandardString

/-!
# The units of the default display

In the default mode `mem_string` shows the used and the total memory in
megabytes or gigabytes.  Both sizes are compared with 10000 MB, the used memory
strictly from either side.
-/

namespace TmuxMemCpuLoad

open StandardCxx StyledText

inductive SizeUnit
  | megabytes
  | gigabytes
  deriving DecidableEq, Repr

def SizeUnit.text : SizeUnit → List Char
  | .megabytes => "MB".toList
  | .gigabytes => "GB".toList

/-- A size in megabytes, in the given unit. -/
def SizeUnit.ofMegabytes : SizeUnit → ℚ → ℚ
  | .megabytes, size => size
  | .gigabytes, size => size / 1024

/-- The two numbers, the unit at the end and the unit of the first number where
it is written. -/
@[ext]
structure MemoryDisplay where
  used : Nat
  usedUnit : Option SizeUnit
  total : Nat
  unit : SizeUnit
  deriving DecidableEq, Repr

namespace MemoryDisplay

def text (display : MemoryDisplay) : List Char :=
  unsignedText display.used ++ (display.usedUnit.elim [] SizeUnit.text ++
    '/' :: (unsignedText display.total ++ display.unit.text))

/-- Both numbers, in the units that apply to them, are the sizes rounded down. -/
structure Exact (display : MemoryDisplay) (used total : ℚ) : Prop where
  used_eq : (display.used : Int) =
    ⌊(display.usedUnit.getD display.unit).ofMegabytes used⌋
  total_eq : (display.total : Int) = ⌊display.unit.ofMegabytes total⌋

end MemoryDisplay

/-! ## A display is read back from its text -/

theorem SizeUnit.text_noDigitHead (unit : SizeUnit) : NoDigitHead unit.text := by
  intro char member
  cases unit <;> cases member <;> rfl

theorem SizeUnit.text_injective : Function.Injective SizeUnit.text := by
  intro unit other
  cases unit <;> cases other <;> decide

theorem suffix_noDigitHead (usedUnit : Option SizeUnit) (rest : List Char) :
    NoDigitHead (usedUnit.elim [] SizeUnit.text ++ '/' :: rest) := by
  intro char member
  cases usedUnit with
  | none =>
      cases member
      rfl
  | some unit => cases unit <;> cases member <;> rfl

/-- The unit of the first number ends at the slash. -/
theorem suffix_unique {usedUnit otherUnit : Option SizeUnit} {rest other : List Char}
    (equal : usedUnit.elim [] SizeUnit.text ++ '/' :: rest =
      otherUnit.elim [] SizeUnit.text ++ '/' :: other) :
    usedUnit = otherUnit ∧ rest = other := by
  rcases usedUnit with _ | _ | _ <;> rcases otherUnit with _ | _ | _ <;>
    simp_all [SizeUnit.text]

theorem MemoryDisplay.text_injective : Function.Injective MemoryDisplay.text := by
  intro first second equal
  obtain ⟨used, afterUsed⟩ := toDigits_append_unique (suffix_noDigitHead _ _)
    (suffix_noDigitHead _ _) equal
  obtain ⟨usedUnit, afterSlash⟩ := suffix_unique afterUsed
  obtain ⟨total, unit⟩ := toDigits_append_unique (SizeUnit.text_noDigitHead _)
    (SizeUnit.text_noDigitHead _) afterSlash
  exact MemoryDisplay.ext used usedUnit total (SizeUnit.text_injective unit)

/-- Digits, letters and a slash: no sign and no start of a directive. -/
theorem MemoryDisplay.text_plain (display : MemoryDisplay) :
    ∀ char ∈ display.text, ¬ IsSign char ∧ char ≠ '#' := by
  have digits : ∀ value : Nat, ∀ char ∈ unsignedText value,
      ¬ IsSign char ∧ char ≠ '#' := by
    intro value char member
    have written := fixedChar_of_mem_unsignedText member
    exact ⟨not_isSign_of_fixedChar written, (figureChar_of_fixedChar written).1⟩
  have letters : ∀ unit : SizeUnit, ∀ char ∈ unit.text, ¬ IsSign char ∧ char ≠ '#' := by
    intro unit
    cases unit <;> exact forall_mem_of_all (by decide)
  intro char member
  simp only [MemoryDisplay.text, List.mem_append, List.mem_cons] at member
  rcases member with used | usedUnit | rfl | total | unit
  · exact digits _ char used
  · cases written : display.usedUnit with
    | none => simp [written] at usedUnit
    | some unit =>
        rw [written] at usedUnit
        exact letters unit char usedUnit
  · decide
  · exact digits _ char total
  · exact letters _ char unit

theorem MemoryDisplay.hash_not_mem_text (display : MemoryDisplay) : '#' ∉ display.text :=
  fun member => (display.text_plain '#' member).2 rfl

theorem MemoryDisplay.filter_text (display : MemoryDisplay) :
    display.text.filter (fun char => ¬ IsSign char) = display.text := by
  apply List.filter_eq_self.mpr
  intro char member
  simpa using (display.text_plain char member).1

/-! ## What the default mode displays -/

def defaultDisplay (status : MemoryStatus) : MemoryDisplay :=
  if status.usedMem > 10000 ∧ status.totalMem > 10000 then
    ⟨toUnsigned (status.usedMem / 1024), none, toUnsigned (status.totalMem / 1024),
      .gigabytes⟩
  else if status.usedMem < 10000 ∧ status.totalMem > 10000 then
    ⟨toUnsigned status.usedMem, some .megabytes, toUnsigned (status.totalMem / 1024),
      .gigabytes⟩
  else ⟨toUnsigned status.usedMem, none, toUnsigned status.totalMem, .megabytes⟩

theorem memFigure_default {oss : OutputStream} (noWidth : oss.width = 0)
    (status : MemoryStatus) :
    memFigure oss status .default = oss.append (defaultDisplay status).text := by
  unfold memFigure defaultDisplay
  split_ifs <;>
    simp [MemoryDisplay.text, OutputStream.putUnsigned, OutputStream.put_eq_append, noWidth,
      SizeUnit.text]

theorem memText_default (status : MemoryStatus) :
    memText status .default = (defaultDisplay status).text := by
  rw [memText, memFigure_default rfl]
  rfl

/-- A size in a unit is shown exactly where it fits `unsigned int`. -/
theorem exact_iff {used total : ℚ} (usedUnit : Option SizeUnit) (own unit : SizeUnit)
    (applies : usedUnit.getD unit = own) (usedNonneg : 0 ≤ own.ofMegabytes used)
    (totalNonneg : 0 ≤ unit.ofMegabytes total) :
    MemoryDisplay.Exact ⟨toUnsigned (own.ofMegabytes used), usedUnit,
        toUnsigned (unit.ofMegabytes total), unit⟩ used total ↔
      own.ofMegabytes used < 2 ^ 32 ∧ unit.ofMegabytes total < 2 ^ 32 := by
  subst applies
  rw [← toUnsigned_eq_floor_iff usedNonneg, ← toUnsigned_eq_floor_iff totalNonneg]
  constructor
  · rintro ⟨usedEq, totalEq⟩
    exact ⟨usedEq, totalEq⟩
  · rintro ⟨usedEq, totalEq⟩
    exact ⟨usedEq, totalEq⟩

section Regions

variable {used total : ℚ}

theorem defaultDisplay_megabytes (small : total ≤ 10000 ∨ used = 10000) :
    defaultDisplay ⟨used, total⟩ =
      ⟨toUnsigned used, none, toUnsigned total, .megabytes⟩ := by
  rcases small with small | rfl
  · simp [defaultDisplay, not_lt.mpr small]
  · simp [defaultDisplay]

theorem defaultDisplay_mixed (large : 10000 < total) (below : used < 10000) :
    defaultDisplay ⟨used, total⟩ =
      ⟨toUnsigned used, some .megabytes, toUnsigned (total / 1024), .gigabytes⟩ := by
  simp [defaultDisplay, large, below, not_lt.mpr below.le]

theorem defaultDisplay_gigabytes (large : 10000 < total) (above : 10000 < used) :
    defaultDisplay ⟨used, total⟩ =
      ⟨toUnsigned (used / 1024), none, toUnsigned (total / 1024), .gigabytes⟩ := by
  simp [defaultDisplay, large, above]

/-- The total is shown in gigabytes above 10000 MB, but not next to exactly
10000 MB in use. -/
theorem defaultDisplay_total (used total : ℚ) :
    (defaultDisplay ⟨used, total⟩).unit =
        (if total > 10000 ∧ used ≠ 10000 then .gigabytes else .megabytes) ∧
      (defaultDisplay ⟨used, total⟩).total =
        toUnsigned ((defaultDisplay ⟨used, total⟩).unit.ofMegabytes total) := by
  by_cases small : total ≤ 10000
  · rw [defaultDisplay_megabytes (Or.inl small)]
    simp [SizeUnit.ofMegabytes, not_lt.mpr small]
  · have large : 10000 < total := not_le.mp small
    rcases lt_trichotomy used 10000 with below | border | above
    · rw [defaultDisplay_mixed large below]
      simp [SizeUnit.ofMegabytes, large, below.ne]
    · rw [defaultDisplay_megabytes (Or.inr border)]
      simp [SizeUnit.ofMegabytes, border]
    · rw [defaultDisplay_gigabytes large above]
      simp [SizeUnit.ofMegabytes, large, above.ne']

/-- The total has one unit next to two used sizes where it is small, or where
both or neither of them are 10000 MB. -/
theorem defaultDisplay_unit_eq_iff (total used1 used2 : ℚ) :
    (defaultDisplay ⟨used1, total⟩).unit = (defaultDisplay ⟨used2, total⟩).unit ↔
      total ≤ 10000 ∨ (used1 = 10000 ↔ used2 = 10000) := by
  rw [(defaultDisplay_total used1 total).1, (defaultDisplay_total used2 total).1]
  by_cases small : total ≤ 10000
  · simp [small, not_lt.mpr small]
  · have large : total > 10000 := not_le.mp small
    by_cases border1 : used1 = 10000 <;> by_cases border2 : used2 = 10000 <;>
      simp [small, large, border1, border2]

/-- Every number is exact where it fits `unsigned int` in its unit. -/
theorem defaultDisplay_exact_iff (nonneg : 0 ≤ used) (atMost : used ≤ total) :
    (defaultDisplay ⟨used, total⟩).Exact used total ↔
      total ≤ 10000 ∨ (used ≠ 10000 ∧ total < 2 ^ 42) ∨
        (used = 10000 ∧ total < 2 ^ 32) := by
  have totalNonneg : 0 ≤ total := le_trans nonneg atMost
  have usedGigabytes : 0 ≤ used / 1024 := by positivity
  have totalGigabytes : 0 ≤ total / 1024 := by positivity
  have megabytes := exact_iff none .megabytes .megabytes rfl nonneg totalNonneg
  have mixed := exact_iff (some .megabytes) .megabytes .gigabytes rfl nonneg totalGigabytes
  have gigabytes := exact_iff none .gigabytes .gigabytes rfl usedGigabytes totalGigabytes
  simp only [SizeUnit.ofMegabytes] at megabytes mixed gigabytes
  by_cases small : total ≤ 10000
  · rw [defaultDisplay_megabytes (Or.inl small), megabytes]
    refine iff_of_true ⟨?_, ?_⟩ (Or.inl small) <;> linarith
  · have large : 10000 < total := not_le.mp small
    rcases lt_trichotomy used 10000 with below | border | above
    · have fits : used < 2 ^ 32 ∧ total / 1024 < 2 ^ 32 ↔ total < 2 ^ 42 := by
        constructor
        · rintro ⟨_, fits⟩
          linarith
        · intro fits
          constructor <;> linarith
      rw [defaultDisplay_mixed large below, mixed, fits]
      simp [small, below.ne]
    · have fits : used < 2 ^ 32 ∧ total < 2 ^ 32 ↔ total < 2 ^ 32 :=
        and_iff_right_of_imp fun _ => by linarith
      rw [defaultDisplay_megabytes (Or.inr border), megabytes, fits]
      simp [small, border]
    · have fits : used / 1024 < 2 ^ 32 ∧ total / 1024 < 2 ^ 32 ↔ total < 2 ^ 42 := by
        constructor
        · rintro ⟨_, fits⟩
          linarith
        · intro fits
          constructor <;> linarith
      rw [defaultDisplay_gigabytes large above, gigabytes, fits]
      simp [small, above.ne']

end Regions

/-! ## What a string shows -/

/-- The string shows the display between decorations, of which there are none
without colours. -/
def ShowsDisplay (used total : ℚ)
    (useColors usePowerlineLeft usePowerlineRight segmentsToLeft : Bool) (leftColor : Int)
    (display : MemoryDisplay) : Prop :=
  ∃ opening closing : List Char,
    Decoration IsSign opening ∧ Decoration IsSign closing ∧
    (useColors = false → opening = [] ∧ closing = []) ∧
    memString ⟨used, total⟩ .default useColors usePowerlineLeft usePowerlineRight
      segmentsToLeft leftColor = .ok (opening ++ display.text ++ closing)

/-- The total is rendered alike next to either used size, and every number is
exact in its unit. -/
def ConsistentUnits (total used1 used2 : ℚ)
    (useColors usePowerlineLeft usePowerlineRight segmentsToLeft : Bool)
    (leftColor : Int) : Prop :=
  ∃ display1 display2 : MemoryDisplay,
    ShowsDisplay used1 total useColors usePowerlineLeft usePowerlineRight segmentsToLeft
      leftColor display1 ∧
    ShowsDisplay used2 total useColors usePowerlineLeft usePowerlineRight segmentsToLeft
      leftColor display2 ∧
    display1.total = display2.total ∧ display1.unit = display2.unit ∧
    display1.Exact used1 total ∧ display2.Exact used2 total

section Display

variable {used total : ℚ}
  {useColors usePowerlineLeft usePowerlineRight segmentsToLeft : Bool} {leftColor : Int}

theorem showsDisplay_iff (nonneg : 0 ≤ used) (atMost : used ≤ total) (positive : 0 < total)
    {display : MemoryDisplay} :
    ShowsDisplay used total useColors usePowerlineLeft usePowerlineRight segmentsToLeft
      leftColor display ↔ display = defaultDisplay ⟨used, total⟩ := by
  obtain ⟨percentage, defined, index⟩ :=
    memPercentage_index ⟨used, total⟩ nonneg atMost positive
  obtain ⟨before, after, around⟩ := (memString_onlyDecorates usePowerlineLeft
    usePowerlineRight segmentsToLeft leftColor).around useColors
  obtain ⟨decorationBefore, decorationAfter, plain, written⟩ :=
    around ⟨⟨used, total⟩, .default⟩ _ _ ⟨percentage, defined, rfl, index⟩
      (memString_plain _ _ _ _ _ _ defined)
  rw [memText_default] at written
  constructor
  · rintro ⟨opening, closing, decorationOpening, decorationClosing, _, shown⟩
    have equal := Except.ok.inj (written.symm.trans shown)
    have texts := Decoration.text_unique decorationBefore decorationAfter
      (MemoryDisplay.hash_not_mem_text _) decorationOpening decorationClosing
      (MemoryDisplay.hash_not_mem_text _) (fun sign => sign.ne_hash rfl) equal
    rw [MemoryDisplay.filter_text, MemoryDisplay.filter_text] at texts
    exact (MemoryDisplay.text_injective texts).symm
  · rintro rfl
    exact ⟨_, _, decorationBefore, decorationAfter, plain, written⟩

/-- With memory, what is asked of the strings is asked of the two displays. -/
theorem consistentUnits_iff_displays {used1 used2 : ℚ} (nonneg1 : 0 ≤ used1)
    (atMost1 : used1 ≤ total) (nonneg2 : 0 ≤ used2) (atMost2 : used2 ≤ total)
    (positive : 0 < total) :
    ConsistentUnits total used1 used2 useColors usePowerlineLeft usePowerlineRight
        segmentsToLeft leftColor ↔
      (defaultDisplay ⟨used1, total⟩).unit = (defaultDisplay ⟨used2, total⟩).unit ∧
        (defaultDisplay ⟨used1, total⟩).Exact used1 total ∧
        (defaultDisplay ⟨used2, total⟩).Exact used2 total := by
  constructor
  · rintro ⟨display1, display2, shows1, shows2, _, sameUnit, exact1, exact2⟩
    rw [showsDisplay_iff nonneg1 atMost1 positive] at shows1
    rw [showsDisplay_iff nonneg2 atMost2 positive] at shows2
    subst shows1 shows2
    exact ⟨sameUnit, exact1, exact2⟩
  · rintro ⟨sameUnit, exact1, exact2⟩
    refine ⟨_, _, (showsDisplay_iff nonneg1 atMost1 positive).mpr rfl,
      (showsDisplay_iff nonneg2 atMost2 positive).mpr rfl, ?_, sameUnit, exact1, exact2⟩
    rw [(defaultDisplay_total used1 total).2, (defaultDisplay_total used2 total).2,
      sameUnit]

end Display

/-- Without memory the percentage is undefined, and so is its conversion. -/
theorem memString_no_memory
    (useColors usePowerlineLeft usePowerlineRight segmentsToLeft : Bool) (leftColor : Int)
    (used : ℚ) :
    memString ⟨used, 0⟩ .default useColors usePowerlineLeft usePowerlineRight
      segmentsToLeft leftColor = .error .undefined := by
  simp [memString, memPercentage, finite]

/-- The default display is consistent exactly when there is memory, the sizes
fit, and not just one of the two used sizes is 10000 MB where the total is
larger. -/
theorem consistentUnits_iff {total used1 used2 : ℚ} (nonneg1 : 0 ≤ used1)
    (atMost1 : used1 ≤ total) (nonneg2 : 0 ≤ used2) (atMost2 : used2 ≤ total)
    (useColors usePowerlineLeft usePowerlineRight segmentsToLeft : Bool)
    (leftColor : Int) :
    ConsistentUnits total used1 used2 useColors usePowerlineLeft usePowerlineRight
        segmentsToLeft leftColor ↔
      0 < total ∧
        (total ≤ 10000 ∨
          (used1 ≠ 10000 ∧ used2 ≠ 10000 ∧ total < 2 ^ 42) ∨
          (used1 = 10000 ∧ used2 = 10000 ∧ total < 2 ^ 32)) := by
  by_cases empty : total = 0
  · subst empty
    constructor
    · rintro ⟨display1, _, ⟨_, _, _, _, _, shown⟩, _⟩
      rw [memString_no_memory] at shown
      cases shown
    · rintro ⟨positive, _⟩
      exact absurd positive (lt_irrefl 0)
  · have positive : 0 < total :=
      lt_of_le_of_ne (le_trans nonneg1 atMost1) (Ne.symm empty)
    rw [consistentUnits_iff_displays nonneg1 atMost1 nonneg2 atMost2 positive,
      defaultDisplay_unit_eq_iff, defaultDisplay_exact_iff nonneg1 atMost1,
      defaultDisplay_exact_iff nonneg2 atMost2]
    by_cases small : total ≤ 10000
    · simp [small, positive]
    · by_cases border1 : used1 = 10000 <;> by_cases border2 : used2 = 10000 <;>
        simp [small, positive, border1, border2]

theorem consistentUnits_sample :
    ConsistentUnits 16000 4000 12000 true true false true 236 :=
  (consistentUnits_iff (by norm_num) (by norm_num) (by norm_num) (by norm_num) true true
    false true 236).mpr
    ⟨by norm_num, Or.inr (Or.inl ⟨by norm_num, by norm_num, by norm_num⟩)⟩

/-- With exactly 10000 MB in use the total of 16384 MB is not shown as 16 GB. -/
theorem not_consistentUnits_border :
    memString ⟨10000, 16384⟩ .default false false false false 0 =
        .ok "10000/16384MB".toList ∧
      memString ⟨10001, 16384⟩ .default false false false false 0 =
        .ok "9/16GB".toList ∧
      ¬ ConsistentUnits 16384 10000 10001 false false false false 0 := by
  refine ⟨by decide +kernel, by decide +kernel, ?_⟩
  rintro ⟨display1, display2, shows1, shows2, _, sameUnit, _, _⟩
  rw [(showsDisplay_iff (by norm_num) (by norm_num) (by norm_num)).mp shows1,
    (showsDisplay_iff (by norm_num) (by norm_num) (by norm_num)).mp shows2] at sameUnit
  revert sameUnit
  decide +kernel

end TmuxMemCpuLoad
