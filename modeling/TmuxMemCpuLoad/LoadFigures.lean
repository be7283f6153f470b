import TmuxMemCpuLoad.ColourIndependence
import TmuxMemCpuLoad.FloatArithmetic

/-!
# The figures of the load segment

`getloadavg` returns how many entries of the array it has written: a negative
number when it fails, and possibly fewer entries than it was asked for.
`load_string` tests for the first case only, prints as many entries as were
asked for, and writes three figures when it has none.
-/

namespace TmuxMemCpuLoad

open StandardCxx StyledText

/-- An average rounded half up, in hundredths. -/
def roundedHundredths (average : ℚ) : Nat :=
  ⌊average * 100 + 1 / 2⌋.toNat

/-- A blank, and the figures with single blanks between them. -/
def figuresText (hundredths : List Nat) : List Char :=
  ' ' :: [' '].intercalate (hundredths.map hundredthsText)

/-! ## The text of the averages -/

/-- The stream prints numbers with two decimals and without padding. -/
structure WritesHundredths (ss : OutputStream) : Prop where
  noWidth : ss.width = 0
  fixed : ss.floatField = .fixed
  twoDecimals : ss.precision = 2

theorem loadStream_writesHundredths : WritesHundredths loadStream :=
  ⟨rfl, rfl, rfl⟩

section Averages

variable {ss : OutputStream} (writes : WritesHundredths ss)
include writes

theorem WritesHundredths.append (text : List Char) : WritesHundredths (ss.append text) :=
  ⟨writes.noWidth, writes.fixed, writes.twoDecimals⟩

theorem WritesHundredths.putFloat {average : ℚ} (nonneg : 0 ≤ average) :
    ss.putFloat ((⌊average * 100 + 1 / 2⌋ : ℚ) / 100) =
      ss.append (hundredthsText (roundedHundredths average)) := by
  have floorNonneg : 0 ≤ ⌊average * 100 + 1 / 2⌋ :=
    Int.floor_nonneg.mpr (by positivity)
  have hundredths : (⌊average * 100 + 1 / 2⌋ : ℚ) = (roundedHundredths average : ℚ) := by
    have cast : ((roundedHundredths average : Nat) : Int) = ⌊average * 100 + 1 / 2⌋ :=
      Int.toNat_of_nonneg floorNonneg
    rw [← cast]
    norm_cast
  rw [OutputStream.putFloat, OutputStream.put_eq_append writes.noWidth,
    OutputStream.floatText, writes.fixed, writes.twoDecimals, hundredths]
  simp only [fixedText_hundredths]

variable {averages : Nat → ℚ} {numAverages : Int}

theorem WritesHundredths.putAverage_last {i : Nat} (nonneg : 0 ≤ averages i)
    (last : (i : Int) = numAverages - 1) :
    putAverage averages numAverages ss i =
      ss.append (hundredthsText (roundedHundredths (averages i))) := by
  simp only [putAverage, if_pos last]
  exact writes.putFloat nonneg

theorem WritesHundredths.putAverage_inner {i : Nat} (nonneg : 0 ≤ averages i)
    (inner : (i : Int) ≠ numAverages - 1) :
    putAverage averages numAverages ss i =
      ss.append (hundredthsText (roundedHundredths (averages i)) ++ [' ']) := by
  simp only [putAverage, if_neg inner]
  rw [writes.putFloat nonneg, OutputStream.put_eq_append (writes.append _).noWidth,
    OutputStream.append_append]
  rfl

variable (averages) (numAverages) in
/-- The figures before the last one are followed by a blank each. -/
theorem WritesHundredths.putAverages_inner (count : Nat)
    (nonneg : ∀ i < count, 0 ≤ averages i) (inner : (count : Int) ≤ numAverages - 1) :
    (List.range count).foldl (putAverage averages numAverages) ss =
      ss.append ((List.range count).flatMap fun i =>
        hundredthsText (roundedHundredths (averages i)) ++ [' ']) := by
  induction count with
  | zero => simp
  | succ count induction =>
      have before := induction (fun i less => nonneg i (by omega)) (by omega)
      rw [List.range_succ, List.foldl_append, before]
      simp only [List.foldl_cons, List.foldl_nil]
      rw [(writes.append _).putAverage_inner (nonneg count (by omega)) (by omega)]
      simp

end Averages

theorem intercalate_concat {Item : Type} (separator : List Item)
    (lists : List (List Item)) (last : List Item) :
    separator.intercalate (lists ++ [last]) =
      lists.flatMap (fun list => list ++ separator) ++ last := by
  induction lists with
  | nil => simp
  | cons list lists induction =>
      rw [List.cons_append, List.intercalate_cons_of_ne_nil (by simp), induction]
      simp

/-- The loop writes the figures with single blanks between them. -/
theorem loadText_eq (averages : Nat → ℚ) {count : Nat} (positive : 0 < count)
    (nonneg : ∀ i < count, 0 ≤ averages i) :
    loadText averages count =
      figuresText ((List.range count).map fun i => roundedHundredths (averages i)) := by
  obtain ⟨inner, rfl⟩ : ∃ inner, count = inner + 1 := ⟨count - 1, by omega⟩
  have start : loadStream.putChar ' ' = loadStream.append [' '] :=
    OutputStream.put_eq_append rfl _
  have writes := loadStream_writesHundredths.append [' ']
  have before := writes.putAverages_inner averages (inner + 1 : Nat) inner
    (fun i less => nonneg i (by omega)) (by omega)
  unfold loadText loadFigure
  rw [start, Int.toNat_natCast, List.range_succ, List.foldl_append, before]
  simp only [List.foldl_cons, List.foldl_nil]
  rw [(writes.append _).putAverage_last (nonneg inner (by omega)) (by omega)]
  simp only [figuresText, List.map_append, List.map_cons, List.map_nil, intercalate_concat]
  simp [loadStream, OutputStream.fresh, OutputStream.setPrecision, OutputStream.setFixed,
    List.flatMap_map]

/-! ## What the user is promised -/

/-- A host whose `getloadavg` returns `returned` and writes that many entries of
`loads` into an array that holds `initial` before the call. -/
def Host.answering (host : Host) (returned : Int) (loads initial : Nat → ℚ) : Host :=
  { host with
    averages := initial
    getloadavg := fun before _ =>
      (returned, fun i => if (i : Int) < returned then loads i else before i) }

/-- Between decorations, of which there are none without colours, the string
shows as many figures as were asked for, and each entry that was written is
shown rounded half up. -/
def ShowsFigures (numAverages returned : Int) (loads : Nat → ℚ) (useColors : Bool)
    (string : List Char) : Prop :=
  ∃ opening closing : List Char, ∃ hundredths : List Nat,
    Decoration IsSign opening ∧ Decoration IsSign closing ∧
    (useColors = false → opening = [] ∧ closing = []) ∧
    hundredths.length = numAverages.toNat ∧
    (∀ i : Nat, (i : Int) < returned →
      hundredths[i]? = some (roundedHundredths (loads i))) ∧
    string = opening ++ figuresText hundredths ++ closing

/-- `load_string` shows what it was given: the figures are those of the entries
that were written, and neither the string nor the index depends on the others. -/
structure ShowsLoads (host : Host) (numAverages returned : Int) (loads : Nat → ℚ)
    (useColors usePowerlineLeft usePowerlineRight segmentsToRight : Bool)
    (rightColor : Int) : Prop where
  figures : ∀ initial, ∃ string,
    loadString (host.answering returned loads initial) useColors usePowerlineLeft
      usePowerlineRight numAverages segmentsToRight rightColor = .ok string ∧
    ShowsFigures numAverages returned loads useColors string
  string_unique : ∀ initial other,
    loadString (host.answering returned loads initial) useColors usePowerlineLeft
        usePowerlineRight numAverages segmentsToRight rightColor =
      loadString (host.answering returned loads other) useColors usePowerlineLeft
        usePowerlineRight numAverages segmentsToRight rightColor
  index_unique : ∀ initial other,
    (loadContent (host.answering returned loads initial) numAverages).map
        LoadContent.index =
      (loadContent (host.answering returned loads other) numAverages).map
        LoadContent.index

/-! ## The content for each answer -/

/-- The array after the call. -/
def answeredAverages (returned : Int) (loads initial : Nat → ℚ) (i : Nat) : ℚ :=
  if (i : Int) < returned then loads i else initial i

theorem answeredAverages_of_lt {returned : Int} (loads initial : Nat → ℚ) {i : Nat}
    (written : (i : Int) < returned) :
    answeredAverages returned loads initial i = loads i :=
  if_pos written

theorem answeredAverages_of_le {returned : Int} (loads initial : Nat → ℚ) {i : Nat}
    (unwritten : returned ≤ i) :
    answeredAverages returned loads initial i = initial i :=
  if_neg (by omega)

theorem answeredAverages_nonneg {returned : Int} {loads initial : Nat → ℚ}
    (loadsNonneg : ∀ i, 0 ≤ loads i) (initialNonneg : ∀ i, 0 ≤ initial i) (i : Nat) :
    0 ≤ answeredAverages returned loads initial i := by
  unfold answeredAverages
  split_ifs
  · exact loadsNonneg i
  · exact initialNonneg i

/-- The colour depends on the first average only. -/
theorem loadColor_congr (host : Host) {averages other : Nat → ℚ}
    (first : averages 0 = other 0) : loadColor host averages = loadColor host other := by
  simp only [loadColor, Host.loadPercentage, first]

theorem limited_eq_min (load : Nat) : (if load > 100 then 100 else load) = min load 100 := by
  split_ifs <;> omega

theorem Arithmetic.loadColor_of_cpuCount (arith : Arithmetic) {host : Host}
    (processors : host.cpuCount ≠ 0) (averages : Nat → ℚ) :
    ∃ index ≤ 100, arith.loadColor host averages = .ok index := by
  have nonzero : (host.cpuCount : ℚ) ≠ 0 := by exact_mod_cast processors
  have computed : ∃ load, arith.loadPercentage host averages = some load :=
    ⟨_, congrArg (Option.map _) (quotient_of_ne_zero _ nonzero)⟩
  obtain ⟨load, defined⟩ := computed
  refine ⟨min (toUnsigned load) 100, Nat.min_le_right _ _, ?_⟩
  simp only [loadColor, defined, finite, Outcome.ok_bind, limited_eq_min]

theorem loadColor_of_cpuCount {host : Host} (processors : host.cpuCount ≠ 0)
    (averages : Nat → ℚ) : ∃ index ≤ 100, loadColor host averages = .ok index :=
  Arithmetic.exact.loadColor_of_cpuCount processors averages

theorem loadColor_of_no_cpu {host : Host} (noProcessor : host.cpuCount = 0)
    (averages : Nat → ℚ) : loadColor host averages = .error .undefined := by
  simp [loadColor, Host.loadPercentage, noProcessor, finite]

section Answers

variable {host : Host} {numAverages returned : Int}
  (inside : ¬ (numAverages ≤ 0 ∨ numAverages > 3)) (loads initial : Nat → ℚ)
include inside

variable (host) in
theorem loadContent_of_failure (failed : returned < 0) :
    loadContent (host.answering returned loads initial) numAverages =
      .ok (.fallback " 0.00 0.00 0.00".toList) := by
  have none : (host.answering returned loads initial).loadAverages numAverages.toNat =
      none :=
    if_pos failed
  rw [loadContent, if_neg inside, none]

variable (host) in
theorem loadContent_of_answer (answers : ¬ returned < 0) :
    loadContent (host.answering returned loads initial) numAverages =
      (loadColor host (answeredAverages returned loads initial)).map
        (.figures (answeredAverages returned loads initial)) := by
  have some : (host.answering returned loads initial).loadAverages numAverages.toNat =
      some (answeredAverages returned loads initial) :=
    if_neg answers
  rw [loadContent, if_neg inside, some]
  rfl

theorem loadString_of_no_cpu (answers : ¬ returned < 0)
    (noProcessor : host.cpuCount = 0)
    (useColors usePowerlineLeft usePowerlineRight segmentsToRight : Bool)
    (rightColor : Int) :
    loadString (host.answering returned loads initial) useColors usePowerlineLeft
      usePowerlineRight numAverages segmentsToRight rightColor = .error .undefined := by
  have some : (host.answering returned loads initial).loadAverages numAverages.toNat =
      some (answeredAverages returned loads initial) :=
    if_neg answers
  have undefined : loadColor (host.answering returned loads initial)
      (answeredAverages returned loads initial) = .error .undefined :=
    loadColor_of_no_cpu noProcessor _
  rw [loadString, if_neg inside, some]
  simp only [undefined, Outcome.error_bind]

end Answers

/-- The string is the text of the content between decorations that its index
chooses, and without colours there are none. -/
theorem loadString_around
    (useColors usePowerlineLeft usePowerlineRight segmentsToRight : Bool)
    (rightColor : Int) :
    ∃ before after : Option Nat → List Char, ∀ host numAverages content,
      loadContent host numAverages = .ok content →
      Decoration IsSign (before content.index) ∧ Decoration IsSign (after content.index) ∧
      (useColors = false → before content.index = [] ∧ after content.index = []) ∧
      loadString host useColors usePowerlineLeft usePowerlineRight numAverages
          segmentsToRight rightColor =
        .ok (before content.index ++ content.text numAverages ++ after content.index) := by
  obtain ⟨before, after, around⟩ := (loadString_onlyDecorates usePowerlineLeft
    usePowerlineRight segmentsToRight rightColor).around useColors
  refine ⟨before, after, fun host numAverages content shown => ?_⟩
  exact around ⟨host, numAverages⟩ content.index _ ⟨content, shown, rfl⟩
    (loadString_plain usePowerlineLeft usePowerlineRight segmentsToRight rightColor shown)

/-! ## The figures in a string -/

theorem filter_intercalate {Item : Type} (keep : Item → Bool) {separator : List Item}
    (dropped : separator.filter keep = []) (lists : List (List Item)) :
    (separator.intercalate lists).filter keep =
      lists.flatMap fun list => list.filter keep := by
  induction lists with
  | nil => rfl
  | cons list lists induction =>
      by_cases last : lists = []
      · simp [last]
      · rw [List.intercalate_cons_of_ne_nil last, List.filter_append, List.filter_append,
          dropped, induction, List.append_nil, List.flatMap_cons]

/-- Without the blanks the figures stand one after the other. -/
theorem filter_figuresText (hundredths : List Nat) :
    (figuresText hundredths).filter (fun char => ¬ IsSign char) =
      hundredths.flatMap hundredthsText := by
  have kept : ∀ number, (hundredthsText number).filter (fun char => ¬ IsSign char) =
      hundredthsText number := by
    intro number
    apply List.filter_eq_self.mpr
    intro char member
    simpa using not_isSign_of_fixedChar (fixedChar_of_mem_hundredthsText member)
  have blank : [' '].filter (fun char => ¬ IsSign char) = [] := by decide
  have join := filter_intercalate (fun char => decide (¬ IsSign char)) blank
    (hundredths.map hundredthsText)
  rw [figuresText, List.filter_cons_of_neg (by decide), join, List.flatMap_map]
  simp only [kept]

theorem hash_not_mem_figuresText (hundredths : List Nat) :
    '#' ∉ figuresText hundredths := by
  intro member
  have kept : '#' ∈ (figuresText hundredths).filter (fun char => ¬ IsSign char) :=
    List.mem_filter.mpr ⟨member, by decide⟩
  rw [filter_figuresText, List.mem_flatMap] at kept
  obtain ⟨number, _, inNumber⟩ := kept
  have written := fixedChar_of_mem_hundredthsText inNumber
  unfold FixedChar at written
  revert written
  decide

theorem count_point_figures (hundredths : List Nat) :
    (hundredths.flatMap hundredthsText).count '.' = hundredths.length := by
  induction hundredths with
  | nil => rfl
  | cons number hundredths induction =>
      rw [List.flatMap_cons, List.count_append, count_point_hundredthsText, induction,
        List.length_cons]
      omega

/-- Two rows of figures between decorations in one string are the same but for
their blanks. -/
theorem figures_unique {opening closing otherOpening otherClosing : List Char}
    {hundredths other : List Nat} (decorationOpening : Decoration IsSign opening)
    (decorationClosing : Decoration IsSign closing)
    (decorationOtherOpening : Decoration IsSign otherOpening)
    (decorationOtherClosing : Decoration IsSign otherClosing)
    (equal : opening ++ figuresText hundredths ++ closing =
      otherOpening ++ figuresText other ++ otherClosing) :
    hundredths.flatMap hundredthsText = other.flatMap hundredthsText := by
  rw [← filter_figuresText, ← filter_figuresText]
  exact Decoration.text_unique decorationOpening decorationClosing
    (hash_not_mem_figuresText hundredths) decorationOtherOpening decorationOtherClosing
    (hash_not_mem_figuresText other) (fun sign => sign.ne_hash rfl) equal

theorem fallback_eq_figuresText :
    " 0.00 0.00 0.00".toList = figuresText [0, 0, 0] := by
  decide +kernel

/-- The first entry that was not written is shown as it was before. -/
theorem hundredths_answered (written missing : Nat) (loads initial : Nat → ℚ) :
    (List.range (written + (missing + 1))).map (fun i =>
        roundedHundredths (answeredAverages written loads initial i)) =
      (List.range written).map (fun i => roundedHundredths (loads i)) ++
        roundedHundredths (initial written) ::
          (List.range missing).map fun i =>
            roundedHundredths (initial (written + (i + 1))) := by
  rw [List.range_add, List.map_append, List.range_succ_eq_map]
  simp only [List.map_cons, List.map_map, add_zero]
  rw [answeredAverages_of_le loads initial le_rfl]
  congr 1
  · apply List.map_congr_left
    intro i member
    have less := List.mem_range.mp member
    rw [answeredAverages_of_lt loads initial (by omega)]
  · congr 1
    apply List.map_congr_left
    intro i _
    simp only [Function.comp_apply]
    rw [answeredAverages_of_le loads initial (by omega)]

/-- Zeros and ones in the entries that were not written give other figures. -/
theorem unwritten_figures_differ (written missing : Nat) (loads : Nat → ℚ) :
    ((List.range (written + (missing + 1))).map fun i =>
        roundedHundredths (answeredAverages written loads (fun _ => 0) i)).flatMap
          hundredthsText ≠
      ((List.range (written + (missing + 1))).map fun i =>
        roundedHundredths (answeredAverages written loads (fun _ => 1) i)).flatMap
          hundredthsText := by
  intro same
  have zero : hundredthsText (roundedHundredths 0) = '0' :: ".00".toList := by
    decide +kernel
  have one : hundredthsText (roundedHundredths 1) = '1' :: ".00".toList := by
    decide +kernel
  rw [hundredths_answered, hundredths_answered, List.flatMap_append, List.flatMap_append,
    List.append_cancel_left_eq, List.flatMap_cons, List.flatMap_cons, zero, one] at same
  injection same with digit
  revert digit
  decide

/-! ## When the promise is kept -/

section Promise

variable {host : Host} {numAverages returned : Int}
  (inside : ¬ (numAverages ≤ 0 ∨ numAverages > 3)) {loads : Nat → ℚ}
  {useColors usePowerlineLeft usePowerlineRight segmentsToRight : Bool} {rightColor : Int}
include inside

/-- The fallback shows three figures for any count. -/
theorem three_of_showsLoads (failed : returned < 0)
    (shows : ShowsLoads host numAverages returned loads useColors usePowerlineLeft
      usePowerlineRight segmentsToRight rightColor) : numAverages = 3 := by
  obtain ⟨before, after, around⟩ := loadString_around useColors usePowerlineLeft
    usePowerlineRight segmentsToRight rightColor
  obtain ⟨string, rendered, opening, closing, hundredths, decorationOpening,
    decorationClosing, _, count, _, rfl⟩ := shows.figures fun _ => 0
  have content := loadContent_of_failure host inside loads (fun _ => 0) failed
  obtain ⟨decorationBefore, decorationAfter, _, written⟩ := around _ _ _ content
  have equal := Except.ok.inj (written.symm.trans rendered)
  simp only [LoadContent.text, fallback_eq_figuresText] at equal
  have figures := figures_unique decorationBefore decorationAfter decorationOpening
    decorationClosing equal
  have points := congrArg (List.count '.') figures
  simp only [count_point_figures, List.length_cons, List.length_nil] at points
  omega

theorem showsLoads_of_failure (failed : returned < 0) (three : numAverages = 3) :
    ShowsLoads host numAverages returned loads useColors usePowerlineLeft
      usePowerlineRight segmentsToRight rightColor := by
  obtain ⟨before, after, around⟩ := loadString_around useColors usePowerlineLeft
    usePowerlineRight segmentsToRight rightColor
  have content := fun initial =>
    loadContent_of_failure host inside loads initial failed
  constructor
  · intro initial
    obtain ⟨decorationBefore, decorationAfter, plain, written⟩ :=
      around _ _ _ (content initial)
    refine ⟨_, written, _, _, [0, 0, 0], decorationBefore, decorationAfter, plain, ?_, ?_, ?_⟩
    · rw [three]
      rfl
    · intro i less
      omega
    · simp only [LoadContent.text, fallback_eq_figuresText]
  · intro initial other
    obtain ⟨_, _, _, written⟩ := around _ _ _ (content initial)
    obtain ⟨_, _, _, otherWritten⟩ := around _ _ _ (content other)
    rw [written, otherWritten]
  · intro initial other
    rw [content initial, content other]

theorem loadText_of_nonneg {averages : Nat → ℚ}
    (nonneg : ∀ i < numAverages.toNat, 0 ≤ averages i) :
    loadText averages numAverages =
      figuresText ((List.range numAverages.toNat).map fun i =>
        roundedHundredths (averages i)) := by
  have count : ((numAverages.toNat : Nat) : Int) = numAverages := by omega
  rw [← loadText_eq averages (by omega) nonneg, count]

/-- What the array held before does not show once all of it is written. -/
theorem loadText_of_full (full : returned = numAverages) (loadsNonneg : ∀ i, 0 ≤ loads i)
    (initial : Nat → ℚ) :
    loadText (answeredAverages returned loads initial) numAverages =
      figuresText ((List.range numAverages.toNat).map fun i =>
        roundedHundredths (loads i)) := by
  have same : ∀ i < numAverages.toNat,
      answeredAverages returned loads initial i = loads i :=
    fun i less => answeredAverages_of_lt loads initial (by omega)
  rw [loadText_of_nonneg inside]
  · congr 1
    apply List.map_congr_left
    intro i member
    rw [same i (List.mem_range.mp member)]
  · intro i less
    rw [same i less]
    exact loadsNonneg i

theorem loadContent_of_full (full : returned = numAverages) {index : Nat}
    (selected : loadColor host loads = .ok index) (initial : Nat → ℚ) :
    loadContent (host.answering returned loads initial) numAverages =
      .ok (.figures (answeredAverages returned loads initial) index) := by
  have first : answeredAverages returned loads initial 0 = loads 0 :=
    answeredAverages_of_lt loads initial (by omega)
  rw [loadContent_of_answer host inside loads initial (by omega), loadColor_congr host first,
    selected]
  rfl

/-- Figures of entries that were not written depend on what they held. -/
theorem full_of_showsLoads (answers : ¬ returned < 0) (atMost : returned ≤ numAverages)
    (processors : host.cpuCount ≠ 0) (loadsNonneg : ∀ i, 0 ≤ loads i)
    (shows : ShowsLoads host numAverages returned loads useColors usePowerlineLeft
      usePowerlineRight segmentsToRight rightColor) : returned = numAverages := by
  by_contra short
  obtain ⟨before, after, around⟩ := loadString_around useColors usePowerlineLeft
    usePowerlineRight segmentsToRight rightColor
  have rendered : ∀ initial : Nat → ℚ, (∀ i, 0 ≤ initial i) →
      ∃ opening closing, Decoration IsSign opening ∧ Decoration IsSign closing ∧
        loadString (host.answering returned loads initial) useColors usePowerlineLeft
            usePowerlineRight numAverages segmentsToRight rightColor =
          .ok (opening ++ figuresText ((List.range numAverages.toNat).map fun i =>
            roundedHundredths (answeredAverages returned loads initial i)) ++ closing) := by
    intro initial initialNonneg
    obtain ⟨index, _, selected⟩ := loadColor_of_cpuCount processors
      (answeredAverages returned loads initial)
    have content := loadContent_of_answer host inside loads initial answers
    rw [selected] at content
    obtain ⟨decorationBefore, decorationAfter, _, written⟩ := around _ _ _ content
    have nonneg : ∀ i, 0 ≤ answeredAverages returned loads initial i :=
      answeredAverages_nonneg loadsNonneg initialNonneg
    simp only [LoadContent.text, loadText_of_nonneg inside fun i _ => nonneg i] at written
    exact ⟨_, _, decorationBefore, decorationAfter, written⟩
  obtain ⟨opening, closing, decorationOpening, decorationClosing, zeros⟩ :=
    rendered (fun _ => 0) fun _ => le_rfl
  obtain ⟨otherOpening, otherClosing, decorationOtherOpening, decorationOtherClosing, ones⟩ :=
    rendered (fun _ => 1) fun _ => zero_le_one
  have equal := shows.string_unique (fun _ => 0) fun _ => 1
  rw [zeros, ones] at equal
  have figures := figures_unique decorationOpening decorationClosing
    decorationOtherOpening decorationOtherClosing (Except.ok.inj equal)
  obtain ⟨written, writtenEq⟩ : ∃ written : Nat, (written : Int) = returned :=
    ⟨returned.toNat, by omega⟩
  obtain ⟨missing, missingEq⟩ : ∃ missing, numAverages.toNat = written + (missing + 1) :=
    ⟨numAverages.toNat - written - 1, by omega⟩
  rw [missingEq, ← writtenEq] at figures
  exact unwritten_figures_differ written missing loads figures

/-- Where the whole array is written, what it held before is not shown. -/
theorem showsLoads_of_full (full : returned = numAverages) (processors : host.cpuCount ≠ 0)
    (loadsNonneg : ∀ i, 0 ≤ loads i) :
    ShowsLoads host numAverages returned loads useColors usePowerlineLeft
      usePowerlineRight segmentsToRight rightColor := by
  obtain ⟨index, _, selected⟩ := loadColor_of_cpuCount processors loads
  obtain ⟨before, after, around⟩ := loadString_around useColors usePowerlineLeft
    usePowerlineRight segmentsToRight rightColor
  have content := loadContent_of_full inside full selected
  have text := loadText_of_full inside full loadsNonneg
  have rendered := fun initial => around _ _ _ (content initial)
  simp only [LoadContent.text, LoadContent.index, text] at rendered
  constructor
  · intro initial
    obtain ⟨decorationBefore, decorationAfter, plain, written⟩ := rendered initial
    refine ⟨_, written, _, _, _, decorationBefore, decorationAfter, plain, ?_, ?_, rfl⟩
    · simp
    · intro i less
      have inRange : i < numAverages.toNat := by omega
      simp [inRange]
  · intro initial other
    rw [(rendered initial).2.2.2, (rendered other).2.2.2]
  · intro initial other
    rw [content initial, content other]
    rfl

end Promise

/-- `load_string` shows what it was given exactly when `getloadavg` has written
all the entries that were asked for, or has failed when asked for three. -/
theorem loadString_showsLoads_iff (host : Host) {numAverages returned : Int}
    {loads : Nat → ℚ} (atLeastOne : 1 ≤ numAverages) (atMostThree : numAverages ≤ 3)
    (atMost : returned ≤ numAverages) (loadsNonneg : ∀ i, 0 ≤ loads i)
    (useColors usePowerlineLeft usePowerlineRight segmentsToRight : Bool)
    (rightColor : Int) :
    ShowsLoads host numAverages returned loads useColors usePowerlineLeft
        usePowerlineRight segmentsToRight rightColor ↔
      (returned = numAverages ∧ host.cpuCount ≠ 0) ∨
        (returned < 0 ∧ numAverages = 3) := by
  have inside : ¬ (numAverages ≤ 0 ∨ numAverages > 3) := by omega
  constructor
  · intro shows
    by_cases failed : returned < 0
    · exact Or.inr ⟨failed, three_of_showsLoads inside failed shows⟩
    · have processors : host.cpuCount ≠ 0 := by
        intro noProcessor
        obtain ⟨string, rendered, _⟩ := shows.figures fun _ => 0
        rw [loadString_of_no_cpu inside loads _ failed noProcessor] at rendered
        cases rendered
      exact Or.inl ⟨full_of_showsLoads inside failed atMost processors loadsNonneg shows,
        processors⟩
  · rintro (⟨full, processors⟩ | ⟨failed, three⟩)
    · exact showsLoads_of_full inside full processors loadsNonneg
    · exact showsLoads_of_failure inside failed three

theorem loadString_showsLoads_sample :
    ShowsLoads sampleHost 2 2 (fun _ => 1) true true false false 0 := by
  refine (loadString_showsLoads_iff sampleHost (by decide) (by decide) (by decide)
    (fun _ => zero_le_one) true true false false 0).mpr (Or.inl ⟨rfl, ?_⟩)
  decide

/-- Only one of two averages is written. -/
theorem not_showsLoads_shortCount :
    ¬ ShowsLoads sampleHost 2 1 (fun _ => 1) false false false false 0 := by
  intro shows
  have full := full_of_showsLoads (by decide) (by decide) (by decide) (by decide)
    (fun _ => zero_le_one) shows
  cases full

end TmuxMemCpuLoad
