import TmuxMemCpuLoad.Metrics
import TmuxMemCpuLoad.Segments

/-!
# The load segment

`load_string` writes a null character when no averages are asked for, a fixed
text when the averages cannot be read, and otherwise the coloured segment with
one figure for each average.
-/

namespace TmuxMemCpuLoad

open StandardCxx StyledText

/-- The colour index of `load_string`, limited to 100. -/
def loadColor (host : Host) (averages : Nat → ℚ) : Outcome Nat := do
  let load ← finite (host.loadPercentage averages)
  let loadPercent := toUnsigned load
  .ok (if loadPercent > 100 then 100 else loadPercent)

/-- One pass of the loop over the averages: the average rounded to two
decimals, with a blank after all but the last. -/
def putAverage (averages : Nat → ℚ) (numAverages : Int) (ss : OutputStream)
    (i : Nat) : OutputStream :=
  let avg : ℚ := ⌊averages i * 100 + 1 / 2⌋ / 100
  if (i : Int) = numAverages - 1 then ss.putFloat avg
  else (ss.putFloat avg).put " ".toList

def loadFigure (ss : OutputStream) (averages : Nat → ℚ) (numAverages : Int) :
    OutputStream :=
  (List.range numAverages.toNat).foldl (putAverage averages numAverages)
    (ss.putChar ' ')

def closeLoad (ss : OutputStream) (loadPercent : Nat)
    (usePowerlineLeft usePowerlineRight segmentsToRight : Bool) (rightColor : Int) :
    Outcome OutputStream :=
  if usePowerlineLeft && segmentsToRight then do
    let entry ← lutEntry loadLut loadPercent
    let ss ← powerline ss entry .left true
    powerlineChar ss entry rightColor .left true
  else if usePowerlineLeft && !segmentsToRight then do
    let entry ← lutEntry loadLut loadPercent
    let ss ← powerline ss entry .left true
    powerline ss resetText .left false
  else if !usePowerlineRight then .ok (ss.put resetText)
  else if segmentsToRight && usePowerlineRight then do
    let entry ← lutEntry loadLut loadPercent
    powerlineChar ss entry rightColor .right true
  else .ok ss

def loadStream : OutputStream :=
  (OutputStream.fresh.setFixed).setPrecision 2

def loadString (host : Host) (useColors usePowerlineLeft usePowerlineRight : Bool)
    (numAverages : Int) (segmentsToRight : Bool) (rightColor : Int) :
    Outcome (List Char) :=
  if numAverages ≤ 0 ∨ numAverages > 3 then
    .ok (loadStream.putChar '\x00').written
  else
    match host.loadAverages numAverages.toNat with
    | none => .ok (loadStream.put " 0.00 0.00 0.00".toList).written
    | some averages => do
        let loadPercent ← loadColor host averages
        let ss ←
          if useColors then
            openSegment loadStream loadLut loadPercent usePowerlineLeft usePowerlineRight
          else .ok loadStream
        let ss := loadFigure ss averages numAverages
        let ss ←
          if useColors then
            closeLoad ss loadPercent usePowerlineLeft usePowerlineRight
              segmentsToRight rightColor
          else .ok ss
        .ok ss.written

/-! ## The figure and the colours around it -/

def loadText (averages : Nat → ℚ) (numAverages : Int) : List Char :=
  (loadFigure loadStream averages numAverages).written

def closeLoadText (style : Style)
    (usePowerlineLeft usePowerlineRight segmentsToRight : Bool) (rightColor : Int) :
    List Char :=
  if usePowerlineLeft && segmentsToRight then
    powerlineText style .left true ++ powerlineCharText style rightColor .left true
  else if usePowerlineLeft then
    powerlineText style .left true ++ powerlineText defaultStyle .left false
  else if !usePowerlineRight then colourText defaultStyle
  else if segmentsToRight then powerlineCharText style rightColor .right true
  else []

theorem loadColor_le {host : Host} {averages : Nat → ℚ} {index : Nat}
    (selected : loadColor host averages = .ok index) : index ≤ 100 := by
  obtain ⟨load, _, limited⟩ := Outcome.bind_eq_ok selected
  simp only [Except.ok.injEq] at limited
  split at limited <;> omega

theorem closeLoad_eq {ss : OutputStream} {loadPercent : Nat} (noWidth : ss.width = 0)
    (atMost : loadPercent ≤ 100)
    (usePowerlineLeft usePowerlineRight segmentsToRight : Bool) (rightColor : Int) :
    closeLoad ss loadPercent usePowerlineLeft usePowerlineRight segmentsToRight
      rightColor =
      .ok (ss.append (closeLoadText (lutStyle loadLut loadPercent) usePowerlineLeft
        usePowerlineRight segmentsToRight rightColor)) := by
  obtain ⟨entry, found, sets⟩ := loadLut_wellFormed.lutEntry_of_le atMost
  cases usePowerlineLeft <;> cases segmentsToRight <;> cases usePowerlineRight <;>
    simp [closeLoad, closeLoadText, found, powerline_eq sets, powerlineChar_eq sets,
      powerline_eq reset_setsStyle, noWidth, OutputStream.put_eq_append,
      ← reset_setsStyle.text_eq]

theorem closeLoad_plain (ss : OutputStream) (loadPercent : Nat) (segmentsToRight : Bool)
    (rightColor : Int) :
    closeLoad ss loadPercent false false segmentsToRight rightColor =
      .ok (ss.put resetText) :=
  rfl

theorem putAverage_oblivious (averages : Nat → ℚ) (numAverages : Int) (i : Nat) :
    OutputStream.Oblivious fun ss => putAverage averages numAverages ss i := by
  intro before ss
  unfold putAverage
  simp only []
  split_ifs <;> simp only [OutputStream.oblivious_putFloat _ before,
    OutputStream.oblivious_put _ before]

theorem putAverages_oblivious (averages : Nat → ℚ) (numAverages : Int)
    (indices : List Nat) :
    OutputStream.Oblivious fun ss =>
      indices.foldl (putAverage averages numAverages) ss := by
  induction indices with
  | nil => exact OutputStream.oblivious_id
  | cons i indices induction =>
      exact (putAverage_oblivious averages numAverages i).comp induction

theorem loadFigure_oblivious (averages : Nat → ℚ) (numAverages : Int) :
    OutputStream.Oblivious fun ss => loadFigure ss averages numAverages :=
  (OutputStream.oblivious_putChar ' ').comp
    (putAverages_oblivious averages numAverages _)

theorem putAverage_width (averages : Nat → ℚ) (numAverages : Int) (ss : OutputStream)
    (i : Nat) : (putAverage averages numAverages ss i).width = 0 := by
  unfold putAverage
  simp only []
  split_ifs <;> rfl

theorem putAverages_width (averages : Nat → ℚ) (numAverages : Int)
    (indices : List Nat) {ss : OutputStream} (noWidth : ss.width = 0) :
    (indices.foldl (putAverage averages numAverages) ss).width = 0 := by
  induction indices generalizing ss with
  | nil => exact noWidth
  | cons i indices induction => exact induction (putAverage_width _ _ _ _)

theorem loadFigure_width (ss : OutputStream) (averages : Nat → ℚ) (numAverages : Int) :
    (loadFigure ss averages numAverages).width = 0 :=
  putAverages_width averages numAverages _ rfl

/-! ## What is shown -/

/-- What `load_string` shows: a fixed text, or figures in the colours of a
table index. -/
inductive LoadContent
  | fallback (text : List Char)
  | figures (averages : Nat → ℚ) (index : Nat)

/-- The content that the count and the answer of `getloadavg` lead to. -/
def loadContent (host : Host) (numAverages : Int) : Outcome LoadContent :=
  if numAverages ≤ 0 ∨ numAverages > 3 then .ok (.fallback ['\x00'])
  else
    match host.loadAverages numAverages.toNat with
    | none => .ok (.fallback " 0.00 0.00 0.00".toList)
    | some averages => do
        let index ← loadColor host averages
        .ok (.figures averages index)

namespace LoadContent

/-- The table index, if there is one. -/
def index : LoadContent → Option Nat
  | .fallback _ => none
  | .figures _ index => some index

def text (numAverages : Int) : LoadContent → List Char
  | .fallback text => text
  | .figures averages _ => loadText averages numAverages

end LoadContent

/-- The colours before the figures of a table index, and no text before a
fallback. -/
def openLoadText (usePowerlineLeft usePowerlineRight : Bool) : Option Nat → List Char
  | none => []
  | some index => openText (lutStyle loadLut index) usePowerlineLeft usePowerlineRight

/-- The colours after the figures of a table index, and no text after a
fallback. -/
def endLoadText (usePowerlineLeft usePowerlineRight segmentsToRight : Bool)
    (rightColor : Int) : Option Nat → List Char
  | none => []
  | some index =>
      closeLoadText (lutStyle loadLut index) usePowerlineLeft usePowerlineRight
        segmentsToRight rightColor

theorem loadContent_cases {host : Host} {numAverages : Int} {content : LoadContent}
    (shown : loadContent host numAverages = .ok content) :
    ((numAverages ≤ 0 ∨ numAverages > 3) ∧ content = .fallback ['\x00']) ∨
    (¬ (numAverages ≤ 0 ∨ numAverages > 3) ∧
      host.loadAverages numAverages.toNat = none ∧
      content = .fallback " 0.00 0.00 0.00".toList) ∨
    (¬ (numAverages ≤ 0 ∨ numAverages > 3) ∧
      ∃ averages index, host.loadAverages numAverages.toNat = some averages ∧
        loadColor host averages = .ok index ∧ content = .figures averages index) := by
  unfold loadContent at shown
  by_cases outside : numAverages ≤ 0 ∨ numAverages > 3
  · rw [if_pos outside] at shown
    exact Or.inl ⟨outside, by cases shown; rfl⟩
  · rw [if_neg outside] at shown
    cases read : host.loadAverages numAverages.toNat with
    | none =>
        rw [read] at shown
        exact Or.inr (Or.inl ⟨outside, rfl, by cases shown; rfl⟩)
    | some averages =>
        rw [read] at shown
        obtain ⟨index, selected, shown⟩ := Outcome.bind_eq_ok shown
        exact Or.inr (Or.inr
          ⟨outside, averages, index, rfl, selected, by cases shown; rfl⟩)

theorem loadContent_index_le {host : Host} {numAverages : Int} {content : LoadContent}
    (shown : loadContent host numAverages = .ok content) :
    ∀ index ∈ content.index, index ≤ 100 := by
  intro index member
  rcases loadContent_cases shown with ⟨_, rfl⟩ | ⟨_, _, rfl⟩ |
    ⟨_, averages, color, _, selected, rfl⟩
  · cases member
  · cases member
  · cases member
    exact loadColor_le selected

section Strings

variable {host : Host} {numAverages : Int} {content : LoadContent}

/-- Without colours the string is the text of the content. -/
theorem loadString_plain (usePowerlineLeft usePowerlineRight : Bool)
    (segmentsToRight : Bool) (rightColor : Int)
    (shown : loadContent host numAverages = .ok content) :
    loadString host false usePowerlineLeft usePowerlineRight numAverages
      segmentsToRight rightColor = .ok (content.text numAverages) := by
  rcases loadContent_cases shown with ⟨outside, rfl⟩ | ⟨inside, read, rfl⟩ |
    ⟨inside, averages, index, read, selected, rfl⟩
  · rw [loadString, if_pos outside]
    rfl
  · rw [loadString, if_neg inside, read]
    rfl
  · simp [loadString, inside, read, selected, LoadContent.text, loadText]

/-- With colours the text stands between two texts that depend on the load
through the table index only. -/
theorem loadString_coloured (usePowerlineLeft usePowerlineRight : Bool)
    (segmentsToRight : Bool) (rightColor : Int)
    (shown : loadContent host numAverages = .ok content) :
    loadString host true usePowerlineLeft usePowerlineRight numAverages
      segmentsToRight rightColor =
      .ok (openLoadText usePowerlineLeft usePowerlineRight content.index ++
        content.text numAverages ++
        endLoadText usePowerlineLeft usePowerlineRight segmentsToRight rightColor
          content.index) := by
  rcases loadContent_cases shown with ⟨outside, rfl⟩ | ⟨inside, read, rfl⟩ |
    ⟨inside, averages, index, read, selected, rfl⟩
  · rw [loadString, if_pos outside]
    rfl
  · rw [loadString, if_neg inside, read]
    rfl
  · have atMost := loadColor_le selected
    have start : loadStream.width = 0 := rfl
    have moved := loadFigure_oblivious averages numAverages
      (openText (lutStyle loadLut index) usePowerlineLeft usePowerlineRight) loadStream
    rw [OutputStream.onto_eq_append_of_written_nil rfl] at moved
    simp only [loadString, if_neg inside, read, selected, Outcome.ok_bind, if_true,
      openSegment_eq loadLut_wellFormed atMost start, moved]
    rw [closeLoad_eq (by simp [loadFigure_width]) atMost]
    simp [LoadContent.text, LoadContent.index, openLoadText, endLoadText, loadText]

end Strings

theorem loadStream_writesOnly : loadStream.WritesOnly FigureChar where
  written := by simp [loadStream, OutputStream.fresh, OutputStream.setPrecision,
    OutputStream.setFixed]
  fill := by decide
  fixed := rfl

theorem putAverages_writesOnly {ss : OutputStream} (writes : ss.WritesOnly FigureChar)
    (averages : Nat → ℚ) (numAverages : Int) (indices : List Nat) :
    (indices.foldl (putAverage averages numAverages) ss).WritesOnly FigureChar := by
  have numbers := fun char => @figureChar_of_fixedChar char
  have blank : ∀ char ∈ " ".toList, FigureChar char := forall_mem_of_all (by decide)
  induction indices generalizing ss with
  | nil => exact writes
  | cons i indices induction =>
      apply induction
      unfold putAverage
      simp only []
      split_ifs
      · exact writes.putFloat numbers _
      · exact (writes.putFloat numbers _).put blank

theorem figureChar_of_mem_loadText {averages : Nat → ℚ} {numAverages : Int}
    {char : Char} (member : char ∈ loadText averages numAverages) : FigureChar char :=
  (putAverages_writesOnly (loadStream_writesOnly.putChar (by decide)) averages
    numAverages _).written char member

theorem figureChar_of_mem_content {host : Host} {numAverages : Int}
    {content : LoadContent} (shown : loadContent host numAverages = .ok content)
    {char : Char} (member : char ∈ content.text numAverages) : FigureChar char := by
  have fallback : ∀ char ∈ " 0.00 0.00 0.00".toList, FigureChar char :=
    forall_mem_of_all (by decide)
  rcases loadContent_cases shown with ⟨_, rfl⟩ | ⟨_, _, rfl⟩ |
    ⟨_, averages, index, _, _, rfl⟩
  · rw [List.mem_singleton.mp member]
    decide
  · exact fallback char member
  · exact figureChar_of_mem_loadText member

end TmuxMemCpuLoad
