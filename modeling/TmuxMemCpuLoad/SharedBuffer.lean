import TmuxMemCpuLoad.ColourBuffer
import TmuxMemCpuLoad.SharedState
import TmuxMemCpuLoad.StatusLine

/-!
# The renderers and the buffer they share

`mem_string`, `cpu_string` and `load_string` all write separators through the
static buffer of `bg2fg`, and C++11 leaves open in which order `main` calls them
in the expression that prints the line.  Here the buffer is handed from call to
call; whatever the order is and whatever the buffer holds, the line is the one
that does not mention the buffer.
-/

namespace TmuxMemCpuLoad

open StandardCxx SharedState

/-- Code that may call `bg2fg`. -/
abbrev Buffered := StateT (List Char) Outcome

def BufferSize (buf : List Char) : Prop :=
  buf.length = 40

def bg2fgShared (color : List Char) : Buffered (List Char) := fun buf => do
  let (buf, text) ← bg2fgCall buf color
  .ok (text, buf)

def powerlineShared (oss : OutputStream) (color : List Char)
    (direction : PowerlineDirection) (backgroundOnly : Bool) : Buffered OutputStream :=
  match direction with
  | .none => pure (oss.put color)
  | .left =>
      if backgroundOnly then do
        let inverted ← bg2fgShared color
        pure ((oss.putChar ' ').put inverted)
      else
        pure ((((oss.put "#[".toList).put (afterComma color)).putChar
          pwlLeftFilled).put color)
  | .right => do
      let inverted ← bg2fgShared color
      pure ((((oss.putChar ' ').put inverted).putChar pwlRightFilled).put color)

def powerlineCharShared (oss : OutputStream) (dynamicColor : List Char)
    (staticColor : Int) (direction : PowerlineDirection) (eol : Bool) :
    Buffered OutputStream :=
  let writeColor := signedText staticColor
  match direction with
  | .none => pure oss
  | .left => do
      let oss ←
        if eol then do
          let inverted ← bg2fgShared dynamicColor
          pure ((((oss.put inverted).put "#[bg=colour".toList).put writeColor).put
            "]".toList)
        else
          pure ((((oss.put dynamicColor).put "#[fg=colour".toList).put
            writeColor).put "]".toList)
      pure ((oss.putChar pwlLeftFilled).put dynamicColor)
  | .right => do
      let oss ←
        if eol then
          pure ((((oss.put dynamicColor).put "#[fg=colour".toList).put
            writeColor).put "] ".toList)
        else do
          let inverted ← bg2fgShared dynamicColor
          pure ((((oss.put inverted).put " #[bg=colour".toList).put
            writeColor).put "]".toList)
      pure ((oss.putChar pwlRightFilled).put dynamicColor)

def openSegmentShared (oss : OutputStream) (lut : List (List Char)) (index : Nat)
    (usePowerlineLeft usePowerlineRight : Bool) : Buffered OutputStream := do
  let color ← StateT.lift (lutEntry lut index)
  if usePowerlineRight then powerlineShared oss color .right false
  else if usePowerlineLeft then powerlineShared oss color .left false
  else powerlineShared oss color .none false

def closeSegmentShared (oss : OutputStream) (lut : List (List Char)) (index : Nat)
    (usePowerlineLeft usePowerlineRight : Bool) : Buffered OutputStream :=
  if usePowerlineLeft then do
    let color ← StateT.lift (lutEntry lut index)
    powerlineShared oss color .left true
  else if !usePowerlineRight then pure (oss.put resetText)
  else pure oss

def openMemoryShared (oss : OutputStream) (color : Nat)
    (usePowerlineLeft usePowerlineRight segmentsToLeft : Bool) (leftColor : Int) :
    Buffered OutputStream := do
  let entry ← StateT.lift (lutEntry memLut color)
  if usePowerlineRight && segmentsToLeft then do
    let oss ← powerlineCharShared oss entry leftColor .right false
    pure (oss.putChar ' ')
  else if usePowerlineRight && !segmentsToLeft then do
    let oss ← powerlineShared (oss.put "#[bg=default]".toList) entry .right false
    pure (oss.putChar ' ')
  else if usePowerlineLeft && segmentsToLeft then do
    let oss ← powerlineCharShared oss entry leftColor .left false
    pure (oss.putChar ' ')
  else if usePowerlineLeft then do
    let oss ← powerlineShared oss entry .none false
    pure (oss.putChar ' ')
  else powerlineShared oss entry .none false

def memStringShared (memStatus : MemoryStatus) (mode : MemoryMode)
    (useColors usePowerlineLeft usePowerlineRight segmentsToLeft : Bool)
    (leftColor : Int) : Buffered (List Char) := do
  let percentage ← StateT.lift (finite (memPercentage memStatus))
  let color := toUnsigned percentage
  let oss ←
    if useColors then
      openMemoryShared memStream color usePowerlineLeft usePowerlineRight
        segmentsToLeft leftColor
    else pure memStream
  let oss := memFigure oss memStatus mode
  let oss ←
    if useColors then closeSegmentShared oss memLut color usePowerlineLeft usePowerlineRight
    else pure oss
  pure oss.written

def cpuStringShared (host : Host) (cpuMode : CpuMode) (cpuUsageDelay graphLines : Nat)
    (useColors usePowerlineLeft usePowerlineRight useVertGraph : Bool) :
    Buffered (List Char) := do
  let reading ← StateT.lift (host.cpuPercentage cpuUsageDelay)
  let multiplier := cpuMultiplier host cpuMode
  let percentage ← StateT.lift (finite reading)
  let percent := toUnsigned percentage
  let oss := cpuStream percentage multiplier
  let oss ←
    if useColors then
      openSegmentShared oss cpuPercentageLut percent usePowerlineLeft usePowerlineRight
    else pure oss
  let oss := cpuFigure oss percentage multiplier graphLines useVertGraph
  let oss ←
    if useColors then
      closeSegmentShared oss cpuPercentageLut percent usePowerlineLeft usePowerlineRight
    else pure oss
  pure oss.written

def closeLoadShared (ss : OutputStream) (loadPercent : Nat)
    (usePowerlineLeft usePowerlineRight segmentsToRight : Bool) (rightColor : Int) :
    Buffered OutputStream :=
  if usePowerlineLeft && segmentsToRight then do
    let entry ← StateT.lift (lutEntry loadLut loadPercent)
    let ss ← powerlineShared ss entry .left true
    powerlineCharShared ss entry rightColor .left true
  else if usePowerlineLeft && !segmentsToRight then do
    let entry ← StateT.lift (lutEntry loadLut loadPercent)
    let ss ← powerlineShared ss entry .left true
    powerlineShared ss resetText .left false
  else if !usePowerlineRight then pure (ss.put resetText)
  else if segmentsToRight && usePowerlineRight then do
    let entry ← StateT.lift (lutEntry loadLut loadPercent)
    powerlineCharShared ss entry rightColor .right true
  else pure ss

def loadStringShared (host : Host) (useColors usePowerlineLeft usePowerlineRight : Bool)
    (numAverages : Int) (segmentsToRight : Bool) (rightColor : Int) :
    Buffered (List Char) :=
  if numAverages ≤ 0 ∨ numAverages > 3 then
    pure (loadStream.putChar '\x00').written
  else
    match host.loadAverages numAverages.toNat with
    | none => pure (loadStream.put " 0.00 0.00 0.00".toList).written
    | some averages => do
        let loadPercent ← StateT.lift (loadColor host averages)
        let ss ←
          if useColors then
            openSegmentShared loadStream loadLut loadPercent usePowerlineLeft
              usePowerlineRight
          else pure loadStream
        let ss := loadFigure ss averages numAverages
        let ss ←
          if useColors then
            closeLoadShared ss loadPercent usePowerlineLeft usePowerlineRight
              segmentsToRight rightColor
          else pure ss
        pure ss.written

/-! ## The line -/

inductive Renderer
  | memory
  | cpu
  | load
  deriving DecidableEq, Repr

/-- The call that `main` makes to a renderer. -/
def Renderer.call (host : Host) (settings : Settings) (memoryStatus : MemoryStatus) :
    Renderer → Buffered (List Char)
  | .memory =>
      memStringShared memoryStatus settings.memMode settings.useColors
        settings.usePowerlineLeft settings.usePowerlineRight settings.segmentsToLeft
        settings.leftColor
  | .cpu =>
      cpuStringShared host settings.cpuMode settings.cpuUsageDelay settings.graphLength
        settings.useColors settings.usePowerlineLeft settings.usePowerlineRight
        settings.useVertGraph
  | .load =>
      loadStringShared host settings.useColors settings.usePowerlineLeft
        settings.usePowerlineRight settings.averagesCount settings.segmentsToRight
        settings.rightColor

/-- What the expression of `main` prints when it calls the renderers in this
order. -/
def statusLineShared (order : List Renderer) (host : Host) (settings : Settings) :
    Buffered (List Char) := do
  let memoryStatus ← StateT.lift host.memStatus
  let texts ← runInOrder (Renderer.call host settings memoryStatus) order
  let shown := fun renderer => (texts.lookup renderer).getD []
  pure (shown .memory ++ shown .cpu ++ shown .load)

/-! ## Each call without the buffer -/

theorem bg2fgShared_implements {color : List Char} (notEnd : nul ∉ color) :
    Implements BufferSize (bg2fgShared color) (bg2fg color) := by
  intro buf size
  obtain ⟨shown, kept⟩ := bg2fgCall_refines size notEnd
  cases called : bg2fgCall buf color with
  | error fault =>
      rw [called] at shown
      refine ⟨?_, ?_⟩
      · rw [bg2fgShared, called, ← shown]
        rfl
      · intro text after returned
        rw [bg2fgShared, called] at returned
        cases returned
  | ok result =>
      obtain ⟨next, text⟩ := result
      rw [called] at shown
      refine ⟨?_, ?_⟩
      · rw [bg2fgShared, called, ← shown]
        rfl
      · intro own after returned
        rw [bg2fgShared, called] at returned
        cases returned
        exact kept next text called

theorem powerlineShared_implements (oss : OutputStream) {color : List Char}
    (notEnd : nul ∉ color) (direction : PowerlineDirection) (backgroundOnly : Bool) :
    Implements BufferSize (powerlineShared oss color direction backgroundOnly)
      (powerline oss color direction backgroundOnly) := by
  have inverts := bg2fgShared_implements notEnd
  cases direction with
  | none => exact implements_pure _
  | left =>
      apply Implements.ite
      · exact fun _ => inverts.bind fun _ _ => implements_pure _
      · exact fun _ => implements_pure _
  | right => exact inverts.bind fun _ _ => implements_pure _

theorem powerlineCharShared_implements (oss : OutputStream) {color : List Char}
    (notEnd : nul ∉ color) (staticColor : Int) (direction : PowerlineDirection)
    (eol : Bool) :
    Implements BufferSize (powerlineCharShared oss color staticColor direction eol)
      (powerlineChar oss color staticColor direction eol) := by
  have inverts := bg2fgShared_implements notEnd
  cases direction with
  | none => exact implements_pure _
  | left =>
      apply Implements.ite
      · exact fun _ => inverts.bind fun _ _ => implements_pure _
      · exact fun _ => implements_pure _
  | right =>
      apply Implements.ite
      · exact fun _ => implements_pure _
      · exact fun _ => inverts.bind fun _ _ => implements_pure _

theorem memLut_notEnd : ∀ entry ∈ memLut, nul ∉ entry :=
  forall_mem_fromRuns (by decide +kernel)

theorem cpuPercentageLut_notEnd : ∀ entry ∈ cpuPercentageLut, nul ∉ entry :=
  forall_mem_fromRuns (by decide +kernel)

theorem loadLut_notEnd : ∀ entry ∈ loadLut, nul ∉ entry :=
  forall_mem_fromRuns (by decide +kernel)

theorem mem_of_lutEntry {lut : List (List Char)} {index : Nat} {entry : List Char}
    (found : lutEntry lut index = .ok entry) : entry ∈ lut := by
  unfold lutEntry at found
  split at found
  · next own read =>
      cases found
      exact List.mem_of_getElem? read
  · cases found

/-- Code that reads an entry of a table, none of which has a NUL in it. -/
theorem lutEntry_implements {lut : List (List Char)} (notEnd : ∀ entry ∈ lut, nul ∉ entry)
    (index : Nat) {next : List Char → Buffered OutputStream}
    {plainNext : List Char → Outcome OutputStream}
    (rest : ∀ entry, nul ∉ entry → Implements BufferSize (next entry) (plainNext entry)) :
    Implements BufferSize (StateT.lift (lutEntry lut index) >>= next)
      (lutEntry lut index >>= plainNext) :=
  (implements_lift _).bind fun entry found => rest entry (notEnd entry (mem_of_lutEntry found))

theorem openSegmentShared_implements (oss : OutputStream) {lut : List (List Char)}
    (notEnd : ∀ entry ∈ lut, nul ∉ entry) (index : Nat)
    (usePowerlineLeft usePowerlineRight : Bool) :
    Implements BufferSize
      (openSegmentShared oss lut index usePowerlineLeft usePowerlineRight)
      (openSegment oss lut index usePowerlineLeft usePowerlineRight) := by
  apply lutEntry_implements notEnd
  intro entry free
  apply Implements.ite
  · exact fun _ => powerlineShared_implements oss free _ _
  · intro _
    apply Implements.ite
    · exact fun _ => powerlineShared_implements oss free _ _
    · exact fun _ => powerlineShared_implements oss free _ _

theorem closeSegmentShared_implements (oss : OutputStream) {lut : List (List Char)}
    (notEnd : ∀ entry ∈ lut, nul ∉ entry) (index : Nat)
    (usePowerlineLeft usePowerlineRight : Bool) :
    Implements BufferSize
      (closeSegmentShared oss lut index usePowerlineLeft usePowerlineRight)
      (closeSegment oss lut index usePowerlineLeft usePowerlineRight) := by
  apply Implements.ite
  · intro _
    apply lutEntry_implements notEnd
    exact fun entry free => powerlineShared_implements oss free _ _
  · intro _
    apply Implements.ite
    · exact fun _ => implements_pure _
    · exact fun _ => implements_pure _

theorem openMemoryShared_implements (oss : OutputStream) (color : Nat)
    (usePowerlineLeft usePowerlineRight segmentsToLeft : Bool) (leftColor : Int) :
    Implements BufferSize
      (openMemoryShared oss color usePowerlineLeft usePowerlineRight segmentsToLeft leftColor)
      (openMemory oss color usePowerlineLeft usePowerlineRight segmentsToLeft leftColor) := by
  apply lutEntry_implements memLut_notEnd
  intro entry free
  have separator := fun oss direction =>
    powerlineShared_implements oss free direction false
  have segment := fun direction =>
    powerlineCharShared_implements oss free leftColor direction false
  apply Implements.ite
  · exact fun _ => (segment .right).bind fun _ _ => implements_pure _
  · intro _
    apply Implements.ite
    · exact fun _ => (separator _ .right).bind fun _ _ => implements_pure _
    · intro _
      apply Implements.ite
      · exact fun _ => (segment .left).bind fun _ _ => implements_pure _
      · intro _
        apply Implements.ite
        · exact fun _ => (separator _ .none).bind fun _ _ => implements_pure _
        · exact fun _ => separator _ .none

theorem closeLoadShared_implements (ss : OutputStream) (loadPercent : Nat)
    (usePowerlineLeft usePowerlineRight segmentsToRight : Bool) (rightColor : Int) :
    Implements BufferSize
      (closeLoadShared ss loadPercent usePowerlineLeft usePowerlineRight segmentsToRight
        rightColor)
      (closeLoad ss loadPercent usePowerlineLeft usePowerlineRight segmentsToRight
        rightColor) := by
  have reset : nul ∉ resetText := by decide
  apply Implements.ite
  · intro _
    apply lutEntry_implements loadLut_notEnd
    intro entry free
    exact (powerlineShared_implements ss free _ _).bind fun _ _ =>
      powerlineCharShared_implements _ free _ _ _
  · intro _
    apply Implements.ite
    · intro _
      apply lutEntry_implements loadLut_notEnd
      intro entry free
      exact (powerlineShared_implements ss free _ _).bind fun _ _ =>
        powerlineShared_implements _ reset _ _
    · intro _
      apply Implements.ite
      · exact fun _ => implements_pure _
      · intro _
        apply Implements.ite
        · intro _
          apply lutEntry_implements loadLut_notEnd
          exact fun entry free => powerlineCharShared_implements _ free _ _ _
        · exact fun _ => implements_pure _

theorem memStringShared_implements (memStatus : MemoryStatus) (mode : MemoryMode)
    (useColors usePowerlineLeft usePowerlineRight segmentsToLeft : Bool)
    (leftColor : Int) :
    Implements BufferSize
      (memStringShared memStatus mode useColors usePowerlineLeft usePowerlineRight
        segmentsToLeft leftColor)
      (memString memStatus mode useColors usePowerlineLeft usePowerlineRight
        segmentsToLeft leftColor) := by
  apply (implements_lift _).bind
  intro percentage _
  refine Implements.ite_bind ?_ ?_ fun oss => Implements.ite_bind ?_ ?_ fun _ => ?_
  · exact fun _ => openMemoryShared_implements _ _ _ _ _ _
  · exact fun _ => implements_pure _
  · exact fun _ => closeSegmentShared_implements _ memLut_notEnd _ _ _
  · exact fun _ => implements_pure _
  · exact implements_pure _

theorem cpuStringShared_implements (host : Host) (cpuMode : CpuMode)
    (cpuUsageDelay graphLines : Nat)
    (useColors usePowerlineLeft usePowerlineRight useVertGraph : Bool) :
    Implements BufferSize
      (cpuStringShared host cpuMode cpuUsageDelay graphLines useColors usePowerlineLeft
        usePowerlineRight useVertGraph)
      (cpuString host cpuMode cpuUsageDelay graphLines useColors usePowerlineLeft
        usePowerlineRight useVertGraph) := by
  apply (implements_lift _).bind
  intro reading _
  apply (implements_lift _).bind
  intro percentage _
  refine Implements.ite_bind ?_ ?_ fun oss => Implements.ite_bind ?_ ?_ fun _ => ?_
  · exact fun _ => openSegmentShared_implements _ cpuPercentageLut_notEnd _ _ _
  · exact fun _ => implements_pure _
  · exact fun _ => closeSegmentShared_implements _ cpuPercentageLut_notEnd _ _ _
  · exact fun _ => implements_pure _
  · exact implements_pure _

theorem loadStringShared_implements (host : Host)
    (useColors usePowerlineLeft usePowerlineRight : Bool) (numAverages : Int)
    (segmentsToRight : Bool) (rightColor : Int) :
    Implements BufferSize
      (loadStringShared host useColors usePowerlineLeft usePowerlineRight numAverages
        segmentsToRight rightColor)
      (loadString host useColors usePowerlineLeft usePowerlineRight numAverages
        segmentsToRight rightColor) := by
  apply Implements.ite
  · exact fun _ => implements_pure _
  · intro _
    cases host.loadAverages numAverages.toNat with
    | none => exact implements_pure _
    | some averages =>
        apply (implements_lift _).bind
        intro loadPercent _
        refine Implements.ite_bind ?_ ?_ fun ss => Implements.ite_bind ?_ ?_ fun _ => ?_
        · exact fun _ => openSegmentShared_implements _ loadLut_notEnd _ _ _
        · exact fun _ => implements_pure _
        · exact fun _ => closeLoadShared_implements _ _ _ _ _ _
        · exact fun _ => implements_pure _
        · exact implements_pure _

/-! ## The line without the buffer -/

section Line

variable {host : Host} {settings : Settings}

/-- What a renderer returns, without the buffer. -/
def Renderer.string (host : Host) (settings : Settings) (memoryStatus : MemoryStatus) :
    Renderer → Outcome (List Char)
  | .memory =>
      memString memoryStatus settings.memMode settings.useColors settings.usePowerlineLeft
        settings.usePowerlineRight settings.segmentsToLeft settings.leftColor
  | .cpu =>
      cpuString host settings.cpuMode settings.cpuUsageDelay settings.graphLength
        settings.useColors settings.usePowerlineLeft settings.usePowerlineRight
        settings.useVertGraph
  | .load =>
      loadString host settings.useColors settings.usePowerlineLeft
        settings.usePowerlineRight settings.averagesCount settings.segmentsToRight
        settings.rightColor

theorem Renderer.call_implements (memoryStatus : MemoryStatus) (renderer : Renderer) :
    Implements BufferSize (renderer.call host settings memoryStatus)
      (renderer.string host settings memoryStatus) := by
  cases renderer with
  | memory => exact memStringShared_implements _ _ _ _ _ _ _
  | cpu => exact cpuStringShared_implements _ _ _ _ _ _ _ _
  | load => exact loadStringShared_implements _ _ _ _ _ _ _

theorem statusLine_eq_bind :
    statusLine host settings =
      (host.memStatus >>= fun memoryStatus =>
        Renderer.string host settings memoryStatus .memory >>= fun memory =>
          Renderer.string host settings memoryStatus .cpu >>= fun cpu =>
            Renderer.string host settings memoryStatus .load >>= fun load =>
              .ok (memory ++ cpu ++ load)) :=
  rfl

/-- A line consists of the three texts. -/
theorem exists_texts {line : List Char} (rendered : statusLine host settings = .ok line) :
    ∃ memoryStatus, ∃ texts : Renderer → List Char, host.memStatus = .ok memoryStatus ∧
      (∀ renderer : Renderer, renderer.string host settings memoryStatus = .ok (texts renderer)) ∧
      line = texts .memory ++ texts .cpu ++ texts .load := by
  rw [statusLine_eq_bind] at rendered
  obtain ⟨memoryStatus, read, rendered⟩ := Outcome.bind_eq_ok rendered
  obtain ⟨memory, memoryEq, rendered⟩ := Outcome.bind_eq_ok rendered
  obtain ⟨cpu, cpuEq, rendered⟩ := Outcome.bind_eq_ok rendered
  obtain ⟨load, loadEq, rendered⟩ := Outcome.bind_eq_ok rendered
  refine ⟨memoryStatus, fun | .memory => memory | .cpu => cpu | .load => load, read, ?_,
    (Except.ok.inj rendered).symm⟩
  intro renderer
  cases renderer
  · exact memoryEq
  · exact cpuEq
  · exact loadEq

/-- A line that is not rendered has a text that is not. -/
theorem exists_fault {memoryStatus : MemoryStatus} (read : host.memStatus = .ok memoryStatus)
    {fault : Fault} (failed : statusLine host settings = .error fault) :
    ∃ renderer : Renderer, ∃ own, renderer.string host settings memoryStatus = .error own := by
  by_contra none
  push Not at none
  have returns : ∀ renderer : Renderer, ∃ text,
      renderer.string host settings memoryStatus = .ok text := by
    intro renderer
    cases result : renderer.string host settings memoryStatus with
    | error own => exact absurd result (none renderer own)
    | ok text => exact ⟨text, rfl⟩
  obtain ⟨memory, memoryEq⟩ := returns .memory
  obtain ⟨cpu, cpuEq⟩ := returns .cpu
  obtain ⟨load, loadEq⟩ := returns .load
  rw [statusLine_eq_bind, read, Outcome.ok_bind, memoryEq, Outcome.ok_bind, cpuEq,
    Outcome.ok_bind, loadEq] at failed
  cases failed

/-- In every order of the renderers, and whatever the buffer holds before, the
line is the same, and no call leaves the buffer; a fault stays a fault. -/
theorem statusLineShared_order (host : Host) (settings : Settings) {order : List Renderer}
    (each : order.Perm [.memory, .cpu, .load]) {buf : List Char} (size : BufferSize buf) :
    (∀ line, statusLine host settings = .ok line →
      ∃ after, BufferSize after ∧ statusLineShared order host settings buf = .ok (line, after)) ∧
      ∀ fault, statusLine host settings = .error fault →
        ∃ other, statusLineShared order host settings buf = .error other := by
  have member : ∀ renderer : Renderer, renderer ∈ order := by
    intro renderer
    rw [each.mem_iff]
    cases renderer <;> simp
  have step : statusLineShared order host settings buf =
      (host.memStatus >>= fun memoryStatus =>
        runInOrder (Renderer.call host settings memoryStatus) order buf >>= fun texts =>
          .ok ((texts.1.lookup Renderer.memory).getD [] ++ (texts.1.lookup .cpu).getD [] ++
            (texts.1.lookup .load).getD [], texts.2)) := by
    unfold statusLineShared
    cases host.memStatus <;> rfl
  rw [step]
  constructor
  · intro line rendered
    obtain ⟨memoryStatus, texts, read, returns, rfl⟩ := exists_texts rendered
    obtain ⟨after, kept, ran⟩ := runInOrder_of_ok (Renderer.call_implements memoryStatus)
      order (fun renderer _ => returns renderer) size
    refine ⟨after, kept, ?_⟩
    rw [read, Outcome.ok_bind, ran, Outcome.ok_bind]
    simp only [lookup_map_pair texts (member _), Option.getD_some]
  · intro fault failed
    cases read : host.memStatus with
    | error own => exact ⟨own, rfl⟩
    | ok memoryStatus =>
        obtain ⟨renderer, own, stopped⟩ := exists_fault read failed
        obtain ⟨other, ran⟩ := runInOrder_of_error (Renderer.call_implements memoryStatus)
          ⟨renderer, member renderer, own, stopped⟩ size
        exact ⟨other, by rw [Outcome.ok_bind, ran]; rfl⟩

end Line

/-- Colours and separators on both sides, for which `powerline` calls `bg2fg`. -/
def powerlineSettings : Settings where
  cpuUsageDelay := 990000
  averagesCount := 3
  graphLines := 10
  leftColor := 0
  rightColor := 0
  useColors := true
  usePowerlineLeft := true
  usePowerlineRight := true
  useVertGraph := false
  segmentsToLeft := true
  segmentsToRight := true
  memMode := .default
  cpuMode := .default
  signedOverflow := false

/-- The load segment first, after a call that has left a longer text. -/
theorem statusLineShared_order_sample :
    [Renderer.load, .cpu, .memory].Perm [.memory, .cpu, .load] ∧
      BufferSize (List.replicate 40 'x') ∧
      ∃ line, statusLine sampleHost powerlineSettings = .ok line ∧
        ∃ after, BufferSize after ∧
          statusLineShared [.load, .cpu, .memory] sampleHost powerlineSettings
            (List.replicate 40 'x') = .ok (line, after) := by
  have each : [Renderer.load, .cpu, .memory].Perm [.memory, .cpu, .load] := by decide
  have size : BufferSize (List.replicate 40 'x') := List.length_replicate
  have rendered :=
    (sampleReading powerlineSettings _ sampleHost_loadContent).statusLine_coloured rfl
  exact ⟨each, size, _, rendered,
    (statusLineShared_order sampleHost powerlineSettings each size).1 _ rendered⟩

end TmuxMemCpuLoad
