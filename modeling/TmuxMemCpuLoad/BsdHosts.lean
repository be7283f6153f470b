import TmuxMemCpuLoad.BsdRuns
import TmuxMemCpuLoad.CommandLine

/-!
# The hosts behind the system calls

A host describes the calls of a run when its metrics are those that the replies
report.  What a run prints is then what the program prints on that host, or the
beginning of it when a call fails.
-/

namespace TmuxMemCpuLoad

open StandardCxx Dialogue GetoptLong

/-- Consecutive exchanges of which none is a failure. -/
structure IsPart (part exchanges : List KernelExchange) : Prop where
  inside : part <:+: exchanges
  succeed : ∀ exchange ∈ part, ¬ Fails exchange

theorem IsPart.trans {part middle exchanges : List KernelExchange} (smaller : part <:+: middle)
    (isPart : IsPart middle exchanges) : IsPart part exchanges :=
  ⟨smaller.trans isPart.inside, fun exchange member => isPart.succeed exchange (smaller.subset member)⟩

/-- The metrics of the host are those that the replies report. -/
structure Describes (system : BsdSystem) (libc : Libc) (host : Host)
    (exchanges : List KernelExchange) : Prop where
  memStatus : ∀ part memoryStatus, IsPart part exchanges →
    system.ReportsStatus part memoryStatus → host.memStatus = .ok memoryStatus
  cpuPercentage : ∀ part percentage, IsPart part exchanges →
    system.ReportsPercentage part percentage → ∀ cpuUsageDelay,
      host.cpuPercentage cpuUsageDelay = .ok percentage
  cpuCount : ∀ part cpuCount, IsPart part exchanges →
    system.ReportsCount part cpuCount → host.cpuCount = cpuCount
  averages : host.averages = libc.averages
  getloadavg : host.getloadavg = libc.getloadavg

section Strings

variable {system : BsdSystem} {libc : Libc} {settings : Settings} {host : Host}
  {exchanges : List KernelExchange}

theorem cpuString_congr {other : Host} (settings : Settings) (memoryStatus : MemoryStatus)
    (percentage : host.cpuPercentage settings.cpuUsageDelay =
      other.cpuPercentage settings.cpuUsageDelay)
    (multiplier : cpuMultiplier host settings.cpuMode = cpuMultiplier other settings.cpuMode) :
    Renderer.string host settings memoryStatus .cpu =
      Renderer.string other settings memoryStatus .cpu := by
  rw [Renderer.string, Renderer.string, cpuString, cpuString, percentage, multiplier]

theorem loadString_congr {other : Host} (settings : Settings) (memoryStatus : MemoryStatus)
    (averages : host.loadAverages settings.averagesCount.toNat =
      other.loadAverages settings.averagesCount.toNat)
    (cpuCount : ¬ (settings.averagesCount ≤ 0 ∨ settings.averagesCount > 3) →
      (host.loadAverages settings.averagesCount.toNat).isSome → host.cpuCount = other.cpuCount) :
    Renderer.string host settings memoryStatus .load =
      Renderer.string other settings memoryStatus .load := by
  rw [Renderer.string, Renderer.string, loadString, loadString]
  by_cases outside : settings.averagesCount ≤ 0 ∨ settings.averagesCount > 3
  · rw [if_pos outside, if_pos outside]
  · rw [if_neg outside, if_neg outside, ← averages]
    cases read : host.loadAverages settings.averagesCount.toNat with
    | none => rfl
    | some figures =>
        have same : loadColor host figures = loadColor other figures := by
          rw [loadColor, loadColor, Host.loadPercentage, Host.loadPercentage,
            cpuCount outside (by rw [read]; rfl)]
        simp only [same]

theorem hasAverages_of_isSome (describes : Describes system libc host exchanges)
    (inside : ¬ (settings.averagesCount ≤ 0 ∨ settings.averagesCount > 3))
    (some : (host.loadAverages settings.averagesCount.toNat).isSome) :
    libc.HasAverages settings := by
  refine ⟨inside, ?_⟩
  intro negative
  rw [← describes.averages, ← describes.getloadavg] at negative
  simp [Host.loadAverages, negative] at some

/-- What a renderer returns for some replies is what it returns on a host that
describes them. -/
theorem Describes.string_eq (describes : Describes system libc host exchanges)
    {memoryStatus : MemoryStatus} {renderer : Renderer} {part : List KernelExchange}
    {outcome : Outcome (List Char)} (isPart : IsPart part exchanges)
    (gives : renderer.Gives system libc settings memoryStatus part outcome) :
    renderer.string host settings memoryStatus = outcome := by
  cases gives with
  | memory => rfl
  | @cpu made later percentage cpuCount reports counts =>
      apply cpuString_congr
      · exact describes.cpuPercentage made percentage
          (isPart.trans (List.prefix_append made later).isInfix) reports _
      · unfold cpuMultiplier
        split_ifs with threads
        · rw [describes.cpuCount later cpuCount
            (isPart.trans (List.suffix_append made later).isInfix) (counts.reports threads)]
          rfl
        · rfl
  | @load _ cpuCount counts =>
      apply loadString_congr
      · rw [Host.loadAverages, describes.averages, describes.getloadavg]
        rfl
      · intro inside some
        exact describes.cpuCount part cpuCount isPart
          (counts.reports (hasAverages_of_isSome describes inside some))

section Progress

variable {memoryStatus : MemoryStatus} {before : List Renderer} {texts : Renderer → List Char}
  {made : List KernelExchange}
  (progress : Progress system libc settings memoryStatus before texts made)
  (describes : Describes system libc host exchanges) (isPart : IsPart made exchanges)
include progress describes isPart

theorem Progress.memStatus_eq : host.memStatus = .ok memoryStatus := by
  obtain ⟨statusPart, own, rfl, _, reports, _⟩ := progress.parts
  exact describes.memStatus statusPart memoryStatus
    (isPart.trans (List.prefix_append _ _).isInfix) reports

/-- The host has the texts of the renderers that have returned. -/
theorem Progress.string_eq : ∀ renderer ∈ before,
    renderer.string host settings memoryStatus = .ok (texts renderer) := by
  obtain ⟨statusPart, own, rfl, _, _, returned⟩ := progress.parts
  intro renderer member
  have infixOwn : own renderer <:+: before.flatMap own := by
    rw [List.flatMap_def]
    exact List.infix_of_mem_flatten (List.mem_map_of_mem member)
  have inside := infixOwn.trans (List.suffix_append statusPart _).isInfix
  exact describes.string_eq (isPart.trans inside) (returned renderer member).gave

theorem statusLine_of_progress (all : ∀ renderer, renderer ∈ before) :
    statusLine host settings = .ok (texts .memory ++ texts .cpu ++ texts .load) := by
  have string := progress.string_eq describes isPart
  rw [statusLine_eq_bind, progress.memStatus_eq describes isPart, Outcome.ok_bind,
    string .memory (all .memory), Outcome.ok_bind, string .cpu (all .cpu), Outcome.ok_bind,
    string .load (all .load), Outcome.ok_bind]

/-- What is inserted before the run ends is a beginning of the line. -/
theorem prefix_of_progress {shown : List Renderer} {line : List Char}
    (start : shown <+: [.memory, .cpu, .load]) (called : ∀ earlier ∈ shown, earlier ∈ before)
    (rendered : statusLine host settings = .ok line) : shown.flatMap texts <+: line := by
  obtain ⟨other, all, read, returns, rfl⟩ := exists_texts rendered
  have same : shown.flatMap texts = shown.flatMap all := by
    apply List.flatMap_congr
    intro renderer member
    have string := progress.string_eq describes isPart renderer (called renderer member)
    rw [progress.memStatus_eq describes isPart] at read
    cases read
    rw [returns renderer] at string
    exact (Except.ok.inj string).symm
  obtain ⟨rest, whole⟩ := start
  have split : all .memory ++ all .cpu ++ all .load = shown.flatMap all ++ rest.flatMap all := by
    rw [← List.flatMap_append, whole]
    simp [List.append_assoc]
  rw [same, split]
  exact List.prefix_append _ _

/-- A renderer that faults has no text on the host, so that the line has none. -/
theorem statusLine_of_fault {last : List KernelExchange} {renderer : Renderer} {fault : Fault}
    (lastPart : IsPart last exchanges)
    (gave : renderer.Gives system libc settings memoryStatus last (.error fault)) :
    ∃ other, statusLine host settings = .error other := by
  cases rendered : statusLine host settings with
  | error other => exact ⟨other, rfl⟩
  | ok line =>
      obtain ⟨read, all, readEq, returns, _⟩ := exists_texts rendered
      rw [progress.memStatus_eq describes isPart] at readEq
      cases readEq
      have stopped := describes.string_eq lastPart gave
      rw [returns renderer] at stopped
      cases stopped

end Progress

end Strings

section Refinement

variable {system : BsdSystem} {libc : Libc} {settings : Settings} {steps : List Step}
  (allowed : Allowed steps) {kernel : Kernel} {host : Host}
  (describes : Describes system libc host
    (bsdRun system libc settings steps kernel).exchanges)
  {ordering : OperandOrdering} {argv : List Word}
  (renders : (program host ordering argv).Renders settings)
include allowed describes renders

/-- A run without a failing call ends as the program does on a host that
describes the calls: both print the same line and succeed, or there is a fault
in both.  Where a call fails, the run returns the failure and prints a beginning
of what the program prints there, and never the end of the line. -/
theorem bsdRun_refines_program :
    ((∀ exchange ∈ (bsdRun system libc settings steps kernel).exchanges, ¬ Fails exchange) →
      ((bsdRun system libc settings steps kernel).result = .ok exitSuccess ∧
        program host ordering argv =
          ⟨[.readMetrics settings, .print (.cout (bsdRun system libc settings steps kernel).cout)],
            .ok exitSuccess⟩) ∨
      ∃ fault other, (bsdRun system libc settings steps kernel).result = .error fault ∧
        program host ordering argv = ⟨[.readMetrics settings], .error other⟩) ∧
    ((∃ exchange ∈ (bsdRun system libc settings steps kernel).exchanges, Fails exchange) →
      (bsdRun system libc settings steps kernel).result = .ok exitFailure ∧
      ∀ line, statusLine host settings = .ok line →
        (bsdRun system libc settings steps kernel).cout <+: line) := by
  have ends : RunEnds system libc settings steps kernel
      (bsdRun system libc settings steps kernel) := bsdRun_ends allowed kernel
  have failure := ends.calls.failure_iff
  rw [program, main_of_renders renders]
  generalize bsdRun system libc settings steps kernel = run at describes ends failure ⊢
  cases ends with
  | @printed memoryStatus texts made progress all recorded =>
      have isPart : IsPart made made := ⟨List.infix_refl made, progress.answered.succeed⟩
      have rendered := statusLine_of_progress progress describes isPart all
      rw [rendered]
      refine ⟨fun _ => .inl ⟨rfl, rfl⟩, fun fails => ?_⟩
      cases failure.mpr fails
  | @unread made failing refused recorded =>
      refine ⟨fun succeed => absurd refused.failed (succeed failing (by simp)), fun _ => ⟨rfl, ?_⟩⟩
      exact fun line _ => List.nil_prefix
  | @refused memoryStatus texts made last failing before later shown renderer order once progress
      refused start called recorded =>
      have isPart : IsPart made (made ++ (last ++ [failing])) :=
        ⟨(List.prefix_append made _).isInfix, progress.answered.succeed⟩
      refine ⟨fun succeed => absurd refused.failed (succeed failing (by simp)), fun _ => ⟨rfl, ?_⟩⟩
      exact fun line rendered => prefix_of_progress progress describes isPart start called rendered
  | @faulted memoryStatus texts made last fault before later shown renderer cout order once
      progress answered gave start called flushed recorded =>
      have isPart : IsPart made (made ++ last) :=
        ⟨(List.prefix_append made last).isInfix, progress.answered.succeed⟩
      have lastPart : IsPart last (made ++ last) :=
        ⟨(List.suffix_append made last).isInfix, answered.succeed⟩
      obtain ⟨other, faulted⟩ := statusLine_of_fault progress describes isPart lastPart gave
      rw [faulted]
      refine ⟨fun _ => .inr ⟨fault, other, rfl, rfl⟩, fun fails => ?_⟩
      cases failure.mpr fails

end Refinement

/-! ## A kernel with one answer to each call -/

section Answers

variable (longWidth : Nat) (cpuLayout : CpuLayout) (libc : Libc)
  (answers : (call : SystemCall) → call.Answer)

/-- The host of a kernel on OpenBSD, where the two readings of the counters are
different calls. -/
def openBsdHost : Host where
  memStatus :=
    .ok (OpenBsd.memStatus
      (OpenBsd.PageCounters.uvmexp (answers (.byNumber .vmUvmexp vmStatsPurpose)).content
        (answers (.byNumber .vfsBcachestat OpenBsd.cachedPurpose)).content))
  cpuPercentage := fun _ =>
    .ok (OpenBsd.cpuPercentage cpuLayout
      (answers (.byNumber (.kernCptime longWidth) OpenBsd.initialPurpose)).content
      (answers (.byNumber (.kernCptime longWidth) OpenBsd.updatedPurpose)).content)
  cpuCount := BitVec.toNat (answers (.byNumber .hwNcpuonline OpenBsd.cpuCountPurpose)).content
  averages := libc.averages
  getloadavg := libc.getloadavg

variable {answers}

theorem IsPart.answer_eq {part exchanges : List KernelExchange} (isPart : IsPart part exchanges)
    (recorded : Recorded (fun _ => answers) [] exchanges) :
    ∀ exchange ∈ part, exchange.answer = answers exchange.question :=
  fun exchange member => recorded.answer_eq exchange (isPart.inside.subset member)

theorem openBsdHost_describes {exchanges : List KernelExchange}
    (recorded : Recorded (fun _ => answers) [] exchanges) :
    Describes (.openBsd longWidth cpuLayout) libc (openBsdHost longWidth cpuLayout libc answers)
      exchanges where
  memStatus part memoryStatus isPart reports := by
    cases reports with
    | openBsd pageSize counters numbufpages =>
        have countersEq := isPart.answer_eq recorded
          ⟨.byNumber .vmUvmexp vmStatsPurpose, counters⟩ (by simp)
        have cachedEq := isPart.answer_eq recorded
          ⟨.byNumber .vfsBcachestat OpenBsd.cachedPurpose, numbufpages⟩ (by simp)
        simp only [] at countersEq cachedEq
        subst countersEq cachedEq
        rfl
  cpuPercentage part percentage isPart reports cpuUsageDelay := by
    cases reports with
    | openBsd first second =>
        have firstEq := isPart.answer_eq recorded
          ⟨.byNumber (.kernCptime longWidth) OpenBsd.initialPurpose, first⟩ (by simp)
        have secondEq := isPart.answer_eq recorded
          ⟨.byNumber (.kernCptime longWidth) OpenBsd.updatedPurpose, second⟩ (by simp)
        simp only [] at firstEq secondEq
        subst firstEq secondEq
        rfl
  cpuCount part cpuCount isPart reports := by
    cases reports with
    | openBsd reply =>
        have replyEq := isPart.answer_eq recorded
          ⟨.byNumber .hwNcpuonline OpenBsd.cpuCountPurpose, reply⟩ (by simp)
        simp only [] at replyEq
        subst replyEq
        rfl
  averages := rfl
  getloadavg := rfl

end Answers

def sampleOpenBsd : BsdSystem := .openBsd 64 FreeBsd.cpuLayout

/-- The default settings on a machine with four processors. -/
def sampleRun : BsdRun :=
  bsdRun sampleOpenBsd sampleLibc (settingsOf []) sampleSteps fun _ => sampleAnswers

def sampleOpenBsdHost : Host :=
  openBsdHost 64 FreeBsd.cpuLayout sampleLibc sampleAnswers

theorem bsdRun_refines_program_sample :
    program sampleOpenBsdHost .permute [] =
      ⟨[.readMetrics (settingsOf []), .print (.cout sampleRun.cout)], .ok exitSuccess⟩ := by
  have ends : RunEnds sampleOpenBsd sampleLibc (settingsOf []) sampleSteps
      (fun _ => sampleAnswers) sampleRun := bsdRun_ends sampleSteps_allowed _
  have describes := openBsdHost_describes 64 FreeBsd.cpuLayout sampleLibc ends.recorded
  have renders := (program_renders_iff sampleOpenBsdHost .permute [] (settingsOf [])).mpr
    ⟨[], .finish, by simp, rfl⟩
  have returned : sampleRun.result = .ok exitSuccess := by decide +kernel
  have succeed : ∀ exchange ∈ sampleRun.exchanges, ¬ Fails exchange := by decide +kernel
  rcases (bsdRun_refines_program sampleSteps_allowed describes renders).1 succeed with
    ⟨_, same⟩ | ⟨fault, _, stopped, _⟩
  · exact same
  · cases returned.symm.trans stopped

end TmuxMemCpuLoad
