import TmuxMemCpuLoad.BsdCalls
import TmuxMemCpuLoad.SharedBuffer

/-!
# Runs on the BSD systems

C++11 leaves open in which order `main` calls the renderers and how the calls
alternate with the insertions into `std::cout`; a renderer is only called before
its text is inserted, and the texts are inserted in their order.  When the
kernel refuses a call, what is inserted so far is flushed by `exit`.

The exchanges of a run fall into those of `mem_status` and those of each
renderer, one after the other in the order of the calls, and each text is what
its renderer returns for its own exchanges.
-/

namespace TmuxMemCpuLoad

open StandardCxx Dialogue

/-! ## The expression that prints the line -/

/-- A step of the evaluation of the expression. -/
inductive Step
  | call (renderer : Renderer)
  | insert (renderer : Renderer)
  deriving DecidableEq, Repr

def Step.called : Step → Option Renderer
  | .call renderer => some renderer
  | .insert _ => none

def Step.inserted : Step → Option Renderer
  | .call _ => none
  | .insert renderer => some renderer

/-- Each renderer is called once, and before its text is inserted; `ready` are
those that have been called. -/
def Ordered : List Renderer → List Step → Prop
  | _, [] => True
  | ready, .call renderer :: steps => renderer ∉ ready ∧ Ordered (renderer :: ready) steps
  | ready, .insert renderer :: steps => renderer ∈ ready ∧ Ordered ready steps

/-- The renderers that are called, in the order of the calls. -/
def calledIn (steps : List Step) : List Renderer :=
  steps.filterMap Step.called

/-- The renderers whose texts are inserted, in the order of the insertions. -/
def insertedIn (steps : List Step) : List Renderer :=
  steps.filterMap Step.inserted

/-- The orders that C++11 allows. -/
structure Allowed (steps : List Step) : Prop where
  ordered : Ordered [] steps
  inserts : insertedIn steps = [.memory, .cpu, .load]

theorem Ordered.not_mem_ready {ready : List Renderer} {steps : List Step}
    (ordered : Ordered ready steps) {renderer : Renderer} (member : renderer ∈ calledIn steps) :
    renderer ∉ ready := by
  induction steps generalizing ready with
  | nil => cases member
  | cons step steps induction =>
      cases step with
      | call first =>
          rcases List.mem_cons.mp member with rfl | later
          · exact ordered.1
          · exact fun early => induction ordered.2 later (List.mem_cons_of_mem _ early)
      | insert first => exact induction ordered.2 member

theorem Ordered.nodup {ready : List Renderer} {steps : List Step}
    (ordered : Ordered ready steps) : (calledIn steps).Nodup := by
  induction steps generalizing ready with
  | nil => exact List.nodup_nil
  | cons step steps induction =>
      cases step with
      | call renderer =>
          refine List.nodup_cons.mpr ⟨fun again => ?_, induction ordered.2⟩
          exact Ordered.not_mem_ready ordered.2 again List.mem_cons_self
      | insert renderer => exact induction ordered.2

theorem Ordered.not_mem_before {ready : List Renderer} {steps : List Step}
    (ordered : Ordered ready steps) {before later : List Renderer} {renderer : Renderer}
    (order : calledIn steps = before ++ renderer :: later) : renderer ∉ before := by
  intro early
  have nodup := ordered.nodup
  rw [order] at nodup
  exact (List.nodup_append.mp nodup).2.2 renderer early renderer List.mem_cons_self rfl

theorem Ordered.mem_calledIn {ready : List Renderer} {steps : List Step}
    (ordered : Ordered ready steps) {renderer : Renderer} (member : renderer ∈ insertedIn steps) :
    renderer ∈ ready ∨ renderer ∈ calledIn steps := by
  induction steps generalizing ready with
  | nil => cases member
  | cons step steps induction =>
      cases step with
      | call first =>
          rcases induction ordered.2 member with early | later
          · rcases List.mem_cons.mp early with rfl | before
            · exact .inr List.mem_cons_self
            · exact .inl before
          · exact .inr (List.mem_cons_of_mem _ later)
      | insert first =>
          rcases List.mem_cons.mp member with rfl | later
          · exact .inl ordered.1
          · exact induction ordered.2 later

/-- Every renderer is called, since its text is inserted. -/
theorem Allowed.mem_calledIn {steps : List Step} (allowed : Allowed steps) (renderer : Renderer) :
    renderer ∈ calledIn steps := by
  have inserted : renderer ∈ insertedIn steps := by
    rw [allowed.inserts]
    cases renderer <;> simp
  exact (allowed.ordered.mem_calledIn inserted).resolve_left List.not_mem_nil

def orFault {Value : Type} : Outcome Value → Calling Value
  | .ok value => pure value
  | .error fault => throw (.faulted fault)

def perform (evaluate : Renderer → Calling (Outcome (List Char))) :
    List Step → (Renderer → List Char) → Calling Unit
  | [], _ => pure ()
  | .call renderer :: steps, texts => do
      let outcome ← evaluate renderer
      let text ← orFault outcome
      perform evaluate steps (Function.update texts renderer text)
  | .insert renderer :: steps, texts => do
      onScreen (Console.insertCout (texts renderer))
      perform evaluate steps texts

/-! ## What the streams show -/

namespace Console

/-- The text that `std::cout` was given. -/
def shown (console : Console) : List Char :=
  console.cout ++ console.held

@[simp]
theorem shown_insertCout (text : List Char) (console : Console) :
    (console.insertCout text).shown = console.shown ++ text := by
  simp [shown, insertCout]

@[simp]
theorem shown_flush (console : Console) : console.flush.shown = console.shown := by
  simp [shown, flush]

end Console

theorem cerr_reportCall (exchange : KernelExchange) (console : Console) :
    (reportCall exchange console).cerr = console.cerr ++ complaint exchange := by
  unfold reportCall
  split_ifs with silent
  · rw [silent, List.append_nil]
  · rfl

theorem shown_reportCall (exchange : KernelExchange) (console : Console) :
    (reportCall exchange console).shown = console.shown := by
  unfold reportCall
  split_ifs
  · rfl
  · exact Console.shown_flush console

abbrev CallState := State SystemCall.Answer Console

/-- What a part of a run adds: exchanges with what is said about them, and some
text. -/
structure Adds (state after : CallState) (made : List KernelExchange) (text : List Char) :
    Prop where
  exchanges : after.exchanges = state.exchanges ++ made
  cerr : after.screen.cerr = state.screen.cerr ++ made.flatMap complaint
  shown : after.screen.shown = state.screen.shown ++ text

theorem Adds.refl (state : CallState) : Adds state state [] [] :=
  ⟨by simp, by simp, by simp⟩

theorem Adds.trans {state middle after : CallState} {made later : List KernelExchange}
    {text more : List Char} (first : Adds state middle made text)
    (second : Adds middle after later more) :
    Adds state after (made ++ later) (text ++ more) where
  exchanges := by rw [second.exchanges, first.exchanges, List.append_assoc]
  cerr := by rw [second.cerr, first.cerr, List.flatMap_append, List.append_assoc]
  shown := by rw [second.shown, first.shown, List.append_assoc]

theorem adds_reported (state : CallState) (exchange : KernelExchange) :
    Adds state (state.extend conduct [exchange]) [exchange] [] where
  exchanges := rfl
  cerr := by
    rw [List.flatMap_singleton]
    exact cerr_reportCall exchange state.screen
  shown := by
    rw [List.append_nil]
    exact shown_reportCall exchange state.screen

theorem adds_extend (state : CallState) (made : List KernelExchange) :
    Adds state (state.extend conduct made) made [] := by
  induction made generalizing state with
  | nil =>
      rw [State.extend_nil]
      exact .refl state
  | cons exchange made induction =>
      have first := adds_reported state exchange
      have rest := induction (state.extend conduct [exchange])
      rw [← State.extend_append] at rest
      exact first.trans rest

theorem adds_insertCout (state : CallState) (text : List Char) :
    Adds state { state with screen := state.screen.insertCout text } [] text :=
  ⟨by simp, by simp [Console.insertCout], Console.shown_insertCout text state.screen⟩

/-! ## The steps of a run -/

section Steps

variable {kernel : Kernel} {evaluate : Renderer → Calling (Outcome (List Char))}
  {calls : Renderer → List SystemCall}
  {gives : Renderer → List KernelExchange → Outcome (List Char) → Prop}

/-- A renderer has made its calls and returns its text for what was answered. -/
structure Returns (calls : Renderer → List SystemCall)
    (gives : Renderer → List KernelExchange → Outcome (List Char) → Prop)
    (renderer : Renderer) (made : List KernelExchange) (text : List Char) : Prop where
  answered : Answered conduct (calls renderer) made
  gave : gives renderer made (.ok text)

/-- A renderer ends the run: one of its calls fails, or it faults on what was
answered. -/
inductive Stops (calls : Renderer → List SystemCall)
    (gives : Renderer → List KernelExchange → Outcome (List Char) → Prop)
    (renderer : Renderer) : List KernelExchange → Stop → Prop
  | refused {made : List KernelExchange} {failing : KernelExchange}
      (refused : Refused conduct (calls renderer) made failing) :
      Stops calls gives renderer (made ++ [failing]) conduct.stop
  | faulted {made : List KernelExchange} {fault : Fault}
      (answered : Answered conduct (calls renderer) made)
      (gave : gives renderer made (.error fault)) :
      Stops calls gives renderer made (.faulted fault)

/-- The values of the renderers called before are kept. -/
def Kept {Value : Type} (ready : List Renderer) (values final : Renderer → Value) : Prop :=
  ∀ renderer ∈ ready, final renderer = values renderer

theorem Kept.refl {Value : Type} (ready : List Renderer) (values : Renderer → Value) :
    Kept ready values values :=
  fun _ _ => rfl

theorem Kept.of_update {Value : Type} {ready : List Renderer} {values final : Renderer → Value}
    {renderer : Renderer} {value : Value} (new : renderer ∉ ready)
    (kept : Kept (renderer :: ready) (Function.update values renderer value) final) :
    Kept ready values final ∧ final renderer = value := by
  constructor
  · intro other member
    have different : other ≠ renderer := by
      rintro rfl
      exact new member
    rw [kept other (List.mem_cons_of_mem _ member), Function.update_of_ne different]
  · rw [kept renderer List.mem_cons_self, Function.update_self]

/-- How the steps can end; `own` and `texts` are the exchanges and the text of
each renderer called before. -/
inductive Performed (kernel : Kernel) (calls : Renderer → List SystemCall)
    (gives : Renderer → List KernelExchange → Outcome (List Char) → Prop)
    (ready : List Renderer) (own : Renderer → List KernelExchange)
    (texts : Renderer → List Char) (state : CallState) (steps : List Step) :
    EStateM.Result Stop CallState Unit → Prop
  | completed {allOwn : Renderer → List KernelExchange} {allTexts : Renderer → List Char}
      {after : CallState} (keptOwn : Kept ready own allOwn) (keptTexts : Kept ready texts allTexts)
      (returned : ∀ renderer ∈ calledIn steps,
        Returns calls gives renderer (allOwn renderer) (allTexts renderer))
      (recorded : Recorded kernel state.exchanges ((calledIn steps).flatMap allOwn))
      (adds : Adds state after ((calledIn steps).flatMap allOwn)
        ((insertedIn steps).flatMap allTexts)) :
      Performed kernel calls gives ready own texts state steps (.ok () after)
  | stopped {allOwn : Renderer → List KernelExchange} {allTexts : Renderer → List Char}
      {before later shown : List Renderer} {renderer : Renderer} {last : List KernelExchange}
      {stop : Stop} {after : CallState}
      (keptOwn : Kept ready own allOwn) (keptTexts : Kept ready texts allTexts)
      (order : calledIn steps = before ++ renderer :: later)
      (returned : ∀ earlier ∈ before,
        Returns calls gives earlier (allOwn earlier) (allTexts earlier))
      (stops : Stops calls gives renderer last stop)
      (start : shown <+: insertedIn steps)
      (called : ∀ earlier ∈ shown, earlier ∈ ready ∨ earlier ∈ before)
      (recorded : Recorded kernel state.exchanges (before.flatMap allOwn ++ last))
      (adds : Adds state after (before.flatMap allOwn ++ last) (shown.flatMap allTexts)) :
      Performed kernel calls gives ready own texts state steps (.error stop after)

section Step

variable {steps : List Step} {ready : List Renderer} {own : Renderer → List KernelExchange}
  {texts : Renderer → List Char} {state : CallState} {renderer : Renderer}
  {result : EStateM.Result Stop CallState Unit}

theorem Performed.call {made : List KernelExchange} {text : List Char} (new : renderer ∉ ready)
    (returns : Returns calls gives renderer made text)
    (recorded : Recorded kernel state.exchanges made)
    (rest : Performed kernel calls gives (renderer :: ready) (Function.update own renderer made)
      (Function.update texts renderer text) (state.extend conduct made) steps result) :
    Performed kernel calls gives ready own texts state (.call renderer :: steps) result := by
  have first := adds_extend state made
  have order : calledIn (.call renderer :: steps) = renderer :: calledIn steps := rfl
  cases rest with
  | @completed allOwn allTexts after keptOwn keptTexts returned recordedRest adds =>
      obtain ⟨keptOwn, ownEq⟩ := keptOwn.of_update new
      obtain ⟨keptTexts, textEq⟩ := keptTexts.of_update new
      have exchanges : (calledIn (.call renderer :: steps)).flatMap allOwn =
          made ++ (calledIn steps).flatMap allOwn := by
        rw [order, List.flatMap_cons, ownEq]
      refine .completed keptOwn keptTexts ?_ ?_ ?_
      · rw [order, List.forall_mem_cons, ownEq, textEq]
        exact ⟨returns, returned⟩
      · rw [exchanges]
        exact recorded.append recordedRest
      · rw [exchanges]
        exact first.trans adds
  | @stopped allOwn allTexts before later shown other last stop after keptOwn keptTexts split
      returned stops start called recordedRest adds =>
      obtain ⟨keptOwn, ownEq⟩ := keptOwn.of_update new
      obtain ⟨keptTexts, textEq⟩ := keptTexts.of_update new
      have exchanges : (renderer :: before).flatMap allOwn ++ last =
          made ++ (before.flatMap allOwn ++ last) := by
        rw [List.flatMap_cons, ownEq, List.append_assoc]
      have splitAll : calledIn (.call renderer :: steps) =
          (renderer :: before) ++ other :: later := by
        rw [order, split, List.cons_append]
      refine .stopped keptOwn keptTexts splitAll ?_ stops start ?_ ?_ ?_
      · rw [List.forall_mem_cons, ownEq, textEq]
        exact ⟨returns, returned⟩
      · intro earlier member
        rcases called earlier member with early | between
        · rcases List.mem_cons.mp early with rfl | before
          · exact .inr List.mem_cons_self
          · exact .inl before
        · exact .inr (List.mem_cons_of_mem _ between)
      · rw [exchanges]
        exact recorded.append recordedRest
      · rw [exchanges]
        exact first.trans adds

theorem Performed.insert (member : renderer ∈ ready)
    (rest : Performed kernel calls gives ready own texts
      { state with screen := state.screen.insertCout (texts renderer) } steps result) :
    Performed kernel calls gives ready own texts state (.insert renderer :: steps) result := by
  have first := adds_insertCout state (texts renderer)
  have inserted : insertedIn (.insert renderer :: steps) = renderer :: insertedIn steps := rfl
  cases rest with
  | completed keptOwn keptTexts returned recorded adds =>
      refine .completed keptOwn keptTexts returned recorded ?_
      rw [inserted, List.flatMap_cons, keptTexts renderer member]
      exact first.trans adds
  | @stopped allOwn allTexts before later shown other last stop after keptOwn keptTexts split
      returned stops start called recorded adds =>
      have startAll : renderer :: shown <+: insertedIn (.insert renderer :: steps) := by
        rw [inserted]
        exact List.cons_prefix_cons.mpr ⟨rfl, start⟩
      refine .stopped keptOwn keptTexts split returned stops startAll ?_ recorded ?_
      · rw [List.forall_mem_cons]
        exact ⟨.inl member, called⟩
      · rw [List.flatMap_cons, keptTexts renderer member]
        exact first.trans adds

/-- A renderer that does not return is the last one called. -/
theorem Performed.stop {last : List KernelExchange} {stop : Stop}
    (stops : Stops calls gives renderer last stop)
    (recorded : Recorded kernel state.exchanges last) :
    Performed kernel calls gives ready own texts state (.call renderer :: steps)
      (.error stop (state.extend conduct last)) := by
  have order : calledIn (.call renderer :: steps) = [] ++ renderer :: calledIn steps := rfl
  have none : [] <+: insertedIn (.call renderer :: steps) := List.nil_prefix
  refine .stopped (.refl ready own) (.refl ready texts) order ?_ stops none ?_ recorded ?_
  · simp
  · simp
  · exact adds_extend state last

end Step

/-- Steps in an order that is allowed call the renderers one after the other,
up to the first that does not return. -/
theorem performed_of_ordered
    (follows : ∀ renderer, Follows kernel conduct (evaluate renderer) (calls renderer)
      (gives renderer))
    {steps : List Step} {ready : List Renderer} (ordered : Ordered ready steps)
    (own : Renderer → List KernelExchange) (texts : Renderer → List Char) (state : CallState) :
    Performed kernel calls gives ready own texts state steps
      (perform evaluate steps texts state) := by
  induction steps generalizing ready own texts state with
  | nil =>
      have none : ∀ renderer ∈ calledIn [],
          Returns calls gives renderer (own renderer) (texts renderer) := by
        simp [calledIn]
      exact .completed (.refl ready own) (.refl ready texts) none trivial (.refl state)
  | cons step steps induction =>
      cases step with
      | call renderer =>
          obtain ⟨new, rest⟩ := ordered
          rcases follows renderer state with
            ⟨made, outcome, answered, recorded, gave, ran⟩ |
              ⟨made, failing, refused, recorded, ran⟩
          · cases outcome with
            | error fault =>
                have ends : perform evaluate (.call renderer :: steps) texts state =
                    .error (.faulted fault) (state.extend conduct made) := by
                  rw [perform, bind_ok ran]
                  rfl
                rw [ends]
                exact .stop (.faulted answered gave) recorded
            | ok text =>
                have step : perform evaluate (.call renderer :: steps) texts state =
                    perform evaluate steps (Function.update texts renderer text)
                      (state.extend conduct made) := by
                  rw [perform, bind_ok ran]
                  rfl
                rw [step]
                exact .call new ⟨answered, gave⟩ recorded (induction rest _ _ _)
          · have ends : perform evaluate (.call renderer :: steps) texts state =
                .error conduct.stop (state.extend conduct (made ++ [failing])) := by
              rw [perform]
              exact bind_error ran
            rw [ends]
            exact .stop (.refused refused) recorded
      | insert renderer =>
          obtain ⟨member, rest⟩ := ordered
          exact .insert member (induction rest own texts _)

end Steps

/-! ## The renderers and their calls -/

/-- The array of averages before it is filled, and `getloadavg`. -/
structure Libc where
  averages : Nat → ℚ
  getloadavg : (Nat → ℚ) → Nat → Int × (Nat → ℚ)

/-- The host that a renderer sees after its calls. -/
def Libc.host (libc : Libc) (percentage : ExactFloat) (cpuCount : Nat) : Host where
  memStatus := .error .undefined
  cpuPercentage := fun _ => .ok percentage
  cpuCount := cpuCount
  averages := libc.averages
  getloadavg := libc.getloadavg

/-- `load_string` gets averages, so that it asks for the number of
processors. -/
def Libc.HasAverages (libc : Libc) (settings : Settings) : Prop :=
  ¬ (settings.averagesCount ≤ 0 ∨ settings.averagesCount > 3) ∧
    ¬ (libc.getloadavg libc.averages settings.averagesCount.toNat).1 < 0

instance (libc : Libc) (settings : Settings) : Decidable (libc.HasAverages settings) :=
  inferInstanceAs (Decidable (¬ (settings.averagesCount ≤ 0 ∨ settings.averagesCount > 3) ∧
    ¬ (libc.getloadavg libc.averages settings.averagesCount.toNat).1 < 0))

namespace BsdSystem

section Counts

variable (kernel : Kernel) (system : BsdSystem) (condition : Prop) [Decidable condition]

/-- The number of processors, where a renderer needs it. -/
def cpuCountIf : Calling Nat :=
  if condition then system.getCpuCount kernel else pure 0

def cpuCountCallsIf : List SystemCall :=
  if condition then system.cpuCountCalls else []

/-- The number is reported where it is asked for. -/
def CountsIf (made : List KernelExchange) (cpuCount : Nat) : Prop :=
  if condition then system.ReportsCount made cpuCount else made = [] ∧ cpuCount = 0

theorem cpuCountIf_follows :
    Follows kernel conduct (system.cpuCountIf kernel condition) (system.cpuCountCallsIf condition)
      (system.CountsIf condition) := by
  unfold cpuCountIf cpuCountCallsIf CountsIf
  by_cases asks : condition
  · simp only [if_pos asks]
    exact system.getCpuCount_follows kernel
  · simp only [if_neg asks]
    exact .pure 0

variable {system condition}

theorem CountsIf.reports {made : List KernelExchange} {cpuCount : Nat}
    (counts : system.CountsIf condition made cpuCount) (asks : condition) :
    system.ReportsCount made cpuCount := by
  rwa [CountsIf, if_pos asks] at counts

end Counts

end BsdSystem

section Renderers

variable (system : BsdSystem) (libc : Libc) (settings : Settings) (memoryStatus : MemoryStatus)

/-- A renderer with the calls of the platform functions that it calls. -/
def Renderer.evaluate (kernel : Kernel) : Renderer → Calling (Outcome (List Char))
  | .memory => pure (Renderer.string (libc.host none 0) settings memoryStatus .memory)
  | .cpu => do
      let percentage ← system.cpuPercentage kernel
      let cpuCount ← system.cpuCountIf kernel (settings.cpuMode = .threads)
      pure (Renderer.string (libc.host percentage cpuCount) settings memoryStatus .cpu)
  | .load => do
      let cpuCount ← system.cpuCountIf kernel (libc.HasAverages settings)
      pure (Renderer.string (libc.host none cpuCount) settings memoryStatus .load)

def Renderer.calls : Renderer → List SystemCall
  | .memory => []
  | .cpu => system.cpuPercentageCalls ++ system.cpuCountCallsIf (settings.cpuMode = .threads)
  | .load => system.cpuCountCallsIf (libc.HasAverages settings)

/-- What a renderer returns, given the exchanges it makes. -/
inductive Renderer.Gives : Renderer → List KernelExchange → Outcome (List Char) → Prop
  | memory :
      Gives .memory [] (Renderer.string (libc.host none 0) settings memoryStatus .memory)
  | cpu {made later : List KernelExchange} {percentage : ExactFloat} {cpuCount : Nat}
      (reports : system.ReportsPercentage made percentage)
      (counts : system.CountsIf (settings.cpuMode = .threads) later cpuCount) :
      Gives .cpu (made ++ later)
        (Renderer.string (libc.host percentage cpuCount) settings memoryStatus .cpu)
  | load {made : List KernelExchange} {cpuCount : Nat}
      (counts : system.CountsIf (libc.HasAverages settings) made cpuCount) :
      Gives .load made (Renderer.string (libc.host none cpuCount) settings memoryStatus .load)

theorem Renderer.evaluate_follows (kernel : Kernel) (renderer : Renderer) :
    Follows kernel conduct (renderer.evaluate system libc settings memoryStatus kernel)
      (renderer.calls system libc settings)
      (renderer.Gives system libc settings memoryStatus) := by
  cases renderer with
  | memory =>
      apply (Follows.pure _).mono
      rintro made outcome ⟨rfl, rfl⟩
      exact .memory
  | cpu =>
      have counts := system.cpuCountIf_follows kernel (settings.cpuMode = .threads)
      have follows := (system.cpuPercentage_follows kernel).bind fun percentage =>
        counts.bind fun cpuCount => Follows.pure
          (Renderer.string (libc.host percentage cpuCount) settings memoryStatus .cpu)
      rw [List.append_nil] at follows
      apply follows.mono
      rintro made outcome ⟨first, percentage, _, rfl, reports, later, cpuCount, _, rfl, counted,
        rfl, rfl⟩
      rw [List.append_nil]
      exact .cpu reports counted
  | load =>
      have counts := system.cpuCountIf_follows kernel (libc.HasAverages settings)
      have follows := counts.bind fun cpuCount => Follows.pure
        (Renderer.string (libc.host none cpuCount) settings memoryStatus .load)
      rw [List.append_nil] at follows
      apply follows.mono
      rintro made outcome ⟨first, cpuCount, _, rfl, counted, rfl, rfl⟩
      rw [List.append_nil]
      exact .load counted

end Renderers

/-! ## Runs -/

/-- What a run leaves behind: the exchanges with the kernel, the texts on both
streams, and the value that is returned or the fault. -/
structure BsdRun where
  exchanges : List KernelExchange
  cout : List Char
  cerr : List Char
  result : Outcome Nat

/-- Leaving `main` and `exit` flush `std::cout`; a fault does not. -/
def finish : EStateM.Result Stop CallState Unit → BsdRun
  | .ok () state => ⟨state.exchanges, state.screen.flush.cout, state.screen.cerr, .ok exitSuccess⟩
  | .error (.exited status) state =>
      ⟨state.exchanges, state.screen.flush.cout, state.screen.cerr, .ok status⟩
  | .error (.faulted fault) state =>
      ⟨state.exchanges, state.screen.cout, state.screen.cerr, .error fault⟩

/-- `main` after its options: the memory status, the expression with the
renderers and the end of the line. -/
def printStatusLine (system : BsdSystem) (libc : Libc) (settings : Settings)
    (steps : List Step) (kernel : Kernel) : Calling Unit := do
  let memoryStatus ← system.memStatus kernel
  perform (Renderer.evaluate system libc settings memoryStatus kernel) steps fun _ => []
  onScreen (Console.flush ∘ Console.insertCout ['\n'])

def bsdRun (system : BsdSystem) (libc : Libc) (settings : Settings) (steps : List Step)
    (kernel : Kernel) : BsdRun :=
  finish (printStatusLine system libc settings steps kernel ⟨[], .empty⟩)

section Runs

variable (system : BsdSystem) (libc : Libc) (settings : Settings)

/-- The calls of a run in which none fails. -/
def allCalls (steps : List Step) : List SystemCall :=
  system.memStatusCalls ++ (calledIn steps).flatMap (Renderer.calls system libc settings)

/-- What a run has behind it when `mem_status` and some renderers have returned:
the exchanges of `mem_status` and those of each renderer, all of them answered,
and for each renderer the text that it returns for its own exchanges. -/
structure Progress (memoryStatus : MemoryStatus) (before : List Renderer)
    (texts : Renderer → List Char) (made : List KernelExchange) : Prop where
  parts : ∃ statusPart, ∃ own : Renderer → List KernelExchange,
    made = statusPart ++ before.flatMap own ∧
    Answered conduct system.memStatusCalls statusPart ∧
    system.ReportsStatus statusPart memoryStatus ∧
    ∀ renderer ∈ before, Returns (Renderer.calls system libc settings)
      (Renderer.Gives system libc settings memoryStatus) renderer (own renderer) (texts renderer)

/-- The ways in which a run ends.  All renderers return and the line is printed;
or a call of `mem_status` or of a renderer fails, and the failure is returned
with what is inserted of the texts that were there before; or a renderer faults
on what its own calls were answered, and no more than that is on `std::cout`.
What is on `std::cerr` is about the calls only. -/
inductive RunEnds (steps : List Step) (kernel : Kernel) : BsdRun → Prop
  | printed {memoryStatus : MemoryStatus} {texts : Renderer → List Char}
      {made : List KernelExchange}
      (progress : Progress system libc settings memoryStatus (calledIn steps) texts made)
      (all : ∀ renderer, renderer ∈ calledIn steps) (recorded : Recorded kernel [] made) :
      RunEnds steps kernel
        ⟨made, texts .memory ++ texts .cpu ++ texts .load ++ ['\n'], made.flatMap complaint,
          .ok exitSuccess⟩
  | unread {made : List KernelExchange} {failing : KernelExchange}
      (refused : Refused conduct system.memStatusCalls made failing)
      (recorded : Recorded kernel [] (made ++ [failing])) :
      RunEnds steps kernel
        ⟨made ++ [failing], [], (made ++ [failing]).flatMap complaint, .ok exitFailure⟩
  | refused {memoryStatus : MemoryStatus} {texts : Renderer → List Char}
      {made last : List KernelExchange} {failing : KernelExchange}
      {before later shown : List Renderer} {renderer : Renderer}
      (order : calledIn steps = before ++ renderer :: later) (once : renderer ∉ before)
      (progress : Progress system libc settings memoryStatus before texts made)
      (refused : Refused conduct (renderer.calls system libc settings) last failing)
      (start : shown <+: [.memory, .cpu, .load]) (called : ∀ earlier ∈ shown, earlier ∈ before)
      (recorded : Recorded kernel [] (made ++ (last ++ [failing]))) :
      RunEnds steps kernel
        ⟨made ++ (last ++ [failing]), shown.flatMap texts,
          (made ++ (last ++ [failing])).flatMap complaint, .ok exitFailure⟩
  | faulted {memoryStatus : MemoryStatus} {texts : Renderer → List Char}
      {made last : List KernelExchange} {fault : Fault} {before later shown : List Renderer}
      {renderer : Renderer} {cout : List Char}
      (order : calledIn steps = before ++ renderer :: later) (once : renderer ∉ before)
      (progress : Progress system libc settings memoryStatus before texts made)
      (answered : Answered conduct (renderer.calls system libc settings) last)
      (gave : renderer.Gives system libc settings memoryStatus last (.error fault))
      (start : shown <+: [.memory, .cpu, .load]) (called : ∀ earlier ∈ shown, earlier ∈ before)
      (flushed : cout <+: shown.flatMap texts) (recorded : Recorded kernel [] (made ++ last)) :
      RunEnds steps kernel
        ⟨made ++ last, cout, (made ++ last).flatMap complaint, .error fault⟩

variable {system libc settings}

def startState : CallState := ⟨[], .empty⟩

section Finish

variable {after : CallState} {made : List KernelExchange} {text : List Char}
  (adds : Adds startState after made text)
include adds

theorem finish_completed :
    finish (onScreen (Console.flush ∘ Console.insertCout ['\n']) after) =
      ⟨made, text ++ ['\n'], made.flatMap complaint, .ok exitSuccess⟩ := by
  show BsdRun.mk after.exchanges (after.screen.insertCout ['\n']).flush.shown
    after.screen.cerr _ = _
  rw [Console.shown_flush, Console.shown_insertCout, adds.exchanges, adds.cerr, adds.shown]
  rfl

theorem finish_refused :
    finish (.error conduct.stop after) =
      ⟨made, text, made.flatMap complaint, .ok exitFailure⟩ := by
  show BsdRun.mk after.exchanges after.screen.shown after.screen.cerr _ = _
  rw [adds.exchanges, adds.cerr, adds.shown]
  rfl

theorem finish_faulted (fault : Fault) :
    finish (.error (.faulted fault) after) =
      ⟨made, after.screen.cout, made.flatMap complaint, .error fault⟩ := by
  show BsdRun.mk after.exchanges after.screen.cout after.screen.cerr _ = _
  rw [adds.exchanges, adds.cerr]
  rfl

/-- What is on `std::cout` is a beginning of what was inserted. -/
theorem flushed_of_adds : after.screen.cout <+: text := by
  have shown := adds.shown
  have nothing : startState.screen.shown = [] := rfl
  rw [nothing, List.nil_append] at shown
  rw [← shown]
  exact List.prefix_append _ _

end Finish

/-- In every order that C++11 allows and whatever the kernel answers, a run ends
in one of these ways. -/
theorem bsdRun_ends {steps : List Step} (allowed : Allowed steps) (kernel : Kernel) :
    RunEnds system libc settings steps kernel (bsdRun system libc settings steps kernel) := by
  show RunEnds system libc settings steps kernel (finish (printStatusLine _ _ _ _ _ startState))
  rcases system.memStatus_follows kernel startState with
    ⟨statusPart, memoryStatus, answered, recorded, reports, ran⟩ |
      ⟨made, failing, refused, recorded, ran⟩
  · have first := adds_extend startState statusPart
    have rest := performed_of_ordered
      (Renderer.evaluate_follows system libc settings memoryStatus kernel) allowed.ordered
      (fun _ => []) (fun _ => []) (startState.extend conduct statusPart)
    have run : printStatusLine system libc settings steps kernel startState =
        (perform (Renderer.evaluate system libc settings memoryStatus kernel) steps
          (fun _ => []) >>= fun _ => onScreen (Console.flush ∘ Console.insertCout ['\n']))
            (startState.extend conduct statusPart) := bind_ok ran
    rw [run]
    generalize performed : perform (Renderer.evaluate system libc settings memoryStatus kernel)
      steps (fun _ => []) (startState.extend conduct statusPart) = result at rest
    cases rest with
    | @completed own texts after _ _ returned recordedRest adds =>
        have line : (insertedIn steps).flatMap texts =
            texts .memory ++ texts .cpu ++ texts .load := by
          simp [allowed.inserts, List.append_assoc]
        rw [line] at adds
        rw [bind_ok performed, finish_completed (first.trans adds)]
        exact .printed ⟨statusPart, own, rfl, answered, reports, returned⟩ allowed.mem_calledIn
          (recorded.append recordedRest)
    | @stopped own texts before later shown renderer last stop after _ _ order returned stops start
        called recordedRest adds =>
        have progress : Progress system libc settings memoryStatus before texts
            (statusPart ++ before.flatMap own) :=
          ⟨statusPart, own, rfl, answered, reports, returned⟩
        have early : ∀ earlier ∈ shown, earlier ∈ before := fun earlier member =>
          (called earlier member).resolve_left List.not_mem_nil
        have once : renderer ∉ before := allowed.ordered.not_mem_before order
        have recordedAll := recorded.append recordedRest
        have addsAll := first.trans adds
        rw [← List.append_assoc] at recordedAll addsAll
        rw [allowed.inserts] at start
        rw [bind_error performed]
        cases stops with
        | refused refused =>
            rw [finish_refused addsAll]
            exact .refused order once progress refused start early recordedAll
        | faulted answered gave =>
            rw [finish_faulted addsAll]
            exact .faulted order once progress answered gave start early (flushed_of_adds addsAll)
              recordedAll
  · have run : printStatusLine system libc settings steps kernel startState =
        .error conduct.stop (startState.extend conduct (made ++ [failing])) := bind_error ran
    rw [run, finish_refused (adds_extend startState _)]
    exact .unread refused recorded

theorem RunEnds.recorded {steps : List Step} {kernel : Kernel} {run : BsdRun}
    (ends : RunEnds system libc settings steps kernel run) :
    Recorded kernel [] run.exchanges := by
  cases ends <;> assumption

/-! ## What a run tells of its calls -/

variable (system libc settings)

/-- A run ends in one of the ways above, so that the calls are those of the
functions that `main` calls, none is made after one that fails and `std::cerr`
says what is to be said about them.  The run fails exactly when a call does, and
succeeds when none does and there is no fault. -/
structure Accounts (steps : List Step) (kernel : Kernel) (run : BsdRun) : Prop where
  ends : RunEnds system libc settings steps kernel run
  asked : run.exchanges.map Exchange.question <+: allCalls system libc settings steps
  last : ∀ made failing later, run.exchanges = made ++ failing :: later → Fails failing →
    later = []
  cerr : run.cerr = run.exchanges.flatMap complaint
  failure_iff : run.result = .ok exitFailure ↔ ∃ exchange ∈ run.exchanges, Fails exchange
  success : (∀ exchange ∈ run.exchanges, ¬ Fails exchange) →
    (∀ fault, run.result ≠ .error fault) → run.result = .ok exitSuccess ∧
      run.exchanges.map Exchange.question = allCalls system libc settings steps

/-- All calls of a run are answered, or the last one fails. -/
inductive Calls (steps : List Step) : BsdRun → Prop
  | all {made : List KernelExchange} {cout cerr : List Char}
      (answered : Answered conduct (allCalls system libc settings steps) made) :
      Calls steps ⟨made, cout, cerr, .ok exitSuccess⟩
  | refused {made : List KernelExchange} {failing : KernelExchange} {cout cerr : List Char}
      (refused : Refused conduct (allCalls system libc settings steps) made failing) :
      Calls steps ⟨made ++ [failing], cout, cerr, .ok exitFailure⟩
  | faulted {made : List KernelExchange} {cout cerr : List Char} {fault : Fault}
      {questions more : List SystemCall} (answered : Answered conduct questions made)
      (start : allCalls system libc settings steps = questions ++ more) :
      Calls steps ⟨made, cout, cerr, .error fault⟩

variable {system libc settings}

theorem Progress.answered {memoryStatus : MemoryStatus} {before : List Renderer}
    {texts : Renderer → List Char} {made : List KernelExchange}
    (progress : Progress system libc settings memoryStatus before texts made) :
    Answered conduct
      (system.memStatusCalls ++ before.flatMap (Renderer.calls system libc settings)) made := by
  obtain ⟨statusPart, own, rfl, answered, _, returned⟩ := progress.parts
  exact answered.append (.flatMap fun renderer member => (returned renderer member).answered)

section Ends

variable {steps : List Step} {kernel : Kernel} {run : BsdRun}

/-- The calls of the functions before a renderer, its own and those after it. -/
theorem allCalls_eq {before later : List Renderer} {renderer : Renderer}
    (order : calledIn steps = before ++ renderer :: later) :
    allCalls system libc settings steps =
      system.memStatusCalls ++ before.flatMap (Renderer.calls system libc settings) ++
        renderer.calls system libc settings ++
          later.flatMap (Renderer.calls system libc settings) := by
  rw [allCalls, order]
  simp

theorem RunEnds.calls (ends : RunEnds system libc settings steps kernel run) :
    Calls system libc settings steps run := by
  cases ends with
  | printed progress all recorded => exact .all progress.answered
  | unread refused recorded => exact .refused (refused.append_right _)
  | refused order once progress refused start called recorded =>
      have own := progress.answered.refused refused
      rw [← List.append_assoc]
      apply Calls.refused
      rw [allCalls_eq order]
      exact own.append_right _
  | faulted order once progress answered gave start called flushed recorded =>
      exact .faulted (progress.answered.append answered) (allCalls_eq order)

theorem RunEnds.cerr (ends : RunEnds system libc settings steps kernel run) :
    run.cerr = run.exchanges.flatMap complaint := by
  cases ends <;> rfl

section Failures

variable {made : List KernelExchange} (succeed : ∀ exchange ∈ made, ¬ Fails exchange)
include succeed

theorem not_exists_fails : ¬ ∃ exchange ∈ made, Fails exchange := by
  rintro ⟨exchange, member, fails⟩
  exact succeed exchange member fails

theorem not_fails_of_eq {before later : List KernelExchange} {failing : KernelExchange}
    (equal : made = before ++ failing :: later) : ¬ Fails failing :=
  succeed failing (by simp [equal])

theorem eq_nil_of_fails {before later : List KernelExchange} {last failing : KernelExchange}
    (equal : made ++ [last] = before ++ failing :: later) (fails : Fails failing) :
    later = [] := by
  rcases List.eq_nil_or_concat later with none | ⟨rest, other, rfl⟩
  · exact none
  · rw [List.concat_eq_append, ← List.cons_append, ← List.append_assoc] at equal
    have same : made = before ++ failing :: rest := (List.append_inj' equal rfl).1
    exact absurd fails (not_fails_of_eq succeed same)

end Failures

theorem Calls.asked (calls : Calls system libc settings steps run) :
    run.exchanges.map Exchange.question <+: allCalls system libc settings steps := by
  cases calls with
  | all answered =>
      rw [answered.questions_eq]
  | refused refused =>
      rw [List.map_append]
      exact refused.questions_prefix
  | faulted answered start =>
      rw [answered.questions_eq, start]
      exact List.prefix_append _ _

theorem Calls.last (calls : Calls system libc settings steps run)
    {made later : List KernelExchange} {failing : KernelExchange}
    (equal : run.exchanges = made ++ failing :: later) (fails : Fails failing) : later = [] := by
  cases calls with
  | all answered => exact absurd fails (not_fails_of_eq answered.succeed equal)
  | refused refused => exact eq_nil_of_fails refused.succeed equal fails
  | faulted answered start => exact absurd fails (not_fails_of_eq answered.succeed equal)

theorem Calls.failure_iff (calls : Calls system libc settings steps run) :
    run.result = .ok exitFailure ↔ ∃ exchange ∈ run.exchanges, Fails exchange := by
  cases calls with
  | all answered =>
      exact iff_of_false (by simp [exitSuccess, exitFailure]) (not_exists_fails answered.succeed)
  | @refused made failing cout cerr refused =>
      exact iff_of_true rfl ⟨failing, by simp, refused.failed⟩
  | faulted answered start =>
      exact iff_of_false (by simp) (not_exists_fails answered.succeed)

theorem Calls.success (calls : Calls system libc settings steps run)
    (succeed : ∀ exchange ∈ run.exchanges, ¬ Fails exchange)
    (returns : ∀ fault, run.result ≠ .error fault) :
    run.result = .ok exitSuccess ∧
      run.exchanges.map Exchange.question = allCalls system libc settings steps := by
  cases calls with
  | all answered => exact ⟨rfl, answered.questions_eq⟩
  | @refused made failing cout cerr refused => exact absurd refused.failed (succeed failing (by simp))
  | faulted answered start => exact absurd rfl (returns _)

theorem bsdRun_accounts (allowed : Allowed steps) (kernel : Kernel) :
    Accounts system libc settings steps kernel
      (bsdRun system libc settings steps kernel) := by
  have ends : RunEnds system libc settings steps kernel
      (bsdRun system libc settings steps kernel) := bsdRun_ends allowed kernel
  have calls := ends.calls
  exact ⟨ends, calls.asked, fun _ _ _ equal fails => calls.last equal fails, ends.cerr,
    calls.failure_iff, calls.success⟩

end Ends

end Runs

/-! ## A run -/

/-- The load segment is called first and the memory segment before the CPU
segment. -/
def sampleSteps : List Step :=
  [.call .load, .call .memory, .insert .memory, .call .cpu, .insert .cpu, .insert .load]

theorem sampleSteps_allowed : Allowed sampleSteps where
  ordered := by simp [sampleSteps, Ordered]
  inserts := rfl

def SysctlName.sampleContent : (name : SysctlName) → name.Content
  | .hwNcpu => (4 : BitVec 32)
  | .kernCpTime longWidth => fun _ => (0 : BitVec longWidth)
  | .vPageCount => (1000 : BitVec 32)
  | .vWireCount => (200 : BitVec 32)
  | .vActiveCount => (300 : BitVec 32)

/-- The content of each variable, with the count of every state. -/
def Mib.sampleContent (counter : Nat) : (mib : Mib) → mib.Content
  | .hwNcpuonline => (4 : BitVec 32)
  | .kernCptime longWidth => fun _ => BitVec.ofNat longWidth counter
  | .hwPagesize => (4096 : BitVec 32)
  | .vmUvmexp => OpenBsd.PageCounters.mk 1000 500 12
  | .vfsBcachestat => (100 : Int)
  | .vmUvmexp2 => NetBsd.Uvmexp.mk 1000 200 100 50 12

def sampleErrorText : List Char := "Operation not permitted".toList

/-- A kernel that refuses `hw.ncpu`. -/
def sampleAnswers : (call : SystemCall) → call.Answer
  | .byName name =>
      Reply.mk (if name = .hwNcpu then -1 else 0) sampleErrorText name.size name.sampleContent
  | .byNumber mib purpose =>
      Reply.mk 0 sampleErrorText 0
        (mib.sampleContent (if purpose = OpenBsd.updatedPurpose then 100 else 0))

def sampleLibc : Libc where
  averages := fun _ => 0
  getloadavg := fun _ count => (count, fun _ => 1)

theorem bsdRun_accounts_sample :
    Accounts .netBsd sampleLibc Settings.initial sampleSteps (fun _ => sampleAnswers)
      (bsdRun .netBsd sampleLibc Settings.initial sampleSteps fun _ => sampleAnswers) :=
  bsdRun_accounts sampleSteps_allowed _

end TmuxMemCpuLoad
