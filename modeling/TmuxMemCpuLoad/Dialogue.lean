import Mathlib.Data.List.Basic
import Mathlib.Tactic.Common

/-!
# Programs that question an environment

A program questions its environment, which answers by all that was said before.
An answer can be a failure, which stops the program.  A program follows a
sequence of questions when it asks them one after the other and stops at the
first failure only; then so does a program that is composed of such ones.
-/

namespace Dialogue

section Programs

variable {Question : Type} {Answer : Question → Type} {Screen Stop Value Result : Type}

/-- A question and what was answered to it. -/
structure Exchange (Answer : Question → Type) where
  question : Question
  answer : Answer question

abbrev Environment (Answer : Question → Type) :=
  List (Exchange Answer) → (question : Question) → Answer question

structure State (Answer : Question → Type) (Screen : Type) where
  exchanges : List (Exchange Answer)
  screen : Screen

/-- A program keeps its state when it stops. -/
abbrev Program (Answer : Question → Type) (Screen Stop Value : Type) :=
  EStateM Stop (State Answer Screen) Value

def ask (environment : Environment Answer) (question : Question) :
    Program Answer Screen Stop (Answer question) := fun state =>
  let answer := environment state.exchanges question
  .ok answer { state with exchanges := state.exchanges ++ [⟨question, answer⟩] }

def onScreen (change : Screen → Screen) : Program Answer Screen Stop Unit := fun state =>
  .ok () { state with screen := change state.screen }

/-- What a program does about an exchange: it puts something on the screen, and
stops when the exchange is a failure. -/
structure Conduct (Answer : Question → Type) (Screen Stop : Type) where
  failed : Exchange Answer → Prop
  report : Exchange Answer → Screen → Screen
  stop : Stop

/-- The state after some exchanges. -/
def State.extend (conduct : Conduct Answer Screen Stop) (state : State Answer Screen)
    (made : List (Exchange Answer)) : State Answer Screen where
  exchanges := state.exchanges ++ made
  screen := made.foldl (fun screen exchange => conduct.report exchange screen) state.screen

variable {conduct : Conduct Answer Screen Stop}

@[simp]
theorem State.extend_nil (state : State Answer Screen) : state.extend conduct [] = state := by
  simp [State.extend]

theorem State.extend_append (state : State Answer Screen) (first second : List (Exchange Answer)) :
    state.extend conduct (first ++ second) = (state.extend conduct first).extend conduct second := by
  simp [State.extend, List.append_assoc]

/-- All questions are answered, none of them by a failure. -/
structure Answered (conduct : Conduct Answer Screen Stop) (questions : List Question)
    (made : List (Exchange Answer)) : Prop where
  questions_eq : made.map Exchange.question = questions
  succeed : ∀ exchange ∈ made, ¬ conduct.failed exchange

/-- The first failure is the answer to one of the questions, and the last one
that is asked. -/
structure Refused (conduct : Conduct Answer Screen Stop) (questions : List Question)
    (made : List (Exchange Answer)) (failing : Exchange Answer) : Prop where
  questions_prefix : made.map Exchange.question ++ [failing.question] <+: questions
  succeed : ∀ exchange ∈ made, ¬ conduct.failed exchange
  failed : conduct.failed failing

theorem Answered.nil : Answered conduct [] [] :=
  ⟨rfl, by simp⟩

theorem Answered.append {first second : List Question} {made later : List (Exchange Answer)}
    (answered : Answered conduct first made) (next : Answered conduct second later) :
    Answered conduct (first ++ second) (made ++ later) where
  questions_eq := by rw [List.map_append, answered.questions_eq, next.questions_eq]
  succeed exchange member := by
    rcases List.mem_append.mp member with early | late
    · exact answered.succeed exchange early
    · exact next.succeed exchange late

/-- Programs that run one after the other, with the exchanges of each. -/
theorem Answered.flatMap {Part : Type} {questions : Part → List Question}
    {made : Part → List (Exchange Answer)} {parts : List Part}
    (each : ∀ part ∈ parts, Answered conduct (questions part) (made part)) :
    Answered conduct (parts.flatMap questions) (parts.flatMap made) := by
  induction parts with
  | nil => exact .nil
  | cons part parts induction =>
      rw [List.forall_mem_cons] at each
      rw [List.flatMap_cons, List.flatMap_cons]
      exact each.1.append (induction each.2)

theorem Refused.append_right {questions : List Question} {made : List (Exchange Answer)}
    {failing : Exchange Answer} (refused : Refused conduct questions made failing)
    (more : List Question) : Refused conduct (questions ++ more) made failing :=
  ⟨refused.questions_prefix.trans (List.prefix_append questions more), refused.succeed,
    refused.failed⟩

theorem Answered.refused {first second : List Question} {made later : List (Exchange Answer)}
    {failing : Exchange Answer} (answered : Answered conduct first made)
    (refused : Refused conduct second later failing) :
    Refused conduct (first ++ second) (made ++ later) failing where
  questions_prefix := by
    rw [List.map_append, answered.questions_eq, List.append_assoc]
    exact (List.prefix_append_right_inj first).mpr refused.questions_prefix
  succeed exchange member := by
    rcases List.mem_append.mp member with early | late
    · exact answered.succeed exchange early
    · exact refused.succeed exchange late
  failed := refused.failed

/-- The answers are those that the environment gives after what was said. -/
def Recorded (environment : Environment Answer) :
    List (Exchange Answer) → List (Exchange Answer) → Prop
  | _, [] => True
  | said, exchange :: made =>
      exchange.answer = environment said exchange.question ∧
        Recorded environment (said ++ [exchange]) made

variable {environment : Environment Answer}

theorem Recorded.append {said made later : List (Exchange Answer)}
    (recorded : Recorded environment said made)
    (next : Recorded environment (said ++ made) later) :
    Recorded environment said (made ++ later) := by
  induction made generalizing said with
  | nil => rwa [List.append_nil] at next
  | cons exchange made induction =>
      refine ⟨recorded.1, induction recorded.2 ?_⟩
      rwa [List.append_assoc, List.singleton_append]

/-- An environment that does not look at what was said. -/
theorem Recorded.answer_eq {answers : (question : Question) → Answer question}
    {said made : List (Exchange Answer)} (recorded : Recorded (fun _ => answers) said made) :
    ∀ exchange ∈ made, exchange.answer = answers exchange.question := by
  induction made generalizing said with
  | nil => simp
  | cons exchange made induction =>
      rw [List.forall_mem_cons]
      exact ⟨recorded.1, induction recorded.2⟩

/-- From every state the program gets answers to all questions and returns a
value that they determine, or stops at the first failure. -/
def Follows (environment : Environment Answer) (conduct : Conduct Answer Screen Stop)
    (program : Program Answer Screen Stop Value) (questions : List Question)
    (returns : List (Exchange Answer) → Value → Prop) : Prop :=
  ∀ state,
    (∃ made value, Answered conduct questions made ∧
      Recorded environment state.exchanges made ∧ returns made value ∧
      program state = .ok value (state.extend conduct made)) ∨
    ∃ made failing, Refused conduct questions made failing ∧
      Recorded environment state.exchanges (made ++ [failing]) ∧
      program state = .error conduct.stop (state.extend conduct (made ++ [failing]))

theorem Follows.pure (value : Value) :
    Follows environment conduct (Pure.pure value : Program Answer Screen Stop Value) []
      fun made returned => made = [] ∧ returned = value := by
  intro state
  exact .inl ⟨[], value, .nil, trivial, ⟨rfl, rfl⟩, by rw [State.extend_nil]; rfl⟩

theorem Follows.mono {program : Program Answer Screen Stop Value} {questions : List Question}
    {returns weaker : List (Exchange Answer) → Value → Prop}
    (follows : Follows environment conduct program questions returns)
    (implies : ∀ made value, returns made value → weaker made value) :
    Follows environment conduct program questions weaker := by
  intro state
  rcases follows state with ⟨made, value, answered, recorded, returned, ran⟩ | refused
  · exact .inl ⟨made, value, answered, recorded, implies made value returned, ran⟩
  · exact .inr refused

theorem bind_ok {program : Program Answer Screen Stop Value}
    {next : Value → Program Answer Screen Stop Result} {state after : State Answer Screen}
    {value : Value} (ran : program state = .ok value after) :
    (program >>= next) state = next value after := by
  show EStateM.bind program next state = _
  rw [EStateM.bind, ran]

theorem bind_error {program : Program Answer Screen Stop Value}
    {next : Value → Program Answer Screen Stop Result} {state after : State Answer Screen}
    {stop : Stop} (ran : program state = .error stop after) :
    (program >>= next) state = .error stop after := by
  show EStateM.bind program next state = _
  rw [EStateM.bind, ran]

theorem Follows.bind {program : Program Answer Screen Stop Value}
    {next : Value → Program Answer Screen Stop Result} {questions more : List Question}
    {returns : List (Exchange Answer) → Value → Prop}
    {concludes : Value → List (Exchange Answer) → Result → Prop}
    (follows : Follows environment conduct program questions returns)
    (rest : ∀ value, Follows environment conduct (next value) more (concludes value)) :
    Follows environment conduct (program >>= next) (questions ++ more)
      fun made result => ∃ first value second,
        made = first ++ second ∧ returns first value ∧ concludes value second result := by
  intro state
  rcases follows state with
    ⟨made, value, answered, recorded, returned, ran⟩ | ⟨made, failing, refused, recorded, ran⟩
  · rcases rest value (state.extend conduct made) with
      ⟨later, result, answeredLater, recordedLater, returnedLater, ranLater⟩ |
        ⟨later, failing, refused, recordedLater, ranLater⟩
    · refine .inl ⟨made ++ later, result, answered.append answeredLater,
        recorded.append recordedLater, ⟨made, value, later, rfl, returned, returnedLater⟩, ?_⟩
      rw [bind_ok ran, ranLater, State.extend_append]
    · have recordedAll := recorded.append recordedLater
      rw [← List.append_assoc] at recordedAll
      refine .inr ⟨made ++ later, failing, answered.refused refused, recordedAll, ?_⟩
      rw [bind_ok ran, ranLater, List.append_assoc, State.extend_append state made]
  · exact .inr ⟨made, failing, refused.append_right more, recorded, bind_error ran⟩

/-- The state with what a program reports about an exchange. -/
def State.reported (conduct : Conduct Answer Screen Stop) (state : State Answer Screen)
    (exchange : Exchange Answer) : State Answer Screen :=
  { state with screen := conduct.report exchange state.screen }

/-- A question, with a response that reports its answer and stops at a failure. -/
theorem Follows.ask_bind {question : Question}
    {respond : Answer question → Program Answer Screen Stop Value}
    {value : Answer question → Value}
    (succeeds : ∀ answer state, ¬ conduct.failed ⟨question, answer⟩ →
      respond answer state = .ok (value answer) (state.reported conduct ⟨question, answer⟩))
    (fails : ∀ answer state, conduct.failed ⟨question, answer⟩ →
      respond answer state = .error conduct.stop (state.reported conduct ⟨question, answer⟩)) :
    Follows environment conduct (ask environment question >>= respond) [question]
      fun made returned => ∃ answer, made = [⟨question, answer⟩] ∧ returned = value answer := by
  intro state
  obtain ⟨answer, answerEq⟩ : ∃ answer, answer = environment state.exchanges question := ⟨_, rfl⟩
  have asked : (ask environment question >>= respond) state =
      respond answer { state with exchanges := state.exchanges ++ [⟨question, answer⟩] } := by
    rw [answerEq]
    rfl
  by_cases failed : conduct.failed ⟨question, answer⟩
  · refine .inr ⟨[], ⟨question, answer⟩, ⟨List.prefix_refl _, by simp, failed⟩,
      ⟨answerEq, trivial⟩, ?_⟩
    rw [asked, fails answer _ failed]
    rfl
  · refine .inl ⟨[⟨question, answer⟩], value answer, ⟨rfl, by simpa using failed⟩,
      ⟨answerEq, trivial⟩, ⟨answer, rfl, rfl⟩, ?_⟩
    rw [asked, succeeds answer _ failed]
    rfl

end Programs

end Dialogue
