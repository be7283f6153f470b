import Mathlib.Data.List.Basic
import Mathlib.Tactic.Common

/-!
# Computations with a shared state

Computations that use the same state one after the other may get in each
other's way.  They do not when each of them implements a computation without a
state: from every state that meets an invariant it has the same result, and
leaves a state that meets the invariant.  Then they can be run in any order.
-/

namespace SharedState

section Implements

variable {State Error Value Result : Type} {invariant : State → Prop}

/-- The results are those of a computation without the state, and the invariant
is kept. -/
def Implements (invariant : State → Prop) (computation : StateT State (Except Error) Value)
    (plain : Except Error Value) : Prop :=
  ∀ state, invariant state →
    (computation state).map Prod.fst = plain ∧
      ∀ value after, computation state = .ok (value, after) → invariant after

theorem implements_pure (value : Value) :
    Implements invariant (pure value : StateT State (Except Error) Value) (.ok value) := by
  intro state holds
  refine ⟨rfl, ?_⟩
  intro value after returned
  cases returned
  exact holds

theorem implements_lift (plain : Except Error Value) :
    Implements invariant (StateT.lift plain : StateT State (Except Error) Value) plain := by
  intro state holds
  cases plain with
  | error fault =>
      refine ⟨rfl, ?_⟩
      intro value after returned
      cases returned
  | ok value => exact implements_pure value state holds

section Run

variable {computation : StateT State (Except Error) Value} {plain : Except Error Value}
  (implements : Implements invariant computation plain) {state : State}
include implements

theorem Implements.run_of_ok {value : Value} (returns : plain = .ok value)
    (holds : invariant state) :
    ∃ after, invariant after ∧ computation state = .ok (value, after) := by
  obtain ⟨same, kept⟩ := implements state holds
  rw [returns] at same
  cases ran : computation state with
  | error fault =>
      rw [ran] at same
      cases same
  | ok returned =>
      obtain ⟨own, after⟩ := returned
      rw [ran] at same
      cases same
      exact ⟨after, kept own after ran, rfl⟩

theorem Implements.run_of_error {error : Error} (fails : plain = .error error)
    (holds : invariant state) : computation state = .error error := by
  have same := (implements state holds).1
  rw [fails] at same
  cases ran : computation state with
  | error other =>
      rw [ran] at same
      cases same
      rfl
  | ok returned =>
      rw [ran] at same
      cases same

end Run

theorem Implements.bind {computation : StateT State (Except Error) Value}
    {plain : Except Error Value} {next : Value → StateT State (Except Error) Result}
    {plainNext : Value → Except Error Result} (implements : Implements invariant computation plain)
    (rest : ∀ value, plain = .ok value → Implements invariant (next value) (plainNext value)) :
    Implements invariant (computation >>= next) (plain >>= plainNext) := by
  intro state holds
  cases result : plain with
  | error error =>
      have ran : (computation >>= next) state = .error error := by
        show (computation state >>= fun returned => next returned.1 returned.2) = _
        rw [implements.run_of_error result holds]
        rfl
      rw [ran]
      refine ⟨rfl, ?_⟩
      intro value after returned
      cases returned
  | ok value =>
      obtain ⟨after, kept, ran⟩ := implements.run_of_ok result holds
      have step : (computation >>= next) state = next value after := by
        show (computation state >>= fun returned => next returned.1 returned.2) = _
        rw [ran]
        rfl
      rw [step]
      exact rest value result after kept

theorem Implements.ite {condition : Prop} [Decidable condition]
    {first second : StateT State (Except Error) Value} {plainFirst plainSecond : Except Error Value}
    (positive : condition → Implements invariant first plainFirst)
    (negative : ¬ condition → Implements invariant second plainSecond) :
    Implements invariant (if condition then first else second)
      (if condition then plainFirst else plainSecond) := by
  by_cases holds : condition
  · rw [if_pos holds, if_pos holds]
    exact positive holds
  · rw [if_neg holds, if_neg holds]
    exact negative holds

/-- Two branches that go on with the same code. -/
theorem Implements.ite_bind {condition : Prop} [Decidable condition]
    {first second : StateT State (Except Error) Value} {plainFirst plainSecond : Except Error Value}
    {next : Value → StateT State (Except Error) Result} {plainNext : Value → Except Error Result}
    (positive : condition → Implements invariant first plainFirst)
    (negative : ¬ condition → Implements invariant second plainSecond)
    (rest : ∀ value, Implements invariant (next value) (plainNext value)) :
    Implements invariant (if condition then first >>= next else second >>= next)
      (if condition then plainFirst >>= plainNext else plainSecond >>= plainNext) := by
  apply Implements.ite
  · exact fun holds => (positive holds).bind fun value _ => rest value
  · exact fun fails => (negative fails).bind fun value _ => rest value

end Implements

/-! ## Running in some order -/

section Order

variable {State Error Value Index : Type} {invariant : State → Prop}

/-- The results of several calls, in the order in which they are run. -/
def runInOrder (calls : Index → StateT State (Except Error) Value) :
    List Index → StateT State (Except Error) (List (Index × Value))
  | [] => pure []
  | index :: order => do
      let value ← calls index
      let values ← runInOrder calls order
      pure ((index, value) :: values)

variable {calls : Index → StateT State (Except Error) Value}
  {plain : Index → Except Error Value}
  (implement : ∀ index, Implements invariant (calls index) (plain index))
include implement

theorem runInOrder_of_ok {values : Index → Value} (order : List Index)
    (returns : ∀ index ∈ order, plain index = .ok (values index)) {state : State}
    (holds : invariant state) :
    ∃ after, invariant after ∧
      runInOrder calls order state =
        .ok (order.map fun index => (index, values index), after) := by
  induction order generalizing state with
  | nil => exact ⟨state, holds, rfl⟩
  | cons index order induction =>
      rw [List.forall_mem_cons] at returns
      obtain ⟨next, kept, ran⟩ := (implement index).run_of_ok returns.1 holds
      obtain ⟨after, keptAfter, rest⟩ := induction returns.2 kept
      refine ⟨after, keptAfter, ?_⟩
      show (calls index state >>= fun returned =>
        runInOrder calls order returned.2 >>= fun values =>
          .ok ((index, returned.1) :: values.1, values.2)) = _
      rw [ran]
      show (runInOrder calls order next >>= fun values => _) = _
      rw [rest]
      rfl

theorem runInOrder_of_error {order : List Index}
    (fails : ∃ index ∈ order, ∃ error, plain index = .error error) {state : State}
    (holds : invariant state) : ∃ error, runInOrder calls order state = .error error := by
  induction order generalizing state with
  | nil => simp at fails
  | cons index order induction =>
      have step : runInOrder calls (index :: order) state =
          (calls index state >>= fun returned =>
            runInOrder calls order returned.2 >>= fun values =>
              .ok ((index, returned.1) :: values.1, values.2)) := rfl
      rw [step]
      cases result : plain index with
      | error error =>
          rw [(implement index).run_of_error result holds]
          exact ⟨error, rfl⟩
      | ok value =>
          obtain ⟨next, kept, ran⟩ := (implement index).run_of_ok result holds
          have later : ∃ other ∈ order, ∃ error, plain other = .error error := by
            obtain ⟨other, member, error, failed⟩ := fails
            rcases List.mem_cons.mp member with rfl | member
            · rw [result] at failed
              cases failed
            · exact ⟨other, member, error, failed⟩
          obtain ⟨error, rest⟩ := induction later kept
          rw [ran]
          show ∃ error, (runInOrder calls order next >>= fun values => _) = _
          rw [rest]
          exact ⟨error, rfl⟩

end Order

/-- The result of a call is found whatever its place in the order was. -/
theorem lookup_map_pair {Index Value : Type} [DecidableEq Index] (values : Index → Value)
    {order : List Index} {index : Index} (member : index ∈ order) :
    (order.map fun index => (index, values index)).lookup index = some (values index) := by
  induction order with
  | nil => simp at member
  | cons other order induction =>
      by_cases same : index = other
      · subst same
        simp
      · have later : index ∈ order := (List.mem_cons.mp member).resolve_left same
        have distinct : (index == other) = false := beq_false_of_ne same
        rw [List.map_cons, List.lookup_cons, distinct]
        exact induction later

end SharedState
