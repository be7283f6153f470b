import Mathlib.Data.List.Induction
import Mathlib.Tactic.Common

/-!
# Folds over keyed events

A state is built from a list of events, each of which carries a key.  A
register that some events write holds the last value written to it.  When
events with different keys commute, the state depends on the list only through
the events of each key, in their order.
-/

namespace KeyedFold

section LastWrite

variable {State Event Value : Type*}

/-- The last value that the events write, if any of them writes. -/
def lastWrite (write : Event → Option Value) (events : List Event) : Option Value :=
  (events.filterMap write).getLast?

@[simp]
theorem lastWrite_concat (write : Event → Option Value) (events : List Event)
    (event : Event) :
    lastWrite write (events ++ [event]) =
      (write event).or (lastWrite write events) := by
  cases written : write event <;> simp [lastWrite, written]

theorem lastWrite_map {Stored : Type*} (write : Event → Option Value)
    (store : Value → Stored) (events : List Event) :
    lastWrite (fun event => (write event).map store) events =
      (lastWrite write events).map store := by
  induction events using List.reverseRecOn with
  | nil => rfl
  | append_singleton events event induction =>
      rw [lastWrite_concat, lastWrite_concat, induction]
      cases write event <;> rfl

/-- The last value written was written by one of the events. -/
theorem exists_of_lastWrite_eq_some {write : Event → Option Value}
    {events : List Event} {value : Value}
    (last : lastWrite write events = some value) :
    ∃ event ∈ events, write event = some value := by
  have member : value ∈ events.filterMap write := List.mem_of_getLast? last
  simpa [List.mem_filterMap] using member

/-- A register that every event overwrites or keeps holds the last value
written to it. -/
theorem register_foldl {step : State → Event → State} {register : State → Value}
    {write : Event → Option Value}
    (stepWrites : ∀ state event,
      register (step state event) = (write event).getD (register state))
    (state : State) (events : List Event) :
    register (events.foldl step state) =
      (lastWrite write events).getD (register state) := by
  induction events using List.reverseRecOn with
  | nil => rfl
  | append_singleton events event induction =>
      rw [List.foldl_append, List.foldl_cons, List.foldl_nil, stepWrites, induction,
        lastWrite_concat]
      cases write event <;> rfl

/-- A flag that events raise and none lowers. -/
theorem flag_foldl {step : State → Event → State} {flag : State → Bool}
    {raises : Event → Bool}
    (stepRaises : ∀ state event,
      flag (step state event) = (flag state || raises event))
    (state : State) (events : List Event) :
    flag (events.foldl step state) = (flag state || events.any raises) := by
  induction events generalizing state with
  | nil => simp
  | cons event events induction =>
      rw [List.foldl_cons, induction, stepRaises, List.any_cons, Bool.or_assoc]

end LastWrite

section Order

variable {State Event Key : Type*} [DecidableEq Key]

/-- The events of one key, in their order. -/
def occurrences (key : Event → Key) (selected : Key) (events : List Event) :
    List Event :=
  events.filter fun event => key event = selected

/-- The same events with, for each key, the same order among them. -/
def SameOccurrences (key : Event → Key) (first second : List Event) : Prop :=
  ∀ selected, occurrences key selected first = occurrences key selected second

theorem SameOccurrences.symm {key : Event → Key} {first second : List Event}
    (same : SameOccurrences key first second) : SameOccurrences key second first :=
  fun selected => (same selected).symm

theorem mem_occurrences {key : Event → Key} {selected : Key} {events : List Event}
    {event : Event} :
    event ∈ occurrences key selected events ↔ event ∈ events ∧ key event = selected := by
  simp [occurrences]

theorem SameOccurrences.mem_iff {key : Event → Key} {first second : List Event}
    (same : SameOccurrences key first second) (event : Event) :
    event ∈ first ↔ event ∈ second := by
  have equal : event ∈ occurrences key (key event) first ↔
      event ∈ occurrences key (key event) second := by
    rw [same]
  simpa [mem_occurrences] using equal

private theorem split_at_first {key : Event → Key} {event : Event}
    {rest events : List Event}
    (heads : occurrences key (key event) events = event :: rest) :
    ∃ before after, events = before ++ event :: after ∧
      ∀ other ∈ before, key other ≠ key event := by
  induction events with
  | nil => simp [occurrences] at heads
  | cons head events induction =>
      by_cases equal : key head = key event
      · have headEq : head = event := by
          simp only [occurrences, List.filter_cons, equal, decide_true, if_true,
            List.cons.injEq] at heads
          exact heads.1
        exact ⟨[], events, by simp [headEq], by simp⟩
      · have tailHeads : occurrences key (key event) events = event :: rest := by
          simpa [occurrences, List.filter_cons, equal] using heads
        obtain ⟨before, after, split, different⟩ := induction tailHeads
        refine ⟨head :: before, after, by simp [split], ?_⟩
        intro other member
        rcases List.mem_cons.mp member with rfl | member
        · exact equal
        · exact different other member

variable {key : Event → Key} {step : State → Event → State}

omit [DecidableEq Key] in
/-- An event commutes with a whole list of events of other keys. -/
theorem foldl_past
    (commute : ∀ state first second, key first ≠ key second →
      step (step state first) second = step (step state second) first)
    {event : Event} {events : List Event}
    (different : ∀ other ∈ events, key other ≠ key event) (state : State) :
    events.foldl step (step state event) = step (events.foldl step state) event := by
  induction events generalizing state with
  | nil => rfl
  | cons head events induction =>
      have headDifferent : key event ≠ key head :=
        Ne.symm (different head (by simp))
      rw [List.foldl_cons, commute state event head headDifferent,
        induction (fun other member => different other (by simp [member]))]
      rfl

/-- When events of different keys commute, only the order within each key
matters. -/
theorem foldl_eq_of_sameOccurrences
    (commute : ∀ state first second, key first ≠ key second →
      step (step state first) second = step (step state second) first)
    {first second : List Event} (same : SameOccurrences key first second)
    (state : State) : first.foldl step state = second.foldl step state := by
  induction first generalizing second state with
  | nil =>
      have empty : second = [] := by
        apply List.eq_nil_iff_forall_not_mem.mpr
        intro event member
        simpa using (same.mem_iff event).mpr member
      rw [empty]
  | cons event first induction =>
      have heads : occurrences key (key event) second =
          event :: occurrences key (key event) first := by
        rw [← same (key event)]
        simp [occurrences]
      obtain ⟨before, after, split, different⟩ := split_at_first heads
      have tails : SameOccurrences key first (before ++ after) := by
        intro selected
        have whole := same selected
        rw [split] at whole
        by_cases equal : key event = selected
        · have beforeEmpty : occurrences key selected before = [] := by
            simp only [occurrences, List.filter_eq_nil_iff, decide_eq_true_eq]
            intro other member
            exact equal ▸ different other member
          unfold occurrences at *
          simpa [List.filter_cons, equal, beforeEmpty] using whole
        · unfold occurrences at *
          simpa [List.filter_cons, equal] using whole
      calc
        (event :: first).foldl step state =
            (before ++ after).foldl step (step state event) :=
          induction tails (step state event)
        _ = after.foldl step (before.foldl step (step state event)) :=
          List.foldl_append
        _ = after.foldl step (step (before.foldl step state) event) := by
          rw [foldl_past commute different]
        _ = second.foldl step state := by
          rw [split, List.foldl_append, List.foldl_cons]

end Order

end KeyedFold
