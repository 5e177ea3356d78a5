import Workflow.Proofs.Flow.Building
import Workflow.Proofs.Flow.CurrentStep
import Mathlib.Data.List.Nodup
import Mathlib.Data.List.Perm.Subperm
import Mathlib.Data.Nat.Find

/-!
# Workflow.Proofs.Flow.Graph — the graph of a definition without launched tasks

A step that launches nothing and computes nothing leads to a step or parks the flow (`Hop`), so a
definition of such steps is a graph in which each step has at most one successor
(`Definition.next?`), and there is one walk from the first step (`Definition.walk`).  Either this
walk visits no step twice, and then it has an end after at most as many steps as there are
(`exists_isWalk`), or it has none (`walk_ne_none`).
-/

namespace Workflow

/-- What a step does that always answers with the same edge. -/
inductive Hop where
  | goes (target : String)
  | parks (state : FlowState) (result : FlowResult) (message : Option String)
deriving DecidableEq, Repr

namespace Hop

def transition : Hop → Transition
  | goes target => .runTo target
  | parks state result message => .park state result message

theorem transition_isEdge (hop : Hop) : hop.transition.isEdge := by
  cases hop <;> rfl

/-- A flow that is parked in a state in which it would have to go on has nowhere to go, and this is
an error of the step. -/
def errs : Hop → Bool
  | goes _ => false
  | parks state _ _ => !state.isSettled

end Hop

/-- What the step does, if it always answers with the same edge. -/
def Step.hop? (s : Step) : Option Hop :=
  match s.body with
  | .fixed ⟨some target, none, none, [], true⟩ => some (.goes target)
  | .fixed ⟨none, some state, some result, [], true⟩ => some (.parks state result none)
  | .fixed ⟨none, some state, some result, [⟨message, none⟩], true⟩ =>
    some (.parks state result (some message))
  | _ => none

theorem Step.hop?_eq_some {s : Step} {hop : Hop} :
    s.hop? = some hop ↔ s.body = .fixed hop.transition := by
  constructor
  · intro known
    unfold hop? at known
    split at known
    all_goals cases known
    all_goals assumption
  · intro body
    unfold hop?
    rw [body]
    cases hop with
    | goes target => rfl
    | parks state result message => cases message <;> rfl

theorem Step.answer_of_hop {s : Step} {hop : Hop} (does : s.hop? = some hop) (turn : Nat)
    (record : Record) (ids : IdStream .task) :
    (s.execute turn record).answer ids = (.plain (.ok hop.transition), ids) := by
  rw [execute, Step.hop?_eq_some.1 does]
  rfl

/-- The error that a flow keeps whose step has parked it with nowhere to go. -/
def LastError.aimless (step : String) : LastError :=
  ⟨step, (FlowError.invalidState (.aimlessEdge step)).message, none⟩

namespace Definition

variable (d : Definition)

/-- Every step leads to a step or parks the flow. -/
def Synchronous : Prop := ∀ s ∈ d.steps, s.hop?.isSome

instance : Decidable d.Synchronous :=
  inferInstanceAs (Decidable (∀ s ∈ d.steps, s.hop?.isSome))

/-! ### Steps by name -/

def hop? (id : String) : Option Hop := (d.step? id).bind Step.hop?

/-- Where errors of a step lead, unless that is the step itself. -/
def rescue? (id : String) : Option String :=
  ((d.step? id).bind (·.properties.onException)).filter (· ≠ id)

/-- The successor of a step: its target, or where its error leads. -/
def next? (id : String) : Option String :=
  match d.hop? id with
  | some (.goes target) => some target
  | some (.parks state _ _) => if state.isSettled then none else d.rescue? id
  | none => none

/-- Whether a turn of the step is an error. -/
def errsAt (id : String) : Bool := (d.hop? id).any Hop.errs

/-- Whether a turn of the step completes it: it takes an edge that is in order, and it counts. -/
def completesAt (id : String) : Bool :=
  (d.step? id).any (!·.properties.isErrorStep) && !d.errsAt id

/-- State and result of a flow that ends with a turn of the step. -/
def endsAt (id : String) : FlowState × FlowResult :=
  match d.hop? id with
  | some (.parks .completed result _) => (.completed, Driver.finalResult result)
  | some (.parks .paused result _) => (.paused, result)
  | _ => (if d.properties.killNonRecoverable then .completed else .paused, .failed)

theorem endsAt_isSettled (id : String) : (d.endsAt id).1.isSettled := by
  unfold endsAt
  split
  · rfl
  · rfl
  · dsimp only
    split <;> rfl

variable {d} in
/-- A step of a synchronous definition is known, and so is what it does. -/
theorem Synchronous.exists_hop (h : d.Synchronous) {id : String} (mem : id ∈ stepIds d.steps) :
    ∃ s hop, d.step? id = some s ∧ s.id = id ∧ s.hop? = some hop := by
  obtain ⟨s, step, rfl⟩ := List.mem_map.1 mem
  obtain ⟨hop, does⟩ := Option.isSome_iff_exists.1 (h s step)
  exact ⟨s, hop, step?_of_mem step, rfl, does⟩

theorem rescue?_mem {id target : String} (h : d.rescue? id = some target) :
    target ∈ stepIds d.steps := by
  obtain ⟨leads, -⟩ := Option.filter_eq_some_iff.1 h
  obtain ⟨s, known, onException⟩ := Option.bind_eq_some_iff.1 leads
  refine d.targets_mem s (mem_of_step? known) target ?_
  simp [Step.targets, StepProperties.targets, onException]

theorem goes_mem {id target : String} (h : d.hop? id = some (.goes target)) :
    target ∈ stepIds d.steps := by
  obtain ⟨s, known, hop⟩ := Option.bind_eq_some_iff.1 h
  refine d.targets_mem s (mem_of_step? known) target ?_
  simp [Step.targets, Step.declaredTargets, Step.hop?_eq_some.1 hop, Hop.transition,
    Transition.runTo]

theorem next?_mem {id target : String} (h : d.next? id = some target) :
    target ∈ stepIds d.steps := by
  unfold next? at h
  split at h
  · rename_i goes
    exact Option.some.inj h ▸ d.goes_mem goes
  · split at h
    · cases h
    · exact d.rescue?_mem h
  · cases h

/-! ### The walk -/

/-- The walk from the first step. -/
def walk : Nat → Option String
  | 0 => some d.firstStep
  | n + 1 => (walk n).bind d.next?

/-- The walk visits no step twice. -/
def VisitsOnce : Prop := ∀ m n id, d.walk m = some id → d.walk n = some id → m = n

/-- These are the steps of the walk, from the first one to the last. -/
def IsWalk (ids : List String) : Prop := ∀ n, ids[n]? = d.walk n

theorem walk_mem {n : Nat} {id : String} (h : d.walk n = some id) : id ∈ stepIds d.steps := by
  cases n with
  | zero => exact Option.some.inj h ▸ d.firstStep_mem
  | succ n =>
    obtain ⟨_, -, next⟩ := Option.bind_eq_some_iff.1 h
    exact d.next?_mem next

/-- From a step on, the walk does not depend on when it got there. -/
theorem walk_add {m n : Nat} (h : d.walk m = d.walk n) (k : Nat) :
    d.walk (m + k) = d.walk (n + k) := by
  induction k with
  | zero => exact h
  | succ k ih =>
    show (d.walk (m + k)).bind d.next? = (d.walk (n + k)).bind d.next?
    rw [ih]

theorem walk_ended {m n : Nat} (ended : d.walk m = none) (h : m ≤ n) : d.walk n = none := by
  induction h with
  | refl => exact ended
  | step _ ih =>
    show (d.walk _).bind d.next? = none
    rw [ih, Option.bind_none]

/-- A walk that visits a step twice has no end. -/
theorem walk_ne_none (twice : ¬d.VisitsOnce) (k : Nat) : d.walk k ≠ none := by
  obtain ⟨m, n, earlier, id, first, again⟩ : ∃ m n, m < n ∧
      ∃ id, d.walk m = some id ∧ d.walk n = some id := by
    simp only [VisitsOnce, not_forall] at twice
    obtain ⟨m, n, id, first, again, differ⟩ := twice
    rcases Nat.lt_or_gt_of_ne differ with earlier | later
    · exact ⟨m, n, earlier, id, first, again⟩
    · exact ⟨n, m, later, id, again, first⟩
  -- what comes after the second visit has come after the first one
  induction k using Nat.strongRecOn with
  | ind k ih =>
    intro ended
    by_cases before : k ≤ n
    · rw [d.walk_ended ended before] at again
      cases again
    · refine ih (m + (k - n)) (by omega) ?_
      rw [d.walk_add (first.trans again.symm) (k - n), show n + (k - n) = k by omega]
      exact ended

section IsWalk

variable {d} {left after : List String} {id : String} (h : d.IsWalk (left ++ id :: after))

include h

theorem IsWalk.visits : d.walk left.length = some id := by
  rw [← h left.length]
  simp

theorem IsWalk.mem : id ∈ stepIds d.steps := d.walk_mem h.visits

theorem IsWalk.next?_eq : d.next? id = after.head? := by
  have there : (left ++ id :: after)[left.length + 1]? = after.head? := by
    rw [List.getElem?_append_right (Nat.le_succ _)]
    simp [List.head?_eq_getElem?]
  have here : d.walk (left.length + 1) = d.next? id := by
    rw [walk, h.visits, Option.bind_some]
  rw [← here, ← h, there]

end IsWalk

section Once

variable {d} {ids : List String} (once : d.VisitsOnce)
  (along : ∀ n id, ids[n]? = some id → d.walk n = some id)

include once along

theorem VisitsOnce.nodup : ids.Nodup := by
  refine List.nodup_iff_getElem?_ne_getElem?.2 fun m n earlier inside same => ?_
  have visit : ids[n]? = some ids[n] := List.getElem?_eq_getElem inside
  have := once m n ids[n] (along m _ (same.trans visit)) (along n _ visit)
  omega

/-- There are not more steps in a part of the walk than there are in the definition. -/
theorem VisitsOnce.length_le : ids.length ≤ d.steps.length := by
  have known : ids ⊆ stepIds d.steps := by
    intro id mem
    obtain ⟨n, visit⟩ := List.getElem?_of_mem mem
    exact d.walk_mem (along n id visit)
  have le := (List.subperm_of_subset (once.nodup along) known).length_le
  rwa [stepIds, List.length_map] at le

end Once

/-- The first steps of the walk. -/
def firsts (d : Definition) (k : Nat) : List String :=
  (List.range k).map fun n => (d.walk n).getD ""

theorem firsts_at {d : Definition} {k : Nat} (going : ∀ n < k, d.walk n ≠ none) (n : Nat) :
    (d.firsts k)[n]? = if n < k then d.walk n else none := by
  unfold firsts
  split
  · rename_i inside
    obtain ⟨id, visit⟩ := Option.ne_none_iff_exists'.1 (going n inside)
    simp [inside, visit]
  · rename_i outside
    simpa using Nat.le_of_not_lt outside

/-- A walk that visits no step twice has an end. -/
theorem exists_isWalk {d : Definition} (once : d.VisitsOnce) :
    ∃ ids, d.IsWalk ids ∧ ids.Nodup ∧ ids.length ≤ d.steps.length := by
  classical
  have ended : ∃ k, d.walk k = none := by
    by_contra endless
    rw [not_exists] at endless
    -- otherwise the walk visits more different steps than there are
    have going : ∀ n < d.steps.length + 1, d.walk n ≠ none := fun n _ => endless n
    have le : (d.firsts (d.steps.length + 1)).length ≤ d.steps.length := by
      refine once.length_le fun n id visit => ?_
      rw [firsts_at going] at visit
      split at visit
      · exact visit
      · cases visit
    rw [firsts, List.length_map, List.length_range] at le
    omega
  have walks : d.IsWalk (d.firsts (Nat.find ended)) := by
    intro n
    rw [firsts_at fun m before => Nat.find_min ended before]
    split
    · rfl
    · rename_i after
      exact (d.walk_ended (Nat.find_spec ended) (Nat.le_of_not_lt after)).symm
  have along : ∀ n id, (d.firsts (Nat.find ended))[n]? = some id → d.walk n = some id :=
    fun n id visit => (walks n).symm.trans visit
  exact ⟨_, walks, once.nodup along, once.length_le along⟩

/-- Whether the walk visits a step twice is seen after as many steps as there are. -/
theorem visitsOnce_iff : d.VisitsOnce ↔ d.walk d.steps.length = none := by
  constructor
  · intro once
    obtain ⟨ids, walks, -, le⟩ := exists_isWalk once
    have ended : d.walk ids.length = none := by rw [← walks, List.getElem?_eq_none (Nat.le_refl _)]
    exact d.walk_ended ended le
  · intro ended
    by_contra twice
    exact d.walk_ne_none twice d.steps.length ended

instance : Decidable d.VisitsOnce := decidable_of_iff _ d.visitsOnce_iff.symm

theorem isWalk_iff {ids : List String} :
    d.IsWalk ids ↔ ∀ n < ids.length + 1, ids[n]? = d.walk n := by
  constructor
  · exact fun walks n _ => walks n
  · intro firsts n
    by_cases before : n < ids.length + 1
    · exact firsts n before
    · have ended : d.walk ids.length = none := by
        rw [← firsts _ (Nat.lt_succ_self _), List.getElem?_eq_none (Nat.le_refl _)]
      rw [d.walk_ended ended (by omega), List.getElem?_eq_none (by omega)]

instance (ids : List String) : Decidable (d.IsWalk ids) := decidable_of_iff _ d.isWalk_iff.symm

/-- There is no other walk. -/
theorem IsWalk.unique {d : Definition} {ids ids' : List String} (h : d.IsWalk ids)
    (h' : d.IsWalk ids') : ids = ids' :=
  List.ext_getElem? fun n => (h n).trans (h' n).symm

end Definition

end Workflow
