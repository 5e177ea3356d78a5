import Workflow.Flow.World
import Workflow.Proofs.Flow.SectionRules

/-!
# Workflow.Proofs.Flow.Run — everything that may happen to one driver

An event is one critical section of a driver at an arbitrary time, something that happens to its
launched tasks, or a change of the store, the lock service and their outages by somebody else.  A
run is any list of events, so a statement about all runs is one about all interleavings.  Beside
what a listener really saves and tells there are updates and decisions out of the blue, on behalf of
any activation that was ever launched.
-/

namespace Workflow

/-- The request will run steps in the given epoch: it is about to look at the record, or executes a
step of the epoch. -/
def Request.GoesOn (epoch : Nat) : Request → Prop
  | .ready => True
  | .executing e => e.epoch = epoch
  | .answered _ => False

namespace Driver

/-- Something that happens to a driver or to what it shares. -/
inductive Event where
  /-- A move of the driver, at any time. -/
  | move (now : Nat) (move : Move)
  /-- An update on behalf of an activation. -/
  | update (now activation : Nat) (update : StepUpdate)
  /-- A decision on behalf of an activation. -/
  | decision (now activation : Nat) (decision : Decision)
  /-- Somebody else changes what is shared. -/
  | outside (change : Services → Services)

/-- One event. -/
def happen (x : Driver × Services) : Event → Driver × Services
  | .move now move => x.1.perform x.2 now move
  | .update now i update =>
    match x.1.activations[i]? with
    | some a => (x.1.saveUpdate x.2 now a.epoch a.step update).2
    | none => x
  | .decision now i decision =>
    match x.1.activations[i]? with
    | some a => x.1.decide x.2 now a.epoch a.step decision
    | none => x
  | .outside change => (x.1, change x.2)

/-- A run of events. -/
def run (x : Driver × Services) (es : List Event) : Driver × Services := es.foldl happen x

@[simp] theorem run_nil (x : Driver × Services) : run x [] = x := rfl

@[simp] theorem run_cons (x : Driver × Services) (e : Event) (es : List Event) :
    run x (e :: es) = run (happen x e) es := rfl

theorem run_append (x : Driver × Services) (es fs : List Event) :
    run x (es ++ fs) = run (run x es) fs := by
  simp [run, List.foldl_append]

theorem run_concat (x : Driver × Services) (es : List Event) (e : Event) :
    run x (es ++ [e]) = happen (run x es) e := by
  rw [run_append, run_cons, run_nil]

/-! ### What events bring -/

/-- The event brings a decision about a step of an epoch to the driver: a step has answered, a
listener tells, or the decision is out of the blue. -/
inductive Brings (x : Driver × Services) : Event → Nat → String → Decision → Prop
  | answer {now i : Nat} {e : Execution} {decision : Decision}
    (executing : x.1.requests[i]? = some (.executing e)) (due : e.due ≤ now)
    (decides : (e.answer x.2.ids.tasks).1.decision? = some decision) :
    Brings x (.move now (.proceed i)) e.epoch e.step decision
  | told {now i : Nat} {a : Activation} {decision : Decision}
    (activation : x.1.activations[i]? = some a) (decides : a.decision? = some decision) :
    Brings x (.move now (.decide i)) a.epoch a.step decision
  | blue {now i : Nat} {a : Activation} {decision : Decision}
    (activation : x.1.activations[i]? = some a) :
    Brings x (.decision now i decision) a.epoch a.step decision

/-- The event brings an update about a step of an epoch: one that a listener has to save, or one
out of the blue. -/
inductive Reports (x : Driver × Services) : Event → Nat → String → StepUpdate → Prop
  | heard {now i : Nat} {a : Activation} {update : StepUpdate} {rest : List StepUpdate}
    (activation : x.1.activations[i]? = some a) (updates : a.updates = update :: rest) :
    Reports x (.move now (.save i)) a.epoch a.step update
  | blue {now i : Nat} {a : Activation} {update : StepUpdate}
    (activation : x.1.activations[i]? = some a) :
    Reports x (.update now i update) a.epoch a.step update

/-! ### Requests that go on -/

/-- One of the requests that go on. -/
def Alive (d : Driver) (i : Nat) : Prop := ∃ r, d.requests[i]? = some r ∧ r.GoesOn d.epoch

theorem alive_addRequest {d : Driver} {r : Request} {i : Nat} :
    (d.addRequest r).Alive i ↔ d.Alive i ∨ i = d.requests.length ∧ r.GoesOn d.epoch := by
  simp only [Alive, addRequest]
  rcases Nat.lt_trichotomy i d.requests.length with hlt | rfl | hgt
  · simp [List.getElem?_append_left hlt, Nat.ne_of_lt hlt]
  · simp
  · have hend : d.requests[i]? = none := List.getElem?_eq_none (Nat.le_of_lt hgt)
    have hend' : (d.requests ++ [r])[i]? = none := List.getElem?_eq_none (by simp; omega)
    simp [hend, hend', Nat.ne_of_gt hgt]

theorem alive_setRequest {d : Driver} {r : Request} {i j : Nat} (hi : i < d.requests.length) :
    (d.setRequest i r).Alive j ↔ j ≠ i ∧ d.Alive j ∨ j = i ∧ r.GoesOn d.epoch := by
  by_cases hj : j = i
  · subst hj
    simp [Alive, setRequest, List.getElem?_set_self hi]
  · simp [Alive, setRequest, List.getElem?_set_ne (Ne.symm hj), hj]

theorem Alive.congr {d d' : Driver} {i : Nat} (h : d.Alive i) (requests : d'.requests = d.requests)
    (epoch : d'.epoch = d.epoch) : d'.Alive i := by
  rw [Alive, requests, epoch]
  exact h

/-! ### The driver of a flow that was just created -/

/-- A driver that nothing has happened to yet. -/
structure Untouched (d : Driver) : Prop where
  state : d.record.state = .created
  flow : d.record.flow = d.flow
  published : d.published = .created
  epoch : d.epoch = 0
  lease : d.lease = none
  active : d.active = none
  watchdog : d.watchdog = none
  activations : d.activations = []
  requests : d.requests = []

end Driver

/-- A driver that was just created has a new record. -/
theorem World.create_driver {w w' : World} {definition : Definition} {source : Nat} {d : Driver}
    (h : w.create definition source = (.ok d, w')) :
    ∃ flow, d = .ofRecord definition source (.create flow definition.flowType w.instant) := by
  unfold World.create at h
  simp only at h
  split at h
  · cases h
  · cases h
    exact ⟨_, rfl⟩

theorem World.create_untouched {w w' : World} {definition : Definition} {source : Nat} {d : Driver}
    (h : w.create definition source = (.ok d, w')) : d.Untouched := by
  obtain ⟨flow, rfl⟩ := World.create_driver h
  exact ⟨rfl, rfl, rfl, rfl, rfl, rfl, rfl, rfl, rfl⟩

/-! ### The smallest flow -/

/-- A step that leads to no step by its settings. -/
def Step.solo (work : Nat → StepContext → StepWork) : Step :=
  ⟨.named "solo", .custom work, .empty, default⟩

/-- A flow of one step. -/
def Definition.solo (work : Nat → StepContext → StepWork) : Definition where
  flowType := "solo"
  properties := default
  steps := [.solo work]
  firstStep := "solo"
  nodup := by simp [stepIds]
  firstStep_mem := by simp [stepIds, Step.solo, Step.id, StepProperties.named]
  targets_mem := by simp [Step.solo, Step.targets, Step.declaredTargets, StepProperties.targets,
    StepProperties.named]

end Workflow
