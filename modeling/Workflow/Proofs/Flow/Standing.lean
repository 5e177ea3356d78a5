import Workflow.Proofs.Flow.Ledger

/-!
# Workflow.Proofs.Flow.Standing — where a flow stands, and what its steps have said

An edge changes the standing of a flow in a way that depends on nothing but the standing
(`takeEdge_standing`), and lets its step say the lines of the edge.  While launched tasks are
awaited the flow stands where it did, and only their step says something or gets results
(`Record.KeptBut`).
-/

namespace Workflow

/-- Where a flow stands. -/
structure Standing where
  step : Option String
  state : FlowState
  result : FlowResult
  completed : List String

namespace Standing

/-- A step takes an edge that does not pause the flow. -/
def take (z : Standing) (step : String) (counts : Bool) (t : Transition) : Standing where
  step := t.target.or z.step
  state := if t.completesFlow then .completed else z.state
  result :=
    let result := t.result.getD z.result
    if t.completesFlow then Driver.finalResult result else result
  completed := if counts = false ∨ step ∈ z.completed then z.completed else z.completed ++ [step]

end Standing

namespace Record

def standing (r : Record) : Standing := ⟨r.currentStep, r.state, r.result, r.completedSteps⟩

/-- What a step has said. -/
def said (r : Record) (step : String) : List LogEntry := (r.logsOf step).flatMap StepLog.entries

section Fields

variable (r : Record) (now : Instant) (step : String)

@[simp] theorem touch_standing : (r.touch now).standing = r.standing := rfl

@[simp] theorem touch_said : (r.touch now).said = r.said := rfl

@[simp] theorem appendLog_standing (task : Option TaskId) (entries : List LogEntry) :
    (r.appendLog step task entries now).standing = r.standing := by
  unfold appendLog
  split <;> rfl

theorem appendLog_said (task : Option TaskId) (entries : List LogEntry) (s : String) :
    (r.appendLog step task entries now).said s =
      r.said s ++ if s = step then entries else [] := by
  unfold appendLog
  split
  · simp_all
  · by_cases same : s = step
    · simp [said, logsOf, same]
    · simp [said, logsOf, same, Ne.symm same]

@[simp] theorem markCompleted_said : (r.markCompleted step).said = r.said := by
  unfold markCompleted
  split <;> rfl

@[simp] theorem markCompleted_standing : (r.markCompleted step).standing =
    { r.standing with completed :=
      if step ∈ r.completedSteps then r.completedSteps else r.completedSteps ++ [step] } := by
  unfold markCompleted standing
  split <;> rfl

end Fields

section Edges

variable (r : Record) (step : String) (result : FlowResult)

@[simp] theorem advanceTo_standing :
    (r.advanceTo step).standing = { r.standing with step := some step } := rfl

@[simp] theorem setResult_standing :
    (r.setResult result).standing = { r.standing with result := result } := rfl

@[simp] theorem complete_standing :
    (r.complete result).standing = { r.standing with state := .completed, result := result } := rfl

@[simp] theorem pause_standing : r.pause.standing = { r.standing with state := .paused } := rfl

@[simp] theorem advanceTo_said : (r.advanceTo step).said = r.said := rfl

@[simp] theorem setResult_said : (r.setResult result).said = r.said := rfl

@[simp] theorem complete_said : (r.complete result).said = r.said := rfl

end Edges

/-- The flow stands where it did, and only one step has said something or got results. -/
structure KeptBut (step : String) (r r' : Record) : Prop where
  standing : r'.standing = r.standing
  results : ∀ s ≠ step, r'.results s = r.results s
  said : ∀ s ≠ step, r'.said s = r.said s

namespace KeptBut

variable {step : String} {r r' r'' : Record}

theorem refl (step : String) (r : Record) : r.KeptBut step r :=
  ⟨rfl, fun _ _ => rfl, fun _ _ => rfl⟩

theorem trans (h : r.KeptBut step r') (h' : r'.KeptBut step r'') : r.KeptBut step r'' :=
  ⟨h'.standing.trans h.standing, fun s hs => (h'.results s hs).trans (h.results s hs),
    fun s hs => (h'.said s hs).trans (h.said s hs)⟩

theorem touch (h : r.KeptBut step r') (now : Instant) : r.KeptBut step (r'.touch now) :=
  ⟨h.standing, h.results, h.said⟩

theorem saveResult (r : Record) (step : String) (result : TaskResult) :
    r.KeptBut step (r.saveResult step result) :=
  ⟨rfl, fun s hs => by rw [results_saveResult, if_neg hs], fun _ _ => rfl⟩

theorem recordTask (r : Record) (step : String) (task : TaskId) :
    r.KeptBut step (r.recordTask step task) := ⟨rfl, fun _ _ => rfl, fun _ _ => rfl⟩

theorem appendLog (h : r.KeptBut step r') (task : Option TaskId) (entries : List LogEntry)
    (now : Instant) : r.KeptBut step (r'.appendLog step task entries now) := by
  refine h.trans ⟨appendLog_standing .., fun s _ => ?_, fun s hs => ?_⟩
  · exact congrFun (Prod.mk.inj (appendLog_books ..)).2 s
  · rw [appendLog_said, if_neg hs, List.append_nil]

end KeptBut

end Record

namespace Driver

variable (d : Driver) (now : Instant) (step : String)

/-! ### Edges -/

/-- Log lines of a step, if they are kept, are said by it. -/
theorem logged_said (r : Record) (entries : List LogEntry) (s : String) :
    (if d.keepsLog step then r.appendLog step none entries now else r).said s =
      r.said s ++ if s = step ∧ d.keepsLog step then entries else [] := by
  split
  · simp [Record.appendLog_said, *]
  · simp [*]

section EdgeRecord

variable (t : Transition)

theorem edgeRecord_standing : (d.edgeRecord now step t).standing =
    { d.record.standing.take step (d.completes step) t with
      state := d.record.standing.state, result := t.result.getD d.record.standing.result } := by
  have logged : (if d.keepsLog step then d.record.appendLog step none t.log now
      else d.record).standing = d.record.standing := by
    split <;> simp
  have known : (if d.keepsLog step then d.record.appendLog step none t.log now
      else d.record).completedSteps = d.record.completedSteps := congrArg Standing.completed logged
  have before : d.record.completedSteps = d.record.standing.completed := rfl
  unfold edgeRecord
  cases target : t.target <;> cases result : t.result <;> cases d.completes step <;>
    simp [target, result, logged, known, before, Standing.take]

theorem edgeRecord_said (s : String) : (d.edgeRecord now step t).said s =
    d.record.said s ++ if s = step ∧ d.keepsLog step then t.log else [] := by
  rw [← logged_said d now step d.record t.log s]
  unfold edgeRecord
  cases t.target <;> cases t.result <;> by_cases hc : d.completes step <;> simp [hc]

/-- **Where an edge leads**, if it does not pause the flow. -/
theorem takeEdge_standing (on : t.state ≠ some .paused) :
    (d.takeEdge now step t).record.standing = d.record.standing.take step (d.completes step) t := by
  have edge := edgeRecord_standing d now step t
  rw [takeEdge_eq]
  split
  · rename_i completes
    have result : (d.edgeRecord now step t).result = t.result.getD d.record.standing.result :=
      edgeRecord_result ..
    simp [onRecord, edge, result, Standing.take, Transition.completesFlow, completes]
  · rename_i paused
    exact absurd paused on
  · rename_i goes _
    have stays : t.completesFlow = false := by simpa [Transition.completesFlow] using goes
    simp [onRecord, edge, Standing.take, stays]

/-- Where an edge leads that pauses the flow. -/
theorem takeEdge_standing_paused (paused : t.state = some .paused) :
    (d.takeEdge now step t).record.standing =
      { d.record.standing.take step (d.completes step) t with state := .paused } := by
  have edge := edgeRecord_standing d now step t
  have stays : t.completesFlow = false := by simp [Transition.completesFlow, paused]
  rw [takeEdge_eq, paused]
  simp [onRecord, edge, Standing.take, stays]

/-- An edge completes its step, if that counts. -/
theorem takeEdge_completed : (d.takeEdge now step t).record.completedSteps =
    if d.completes step = false ∨ step ∈ d.record.completedSteps then d.record.completedSteps
    else d.record.completedSteps ++ [step] := by
  have edge : (d.takeEdge now step t).record.completedSteps =
      (d.edgeRecord now step t).completedSteps := by
    rw [takeEdge_eq]
    split <;> rfl
  rw [edge]
  exact congrArg Standing.completed (edgeRecord_standing d now step t)

theorem takeEdge_said (s : String) : (d.takeEdge now step t).record.said s =
    d.record.said s ++ if s = step ∧ d.keepsLog step then t.log else [] := by
  have edge := edgeRecord_said d now step t s
  rw [takeEdge_eq]
  split <;> exact edge

theorem takeEdge_results (s : String) :
    (d.takeEdge now step t).record.results s = d.record.results s := by
  have edge := congrFun (Prod.mk.inj (edgeRecord_books d now step t)).2 s
  rw [takeEdge_eq]
  split <;> exact edge

end EdgeRecord

/-- An error leaves a flow where it stands, as failed; where this leads is not known yet. -/
theorem errorRecord_standing (e : FlowError) : (d.errorRecord now step e).standing =
    { d.record.standing with result := .failed } := by
  have logged (r : Record) : (if d.keepsLog step then
      r.appendLog step none [⟨e.message, e.cause⟩] now else r).standing = r.standing := by
    split
    · exact Record.appendLog_standing ..
    · rfl
  exact congrArg (fun z : Standing => { z with result := .failed })
    (logged (d.record.recordError step e.message e.cause))

/-- **Where an error leads.** -/
theorem routeError_standing (e : FlowError) : (d.routeError now step e).record.standing =
    { d.record.standing with
      step := (d.exceptionStep? step).or d.record.standing.step
      state :=
        if (d.exceptionStep? step).isSome then d.record.standing.state
        else if d.definition.properties.killNonRecoverable then .completed else .paused
      result := .failed } := by
  have noted := errorRecord_standing d now step e
  rw [routeError_eq]
  split
  · rename_i target leads
    simp [onRecord, noted, leads]
  · rename_i stuck
    split <;> simp [onRecord, noted, stuck]

/-! ### Launched tasks -/

theorem logStep_keptBut (entries : List LogEntry) :
    d.record.KeptBut step (d.logStep now step entries).record := by
  rw [logStep_eq]
  simp only [onRecord]
  split
  · exact (Record.KeptBut.refl ..).appendLog ..
  · exact .refl ..

theorem launch_keptBut (at_ : Nat) (l : StepLaunch) :
    d.record.KeptBut step (d.launch at_ step l).record := logStep_keptBut d.nextEpoch ..

theorem applyUpdate_keptBut (update : StepUpdate) :
    d.record.KeptBut step (d.applyUpdate now step update).record := by
  have logged (task : Option TaskId) (entries : List LogEntry) (r : Record)
      (h : d.record.KeptBut step r) : d.record.KeptBut step
        (if d.keepsLog step then r.appendLog step task entries now else r) := by
    split
    · exact h.appendLog ..
    · exact h
  cases update with
  | taskCreated task => exact (Record.KeptBut.recordTask _ step task).touch now
  | taskResult r entries =>
    exact (logged _ _ _ (Record.KeptBut.saveResult _ step r)).touch now
  | log task entries => exact (logged _ _ _ (.refl ..)).touch now

end Driver

end Workflow
