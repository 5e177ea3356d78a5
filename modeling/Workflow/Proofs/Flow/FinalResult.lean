import Workflow.Proofs.Flow.Attempts

/-!
# Workflow.Proofs.Flow.FinalResult — with which result a flow completes

The result of a running flow is the latest contribution of what was applied in its current attempt
(`Tallied`), so an edge that completes the flow completes it with that, and an error that was
applied is made up for by later edges of the attempt only (`final_result`).
-/

namespace Workflow

namespace Driver

/-! ### What a verdict makes of the result -/

section Enact

variable (d : Driver) (now : Instant) (step : String)

theorem edgeRecord_result (t : Transition) :
    (d.edgeRecord now step t).result = t.result.getD d.record.result := by
  have logged : (if d.keepsLog step then d.record.appendLog step none t.log now
      else d.record).result = d.record.result := by
    split <;> simp
  have completed : ∀ r : Record,
      (if d.completes step then r.markCompleted step else r).result = r.result := by
    intro r
    split <;> simp
  unfold edgeRecord
  cases t.result with
  | none => cases t.target <;> exact (completed _).trans logged
  | some result => cases t.target <;> rfl

/-- The record of a flow whose step has an error, before it is known where this leads. -/
def errorRecord (e : FlowError) : Record :=
  let r := d.record.recordError step e.message e.cause
  (if d.keepsLog step then r.appendLog step none [⟨e.message, e.cause⟩] now else r).setResult
    .failed

theorem routeError_eq (e : FlowError) : d.routeError now step e =
    match d.exceptionStep? step with
    | some target => d.onRecord fun _ => (d.errorRecord now step e).advanceTo target
    | none =>
      if d.definition.properties.killNonRecoverable then
        d.onRecord fun _ => (d.errorRecord now step e).complete .failed
      else d.nextEpoch.onRecord fun _ => (d.errorRecord now step e).pause := by
  unfold routeError errorRecord
  simp only [logStep_eq]
  rfl

theorem errorRecord_state (e : FlowError) :
    (d.errorRecord now step e).state = d.record.state := by
  unfold errorRecord
  simp only [Record.setResult_state]
  split <;> simp

/-- A running flow that a verdict leaves running has the result that the verdict contributes. -/
theorem enact_running {v : Verdict} (h : (d.enact now v).record.state = .running) :
    (d.enact now v).record.result = v.contribution?.getD d.record.result := by
  revert h
  cases v with
  | edge step t =>
    rw [enact, takeEdge_eq]
    split
    · exact nofun
    · exact nofun
    · exact fun _ => edgeRecord_result d now step t
  | error step e =>
    rw [enact, routeError_eq]
    split
    · exact fun _ => rfl
    · split <;> exact nofun

/-- An edge that completes the flow. -/
theorem enact_completing {t : Transition} (completes : t.state = some .completed) :
    (d.enact now (.edge step t)).record.state = .completed ∧
      (d.enact now (.edge step t)).record.result =
        finalResult (t.result.getD d.record.result) := by
  rw [enact, takeEdge_eq, completes, ← edgeRecord_result d now step t]
  exact ⟨rfl, rfl⟩

/-- Errors of the step lead to no other step. -/
def Unrouted (step : String) : Prop :=
  ∀ s target, d.definition.step? step = some s → s.properties.onException = some target →
    target = step

theorem exceptionStep?_eq_none : d.exceptionStep? step = none ↔ d.Unrouted step := by
  simp only [exceptionStep?, Unrouted, Option.filter_eq_none_iff, Option.bind_eq_some_iff,
    decide_eq_true_eq, ne_eq, Decidable.not_not]
  constructor
  · exact fun h s target found set => h target ⟨s, found, set⟩
  · rintro h target ⟨s, found, set⟩
    exact h s target found set

/-- An error that no other step takes over. -/
theorem enact_unrouted (e : FlowError) (unrouted : d.Unrouted step) :
    (d.enact now (.error step e)).record.state =
        (if d.definition.properties.killNonRecoverable then .completed else .paused) ∧
      (d.enact now (.error step e)).record.result = .failed := by
  rw [enact, routeError_eq, (exceptionStep?_eq_none d step).2 unrouted]
  by_cases kills : d.definition.properties.killNonRecoverable
  · simp only [kills, if_true]
    exact ⟨rfl, rfl⟩
  · simp only [kills]
    exact ⟨rfl, rfl⟩

/-- The verdict completes a running flow. -/
def Verdict.Completes (d : Driver) : Verdict → Prop
  | .edge _ t => t.state = some .completed
  | .error step _ => d.Unrouted step ∧ d.definition.properties.killNonRecoverable

theorem Verdict.Completes.congr {d d' : Driver} (h : d'.definition = d.definition) {v : Verdict}
    (completes : v.Completes d') : v.Completes d := by
  cases v with
  | edge step t => exact completes
  | error step e => simpa only [Verdict.Completes, Unrouted, h] using completes

theorem enact_completes {v : Verdict} (running : d.record.state = .running)
    (h : (d.enact now v).record.state = .completed) : v.Completes d := by
  revert h
  cases v with
  | edge step t =>
    rw [enact, takeEdge_eq]
    split
    · rename_i completed
      exact fun _ => completed
    · intro paused
      cases paused
    · intro completed
      -- an edge that goes on leaves the flow running
      have kept : d.record.state = .completed :=
        (edgeRecord_state d now step t).symm.trans completed
      rw [running] at kept
      cases kept
  | error step e =>
    rw [enact, routeError_eq]
    split
    · intro completed
      -- an error that is routed does so too
      have kept : d.record.state = .completed :=
        (errorRecord_state d now step e).symm.trans completed
      rw [running] at kept
      cases kept
    · rename_i unrouted
      split
      · rename_i kills
        exact fun _ => ⟨(exceptionStep?_eq_none d step).1 unrouted, kills⟩
      · intro paused
        cases paused

end Enact

/-! ### The verdicts of an attempt -/

/-- The verdicts of the current attempt once an event has happened. -/
def noted (x : Driver × Services) (vs : List Verdict) (e : Event) : List Verdict :=
  if (entersAt? x e).isSome then [] else vs ++ (verdict? x e).toList

/-- The verdicts of the current attempt after a run, in order; `vs` are those of before. -/
def verdicts (x : Driver × Services) (vs : List Verdict) : List Event → List Verdict
  | [] => vs
  | e :: es => verdicts (happen x e) (noted x vs e) es

/-- The result of a running flow is the latest contribution of its attempt. -/
structure Tallied (x : Driver × Services) (vs : List Verdict) : Prop where
  known : x.1.published = x.1.record.state
  created : x.1.record.state = .created → x.1.record.result = .unknown
  running : x.1.record.state = .running → x.1.record.result = Verdict.standing vs

theorem noted_of_verdict {x : Driver × Services} {e : Event} {v : Verdict}
    (h : verdict? x e = some v) (vs : List Verdict) : noted x vs e = vs ++ [v] := by
  obtain ⟨_, _, _, brought, -⟩ := verdict?_eq_some.1 h
  simp [noted, brought.entersAt?, h]

theorem verdict?_running {x : Driver × Services} {e : Event} {v : Verdict}
    (h : verdict? x e = some v) : x.1.record.state = .running := by
  obtain ⟨_, _, _, -, -, running, -⟩ := verdict?_eq_some.1 h
  exact running

/-- One event. -/
theorem Tallied.happen {x : Driver × Services} {vs : List Verdict} (h : Tallied x vs) (e : Event) :
    Tallied (happen x e) (noted x vs e) := by
  refine ⟨happen_known h.known e, ?_, ?_⟩
  · -- before it is entered a flow has no result of its own
    intro created
    cases happen_changes h.known e with
    | enters _ running => simp [running] at created
    | @applies v now d verdict definition record enacted =>
      have running : d.record.state = .running := record ▸ verdict?_running verdict
      have routed : (d.enact (.ofVirtualMs now) v).record.state ≠ .created := by
        cases v with
        | edge step t => exact (takeEdge_routed _ step t running).entered
        | error step e => exact (routeError_routed _ step e running).entered
      rw [enacted] at created
      exact absurd created routed
    | expires _ _ _ timeout => simp [timeout.1] at created
    | stays outside unapplied state result =>
      rcases state with same | ⟨-, paused⟩
      · exact result.trans (h.created (same.symm.trans created))
      · simp [paused] at created
  · -- while it runs it has the result that its verdicts leave standing
    intro running
    cases happen_changes h.known e with
    | enters entry _ result =>
      -- with the entry a new attempt begins
      have fresh : noted x vs e = [] := by simp [noted, entry]
      rw [fresh]
      rcases result with unknown | ⟨created, same⟩
      · exact unknown
      · exact same.trans (h.created created)
    | @applies v now d verdict definition record enacted =>
      rw [enacted] at running ⊢
      rw [noted_of_verdict verdict, Verdict.standing_concat, ← h.running (verdict?_running verdict),
        ← record]
      exact enact_running d _ running
    | expires _ _ _ timeout => simp [timeout.1] at running
    | stays outside unapplied state result =>
      have same : noted x vs e = vs := by simp [noted, outside, unapplied]
      rw [same]
      rcases state with same | ⟨-, paused⟩
      · exact result.trans (h.running (same.symm.trans running))
      · simp [paused] at running

theorem Tallied.run {x : Driver × Services} {vs : List Verdict} (h : Tallied x vs)
    (es : List Event) : Tallied (run x es) (verdicts x vs es) := by
  induction es generalizing x vs with
  | nil => exact h
  | cons e es ih => exact ih (h.happen e)

theorem finalResult_eq (r : FlowResult) :
    finalResult r = if r = .unknown then .success else r := by
  cases r <;> rfl

section Final

variable {x : Driver × Services} {e : Event}

theorem edge_completes {vs : List Verdict} (h : Tallied x vs) {step : String} {t : Transition}
    (verdict : verdict? x e = some (.edge step t)) (completes : t.state = some .completed)
    {r : FlowResult} (stands : Verdict.standing (vs ++ [.edge step t]) = r) :
    (happen x e).1.record.state = .completed ∧
      (happen x e).1.record.result = if r = .unknown then .success else r := by
  obtain ⟨now, d, -, record, enacted⟩ := verdict?_enacted verdict
  obtain ⟨state, result⟩ := enact_completing d (.ofVirtualMs now) step completes
  rw [Verdict.standing_concat, ← h.running (verdict?_running verdict), ← record] at stands
  rw [enacted, ← finalResult_eq, ← stands]
  exact ⟨state, result⟩

theorem error_ends {step : String} {err : FlowError}
    (verdict : verdict? x e = some (.error step err)) (unrouted : x.1.Unrouted step) :
    (happen x e).1.record.state =
        (if x.1.definition.properties.killNonRecoverable then .completed else .paused) ∧
      (happen x e).1.record.result = .failed := by
  obtain ⟨now, d, definition, -, enacted⟩ := verdict?_enacted verdict
  have same : d.Unrouted step := by simpa only [Unrouted, definition] using unrouted
  obtain ⟨state, result⟩ := enact_unrouted d (.ofVirtualMs now) step err same
  rw [enacted, ← definition]
  exact ⟨state, result⟩

theorem expire_completes {now : Nat} (due : x.1.watchdog.any (· ≤ now))
    (running : x.1.record.state = .running) :
    (happen x (.move now .expire)).1.record.state = .completed ∧
      (happen x (.move now .expire)).1.record.result = .timeout := by
  simp only [happen, perform]
  rw [if_pos due]
  refine expire_rule (motive := fun r => r.1.record.state = .completed ∧
    r.1.record.result = .timeout) x.1 x.2 now (fun idle => absurd running idle) ?_
  rintro d' _ rfl
  simp [Record.complete, Record.touch]

/-- Nothing else completes a flow, and one that was completed keeps its result. -/
theorem completed_by (known : x.1.published = x.1.record.state)
    (completed : (happen x e).1.record.state = .completed) :
    (x.1.record.state = .completed ∧ (happen x e).1.record.result = x.1.record.result) ∨
    (∃ v, verdict? x e = some v ∧ v.Completes x.1) ∨
    ∃ now, e = .move now .expire ∧ x.1.watchdog.any (· ≤ now) ∧ x.1.record.state = .running := by
  cases happen_changes known e with
  | enters _ running => simp [running] at completed
  | @applies v now d verdict definition record enacted =>
    rw [enacted] at completed
    have running : d.record.state = .running := record ▸ verdict?_running verdict
    exact .inr (.inl ⟨v, verdict, (enact_completes d _ running completed).congr definition⟩)
  | expires deadline due running => exact .inr (.inr ⟨_, deadline, due, running⟩)
  | stays _ _ state result =>
    rcases state with same | ⟨-, paused⟩
    · exact .inl ⟨same.symm.trans completed, result⟩
    · simp [paused] at completed

end Final

/-- **Final result of a flow.**  A flow was created, and anything at all has happened to its driver;
whichever calls of the store and of the lock service have failed.  The verdicts of the current
attempt are what was applied since the latest start or resume that was let in.  Then, whatever
happens next:

* an edge that completes the flow completes it with the latest contribution of the attempt, its own
  included, which is read as a success if there is none or it is not known;
* an error of a step, of which the settings name no other step to take it over, completes or pauses
  the flow as failed;
* the deadline of a running flow completes it as timed out;
* nothing else completes a flow, and a completed one keeps its result;
* if an error was applied in the attempt and the flow completes as a success, then an edge that was
  applied after the error has carried a success or a result that is not known. -/
theorem final_result {w w' : World} {definition : Definition} {source : Nat} {d : Driver}
    (created : w.create definition source = (.ok d, w')) (es : List Event)
    (x : Driver × Services) (hx : run (d, w'.services) es = x)
    (vs : List Verdict) (hvs : verdicts (d, w'.services) [] es = vs)
    (e : Event) (y : Driver × Services) (hy : happen x e = y) :
    (∀ step t r, verdict? x e = some (.edge step t) → t.state = some .completed →
      Verdict.standing (vs ++ [.edge step t]) = r →
      y.1.record.state = .completed ∧
      y.1.record.result = if r = .unknown then .success else r) ∧
    (∀ step err, verdict? x e = some (.error step err) →
      (∀ s target, x.1.definition.step? step = some s → s.properties.onException = some target →
        target = step) →
      y.1.record.state =
          (if x.1.definition.properties.killNonRecoverable then .completed else .paused) ∧
        y.1.record.result = .failed) ∧
    (∀ now, e = .move now .expire → x.1.watchdog.any (· ≤ now) → x.1.record.state = .running →
      y.1.record.state = .completed ∧ y.1.record.result = .timeout) ∧
    (y.1.record.state = .completed →
      (x.1.record.state = .completed ∧ y.1.record.result = x.1.record.result) ∨
      (∃ v, verdict? x e = some v ∧ v.Completes x.1) ∨
      ∃ now, e = .move now .expire ∧ x.1.watchdog.any (· ≤ now) ∧ x.1.record.state = .running) ∧
    (x.1.record.state = .running → y.1.record.state = .completed → y.1.record.result = .success →
      ∀ before step err after, noted x vs e = before ++ .error step err :: after →
        ∃ step' t, .edge step' t ∈ after ∧
          (t.result = some .success ∨ t.result = some .unknown)) := by
  subst hx hvs hy
  have untouched := World.create_untouched created
  have result : d.record.result = .unknown := by
    obtain ⟨flow, rfl⟩ := World.create_driver created
    rfl
  have start : Tallied (d, w'.services) [] :=
    ⟨untouched.published.trans untouched.state.symm, fun _ => result, fun _ => result⟩
  have tallied := start.run es
  refine ⟨fun step t r verdict completes stands =>
      edge_completes tallied verdict completes stands,
    fun step err verdict unrouted => error_ends verdict unrouted, ?_,
    completed_by tallied.known, ?_⟩
  · rintro now rfl due running
    exact expire_completes due running
  · intro running completed success before step err after attempt
    rcases completed_by tallied.known completed with ⟨before, -⟩ | ⟨v, verdict, completes⟩ |
      ⟨now, rfl, due, -⟩
    · simp [running] at before
    · cases v with
      | edge step' t =>
        rw [(edge_completes tallied verdict completes rfl).2] at success
        rw [noted_of_verdict verdict] at attempt
        rw [attempt] at success
        -- a success is one that was carried, or what was carried is not known
        split at success
        · rename_i carried
          obtain ⟨step', t, later, result⟩ := Verdict.standing_of_error carried (by simp)
          exact ⟨step', t, later, .inr result⟩
        · obtain ⟨step', t, later, result⟩ := Verdict.standing_of_error success (by simp)
          exact ⟨step', t, later, .inl result⟩
      | error step' err' =>
        rw [(error_ends verdict completes.1).2] at success
        cases success
    · rw [(expire_completes due running).2] at success
      cases success

/-- A flow whose first step fails and leads to the second one by its settings, which completes the
flow with a result that is not known. -/
def failThenMend : Definition where
  flowType := "fail then mend"
  properties := default
  steps := [⟨{ StepProperties.named "fail" with onException := some "mend" },
      .fixed { Transition.noop with isEdge := true }, .empty, default⟩,
    ⟨.named "mend", .fixed (.park .completed .unknown none), .empty, default⟩]
  firstStep := "fail"
  nodup := by decide
  firstStep_mem := by decide
  targets_mem := by decide

/-- The error of the first step was applied, and the flow completes as a success: the edge of the
second step has carried a result that is not known. -/
theorem final_result_mended : ∃ d w' x y step t,
    World.empty.create failThenMend 0 = (.ok d, w') ∧
    run (d, w'.services) [.move 0 .start, .move 0 (.proceed 0), .move 0 (.proceed 0),
      .move 0 (.proceed 0)] = x ∧
    noted x [.error "fail" (.invalidState (.aimlessEdge "fail"))] (.move 0 (.proceed 0)) =
      [.error "fail" (.invalidState (.aimlessEdge "fail")), .edge step t] ∧
    (t.result = some .success ∨ t.result = some .unknown) ∧ t.result = some .unknown ∧
    happen x (.move 0 (.proceed 0)) = y ∧
    y.1.record.state = .completed ∧ y.1.record.result = .success := by
  have created : World.empty.create failThenMend 0 = (.ok _, _) := rfl
  obtain ⟨edges, -, -, -, success⟩ := final_result created [.move 0 .start, .move 0 (.proceed 0),
    .move 0 (.proceed 0), .move 0 (.proceed 0)] _ rfl _ rfl (.move 0 (.proceed 0)) _ rfl
  obtain ⟨state, result⟩ := edges "mend" (.park .completed .unknown none) .unknown rfl rfl rfl
  obtain ⟨step, t, later, carried⟩ := success rfl state result [] "fail"
    (.invalidState (.aimlessEdge "fail")) [.edge "mend" (.park .completed .unknown none)] rfl
  obtain ⟨rfl, rfl⟩ : step = "mend" ∧ t = .park .completed .unknown none := by simpa using later
  exact ⟨_, _, _, _, _, _, created, rfl, rfl, carried, rfl, rfl, state, result⟩

end Driver

end Workflow
