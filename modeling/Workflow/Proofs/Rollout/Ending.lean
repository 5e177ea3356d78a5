import Workflow.Proofs.Flow.Awaiting
import Workflow.Proofs.Rollout.Outcomes
import Workflow.Rollout.Report

/-!
# Workflow.Proofs.Rollout.Ending — how a rollout ends

A rollout that was started goes from `start` to `deploy`, which launches the updates and waits for
them.  Their results decide whether it goes on over `verify` to `stop`, or to `handleError`.  Nobody
disturbs it, and so it gets there in whatever order driver, workers and listener take their turns
(`Rollout.rollout_settles`).
-/

namespace Workflow

namespace Rollout

variable (r : Rollout)

/-! ### The definition -/

/-- The step at which a rollout starts. -/
def startStep : Step :=
  ⟨{ StepProperties.named "start" with weight := 0 }, .fixed (.runTo "deploy"), .empty, .unbounded⟩

/-- The step that counts the updated hosts. -/
def verifyStep : Step := ⟨.named "verify", verification, .empty, .unbounded⟩

/-- The step at which a rollout succeeds. -/
def stopStep : Step :=
  ⟨.named "stop", .fixed (.park .completed .success (some "rollout finished")), .empty, .unbounded⟩

/-- The step at which a rollout fails. -/
def errorStep : Step :=
  ⟨{ StepProperties.named "handleError" with isErrorStep := true },
    .fixed (.park .completed .failed (some "rollout failed")), .empty, .unbounded⟩

theorem builtSteps_eq :
    r.builtSteps = [startStep, r.deployStep, verifyStep, stopStep, errorStep] := rfl

/-- The definition of a rollout. -/
structure Describes (definition : Definition) : Prop where
  steps : definition.steps = r.builtSteps
  firstStep : definition.firstStep = "start"
  properties : definition.properties = r.flow

/-- A rollout whose polls have an interval has a definition. -/
theorem defines (interval : r.monitor.validate = .ok ()) :
    ∃ definition, r.definition = .ok definition ∧ r.Describes definition := by
  obtain ⟨d, built, steps⟩ := r.builds
  refine ⟨d, ?_, steps, ?_, Definition.build_properties built⟩
  · simp [definition, interval, built, Except.mapError]
  · refine Definition.build_firstStep ?_ built steps
    intro s hs
    simp only [List.mem_cons, List.not_mem_nil, or_false] at hs
    rcases hs with rfl | rfl | rfl | rfl | rfl <;> rfl

namespace Describes

variable {r} {definition : Definition} (h : r.Describes definition)
include h

/-- Every step is found by its name. -/
theorem known {s : Step} (hs : s ∈ r.builtSteps) : definition.step? s.id = some s :=
  Definition.step?_of_mem (h.steps ▸ hs)

theorem known_start : definition.step? "start" = some startStep :=
  h.known (s := startStep) (by simp [builtSteps_eq])

theorem known_deploy : definition.step? "deploy" = some r.deployStep :=
  h.known (s := r.deployStep) (by simp [builtSteps_eq])

theorem known_verify : definition.step? "verify" = some verifyStep :=
  h.known (s := verifyStep) (by simp [builtSteps_eq])

theorem known_stop : definition.step? "stop" = some stopStep :=
  h.known (s := stopStep) (by simp [builtSteps_eq])

theorem known_handleError : definition.step? "handleError" = some errorStep :=
  h.known (s := errorStep) (by simp [builtSteps_eq])

/-- The steps of the definition weigh seven in total. -/
theorem totalWeight : definition.totalWeight = 7 := by
  rw [Definition.totalWeight, h.steps]
  rfl

end Describes

/-! ### The end -/

/-- Where a rollout stands at last. -/
def finalStanding : Standing :=
  if r.Fails then ⟨some "handleError", .completed, .failed, ["start", "deploy"]⟩
  else ⟨some "stop", .completed, .success, ["start", "deploy", "verify", "stop"]⟩

/-- The share of its weight of seven that a rollout has done at last. -/
def finalProgress : Double := (Double.ofNat (if r.Fails then 5 else 7)).div (.ofNat 7)

/-- Where the deployment leads. -/
def decision : Transition :=
  if r.Fails then (Transition.runTo "handleError").withResult .failed else .runTo "verify"

/-- Leads where the deployment leads, and quotes some result. -/
def Decides (t : Transition) : Prop := ∃ message cause, t = r.decision.withLog message cause

/-- The results of the deployment are there, and so many polls were made. -/
structure Deployed (tasks : IdStream .task) (x : Driver × Services) : Prop where
  results : (x.1.record.results "deploy").Perm (r.outcomes tasks)
  polls : TraceEntry.polls x.2.trace = r.pendingPolls.toNat + 1
  fits : TraceEntry.Fits x.2.trace

/-- A rollout has come to its end. -/
structure Ended (ids : IdSource) (x : Driver × Services) : Prop where
  published : x.1.published = .completed
  stored : x.2.store.find? ids.flows.next.1 = some x.1.record
  stands : x.1.record.standing = r.finalStanding
  progress : x.1.progress = r.finalProgress
  polls : pollCount x.2.trace = r.pendingPolls.toNat + 1
  fits : TraceEntry.Fits x.2.trace
  results : (x.1.record.results "deploy").Perm (r.outcomes ids.tasks)
  count : (x.1.record.results "deploy").length = r.hosts.length + 1
  said : ¬ r.Fails → x.1.record.said "verify" =
    [⟨toString (r.hosts.length + 1) ++ " host(s) updated", none⟩]

variable {r}

theorem Deployed.count {tasks : IdStream .task} {x : Driver × Services}
    (h : r.Deployed tasks x) : (x.1.record.results "deploy").length = r.hosts.length + 1 :=
  h.results.length_eq.trans (r.length_outcomes tasks)

theorem Deployed.takes {tasks : IdStream .task} {x y : Driver × Services}
    (h : r.Deployed tasks x) {flow : FlowId} {definition : Definition} {i : Nat} {step : String}
    {t : Transition} (takes : Driver.Takes flow definition i step t x y) : r.Deployed tasks y := by
  obtain ⟨-, trace, -⟩ := Services.workSide_eq_iff.1 takes.work
  exact ⟨takes.results "deploy" ▸ h.results, trace ▸ h.polls, trace ▸ h.fits⟩

/-- What a rollout has done at last weighs seven, or five if some call always fails. -/
theorem Describes.completedWeight {definition : Definition} (h : r.Describes definition) :
    definition.completedWeight r.finalStanding.completed = if r.Fails then 5 else 7 := by
  have looked : definition.step? = fun name => r.builtSteps.find? (·.id = name) := by
    rw [← h.steps]
    rfl
  rw [Definition.completedWeight, looked, finalStanding]
  split <;> rfl

section Stages

variable {definition : Definition} (h : r.Describes definition) {ids : IdSource} {i : Nat}
  {x : Driver × Services}
include h

/-- What is left of a rollout that has completed. -/
theorem Describes.ended (undisturbed : Driver.Undisturbed ids.flows.next.1 definition x)
    (stands : x.1.record.standing = r.finalStanding) (deployed : r.Deployed ids.tasks x)
    (said : ¬ r.Fails → x.1.record.said "verify" =
      [⟨toString (r.hosts.length + 1) ++ " host(s) updated", none⟩]) : r.Ended ids x := by
  refine ⟨?_, undisturbed.stored, stands, ?_, deployed.polls, deployed.fits, deployed.results,
    deployed.count, said⟩
  · have state : x.1.record.state = r.finalStanding.state := congrArg Standing.state stands
    rw [undisturbed.known, state, finalStanding]
    split <;> rfl
  · have completed : x.1.record.completedSteps = r.finalStanding.completed :=
      congrArg Standing.completed stands
    rw [Driver.progress, undisturbed.drives, Definition.progress, completed, h.totalWeight,
      h.completedWeight, finalProgress]
    by_cases fails : r.Fails
    · simp [fails]
    · simp only [fails, if_false]
      decide

/-- A step that completes the flow is the last one. -/
theorem Describes.settles_at_end (turn : Driver.OnTurn ids.flows.next.1 definition i x)
    {s : Step} {id : String} (known : definition.step? id = some s) {result : FlowResult}
    {message : Option String}
    (parks : s.body = .fixed (.park .completed result message)) (other : id ≠ "verify")
    {z : Standing} (stands : x.1.record.standing = z) (here : z.step = some id)
    (final : z.take id (!s.properties.isErrorStep) (.park .completed result message) =
      r.finalStanding) (deployed : r.Deployed ids.tasks x)
    (said : ¬ r.Fails → x.1.record.said "verify" =
      [⟨toString (r.hosts.length + 1) ++ " host(s) updated", none⟩]) :
    Driver.Settles (r.Ended ids) x := by
  have answers (turn : Nat) (tasks : IdStream .task) : (s.execute turn x.1.record).answer tasks =
      (.plain (.ok (.park .completed result message)), tasks) := by
    simp [Step.execute, parks, StepBody.execute, StepWork.atOnce]
  refine turn.walks stands here known rfl (Driver.edgeFault?_of_completes _ rfl rfl _)
    (by simp [Transition.park]) answers fun y takes stands => ?_
  have state : y.1.record.state = .completed := congrArg Standing.state stands
  have quiet := takes.rests (by simp [state])
  refine .ended (h.ended takes.undisturbed (stands.trans final) (deployed.takes takes)
    fun passes => ?_) (quiet.still takes.undisturbed.unarmed)
  rw [takes.said, if_neg fun own => other own.1.symm, List.append_nil, said passes]

/-- At `stop` the rollout completes. -/
theorem Describes.settles_at_stop
    (turn : Driver.OnTurn ids.flows.next.1 definition i x) (passes : ¬ r.Fails)
    (stands : x.1.record.standing =
      ⟨some "stop", .running, .unknown, ["start", "deploy", "verify"]⟩)
    (deployed : r.Deployed ids.tasks x) (said : x.1.record.said "verify" =
      [⟨toString (r.hosts.length + 1) ++ " host(s) updated", none⟩]) :
    Driver.Settles (r.Ended ids) x := by
  refine h.settles_at_end turn h.known_stop rfl (by decide) stands rfl ?_ deployed fun _ => said
  rw [finalStanding, if_neg passes]
  rfl

/-- At `verify` the updated hosts are counted. -/
theorem Describes.settles_at_verify
    (turn : Driver.OnTurn ids.flows.next.1 definition i x) (passes : ¬ r.Fails)
    (stands : x.1.record.standing = ⟨some "verify", .running, .unknown, ["start", "deploy"]⟩)
    (deployed : r.Deployed ids.tasks x) (silent : x.1.record.said "verify" = []) :
    Driver.Settles (r.Ended ids) x := by
  let t := (Transition.runTo "stop").withLog
    (toString (x.1.record.results "deploy").length ++ " host(s) updated") none
  refine turn.walks stands rfl h.known_verify (t := t) rfl
    (Driver.edgeFault?_of_known turn.undisturbed.drives h.known_stop rfl _) nofun
    (fun _ _ => rfl) fun y takes stands => ?_
  have said := takes.said "verify"
  rw [silent, if_pos ⟨rfl, Driver.keepsLog_of_known turn.undisturbed.drives h.known_verify⟩] at said
  have running : y.1.record.state = .running := congrArg Standing.state stands
  refine h.settles_at_stop (takes.going running) passes stands (deployed.takes takes) ?_
  rw [said, ← deployed.count]
  rfl

/-- At `handleError` the rollout completes, too. -/
theorem Describes.settles_at_handleError
    (turn : Driver.OnTurn ids.flows.next.1 definition i x) (fails : r.Fails)
    (stands : x.1.record.standing = ⟨some "handleError", .running, .failed, ["start", "deploy"]⟩)
    (deployed : r.Deployed ids.tasks x) : Driver.Settles (r.Ended ids) x := by
  refine h.settles_at_end turn h.known_handleError rfl (by decide) stands rfl ?_ deployed
    (absurd fails)
  rw [finalStanding, if_pos fails]
  rfl

/-! ### The deployment -/

/-- The edge that the deployment decides on is in order. -/
theorem Describes.fine {d : Driver} (drives : d.definition = definition) {t : Transition}
    (decides : r.Decides t) : d.edgeFault? "deploy" t = none := by
  obtain ⟨message, cause, rfl⟩ := decides
  unfold decision
  split
  · exact Driver.edgeFault?_of_known drives h.known_handleError rfl _
  · exact Driver.edgeFault?_of_known drives h.known_verify rfl _

/-- Once all calls of the deployment have ended, the rollout goes on to `verify` or to
`handleError`. -/
theorem Describes.settles_decided {y : Driver × Services} {r' : Record} {t : Transition}
    (stood : r'.standing = ⟨some "deploy", .running, .unknown, ["start"]⟩)
    (silent : r'.said "verify" = []) (decides : r.Decides t)
    (gathers : Driver.Gathers ids.flows.next.1 definition "deploy" (r.outcomes ids.tasks)
      (r.pendingPolls.toNat + 1) r' x)
    (takes : Driver.Takes ids.flows.next.1 definition i "deploy" t x y) :
    Driver.Settles (r.Ended ids) y := by
  obtain ⟨message, cause, rfl⟩ := decides
  have deployed : r.Deployed ids.tasks y :=
    .takes ⟨gathers.results, gathers.polls, gathers.fits⟩ takes
  have silent : y.1.record.said "verify" = [] := by
    simp [takes.said, gathers.same.said "verify" (by decide), silent]
  have stands : y.1.record.standing = _ := takes.standing (by unfold decision; split <;> nofun)
  rw [gathers.same.standing, stood,
    Driver.completes_of_known gathers.undisturbed.drives h.known_deploy] at stands
  by_cases fails : r.Fails
  · rw [decision, if_pos fails] at stands
    have running : y.1.record.state = .running := congrArg Standing.state stands
    exact h.settles_at_handleError (takes.going running) fails stands deployed
  · rw [decision, if_neg fails] at stands
    have running : y.1.record.state = .running := congrArg Standing.state stands
    exact h.settles_at_verify (takes.going running) fails stands deployed silent

section Deployment

variable (valid : r.task.validate = .ok ()) (untimed : r.task.timeoutMs = 0)
  (retries : r.task.maxRetry.toNat < UInt32.size - 1) (interval : r.monitor.validate = .ok ())
  (permits : r.batch.maxConcurrency ≠ some 0)
  (polls : r.pendingPolls.toNat < UInt32.size - 1)
  (distinct : (ids.tasks.upcoming (r.hosts.length + 1)).Nodup)
include valid untimed retries interval permits polls distinct

omit h in
/-- What a deployment launches, and what comes of it, depends neither on the turn nor on the
record. -/
theorem deployment_foreseen : ∃ b ids',
    (∀ turn context, r.deployment turn context ids.tasks = (.ok b, ids')) ∧
    StepLaunch.Foreseen ⟨b, r.deployStep.handler.fresh⟩ (r.outcomes ids.tasks) r.Decides ∧
    (∀ c ∈ b.launches, c.Answers) ∧
    Launch.AllYield b.launches (r.outcomes ids.tasks) (r.pendingPolls.toNat + 1) := by
  obtain ⟨b, ids', deployed⟩ : ∃ b ids', ∀ turn context,
      r.deployment turn context ids.tasks = (.ok b, ids') :=
    ⟨_, _, fun _ _ => r.deployment_launches ..⟩
  let context : StepContext := ⟨"deploy", default⟩
  obtain ⟨_, _, same, policy, launches, calls⟩ := r.deployment_answers 0 context ids.tasks
  obtain ⟨rfl, rfl⟩ : b = _ ∧ ids' = _ := by simpa [deployed] using same
  have own : b.taskIds.Nodup := r.deployment_taskIds (deployed 0 context) ▸ distinct
  refine ⟨b, ids', deployed, ⟨r.outcomes_task ids.tasks ▸ distinct, policy ▸ permits, rfl,
    fun events run => ?_⟩, calls,
    allYield valid untimed retries interval polls 0 context ids.tasks (deployed ..)⟩
  obtain ⟨q, -, verdict⟩ := run.onResult_verdict own launches "verify" "handleError"
  simp only [r.outcomes_succeed, ite_not] at verdict
  exact ⟨_, ⟨q.messageOrEmpty, q.cause, rfl⟩, verdict⟩

/-- At `deploy` the updates are launched, and their results decide where the rollout goes. -/
theorem Describes.settles_at_deploy (turn : Driver.OnTurn ids.flows.next.1 definition i x)
    (stands : x.1.record.standing = ⟨some "deploy", .running, .unknown, ["start"]⟩)
    (new : x.1.record.results "deploy" = []) (silent : x.1.record.said "verify" = [])
    (unused : x.2.workSide = (.empty, [], ids.tasks)) : Driver.Settles (r.Ended ids) x := by
  obtain ⟨counts, trace, tasks⟩ := Services.workSide_eq_iff.1 unused
  obtain ⟨b, ids', deployed, foreseen, calls, yields⟩ :=
    deployment_foreseen valid untimed retries interval permits polls distinct
  refine turn.launches new foreseen calls yields ?fresh ?fits (congrArg Standing.step stands)
    h.known_deploy ?answers (fun _ drives _ => h.fine drives) ?next
  case fresh => simp [counts, PollCounts.asked]
  case fits => simp [trace, TraceEntry.Fits.nil]
  case answers =>
    intro turn
    rw [tasks]
    exact congrArg Prod.fst (StepBody.launching_answer _ (deployed turn ⟨"deploy", x.1.record⟩))
  case next =>
    intro z y j t decides gathers takes
    -- no poll was made before the deployment
    rw [trace, show TraceEntry.polls [] = 0 from rfl, Nat.zero_add] at gathers
    exact h.settles_decided stands silent decides gathers takes

/-- At `start` the rollout goes on to the deployment. -/
theorem Describes.settles_at_start (turn : Driver.OnTurn ids.flows.next.1 definition i x)
    (stands : x.1.record.standing = ⟨some "start", .running, .unknown, []⟩)
    (new : x.1.record.results "deploy" = []) (silent : x.1.record.said "verify" = [])
    (unused : x.2.workSide = (.empty, [], ids.tasks)) : Driver.Settles (r.Ended ids) x := by
  refine turn.walks stands rfl h.known_start (t := .runTo "deploy") rfl
    (Driver.edgeFault?_of_known turn.undisturbed.drives h.known_deploy rfl _) nofun
    (fun _ _ => rfl) fun y takes stands => ?_
  have running : y.1.record.state = .running := congrArg Standing.state stands
  refine h.settles_at_deploy valid untimed retries interval permits polls distinct
    (takes.going running) stands ?_ ?_ (takes.work.trans unused)
  · rw [takes.results, new]
  · simp [takes.said, silent]

end Deployment

end Stages

/-- A rollout that is started is about to take its first step. -/
theorem Describes.starts {definition : Definition} (h : r.Describes definition)
    (defined : r.definition = .ok definition) (timeless : r.flow.timeoutSec = 0) (ids : IdSource) :
    ∃ w d, r.start ids = .ok w ∧ w.drivers = [d] ∧
      Driver.OnTurn ids.flows.next.1 definition 0 (d, w.services) ∧
      d.record.standing = ⟨some "start", .running, .unknown, []⟩ ∧
      d.record.results "deploy" = [] ∧ d.record.said "verify" = [] ∧
      w.services.workSide = (.empty, [], ids.tasks) := by
  let w : World := { World.empty with services := { World.empty.services with ids := ids } }
  obtain ⟨d, w', created, alone, flow, record, unused, works, free, saving⟩ : ∃ d w',
      w.create definition 0 = (.ok d, w') ∧ w'.drivers = [d] ∧ d.flow = ids.flows.next.1 ∧
      d.record = .create ids.flows.next.1 definition.flowType w.instant ∧
      w'.services.workSide = (.empty, [], ids.tasks) ∧ w'.services.LocksWork ∧
      w'.services.locks.isHeld d.flow = false ∧ w'.services.saving.Works :=
    ⟨_, _, rfl, rfl, rfl, rfl, rfl, ⟨⟨rfl, fun _ => rfl⟩, ⟨rfl, fun _ => rfl⟩⟩, rfl,
      ⟨rfl, fun _ => rfl⟩⟩
  -- the world is empty, so nothing stands in the way of the flow
  have undisturbed := Driver.create_undisturbed (h.properties ▸ timeless) created works free saving
  have started : r.start ids = .ok (w'.perform 0 .start) := by
    simp only [start, defined]
    exact congrArg (fun w => Except.ok (World.perform w 0 .start)) (congrArg Prod.snd created)
  obtain ⟨turn, first, work⟩ := undisturbed.starts (World.create_untouched created) w'.now
  rw [flow] at turn
  rw [record, h.firstStep] at first
  refine ⟨_, _, started, by rw [World.perform_alone alone], ?_, ?_, ?_, ?_, ?_⟩
  · rw [World.perform_alone alone]
    exact turn
  · rw [first]
    rfl
  · rw [first]
    rfl
  · rw [first]
    rfl
  · rw [World.perform_alone alone]
    exact work.trans unused

/-- **How a rollout ends.**  The hosts are arbitrary, calls have no deadline, and 32-bit numbers can
count their attempts and the polls; polls have an interval, tasks get permits, as many as a
semaphore may hold or without bound, the flow has no deadline, and no identifier of a task comes
twice.

* In whatever order and at whatever times driver, workers and listener take their turns, at last
  nothing more can happen, and the flow is known to be completed, not before;
* in virtual time this takes finitely many moves;
* then the flow is at `stop`, successful and with all of its weight of seven done, if no call always
  fails, and otherwise at `handleError`, failed and with five of seven done;
* the polled host was polled once more than it is found in progress, whichever way it ended;
* `deploy` has the result of each call: one for each occurrence of a host, and one for the polled
  host;
* after a success the log has a line of `verify` that counts all of these hosts. -/
theorem rollout_settles (r : Rollout) (ids : IdSource) (valid : r.task.validate = .ok ())
    (untimed : r.task.timeoutMs = 0) (retries : r.task.maxRetry.toNat < UInt32.size - 1)
    (interval : r.monitor.intervalMs ≠ 0) (permits : r.batch.Permits)
    (polls : r.pendingPolls.toNat < UInt32.size - 1) (timeless : r.flow.timeoutSec = 0)
    (distinct : (ids.tasks.upcoming (r.hosts.length + 1)).Nodup) :
    ∃ w d, r.start ids = .ok w ∧ w.drivers = [d] ∧
      Driver.Settles (r.Ended ids) (d, w.services) ∧
      ∃ enough, ∀ fuel, enough ≤ fuel → ∃ w' d', r.run fuel ids = .ok w' ∧ w'.drivers = [d'] ∧
        r.Ended ids (d', w'.services) := by
  have interval : r.monitor.validate = .ok () := if_neg interval
  obtain ⟨definition, defined, h⟩ := r.defines interval
  obtain ⟨w, d, started, alone, turn, stands, new, silent, unused⟩ := h.starts defined timeless ids
  have settles := h.settles_at_start valid untimed retries interval permits.ne_zero polls distinct
    turn stands new silent unused
  obtain ⟨enough, runs⟩ := World.await_settles (fun x ended => by rw [ended.published]; rfl) settles
    alone rfl
  refine ⟨w, d, started, alone, settles, enough, fun fuel hfuel => ?_⟩
  obtain ⟨w', y, awaited, alone, services, ended⟩ := runs fuel hfuel
  refine ⟨w', y.1, ?_, alone, services ▸ ended⟩
  rw [run, started, Except.map, awaited]

/-- The rollout that is there without settings, in which the second of two hosts always fails, and
the same one without a host that fails and with one permit. -/
theorem rollout_settles_default : ∃ enough, ∀ fuel, enough ≤ fuel →
    (∃ w d, run fuel default .counting = .ok w ∧ w.drivers = [d] ∧ d.published = .completed ∧
      d.record.currentStep = some "handleError" ∧ d.record.result = .failed ∧
      pollCount w.services.trace = 3 ∧ (d.record.results "deploy").length = 3) ∧
    (∃ w d, run fuel { (default : Rollout) with failingHost := none, batch := ⟨some 1⟩ } .counting =
      .ok w ∧ w.drivers = [d] ∧ d.published = .completed ∧ d.record.currentStep = some "stop" ∧
      d.record.result = .success ∧ d.progress = .one ∧
      d.record.said "verify" = [⟨"3 host(s) updated", none⟩]) := by
  have one : BatchPolicy.Permits ⟨some 1⟩ := by
    rintro n ⟨⟩
    decide
  obtain ⟨-, -, -, -, -, enough, fails⟩ := rollout_settles default .counting (by decide) rfl
    (by decide) (by decide) nofun (by decide) rfl (by decide)
  obtain ⟨-, -, -, -, -, enough', passes⟩ :=
    rollout_settles { (default : Rollout) with failingHost := none, batch := ⟨some 1⟩ } .counting
      (by decide) rfl (by decide) (by decide) one (by decide) rfl (by decide)
  refine ⟨max enough enough', fun fuel h => ⟨?_, ?_⟩⟩
  · obtain ⟨w, d, ran, alone, ended⟩ := fails fuel (by omega)
    refine ⟨w, d, ran, alone, ended.published, congrArg Standing.step ended.stands,
      congrArg Standing.result ended.stands, ended.polls, ended.count⟩
  · obtain ⟨w, d, ran, alone, ended⟩ := passes fuel (by omega)
    refine ⟨w, d, ran, alone, ended.published, congrArg Standing.step ended.stands,
      congrArg Standing.result ended.stands, ?_, ended.said (by decide)⟩
    rw [ended.progress]
    decide

end Rollout

end Workflow
