import Workflow.Proofs.Flow.Agreement
import Workflow.Proofs.Flow.Building

/-!
# Workflow.Proofs.Flow.History — what a record only ever gains

Log lines come from edges, errors, launches, other answers and updates, each on behalf of some
step; all of them are noted in one way (`Driver.newLog`), which knows of `logging`.  So every event
lets a record continue as it was: the log, the completed steps, the tasks and the tasks with results
grow at the end, and the log by lines of steps that keep them (`happen_continues`).  That a step
keeps no log changes nothing of what is recorded of its tasks (`history_grows`).
-/

namespace Workflow

/-- What a log may have: lines, and none of a step that keeps no log. -/
structure Definition.Logs (definition : Definition) (l : StepLog) : Prop where
  lines : l.entries ≠ []
  kept : ∀ s ∈ definition.steps, s.properties.logging = false → l.step ≠ s.id

namespace StepUpdate

/-- The task that the lines of an update are about. -/
def task? : StepUpdate → Option TaskId
  | .taskCreated _ => none
  | .taskResult r _ => some r.task
  | .log task _ => task

/-- The lines of an update. -/
def lines : StepUpdate → List LogEntry
  | .taskCreated _ => []
  | .taskResult _ entries => entries
  | .log _ entries => entries

end StepUpdate

/-! ### What is noted -/

namespace Driver

variable (d : Driver) (now : Instant) (step : String)

/-- What the log gets of the lines of a step: a record of them, if there are any and the step keeps
its log. -/
def newLog (task : Option TaskId) (entries : List LogEntry) : List StepLog :=
  if d.keepsLog step ∧ entries ≠ [] then [⟨step, task, entries, now⟩] else []

/-- The log of a step is kept unless it is one of the definition that keeps none. -/
theorem keepsLog_iff : d.keepsLog step ↔
    ∀ s ∈ d.definition.steps, s.properties.logging = false → step ≠ s.id := by
  constructor
  · rintro keeps s hs quiet rfl
    simp [keepsLog, Definition.step?_of_mem hs, quiet] at keeps
  · intro h
    unfold keepsLog
    split
    · rename_i s found
      have own : s.id = step := by simpa using List.find?_some found
      cases keeps : s.properties.logging with
      | true => rfl
      | false => exact absurd own.symm (h s (Definition.mem_of_step? found) keeps)
    · rfl

theorem newLog_logs {task : Option TaskId} {entries : List LogEntry} :
    ∀ l ∈ d.newLog now step task entries, d.definition.Logs l := by
  intro l hl
  unfold newLog at hl
  split at hl
  · rename_i kept
    obtain rfl := List.mem_singleton.1 hl
    exact ⟨kept.2, (keepsLog_iff d step).1 kept.1⟩
  · exact absurd hl List.not_mem_nil

theorem logged_log (task : Option TaskId) (entries : List LogEntry) (r : Record) :
    (if d.keepsLog step then r.appendLog step task entries now else r).log =
      r.log ++ d.newLog now step task entries := by
  unfold newLog Record.appendLog
  by_cases keeps : d.keepsLog step = true <;> by_cases empty : entries = [] <;> simp [keeps, empty]

theorem logStep_log (entries : List LogEntry) :
    (d.logStep now step entries).record.log = d.record.log ++ d.newLog now step none entries := by
  rw [logStep_eq]
  exact logged_log d now step none entries d.record

theorem edgeRecord_log (t : Transition) :
    (d.edgeRecord now step t).log = d.record.log ++ d.newLog now step none t.log := by
  rw [← logged_log]
  have marked (r : Record) : (r.markCompleted step).log = r.log := by
    unfold Record.markCompleted
    split <;> rfl
  unfold edgeRecord
  cases t.target <;> cases t.result <;> by_cases counts : d.completes step <;>
    simp [counts, marked, Record.setResult, Record.advanceTo]

theorem errorRecord_log (e : FlowError) : (d.errorRecord now step e).log =
    d.record.log ++ d.newLog now step none [⟨e.message, e.cause⟩] :=
  logged_log d now step none _ (d.record.recordError step e.message e.cause)

/-- The lines of a decision: those of the edge, or the error that it is or that is made of it. -/
def decisionLines : Decision → List LogEntry
  | .error e => [⟨e.message, e.cause⟩]
  | .ok t =>
    match d.edgeFault? step t with
    | some e => [⟨e.message, e.cause⟩]
    | none => t.log

theorem applyDecision_log (decision : Decision) : (d.applyDecision now step decision).record.log =
    d.record.log ++ d.newLog now step none (d.decisionLines step decision) := by
  have routed (e : FlowError) : (d.routeError now step e).record.log =
      d.record.log ++ d.newLog now step none [⟨e.message, e.cause⟩] := by
    rw [← errorRecord_log, routeError_eq]
    split
    · rfl
    · split <;> rfl
  cases decision with
  | error e => exact routed e
  | ok t =>
    cases fault : d.edgeFault? step t with
    | some e =>
      simp only [applyDecision, applyEdge, decisionLines, fault]
      exact routed e
    | none =>
      simp only [applyDecision, applyEdge, decisionLines, fault]
      rw [← edgeRecord_log, takeEdge_eq]
      split <;> rfl

theorem applyUpdate_log (update : StepUpdate) : (d.applyUpdate now step update).record.log =
    d.record.log ++ d.newLog now step update.task? update.lines := by
  cases update with
  | taskCreated task => simp [applyUpdate, onRecord, newLog, StepUpdate.lines, Record.touch,
      Record.recordTask]
  | taskResult r entries =>
    exact logged_log d now step (some r.task) entries (d.record.saveResult step r)
  | log task entries => exact logged_log d now step task entries d.record

end Driver

/-! ### Records that continue -/

/-- A record goes on from another: nothing that was completed, logged, launched or answered is lost
or has another place, and what is logged since is as the definition has it. -/
structure Record.Continues (definition : Definition) (r r' : Record) : Prop
    extends r.Extends r' where
  tasks : ∀ s, r.tasks s <+: r'.tasks s
  answered : ∀ s, (r.results s).map TaskResult.task <+: (r'.results s).map TaskResult.task
  logged : ∀ l ∈ r'.log, l ∈ r.log ∨ definition.Logs l

namespace Record.Continues

variable {definition : Definition} {r r' r'' : Record}

theorem refl (definition : Definition) (r : Record) : r.Continues definition r :=
  ⟨.refl r, fun _ => List.prefix_refl _, fun _ => List.prefix_refl _, fun _ => .inl⟩

theorem touch (h : r.Continues definition r') (now : Instant) :
    r.Continues definition (r'.touch now) :=
  ⟨h.toExtends.touch now, h.tasks, h.answered, h.logged⟩

theorem trans (h : r.Continues definition r') (h' : r'.Continues definition r'') :
    r.Continues definition r'' := by
  refine ⟨h.toExtends.trans h'.toExtends, fun s => (h.tasks s).trans (h'.tasks s),
    fun s => (h.answered s).trans (h'.answered s), fun l hl => ?_⟩
  rcases h'.logged l hl with before | logs
  · exact h.logged l before
  · exact .inr logs

/-- A change that has nothing to do with tasks. -/
theorem ofBooks (extends_ : r.Extends r') (books : r'.books = r.books) {new : List StepLog}
    (log : r'.log = r.log ++ new) (logs : ∀ l ∈ new, definition.Logs l) :
    r.Continues definition r' := by
  obtain ⟨tasks, results⟩ := Prod.mk.inj books
  refine ⟨extends_, fun s => tasks ▸ List.prefix_refl _, fun s => results ▸ List.prefix_refl _,
    fun l hl => ?_⟩
  rw [log] at hl
  exact (List.mem_append.1 hl).imp_right (logs l)

end Record.Continues

namespace Ledger

variable (l : Ledger) (step : String) (update : StepUpdate)

theorem note_tasks (s : String) : l.tasks s <+: (l.note step update).tasks s := by
  cases update with
  | taskCreated task =>
    simp only [note]
    split
    · exact List.prefix_append ..
    · exact List.prefix_refl _
  | _ => exact List.prefix_refl _

theorem note_answered (s : String) : (l.results s).map TaskResult.task <+:
    ((l.note step update).results s).map TaskResult.task := by
  cases update with
  | taskResult r entries =>
    simp only [note]
    split
    · rw [TaskResult.map_task_store]
      split
      · exact List.prefix_refl _
      · exact List.prefix_append ..
    · exact List.prefix_refl _
  | _ => exact List.prefix_refl _

end Ledger

namespace Driver

theorem logStep_continues (d : Driver) (now : Instant) (step : String) (entries : List LogEntry) :
    d.record.Continues d.definition (d.logStep now step entries).record :=
  .ofBooks (logStep_extends ..) (logStep_books ..) (logStep_log ..) (newLog_logs d now step)

theorem launch_continues (d : Driver) (now : Nat) (step : String) (l : StepLaunch) :
    d.record.Continues d.definition (d.launch now step l).record :=
  logStep_continues d.nextEpoch (.ofVirtualMs now) step _

theorem applyUpdate_continues (d : Driver) (now : Instant) (step : String) (update : StepUpdate) :
    d.record.Continues d.definition (d.applyUpdate now step update).record := by
  have books := applyUpdate_ledger d now step update
  have tasks : (d.applyUpdate now step update).record.tasks = (d.ledger.note step update).tasks :=
    congrArg Ledger.tasks books
  have results : (d.applyUpdate now step update).record.results =
      (d.ledger.note step update).results := congrArg Ledger.results books
  refine ⟨(applyUpdate_revised ..).toExtends, fun s => tasks ▸ d.ledger.note_tasks step update s,
    fun s => results ▸ d.ledger.note_answered step update s, fun l hl => ?_⟩
  rw [applyUpdate_log] at hl
  exact (List.mem_append.1 hl).imp_right (newLog_logs d now step l)

/-- Every record that an event may save continues the one in memory, if a resume finds the same. -/
theorem Revision.continues {x : Driver × Services} {e : Event} {r : Record} (h : Revision x e r)
    (stored : x.2.store.find? x.1.flow = some x.1.record) :
    x.1.record.Continues x.1.definition r := by
  have same : x.1.record.Extends x.1.record := .refl _
  -- most changes have nothing to do with the log either
  have quiet {r' : Record} (extends_ : x.1.record.Extends r') (books : r'.books = x.1.record.books)
      (log : r'.log = x.1.record.log) : x.1.record.Continues x.1.definition r' :=
    .ofBooks extends_ books (log.trans (List.append_nil _).symm) nofun
  cases h with
  | starts => exact quiet ((same.start _).touch _) rfl rfl
  | resumes _ _ found =>
    obtain rfl := Option.some.inj (found.symm.trans stored)
    exact quiet (((same.setResult .unknown).start _).touch _) rfl rfl
  | pauses => exact quiet (same.pause.touch _) rfl rfl
  | moves => exact quiet ((same.advanceTo _).touch _) rfl rfl
  | @decides _ now _ step decision d _ _ running definition record =>
    rw [← record] at running ⊢
    rw [← definition]
    exact .touch (.ofBooks (applyDecision_revised _ step running decision).toExtends
      (applyDecision_books ..) (applyDecision_log ..) (newLog_logs d _ step)) _
  | waits => exact (logStep_continues ..).touch _
  | @launches now _ step log l =>
    have definition : (x.1.logStep (.ofVirtualMs now) step log).definition = x.1.definition := by
      rw [logStep_eq]
      rfl
    have launched := launch_continues (x.1.logStep (.ofVirtualMs now) step log) now step l
    rw [definition] at launched
    exact ((logStep_continues ..).trans launched).touch _
  | updates => exact applyUpdate_continues ..
  | expires => exact quiet (((same.recordError ..).complete _).touch _) rfl rfl

/-! ### Runs -/

/-- **Every event lets the record continue**, as long as the store has it. -/
theorem happen_continues {x : Driver × Services} {flow : FlowId} {type : String}
    (h : Mirrored flow type (view x)) (e : Event) :
    x.1.record.Continues x.1.definition (happen x e).1.record := by
  have drives : x.1.flow = flow := h.coherent.drives
  rcases e.own_or_outside with own | ⟨change, rfl⟩
  · have writes := happen_revises h.coherent.known own
    have after : (happen x e).1.record = (view (happen x e)).record := rfl
    rw [after]
    generalize view (happen x e) = v at writes
    cases writes with
    | leaves => exact .refl ..
    | saves revision => exact revision.continues (drives ▸ h.stored)
  · exact .refl ..

theorem run_continues {x : Driver × Services} {flow : FlowId} {type : String}
    (h : Mirrored flow type (view x)) {es : List Event} (spares : ∀ e ∈ es, e.SparesRecord flow)
    (saved : AllSaved x es) : x.1.record.Continues x.1.definition (run x es).1.record := by
  induction es generalizing x with
  | nil => exact .refl ..
  | cons e es ih =>
    obtain ⟨spares, others⟩ := List.forall_mem_cons.1 spares
    have rest := ih (h.happen spares saved.1) others saved.2
    rw [happen_definition] at rest
    exact (happen_continues h e).trans rest

/-! ### Updates that are noted -/

theorem Effect.unfailed {x : Driver × Services} {e : Event} {l : Ledger} (h : Effect x e l)
    (unfailed : x.1.Unfailed) : ∀ a ∈ l.activations, a.failure = none := by
  have put {i : Nat} {a a' : Activation} (ha : x.1.ledger.activations[i]? = some a)
      (same : a'.failure = a.failure) :
      ∀ b ∈ x.1.ledger.activations.set i a', b.failure = none := by
    intro b hb
    rcases List.mem_or_eq_of_mem_set hb with old | rfl
    · exact unfailed b old
    · exact same.trans (unfailed a (List.mem_of_getElem? ha))
  cases h with
  | keeps => exact unfailed
  | advances _ ha step => exact put ha step.stamp.2.2
  | launches =>
    intro b hb
    rcases List.mem_append.1 hb with old | new
    · exact unfailed b old
    · obtain rfl := List.mem_singleton.1 new
      rfl
  | saves _ ha =>
    simp only [Ledger.set, Ledger.note_activations]
    exact put ha rfl
  | drops _ ha => exact put ha rfl

/-- If no save fails, no update does. -/
theorem happen_unfailed {x : Driver × Services} {flow : FlowId} {type : String}
    (h : Mirrored flow type (view x)) (unfailed : x.1.Unfailed) {e : Event}
    (saved : ¬ FailsToSave x e) : (happen x e).1.Unfailed := by
  have drives : x.1.flow = flow := h.coherent.drives
  have stored : x.2.store.find? x.1.flow = some x.1.record := drives ▸ h.stored
  by_cases listener : e.FromListener
  · exact (happen_effect x.1 x.2 unfailed stored listener saved).unfailed unfailed
  · -- an update out of the blue is no concern of any activation
    cases e with
    | update now i update =>
      simp only [happen]
      split
      · unfold saveUpdate
        split
        · exact unfailed
        · rename_i a _ _
          obtain ⟨r, -, -, heq⟩ := applyUpdate_eq x.1 (.ofVirtualMs now) a.step update
          simp only [heq]
          exact unfailed
      · exact unfailed
    | _ => exact absurd trivial listener

theorem run_unfailed {x : Driver × Services} {flow : FlowId} {type : String}
    (h : Mirrored flow type (view x)) (unfailed : x.1.Unfailed) {es : List Event}
    (spares : ∀ e ∈ es, e.SparesRecord flow) (saved : AllSaved x es) : (run x es).1.Unfailed := by
  induction es generalizing x with
  | nil => exact unfailed
  | cons e es ih =>
    obtain ⟨spares, others⟩ := List.forall_mem_cons.1 spares
    exact ih (h.happen spares saved.1) (happen_unfailed h unfailed saved.1) others saved.2

/-- A listener has an update to save. -/
theorem Reports.saving {x : Driver × Services} {i : Nat} {a : Activation} {update : StepUpdate}
    {rest : List StepUpdate} (now : Nat) (activation : x.1.activations[i]? = some a)
    (updates : a.updates = update :: rest) {epoch : Nat} (current : a.epoch = epoch) {step : String}
    (own : a.step = step) : Reports x (.move now (.save i)) epoch step update := by
  subst current own
  exact .heard activation updates

/-- An update of the current epoch is noted in the record. -/
theorem Reports.applied {x : Driver × Services} {e : Event} {step : String} {update : StepUpdate}
    (h : Reports x e x.1.epoch step update) (unfailed : x.1.Unfailed) :
    ∃ at_, (happen x e).1.record = (x.1.applyUpdate at_ step update).record := by
  generalize current : x.1.epoch = epoch at h
  cases h with
  | @heard now i a _ rest activation updates =>
    refine ⟨.ofVirtualMs now, ?_⟩
    simp [happen, perform, activation, unfailed.at activation, updates, saveUpdate, current,
      onActivation]
  | @blue now i a _ activation =>
    refine ⟨.ofVirtualMs now, ?_⟩
    simp [happen, activation, saveUpdate, current]

/-- **What is recorded only grows, and honours `logging`.**  A flow was created, anything at all has
happened to its driver, pauses, resumes, deadlines and late events included, while nobody else has
changed its stored record and no save has failed.  Then

* no record of the log is empty, and none is of a step of the definition that keeps no log;
* whatever happens next, the record continues: the log, the completed steps, the tasks of every
  step and the tasks that every step has results of grow by what comes behind them;
* an update about a task of the current epoch is noted among the tasks and results of its step,
  which does not depend on whether the step keeps its log, and nothing else of them changes; its
  lines are logged just if the step does. -/
theorem history_grows {w w' : World} {definition : Definition} {source : Nat} {d : Driver}
    (created : w.create definition source = (.ok d, w')) (es : List Event)
    (spares : ∀ e ∈ es, e.SparesRecord d.flow) (saved : AllSaved (d, w'.services) es)
    (x : Driver × Services) (hx : run (d, w'.services) es = x) :
    (∀ l ∈ x.1.record.log, definition.Logs l) ∧
    (∀ fs, (∀ e ∈ fs, e.SparesRecord d.flow) → AllSaved x fs →
      x.1.record.Continues definition (run x fs).1.record) ∧
    ∀ e step update, Reports x e x.1.epoch step update →
      (happen x e).1.record.tasks = (x.1.ledger.note step update).tasks ∧
      (happen x e).1.record.results = (x.1.ledger.note step update).results ∧
      ∃ at_, (happen x e).1.record.log = x.1.record.log ++
        if (∀ s ∈ definition.steps, s.properties.logging = false → step ≠ s.id) ∧
            update.lines ≠ [] then
          [⟨step, update.task?, update.lines, at_⟩]
        else [] := by
  subst hx
  have start := create_mirrored created
  obtain ⟨flow, hd⟩ := World.create_driver created
  have drives : d.definition = definition := by rw [hd, ofRecord]
  have same : (run (d, w'.services) es).1.definition = definition :=
    (run_definition (d, w'.services) es).trans drives
  have silent : d.record.log = [] := by
    rw [hd]
    rfl
  have unfailed : (run (d, w'.services) es).1.Unfailed := by
    refine run_unfailed start (fun a ha => ?_) spares saved
    simp [ledger, (World.create_untouched created).activations] at ha
  have grown := run_continues start spares saved
  refine ⟨fun l hl => ?logs, fun fs spares' saved' => ?grows, fun e step update reports => ?noted⟩
  case logs =>
    rcases grown.logged l hl with before | logs
    · simp [silent] at before
    · exact drives ▸ logs
  case grows => exact same ▸ run_continues (start.run spares saved) spares' saved'
  case noted =>
    obtain ⟨at_, applied⟩ := reports.applied unfailed
    have books := applyUpdate_ledger (run (d, w'.services) es).1 at_ step update
    rw [applied]
    refine ⟨congrArg Ledger.tasks books, congrArg Ledger.results books, at_, ?_⟩
    simp only [applyUpdate_log, newLog, keepsLog_iff, same]

/-- A flow of one step, which launches a task and keeps no log. -/
def quiet : Definition where
  flowType := "quiet"
  properties := default
  steps := [⟨{ StepProperties.named "solo" with logging := false }, .custom launchesSame, .empty,
    default⟩]
  firstStep := "solo"
  nodup := by decide
  firstStep_mem := by decide
  targets_mem := by decide

/-- The task is launched and ends. -/
def untilResult : List Event :=
  [.move 0 .start, .move 0 (.proceed 0), .move 0 (.proceed 0), .move 0 (.hear 0),
    .move 0 (.save 0), .move 0 (.work 0), .move 0 (.work 0), .move 0 (.hear 0)]

/-- The listener has heard of the result, and is about to save it. -/
theorem quiet_reports {d : Driver} {w' : World}
    (created : World.empty.create quiet 0 = (.ok d, w')) :
    ∃ update, Reports (run (d, w'.services) untilResult) (.move 0 (.save 0))
      (run (d, w'.services) untilResult).1.epoch "solo" update := by
  cases created
  apply Exists.intro
  apply Reports.saving
  case activation => rfl
  case updates => rfl
  case current => rfl
  case own => rfl

/-- The result of its task is recorded and nothing is logged, not even when the flow is paused and
resumed and the task launched again. -/
theorem history_grows_quiet : ∃ d w' x,
    World.empty.create quiet 0 = (.ok d, w') ∧ run (d, w'.services) untilResult = x ∧
    (happen x (.move 0 (.save 0))).1.record.results "solo" =
      [(TaskResult.success (.ofNat 7)).withMessage "first"] ∧
    (happen x (.move 0 (.save 0))).1.record.log = [] ∧
    x.1.record.Continues quiet (run x [.move 0 (.save 0), .move 0 .pause, .move 0 .resume,
      .move 0 (.proceed 2), .move 0 (.proceed 2), .move 0 (.hear 1),
      .move 0 (.save 1)]).1.record := by
  have created : World.empty.create quiet 0 = (.ok _, _) := rfl
  have works {x : Driver × Services} {e : Event} (h : x.2.saving.call.1 = false) :
      ¬ FailsToSave x e := not_failsToSave h
  obtain ⟨-, grows, noted⟩ := history_grows created untilResult
    (by simp [untilResult, Event.SparesRecord])
    (.cons (works rfl) (.cons (works rfl) (.cons (works rfl) (.cons (works rfl)
      (.cons (works rfl) (.cons (works rfl) (.cons (works rfl) (.cons (works rfl) trivial))))))))
    _ rfl
  obtain ⟨update, reports⟩ := quiet_reports created
  obtain ⟨-, -, at_, log⟩ := noted _ _ update reports
  refine ⟨_, _, _, created, rfl, rfl, log.trans ?_, grows _ ?_ ?_⟩
  · rw [if_neg fun kept => kept.1 _ List.mem_cons_self rfl rfl]
    rfl
  · simp [Event.SparesRecord]
  · exact .cons (works rfl) (.cons (works rfl) (.cons (works rfl) (.cons (works rfl)
      (.cons (works rfl) (.cons (works rfl) (.cons (works rfl) trivial))))))

end Driver

end Workflow
