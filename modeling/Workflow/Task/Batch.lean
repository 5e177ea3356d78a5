import Workflow.Task.Group

/-!
# Workflow.Task.Batch — the jobs that one step runs as a unit

Groups are expanded as they are added, so that every launch is a job with the kind of worker that
drives it.
-/

namespace Workflow

/-- Which worker drives a job. -/
inductive WorkerKind where
  /-- Submit once; the answer is the result. -/
  | submit
  /-- Submit, then poll until the monitor has a complete result. -/
  | poll (monitor : Monitor)

/-- The kind on one line. -/
def WorkerKind.shown : WorkerKind → String
  | submit => "Async"
  | poll monitor => Text.shownTuple "AsyncPoll" monitor.policy.shown

/-- A job with its kind of worker. -/
structure Launch where
  job : Job
  kind : WorkerKind

/-- Jobs that are launched together. -/
structure Batch where
  launches : List Launch
  policy : BatchPolicy

namespace Batch

def empty (policy : BatchPolicy) : Batch := ⟨[], policy⟩

/-- Adds a task; a group adds each of its jobs. -/
def push (b : Batch) (task : Task) (kind : WorkerKind) (ids : IdStream .task) :
    Batch × IdStream .task :=
  let (jobs, ids) := task.expand ids
  ({ b with launches := b.launches ++ jobs.map (⟨·, kind⟩) }, ids)

/-- A batch of tasks, each with its kind of worker. -/
def ofTasks (policy : BatchPolicy) (tasks : List (Task × WorkerKind)) (ids : IdStream .task) :
    Batch × IdStream .task :=
  tasks.foldl (fun acc t => acc.1.push t.1 t.2 acc.2) (empty policy, ids)

def size (b : Batch) : Nat := b.launches.length

def taskIds (b : Batch) : List TaskId := b.launches.map (·.job.id)

end Batch

end Workflow
