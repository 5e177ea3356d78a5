import Workflow.Task.Call

/-!
# Workflow.Task.Group — one template spread over many targets

A group never runs itself.  It stands for one task per host and parameter set, each made by the
group's template with an identifier drawn for it; a template may make groups again.  `Task.expand`
gives the jobs of a task in order: all children of a group are made before any grandchild.
-/

namespace Workflow

/-- Parameters in key order. -/
abbrev Params := List (String × String)

/-- Where one task of a group runs, and with which parameters. -/
structure Target where
  host : String
  params : Params
deriving DecidableEq, Inhabited, Repr

/-- The value of a parameter. -/
def Target.param? (t : Target) (key : String) : Option String := t.params.lookup key

/-- The host, and every parameter with its value. -/
def Target.text (t : Target) : String :=
  t.params.foldl (fun s p => s ++ " " ++ p.1 ++ "=" ++ p.2) t.host

/-- What a group is spread over. -/
structure Spread where
  policy : TaskPolicy
  hosts : List String
  /-- Parameter sets with their hosts, in the order in which they were added. -/
  sets : List (String × Params)

namespace Spread

/-- The parameter sets of a host. -/
def setsOf (s : Spread) (host : String) : List Params :=
  (s.sets.filter fun p => p.1 = host).map Prod.snd

/-- The targets on one host: one per parameter set, or a single one without parameters. -/
def targetsOn (s : Spread) (host : String) : List Target :=
  match s.setsOf host with
  | [] => [⟨host, []⟩]
  | sets => sets.map (⟨host, ·⟩)

/-- Every target, hosts in order. -/
def targets (s : Spread) : List Target := s.hosts.flatMap s.targetsOn

end Spread

/-- A job, or a group of tasks. -/
inductive Task where
  | job (job : Job)
  | group (spread : Spread) (template : TaskId → TaskPolicy → Target → Task)

instance : Inhabited Task := ⟨.job default⟩

/-- Identifiers for a list of targets, in order. -/
def drawFor (ids : IdStream .task) : List Target → List (TaskId × Target) × IdStream .task
  | [] => ([], ids)
  | target :: rest =>
    let (id, ids) := ids.next
    let (drawn, ids) := drawFor ids rest
    ((id, target) :: drawn, ids)

namespace Task

/-- The tasks of a group, each with a fresh identifier. -/
def children (spread : Spread) (template : TaskId → TaskPolicy → Target → Task)
    (ids : IdStream .task) : List Task × IdStream .task :=
  let (drawn, ids) := drawFor ids spread.targets
  (drawn.map fun d => template d.1 spread.policy d.2, ids)

/-- The tasks that a task stands for, if it is a group. -/
def fanOut? (ids : IdStream .task) : Task → Option (List Task) × IdStream .task
  | job _ => (none, ids)
  | group spread template =>
    let (tasks, ids) := children spread template ids
    (some tasks, ids)

/-- The jobs of a task in depth-first order. -/
def expand : Task → IdStream .task → List Job × IdStream .task
  | job j, ids => ([j], ids)
  | group spread template, ids =>
    let (drawn, ids) := drawFor ids spread.targets
    drawn.foldl (fun acc d =>
      let (jobs, ids) := expand (template d.1 spread.policy d.2) acc.2
      (acc.1 ++ jobs, ids)) ([], ids)

/-- What comes of running a group itself. -/
def groupError : TaskError :=
  .unsupported "a group task only runs through a batch of its materialized tasks"

/-- The identifier of a job; a group has none. -/
def id? : Task → Option TaskId
  | job j => some j.id
  | group _ _ => none

def policy : Task → TaskPolicy
  | job j => j.policy
  | group spread _ => spread.policy

/-- What comes of the first attempt at a task. -/
def attempt : Task → Except TaskError TaskResult
  | job j => (j.attempt 1).reply.outcome
  | group _ _ => .error groupError

end Task

end Workflow
