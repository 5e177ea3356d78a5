import Mathlib.Algebra.GroupWithZero.Nat
import Mathlib.Data.List.Nodup
import Workflow.Proofs.Supply
import Workflow.Task.Batch

/-!
# Workflow.Proofs.Batch.Expansion — what becomes of the tasks that are pushed into a batch

A forest has what was made of the tasks of a batch: a launch of every job, and of every group the
identifiers that were drawn for its members, with what was made of these.  A batch unfolds its tasks
into a forest whose launches it has in depth-first order, while the identifiers are drawn for all
members of a group before any of theirs (`Batch.unfolds`).  So jobs that are made with the
identifier drawn for them never share one; a job that is pushed itself has whatever identifier it
came with (`pushed_id_repeats`).
-/

namespace Workflow

/-- What was made of the tasks of a batch, one after the other. -/
inductive Forest where
  | bare
  | launch (launch : Launch) (rest : Forest)
  /-- A group with the identifiers of its members. -/
  | group (ids : List TaskId) (members rest : Forest)

namespace Forest

/-- The launches, depth first. -/
def launches : Forest → List Launch
  | bare => []
  | launch l rest => l :: rest.launches
  | group _ members rest => members.launches ++ rest.launches

def taskIds (f : Forest) : List TaskId := f.launches.map (·.job.id)

/-- The identifiers that were drawn, in order: for all members of a group before any of theirs. -/
def drawn : Forest → List TaskId
  | bare => []
  | launch _ rest => rest.drawn
  | group ids members rest => ids ++ members.drawn ++ rest.drawn

/-- The identifiers of the jobs that are in no group. -/
def own : Forest → List TaskId
  | bare => []
  | launch l rest => l.job.id :: rest.own
  | group _ _ rest => rest.own

/-- The identifiers of the jobs that were made for groups. -/
def made : Forest → List TaskId
  | bare => []
  | launch _ rest => rest.made
  | group _ members rest => members.taskIds ++ rest.made

/-- The forest is made of these tasks: a job is launched with its kind of worker, and a group has
one member for each of its targets, with the same kind. -/
inductive Unfolds : List (Task × WorkerKind) → Forest → Prop
  | bare : Unfolds [] bare
  | job {j : Job} {kind : WorkerKind} {tasks : List (Task × WorkerKind)} {rest : Forest}
    (others : Unfolds tasks rest) : Unfolds ((.job j, kind) :: tasks) (launch ⟨j, kind⟩ rest)
  | group {spread : Spread} {template : TaskId → TaskPolicy → Target → Task} {kind : WorkerKind}
    {ids : List TaskId} {members rest : Forest} {tasks : List (Task × WorkerKind)}
    (each : ids.length = spread.targets.length)
    (made : Unfolds (ids.zipWith (fun id target => (template id spread.policy target, kind))
      spread.targets) members)
    (others : Unfolds tasks rest) :
    Unfolds ((.group spread template, kind) :: tasks) (group ids members rest)

end Forest

/-! ### Targets -/

namespace Spread

variable (s : Spread)

/-- The targets of a group, host after host: one for each parameter set, or one without any. -/
theorem targets_eq : s.targets = s.hosts.flatMap fun host =>
    (if s.setsOf host = [] then [[]] else s.setsOf host).map (Target.mk host) := by
  unfold targets
  congr 1
  funext host
  unfold targetsOn
  split
  · rename_i none_
    simp [none_]
  · rename_i some_
    rw [if_neg some_]

theorem length_targets :
    s.targets.length = (s.hosts.map fun host => max 1 (s.setsOf host).length).sum := by
  rw [targets_eq, List.length_flatMap]
  congr 2
  funext host
  by_cases none_ : s.setsOf host = []
  · simp [none_]
  · have some_ := List.length_pos_iff.2 none_
    simp only [none_, if_false, List.length_map]
    omega

end Spread

/-! ### Drawing identifiers -/

/-- What is launched for tasks, one after the other. -/
def launchAll : List (Task × WorkerKind) → IdStream .task → List Launch × IdStream .task
  | [], ids => ([], ids)
  | (task, kind) :: tasks, ids =>
    let (jobs, ids) := task.expand ids
    let (launches, ids) := launchAll tasks ids
    (jobs.map (⟨·, kind⟩) ++ launches, ids)

theorem Batch.ofTasks_eq (policy : BatchPolicy) (tasks : List (Task × WorkerKind))
    (ids : IdStream .task) : Batch.ofTasks policy tasks ids =
      (⟨(launchAll tasks ids).1, policy⟩, (launchAll tasks ids).2) := by
  have pushed (acc : Batch × IdStream .task) :
      tasks.foldl (fun acc t => acc.1.push t.1 t.2 acc.2) acc =
        ({ acc.1 with launches := acc.1.launches ++ (launchAll tasks acc.2).1 },
          (launchAll tasks acc.2).2) := by
    induction tasks generalizing acc with
    | nil => simp [launchAll]
    | cons t tasks ih =>
      rw [List.foldl_cons, ih]
      simp [push, launchAll]
  rw [ofTasks, pushed]
  rfl

/-- The members of a group are launched one after the other. -/
theorem Task.expand_members (spread : Spread) (template : TaskId → TaskPolicy → Target → Task)
    (kind : WorkerKind) (ids : IdStream .task) :
    let n := spread.targets.length
    let members := launchAll ((ids.upcoming n).zipWith
      (fun id target => (template id spread.policy target, kind)) spread.targets) (ids.skip n)
    ((Task.group spread template).expand ids).1.map (Launch.mk · kind) = members.1 ∧
      ((Task.group spread template).expand ids).2 = members.2 := by
  have made (drawn : List (TaskId × Target)) (acc : List Job × IdStream .task) :
      let jobs := drawn.foldl (fun acc d =>
        (acc.1 ++ (expand (template d.1 spread.policy d.2) acc.2).1,
          (expand (template d.1 spread.policy d.2) acc.2).2)) acc
      let members := launchAll (drawn.map fun d => (template d.1 spread.policy d.2, kind)) acc.2
      jobs.1.map (Launch.mk · kind) = acc.1.map (Launch.mk · kind) ++ members.1 ∧
        jobs.2 = members.2 := by
    induction drawn generalizing acc with
    | nil => simp [launchAll]
    | cons d drawn ih =>
      obtain ⟨launches, rest⟩ := ih (acc.1 ++ (expand (template d.1 spread.policy d.2) acc.2).1,
        (expand (template d.1 spread.policy d.2) acc.2).2)
      simp only [List.foldl_cons, List.map_cons, launchAll]
      refine ⟨launches.trans ?_, rest⟩
      simp
  have drawn := made ((ids.upcoming spread.targets.length).zip spread.targets)
    ([], ids.skip spread.targets.length)
  unfold expand
  simpa only [drawFor_eq, List.zip, List.map_zipWith, List.map_nil, List.nil_append] using drawn

/-! ### Unfolding -/

namespace Forest

/-- Whatever follows a task, the task unfolds in front of it, with the identifiers that it draws. -/
def Grows (task : Task) : Prop :=
  ∀ (kind : WorkerKind) (ids : IdStream .task), ∃ n, (task.expand ids).2 = ids.skip n ∧
    ∀ tasks rest, Unfolds tasks rest → ∃ f, Unfolds ((task, kind) :: tasks) f ∧
      f.launches = (task.expand ids).1.map (Launch.mk · kind) ++ rest.launches ∧
      f.drawn = ids.upcoming n ++ rest.drawn

/-- What was launched for tasks is a forest of them. -/
theorem unfolds_launchAll {tasks : List (Task × WorkerKind)} (grow : ∀ t ∈ tasks, Grows t.1)
    (ids : IdStream .task) : ∃ n f, (launchAll tasks ids).2 = ids.skip n ∧ Unfolds tasks f ∧
      f.launches = (launchAll tasks ids).1 ∧ f.drawn = ids.upcoming n := by
  induction tasks generalizing ids with
  | nil => exact ⟨0, .bare, rfl, .bare, rfl, rfl⟩
  | cons t tasks ih =>
    obtain ⟨task, kind⟩ := t
    obtain ⟨first, others⟩ := List.forall_mem_cons.1 grow
    obtain ⟨n, rest, unfolds⟩ := first kind ids
    obtain ⟨m, g, left, unfolded, launched, drew⟩ := ih others (task.expand ids).2
    obtain ⟨f, unfolds, launches, drawn⟩ := unfolds tasks g unfolded
    refine ⟨n + m, f, ?_, unfolds, ?_, ?_⟩
    · show (launchAll tasks (task.expand ids).2).2 = _
      rw [left, rest, IdStream.skip_skip]
    · rw [launches, launched]
      rfl
    · rw [drawn, drew, rest, IdStream.upcoming_add]

/-- Every task grows: a job is launched, and a group draws for all its members before it unfolds
them. -/
theorem grows (task : Task) : Grows task := by
  induction task with
  | job j =>
    intro kind ids
    refine ⟨0, rfl, fun tasks rest others => ⟨.launch ⟨j, kind⟩ rest, .job others, rfl, rfl⟩⟩
  | group spread template ih =>
    intro kind ids
    obtain ⟨launched, left⟩ := Task.expand_members spread template kind ids
    -- each member grows, whatever identifier it was made with
    have grow : ∀ t ∈ (ids.upcoming spread.targets.length).zipWith
        (fun id target => (template id spread.policy target, kind)) spread.targets, Grows t.1 := by
      intro t ht
      obtain ⟨i, hi, rfl⟩ := List.mem_iff_getElem.1 ht
      simpa using ih _ _ _
    obtain ⟨m, members, skipped, unfolded, launches, drew⟩ :=
      unfolds_launchAll grow (ids.skip spread.targets.length)
    refine ⟨spread.targets.length + m, ?_, fun tasks rest others => ?_⟩
    · rw [left, skipped, IdStream.skip_skip]
    · refine ⟨.group (ids.upcoming spread.targets.length) members rest,
        .group (IdStream.length_upcoming ..) unfolded others, ?_, ?_⟩
      · rw [launched, ← launches]
        rfl
      · rw [IdStream.upcoming_add, ← drew]
        rfl

end Forest

/-! ### Identifiers -/

/-- Every group that the task has makes its jobs with the identifiers that it draws for them. -/
inductive Task.UsesIds : Task → Prop
  | job (j : Job) : UsesIds (.job j)
  | group {spread : Spread} {template : TaskId → TaskPolicy → Target → Task}
    (given : ∀ id, ∀ target ∈ spread.targets, ∀ j,
      template id spread.policy target = .job j → j.id = id)
    (members : ∀ id, ∀ target ∈ spread.targets, UsesIds (template id spread.policy target)) :
    UsesIds (.group spread template)

namespace Forest

theorem Unfolds.own_eq {tasks : List (Task × WorkerKind)} {f : Forest} (h : Unfolds tasks f) :
    f.own = tasks.filterMap (·.1.id?) := by
  induction h with
  | bare => rfl
  | job _ ih => simp [own, ih, Task.id?]
  | group _ _ _ _ ih => simp [own, ih, Task.id?]

theorem taskIds_perm (f : Forest) : f.taskIds.Perm (f.own ++ f.made) := by
  induction f with
  | bare => exact .nil
  | launch l rest ih => exact ih.cons _
  | group ids members rest _ ih =>
    have split : (group ids members rest).taskIds = members.taskIds ++ rest.taskIds :=
      List.map_append
    rw [split, own, made]
    refine (ih.append_left _).trans ?_
    rw [← List.append_assoc, ← List.append_assoc]
    exact List.perm_append_comm.append_right _

/-- The jobs among the members of a group have some of the identifiers drawn for it, in order. -/
theorem members_sublist {template : TaskId → TaskPolicy → Target → Task} {policy : TaskPolicy}
    (kind : WorkerKind) {ids : List TaskId} {targets : List Target}
    (given : ∀ id, ∀ target ∈ targets, ∀ j, template id policy target = .job j → j.id = id) :
    ((ids.zipWith (fun id target => (template id policy target, kind)) targets).filterMap
      (·.1.id?)).Sublist ids := by
  induction ids generalizing targets with
  | nil => exact .slnil
  | cons id ids ih =>
    cases targets with
    | nil => exact List.nil_sublist _
    | cons target targets =>
      have rest := ih fun id other ht => given id other (List.mem_cons_of_mem _ ht)
      have first := given id target List.mem_cons_self
      rw [List.zipWith_cons_cons]
      cases made : template id policy target with
      | job j =>
        have same : j.id = id := first j made
        simpa [Task.id?, same] using rest
      | group => simpa [Task.id?] using rest.cons id

/-- No identifier is used more often for groups than it was drawn. -/
theorem Unfolds.count_made {tasks : List (Task × WorkerKind)} {f : Forest} (h : Unfolds tasks f)
    (uses : ∀ t ∈ tasks, t.1.UsesIds) (id : TaskId) : f.made.count id ≤ f.drawn.count id := by
  induction h with
  | bare => exact Nat.le_refl _
  | job _ ih => exact ih fun t ht => uses t (List.mem_cons_of_mem _ ht)
  | @group spread template kind ids members rest tasks each unfolded _ ih₁ ih₂ =>
    obtain ⟨first, others⟩ := List.forall_mem_cons.1 uses
    cases first with
    | group given inner =>
      have deep := ih₁ fun t ht => by
        obtain ⟨i, hi, rfl⟩ := List.mem_iff_getElem.1 ht
        simpa using inner _ _ (List.getElem_mem _)
      have rest := ih₂ others
      have own : members.own.count id ≤ ids.count id := by
        rw [unfolded.own_eq]
        exact (members_sublist kind given).count_le id
      have all := members.taskIds_perm.count_eq id
      rw [made, drawn]
      simp only [List.count_append] at all ⊢
      omega

end Forest

/-- **Expansion.**  A batch is filled with any tasks, each with its kind of worker; identifiers are
drawn from one supply.

* The batch has the launches of a forest that the tasks unfold into, depth first: jobs only, each
  with the kind with which its task was pushed.  A group has one member for each of its targets, and
  the targets are, host after host, one for each parameter set of the host in the order in which
  they were added, or one without parameters.
* The identifiers are the next ones of the supply; they are drawn for all members of a group before
  any of theirs.
* If groups make their jobs with the identifiers that they draw for them, and none of those is drawn
  twice, the jobs that were made for groups have some of those, and no two share one.  Then all
  launched jobs have different identifiers just if those that were pushed themselves do, and have
  none of the others'. -/
theorem Batch.unfolds {policy : BatchPolicy} {tasks : List (Task × WorkerKind)}
    {ids ids' : IdStream .task} {b : Batch} (h : Batch.ofTasks policy tasks ids = (b, ids')) :
    (∃ f : Forest, f.Unfolds tasks ∧ b.launches = f.launches ∧
      ids' = ids.skip f.drawn.length ∧ f.drawn = ids.upcoming f.drawn.length ∧
      ((∀ t ∈ tasks, t.1.UsesIds) → f.drawn.Nodup →
        f.made.Nodup ∧ (∀ id ∈ f.made, id ∈ f.drawn) ∧
        (b.taskIds.Nodup ↔ (tasks.filterMap (·.1.id?)).Nodup ∧
          ∀ id ∈ tasks.filterMap (·.1.id?), id ∉ f.made))) ∧
    ∀ spread : Spread,
      spread.targets = (spread.hosts.flatMap fun host =>
        (if spread.setsOf host = [] then [[]] else spread.setsOf host).map (Target.mk host)) ∧
      spread.targets.length =
        (spread.hosts.map fun host => max 1 (spread.setsOf host).length).sum := by
  refine ⟨?_, fun spread => ⟨spread.targets_eq, spread.length_targets⟩⟩
  obtain ⟨n, f, skipped, unfolded, launches, drawn⟩ :=
    Forest.unfolds_launchAll (fun t (_ : t ∈ tasks) => Forest.grows t.1) ids
  rw [Batch.ofTasks_eq] at h
  obtain ⟨rfl, rfl⟩ := Prod.mk.inj h
  have length : f.drawn.length = n := by rw [drawn, IdStream.length_upcoming]
  refine ⟨f, unfolded, launches.symm, length ▸ skipped, by rw [length, drawn], ?_⟩
  intro uses distinct
  have made : f.made.Nodup := by
    refine List.nodup_iff_count_le_one.2 fun id => ?_
    exact Nat.le_trans (unfolded.count_made uses id) (List.nodup_iff_count_le_one.1 distinct id)
  refine ⟨made, fun id hid => ?_, ?_⟩
  · have some_ := List.count_pos_iff.2 hid
    exact List.count_pos_iff.1 (Nat.lt_of_lt_of_le some_ (unfolded.count_made uses id))
  have all : Batch.taskIds ⟨(launchAll tasks ids).1, policy⟩ = f.taskIds := by
    rw [Batch.taskIds, ← launches]
    rfl
  rw [all, f.taskIds_perm.nodup_iff, unfolded.own_eq, List.nodup_append]
  constructor
  · rintro ⟨own, -, apart⟩
    exact ⟨own, fun id hid hmade => apart id hid id hmade rfl⟩
  · rintro ⟨own, apart⟩
    refine ⟨own, made, ?_⟩
    rintro id hid other hother rfl
    exact apart id hid hother

/-- A job that succeeds at once. -/
def jobOf (id : TaskId) : Job := { (default : Job) with id := id }

/-- A group of jobs on two hosts, one of them twice and with two parameter sets; on the other host
there is a group again. -/
def nestedGroup : Task :=
  .group ⟨default, ["a", "b", "a"], [("a", [("port", "80")]), ("a", [("port", "443")])]⟩
    fun id policy target =>
      if target.host = "b" then .group ⟨policy, ["c", "d"], []⟩ fun id _ _ => .job (jobOf id)
      else .job (jobOf id)

theorem nestedGroup_usesIds : nestedGroup.UsesIds := by
  refine .group (fun id target _ j made => ?_) fun id target _ => ?_
  · split at made
    · cases made
    · cases made
      rfl
  · split
    · exact .group (fun id _ _ j made => by cases made; rfl) fun id _ _ => .job _
    · exact .job _

/-- The five targets of the outer group draw first, so the jobs of the inner one, in the middle,
have the last two identifiers; the third one is that of the inner group.  A job that is pushed with
an identifier of its own shares none with them. -/
theorem Batch.unfolds_nested : ∃ b ids',
    Batch.ofTasks default [(nestedGroup, .submit), (.job (jobOf (.ofNat 9)), .submit)] .counting =
      (b, ids') ∧
    b.taskIds = [.ofNat 1, .ofNat 2, .ofNat 6, .ofNat 7, .ofNat 4, .ofNat 5, .ofNat 9] ∧
    b.taskIds.Nodup := by
  obtain ⟨⟨f, -, -, skipped, drawn, distinct⟩, -⟩ := @Batch.unfolds default
    [(nestedGroup, .submit), (.job (jobOf (.ofNat 9)), .submit)] .counting _ _ rfl
  have length : f.drawn.length = 7 := by
    have := congrArg IdStream.drawn skipped
    exact ((Nat.zero_add _).symm.trans this.symm)
  rw [length] at drawn
  obtain ⟨-, made, iff_⟩ := distinct (by simp [nestedGroup_usesIds, Task.UsesIds.job])
    (drawn ▸ by decide)
  refine ⟨_, _, rfl, rfl, iff_.2 ⟨by decide, fun id own hmade => ?_⟩⟩
  have drew := made id hmade
  rw [drawn] at drew
  obtain rfl : id = .ofNat 9 := by simpa [nestedGroup, Task.id?, jobOf] using own
  exact absurd drew (by decide)

/-- A job that is pushed has whatever identifier it came with, though it be one that is drawn for a
group afterwards. -/
theorem Batch.pushed_id_repeats : ∃ tasks b, ∃ ids : IdStream .task,
    Batch.ofTasks default tasks .counting = (b, ids) ∧ (∀ t ∈ tasks, t.1.UsesIds) ∧
    ((.counting : IdStream .task).upcoming ids.drawn).Nodup ∧
    b.taskIds = [.ofNat 1, .ofNat 1] ∧ ¬ b.taskIds.Nodup := by
  let group : Task := .group ⟨default, ["a"], []⟩ fun id _ _ => .job (jobOf id)
  have uses : group.UsesIds := .group (fun id _ _ j made => by cases made; rfl) fun id _ _ => .job _
  refine ⟨[(.job (jobOf (.ofNat 1)), .submit), (group, .submit)], _, _, rfl, ?_, by decide, rfl,
    by decide⟩
  simp [uses, Task.UsesIds.job]

end Workflow
