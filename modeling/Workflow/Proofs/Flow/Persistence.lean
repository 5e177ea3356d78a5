import Workflow.Flow.Properties
import Workflow.Flow.Record
import Workflow.Proofs.Identifiers
import Workflow.Proofs.Json.Reading
import Workflow.Proofs.Time.Instants
import Workflow.Step.Properties
import Workflow.Task.Policy

/-!
# Workflow.Proofs.Flow.Persistence — what is written of a flow is read back

Every written form is the object of its fields that have a value (`toJson_eq`).  Its reader finds
each field again, and takes for one that was left out the value that was not written (`restores`).
The steps of a record's tables come back in key order, each with what it had (`Record.Same`).
-/

namespace Workflow

open Json (Member Restores present members?_present list?_restores text?_restores flag?_restores
  word32?_restores word64?_restores int32?_restores orElse_ofWritten)

/-! ### Names, identifiers and times -/

theorem Status.restores (s : Status) : Restores Status.ofJson? s.toJson s := by
  cases s <;> exact ⟨rfl, rfl⟩

theorem FlowState.restores (s : FlowState) : Restores FlowState.ofJson? s.toJson s := by
  cases s <;> exact ⟨rfl, rfl⟩

theorem FlowResult.restores (r : FlowResult) : Restores FlowResult.ofJson? r.toJson r := by
  cases r <;> exact ⟨rfl, rfl⟩

theorem Instant.restores {t : Instant} (h : t.inCalendar) :
    Restores Instant.ofJson? t.toJson t := by
  refine ⟨?_, rfl⟩
  rw [ofJson?, toJson, (text?_restores _).reads, Option.bind_some, ofText?_text h]

theorem Id.restores {kind : IdKind} (id : Id kind) : Restores Id.ofJson? id.toJson id := by
  refine ⟨?_, rfl⟩
  have written : id.toJson = .object (present [("ulid", some (.string id.ulid))]) := rfl
  rw [written, ofJson?, members?_present]
  · simp only [List.map_cons, List.map_nil, (text?_restores id.ulid).required, Option.bind_eq_bind,
      Option.bind_some, ofUlid_ulid]
  · decide
  · rfl

/-! ### Parts of a record -/

namespace LogEntry

theorem toJson_eq (e : LogEntry) : e.toJson = .object (present
    [("message", some (.string e.message)), ("detail", e.detail.map .string)]) := by
  obtain ⟨message, detail⟩ := e
  cases detail <;> rfl

theorem restores (e : LogEntry) : Restores ofJson? e.toJson e := by
  refine ⟨?_, rfl⟩
  rw [toJson_eq, ofJson?, members?_present]
  · simp only [List.map_cons, List.map_nil, (text?_restores _).required,
      Restores.orElse fun s _ => text?_restores s, Option.bind_eq_bind, Option.bind_some]
  · decide
  · rfl

end LogEntry

namespace LastError

theorem toJson_eq (e : LastError) : e.toJson = .object (present [("step", some (.string e.step)),
    ("message", some (.string e.message)), ("cause", e.cause.map .string)]) := by
  obtain ⟨step, message, cause⟩ := e
  cases cause <;> rfl

theorem restores (e : LastError) : Restores ofJson? e.toJson e := by
  refine ⟨?_, rfl⟩
  rw [toJson_eq, ofJson?, members?_present]
  · simp only [List.map_cons, List.map_nil, (text?_restores _).required,
      Restores.orElse fun s _ => text?_restores s, Option.bind_eq_bind, Option.bind_some]
  · decide
  · rfl

end LastError

namespace StepLog

theorem toJson_eq (l : StepLog) : l.toJson = .object (present [("step", some (.string l.step)),
    ("task_id", l.task.map Id.toJson),
    ("entries", some (.array (l.entries.map LogEntry.toJson))),
    ("logged_at", some l.loggedAt.toJson)]) := by
  obtain ⟨step, task, entries, loggedAt⟩ := l
  cases task <;> rfl

theorem restores {l : StepLog} (h : l.loggedAt.inCalendar) : Restores ofJson? l.toJson l := by
  refine ⟨?_, rfl⟩
  have entries := list?_restores fun e (_ : e ∈ l.entries) => e.restores.reads
  rw [toJson_eq, ofJson?, members?_present]
  · simp only [List.map_cons, List.map_nil, (text?_restores _).required,
      Restores.orElse fun id _ => Id.restores id, entries.required,
      (Instant.restores h).required, Option.bind_eq_bind, Option.bind_some]
  · decide
  · rfl

end StepLog

namespace TaskResult

theorem toJson_eq (r : TaskResult) : r.toJson = .object (present [("task_id", some r.task.toJson),
    ("status", some r.status.toJson), ("message", r.message.map .string),
    ("cause", r.cause.map .string),
    ("payload", if r.payload.isNull then none else some r.payload)]) := by
  obtain ⟨task, status, message, cause, payload⟩ := r
  cases message <;> cases cause <;> cases payload <;> rfl

theorem restores {r : TaskResult} (h : r.payload.IsKept) : Restores ofJson? r.toJson r := by
  refine ⟨?_, rfl⟩
  have payload : (Member.ofWritten (if r.payload.isNull then none else some r.payload)).orElse
      Json.any? .null = some r.payload := by
    refine orElse_ofWritten (fun j hj => ?_) fun null => ?_
    · split at hj
      · cases hj
      · exact Option.some.inj hj ▸ h.any?
    · cases payload : r.payload <;> simp [Json.isNull, payload] at null ⊢
  rw [toJson_eq, ofJson?, members?_present]
  · simp only [List.map_cons, List.map_nil, (Id.restores _).required, (Status.restores _).required,
      Restores.orElse fun s _ => text?_restores s, payload, Option.bind_eq_bind, Option.bind_some]
  · decide
  · rfl

end TaskResult

/-! ### Answers of steps, and settings -/

namespace Transition

theorem toJson_eq (t : Transition) : t.toJson = .object (present
    [("target_step", some (Json.ofOption .string t.target)),
      ("flow_state", some (Json.ofOption FlowState.toJson t.state)),
      ("flow_result", some (Json.ofOption FlowResult.toJson t.result)),
      ("log", if t.log.isEmpty then none else some (.array (t.log.map LogEntry.toJson))),
      ("is_edge", some (.bool t.isEdge))]) := by
  obtain ⟨target, state, result, log, isEdge⟩ := t
  cases log <;> rfl

theorem restores (t : Transition) : Restores ofJson? t.toJson t := by
  refine ⟨?_, rfl⟩
  have log : (Member.ofWritten (if t.log.isEmpty then none
      else some (.array (t.log.map LogEntry.toJson)))).orElse (Json.list? LogEntry.ofJson?) [] =
        some t.log := by
    refine orElse_ofWritten (fun j hj => ?_) fun empty => ?_
    · split at hj
      · cases hj
      · exact Option.some.inj hj ▸ (list?_restores fun e _ => e.restores.reads).reads
    · split at empty
      · exact (List.isEmpty_iff.1 ‹_›).symm
      · cases empty
  rw [toJson_eq, ofJson?, members?_present]
  · simp only [List.map_cons, List.map_nil, Restores.optional fun s _ => text?_restores s,
      Restores.optional fun s _ => FlowState.restores s,
      Restores.optional fun r _ => FlowResult.restores r, log, (flag?_restores _).required,
      Option.bind_eq_bind, Option.bind_some]
  · decide
  · rfl

end Transition

namespace StepProperties

theorem toJson_eq (p : StepProperties) : p.toJson = .object (present
    [("id", some (.string p.id)), ("desc", if p.desc.isEmpty then none else some (.string p.desc)),
      ("weight", some (.ofNat p.weight.toNat)), ("logging", some (.bool p.logging)),
      ("first_step", some (.bool p.firstStep)), ("is_error_step", some (.bool p.isErrorStep)),
      ("on_success", p.onSuccess.map .string), ("on_else", p.onElse.map .string),
      ("on_exception", p.onException.map .string)]) := by
  obtain ⟨id, desc, weight, logging, firstStep, isErrorStep, onSuccess, onElse, onException⟩ := p
  unfold toJson
  cases desc.isEmpty <;> cases onSuccess <;> cases onElse <;> cases onException <;> rfl

theorem restores (p : StepProperties) : Restores ofJson? p.toJson p := by
  refine ⟨?_, rfl⟩
  have desc : (Member.ofWritten (if p.desc.isEmpty then none else some (.string p.desc))).orElse
      Json.text? "" = some p.desc := by
    refine orElse_ofWritten (fun j hj => ?_) fun empty => ?_
    · split at hj
      · cases hj
      · exact Option.some.inj hj ▸ (text?_restores p.desc).reads
    · split at empty
      · exact (String.isEmpty_iff.1 ‹_›).symm
      · cases empty
  rw [toJson_eq, ofJson?, members?_present]
  · simp only [List.map_cons, List.map_nil, (text?_restores _).defaulted, desc,
      (word32?_restores _).defaulted, (flag?_restores _).defaulted,
      Restores.orElse fun s _ => text?_restores s, Option.bind_eq_bind, Option.bind_some]
  · decide
  · rfl

end StepProperties

namespace FlowProperties

theorem restores (p : FlowProperties) : Restores ofJson? p.toJson p := by
  refine ⟨?_, rfl⟩
  have written : p.toJson = .object (present
    [("kill_non_recoverable", some (.bool p.killNonRecoverable)),
      ("timeout_sec", some (.ofNat p.timeoutSec.toNat)),
      ("priority", some (.integer p.priority.toInt))]) := rfl
  rw [written, ofJson?, members?_present]
  · simp only [List.map_cons, List.map_nil, (flag?_restores _).defaulted,
      (word64?_restores _).defaulted, (int32?_restores _).defaulted,
      Option.bind_eq_bind, Option.bind_some]
  · decide
  · rfl

end FlowProperties

namespace PollPolicy

theorem restores (p : PollPolicy) : Restores ofJson? p.toJson p := by
  refine ⟨?_, rfl⟩
  have written : p.toJson = .object (present
    [("monitor_interval_ms", some (.ofNat p.intervalMs.toNat)),
      ("max_poll_retry", some (.ofNat p.maxRetry.toNat))]) := rfl
  rw [written, ofJson?, members?_present]
  · simp only [List.map_cons, List.map_nil, (word64?_restores _).defaulted,
      (word32?_restores _).defaulted, Option.bind_eq_bind, Option.bind_some]
  · decide
  · rfl

end PollPolicy

namespace BatchPolicy

theorem restores (p : BatchPolicy) : Restores ofJson? p.toJson p := by
  refine ⟨?_, rfl⟩
  have limit : (Member.ofWritten (some (Json.ofOption (fun n => .ofNat n.toNat)
      p.maxConcurrency))).orElse (Json.nullable? Json.word64?) none = some p.maxConcurrency := by
    cases p.maxConcurrency with
    | none => rfl
    | some n =>
      exact congrArg (Option.map some) (word64?_restores n).reads
  have written : p.toJson = .object (present [("max_concurrency",
    some (Json.ofOption (fun n => .ofNat n.toNat) p.maxConcurrency))]) := rfl
  rw [written, ofJson?, members?_present]
  · simp only [List.map_cons, List.map_nil, limit, Option.bind_eq_bind, Option.bind_some]
  · decide
  · rfl

end BatchPolicy

namespace TaskPolicy

theorem restores (p : TaskPolicy) : Restores ofJson? p.toJson p := by
  refine ⟨?_, rfl⟩
  have written : p.toJson = .object (present [("max_retry", some (.ofNat p.maxRetry.toNat)),
    ("retry_delay_ms", some (.ofNat p.retryDelayMs.toNat)),
    ("timeout_ms", some (.ofNat p.timeoutMs.toNat)),
    ("backoff_multiplier", some (.double p.backoff))]) := rfl
  have backoff : Restores Json.number? (.double p.backoff) p.backoff := ⟨rfl, rfl⟩
  rw [written, ofJson?, ofJsonOver?, members?_present]
  · simp only [List.map_cons, List.map_nil, (word64?_restores _).defaulted,
      (word32?_restores _).defaulted, backoff.defaulted, Option.bind_eq_bind, Option.bind_some]
  · decide
  · rfl

end TaskPolicy

/-! ### Tables -/

namespace Table

variable {κ ν : Type} [DecidableEq κ]

theorem find?_eq_some_iff_mem {es : List (κ × ν)} (h : (es.map Prod.fst).Nodup) {key : κ}
    {value : ν} : find? key es = some value ↔ (key, value) ∈ es := by
  induction es with
  | nil => simp [find?]
  | cons e rest ih =>
    obtain ⟨k, v⟩ := e
    obtain ⟨hk, hrest⟩ := List.nodup_cons.1 h
    by_cases same : k = key
    · subst same
      have other : (k, value) ∉ rest := fun hmem => hk (List.mem_map.2 ⟨_, hmem, rfl⟩)
      simp [find?, other, eq_comm]
    · simp [find?, same, Ne.symm same, ih hrest]

/-- The order of the entries does not matter for look-ups. -/
theorem get?_perm {t t' : Table κ ν} (h : t.entries.Perm t'.entries) (key : κ) :
    t.get? key = t'.get? key := by
  apply Option.ext
  intro value
  rw [get?, get?, find?_eq_some_iff_mem t.nodup, find?_eq_some_iff_mem t'.nodup, h.mem_iff]

theorem insert_of_notMem {key : κ} {value : ν} {es : List (κ × ν)}
    (new : key ∉ es.map Prod.fst) : insert key value es = es ++ [(key, value)] := by
  induction es with
  | nil => rfl
  | cons e rest ih =>
    obtain ⟨hk, hrest⟩ : key ≠ e.1 ∧ key ∉ rest.map Prod.fst := by simpa using new
    rw [insert, if_neg (Ne.symm hk), ih hrest, List.cons_append]

theorem entries_foldl_put {t : Table κ ν} {es : List (κ × ν)}
    (h : ((t.entries ++ es).map Prod.fst).Nodup) :
    (es.foldl (fun t e => t.put e.1 e.2) t).entries = t.entries ++ es := by
  induction es generalizing t with
  | nil => simp
  | cons e rest ih =>
    have new : e.1 ∉ t.entries.map Prod.fst := by
      rw [List.map_append, List.map_cons] at h
      exact fun hmem => (List.nodup_append.1 h).2.2 _ hmem _ List.mem_cons_self rfl
    have put : (t.put e.1 e.2).entries = t.entries ++ [e] := insert_of_notMem new
    rw [List.foldl_cons, ih (by simpa [put] using h), put, List.append_assoc, List.singleton_append]

theorem entries_ofList {es : List (κ × ν)} (h : (es.map Prod.fst).Nodup) :
    (ofList es).entries = es := entries_foldl_put h

end Table

theorem filterMap_eq_self {α β : Type} {f : α → β} {g : β → Option α} {xs : List α}
    (h : ∀ x ∈ xs, g (f x) = some x) : (xs.map f).filterMap g = xs := by
  induction xs with
  | nil => rfl
  | cons x rest ih =>
    rw [List.map_cons, List.filterMap_cons_some (h x List.mem_cons_self),
      ih fun y hy => h y (List.mem_cons_of_mem _ hy)]

theorem mapM_eq_some_filterMap {α β : Type} {f : α → Option β} {xs : List α}
    (h : ∀ x ∈ xs, (f x).isSome) : xs.mapM f = some (xs.filterMap f) := by
  induction xs with
  | nil => rfl
  | cons x rest ih =>
    obtain ⟨y, hy⟩ := Option.isSome_iff_exists.1 (h x List.mem_cons_self)
    rw [List.mapM_cons, hy, ih fun z hz => h z (List.mem_cons_of_mem _ hz),
      List.filterMap_cons_some hy]
    rfl

namespace Record

section Tables

variable {ν : Type} (read : Json → Option ν) (write : ν → Json)

/-- The member that an entry of a table is written as. -/
def tableMember (e : String × List ν) : String × Json := (e.1, .array (e.2.map write))

/-- The entry that a member of a table is read as. -/
def asTableEntry (m : String × Json) : Option (String × List ν) :=
  (Json.list? read m.2).map (m.1, ·)

theorem tableOfJson?_object (members : List (String × Json)) :
    tableOfJson? read (.object members) =
      (members.mapM (asTableEntry read)).map Table.ofList := by
  rw [tableOfJson?]
  change (members.mapM (asTableEntry read)).bind _ = _
  cases members.mapM (asTableEntry read) <;> rfl

variable {read write}

/-- A table comes back with its entries in key order. -/
theorem tableOfJson?_toJson {t : Table String (List ν)}
    (h : ∀ e ∈ t.entries, ∀ a ∈ e.2, read (write a).canonical = some a) :
    ∃ t' : Table String (List ν), t'.entries.Perm t.entries ∧
      Restores (tableOfJson? read) (tableToJson write t) t' := by
  have perm : (Json.canonicalMembers (t.entries.map (tableMember write)) []).Perm
      ((t.entries.map (tableMember write)).map fun m => (m.1, m.2.canonical)) := by
    have keys : ((t.entries.map (tableMember write)).map Prod.fst).Nodup := by
      rw [List.map_map]
      exact t.nodup
    exact Json.canonicalMembers_perm_map keys
  have form : (tableToJson write t).canonical =
      .object (Json.canonicalMembers (t.entries.map (tableMember write)) []) := rfl
  have back : ∀ e ∈ t.entries,
      asTableEntry read (e.1, (tableMember write e).2.canonical) = some e :=
    fun e he => congrArg (Option.map (e.1, ·)) (list?_restores (h e he)).reads
  generalize Json.canonicalMembers (t.entries.map (tableMember write)) [] = written
    at perm form
  have readable : ∀ m ∈ written, (asTableEntry read m).isSome := by
    intro m hm
    obtain ⟨m', hm', rfl⟩ := List.mem_map.1 (perm.mem_iff.1 hm)
    obtain ⟨e, he, rfl⟩ := List.mem_map.1 hm'
    exact Option.isSome_iff_exists.2 ⟨e, back e he⟩
  have entries : (written.filterMap (asTableEntry read)).Perm t.entries := by
    refine (perm.filterMap (asTableEntry read)).trans (.of_eq ?_)
    rw [List.map_map]
    exact filterMap_eq_self back
  refine ⟨.ofList (written.filterMap (asTableEntry read)), ?_, ?_⟩
  · rw [Table.entries_ofList ((entries.map Prod.fst).nodup_iff.2 t.nodup)]
    exact entries
  · refine ⟨?_, rfl⟩
    rw [form, tableOfJson?_object, mapM_eq_some_filterMap readable, Option.map_some]

end Tables

theorem toJson_eq (r : Record) : r.toJson = .object (present [("flow_id", some r.flow.toJson),
    ("flow_type", some (.string r.flowType)),
    ("current_step", some (Json.ofOption .string r.currentStep)), ("state", some r.state.toJson),
    ("result", some r.result.toJson),
    ("step_results", some (tableToJson TaskResult.toJson r.stepResults)),
    ("step_tasks", some (tableToJson Id.toJson r.stepTasks)),
    ("log", some (.array (r.log.map StepLog.toJson))),
    ("completed_steps", some (.array (r.completedSteps.map .string))),
    ("last_error", r.lastError.map LastError.toJson), ("created_at", some r.createdAt.toJson),
    ("updated_at", some r.updatedAt.toJson)]) := by
  unfold toJson
  cases r.lastError <;> rfl

/-- A record that has a written form: its payloads are values as they are kept, its times have a
date. -/
structure Storable (r : Record) : Prop where
  payloads : ∀ e ∈ r.stepResults.entries, ∀ result ∈ e.2, result.payload.IsKept
  logged : ∀ l ∈ r.log, l.loggedAt.inCalendar
  created : r.createdAt.inCalendar
  updated : r.updatedAt.inCalendar

/-- Equal records: the tables have the same look-ups, and everything else is the same. -/
structure Same (r s : Record) : Prop where
  stepResults : ∀ step, r.stepResults.get? step = s.stepResults.get? step
  stepTasks : ∀ step, r.stepTasks.get? step = s.stepTasks.get? step
  others : { r with stepResults := s.stepResults, stepTasks := s.stepTasks } = s

theorem restores {r : Record} (h : r.Storable) :
    ∃ r' : Record, r'.Same r ∧ ofJson? r.toJson.canonical = some r' := by
  obtain ⟨stepResults, permResults, readResults⟩ := tableOfJson?_toJson
    fun e he result hresult => (TaskResult.restores (h.payloads e he result hresult)).reads
  obtain ⟨stepTasks, permTasks, readTasks⟩ := tableOfJson?_toJson (t := r.stepTasks)
    fun e _ id _ => (Id.restores id).reads
  refine ⟨{ r with stepResults := stepResults, stepTasks := stepTasks },
    ⟨Table.get?_perm permResults, Table.get?_perm permTasks, rfl⟩, ?_⟩
  have log := list?_restores fun l hl => (StepLog.restores (h.logged l hl)).reads
  have completed := list?_restores fun s (_ : s ∈ r.completedSteps) => (text?_restores s).reads
  rw [toJson_eq, ofJson?, members?_present]
  · simp only [List.map_cons, List.map_nil, (Id.restores _).required, (text?_restores _).required,
      Restores.optional fun s _ => text?_restores s, (FlowState.restores _).required,
      (FlowResult.restores _).required, readResults.defaulted,
      readTasks.defaulted, log.defaulted, completed.defaulted,
      Restores.orElse fun e _ => LastError.restores e,
      (Instant.restores h.created).required, (Instant.restores h.updated).required,
      Option.bind_eq_bind, Option.bind_some]
  · decide
  · rfl

end Record

/-- **What is persisted is restored.**  A record that is written and read again is the same record,
and so is every transition and every set of settings; the factor of a policy that validates is a
finite number, which has a written form. -/
theorem persisted_restored :
    (∀ r : Record, r.Storable → ∃ r' : Record, r'.Same r ∧
      Record.ofJson? r.toJson.canonical = some r') ∧
    (∀ t : Transition, Transition.ofJson? t.toJson.canonical = some t) ∧
    (∀ p : StepProperties, StepProperties.ofJson? p.toJson.canonical = some p) ∧
    (∀ p : FlowProperties, FlowProperties.ofJson? p.toJson.canonical = some p) ∧
    (∀ p : PollPolicy, PollPolicy.ofJson? p.toJson.canonical = some p) ∧
    (∀ p : BatchPolicy, BatchPolicy.ofJson? p.toJson.canonical = some p) ∧
    (∀ p : TaskPolicy, p.validate = .ok () →
      p.backoff.isFinite ∧ TaskPolicy.ofJson? p.toJson.canonical = some p) := by
  refine ⟨fun r h => Record.restores h, fun t => t.restores.reads, fun p => p.restores.reads,
    fun p => p.restores.reads, fun p => p.restores.reads, fun p => p.restores.reads,
    fun p valid => ⟨?_, p.restores.reads⟩⟩
  unfold TaskPolicy.validate at valid
  split at valid
  · exact (Bool.and_eq_true_iff.1 ‹_›).1
  · cases valid

/-- A paused flow with a nested payload, whose steps are not in key order, and whose optional
fields are in part left out. -/
def storedSample : Record :=
  let payload : Json := .object [("hosts", .array [.string "a", .null, .double .one]),
    ("tries", .integer (-2))]
  let result : TaskResult := ⟨.ofNat 7, .failed, some "no route", none, payload⟩
  { Record.create (.ofNat 1) "deploy" default with
    currentStep := some "warm"
    state := .paused
    stepResults := (Table.empty.put "warm" [result, .success (.ofNat 8)]).put "check" []
    stepTasks := Table.empty.put "warm" [.ofNat 7, .ofNat 8]
    log := [⟨"warm", some (.ofNat 7), [⟨"started", none⟩], default⟩, ⟨"warm", none, [], default⟩] }

theorem storedSample_restored :
    storedSample.toJson.member? "last_error" = none ∧
    (∃ r' : Record, r'.Same storedSample ∧
      Record.ofJson? storedSample.toJson.canonical = some r') ∧
    (default : TaskPolicy).validate = .ok () ∧
      TaskPolicy.ofJson? (default : TaskPolicy).toJson.canonical = some default := by
  have storable : storedSample.Storable := by
    refine ⟨?_, by decide, by decide, by decide⟩
    have kept : ∀ e ∈ storedSample.stepResults.entries, ∀ result ∈ e.2,
        result.payload.isReadable ∧ result.payload.canonical = result.payload := by
      simp only [storedSample, Table.put, Table.insert, Table.empty, TaskResult.success,
        TaskResult.ofStatus, Json.isReadable, Json.areReadable, Json.membersReadable,
        Json.canonical, Json.canonicalItems, Json.canonicalMembers, Json.insertMember,
        String.reduceEq, String.reduceLT, if_false, List.forall_mem_cons,
        List.not_mem_nil, Bool.and_self, and_self, false_implies, implies_true]
    exact fun e he result hresult => ⟨(kept e he result hresult).1, (kept e he result hresult).2⟩
  have valid : (default : TaskPolicy).validate = .ok () := rfl
  exact ⟨rfl, persisted_restored.1 storedSample storable, valid,
    (persisted_restored.2.2.2.2.2.2 default valid).2⟩

end Workflow
