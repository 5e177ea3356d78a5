import Workflow.Proofs.Batch.Runs
import Workflow.Proofs.Worker.Course

/-!
# Workflow.Proofs.Batch.Announcements — a result comes after its task was announced

Each worker reports that its task was created before it reports the result.  Whatever the order in
which the reports of a crew's workers mix, this survives: whoever listens to the crew has heard of a
task when its result comes (`Crew.Runs.announced`), and every result is that of a task of the batch
(`Crew.Runs.result_task`).
-/

namespace Workflow

/-- Each result comes after the event that its task was created. -/
def Announced (events : List TaskEvent) : Prop :=
  ∀ before id r after, events = before ++ .result id r :: after → .created r.task ∈ before

namespace Announced

variable {events : List TaskEvent}

theorem of_no_result (h : ∀ e ∈ events, e.result? = none) : Announced events := by
  rintro before id r after rfl
  exact absurd (h (.result id r) (by simp)) (by simp [TaskEvent.result?])

theorem of_append {more : List TaskEvent} (h : Announced (events ++ more)) : Announced events := by
  rintro before id r after rfl
  exact h before id r (after ++ more) (by simp)

/-- One more event; if it is a result, its task was created before. -/
theorem concat (h : Announced events) {e : TaskEvent}
    (created : ∀ r, e.result? = some r → .created r.task ∈ events) : Announced (events ++ [e]) := by
  intro before id r after heq
  rcases List.eq_nil_or_concat after with rfl | ⟨after, last, rfl⟩
  · obtain ⟨rfl, rfl⟩ : events = before ∧ e = .result id r := by
      simpa using List.append_inj' heq rfl
    exact created r rfl
  · rw [List.concat_eq_append] at heq
    have heq' : events ++ [e] = (before ++ .result id r :: after) ++ [last] := by simp [heq]
    obtain ⟨rfl, rfl⟩ : events = before ++ .result id r :: after ∧ e = last := by
      simpa using List.append_inj' heq' rfl
    exact h before id r after rfl

end Announced

/-- A launch reports that its task was created first, and its result last. -/
theorem Launch.Protocol.announced {l : Launch} {events : List TaskEvent} (h : l.Protocol events) :
    Announced events := by
  obtain ⟨opening, r, hopening, own, more, heq⟩ := h
  have opened : Announced opening := by
    cases hopening <;> exact .of_no_result (by simp [TaskEvent.result?])
  have created : TaskEvent.created l.job.id ∈ opening := by
    cases hopening <;> simp
  have whole : Announced (opening ++ [.result l.job.id r]) := by
    refine opened.concat fun r' hr => ?_
    obtain rfl : r = r' := Option.some.inj hr
    exact own.symm ▸ created
  rw [← heq] at whole
  exact whole.of_append

/-- The results among the events of a launch are of its task. -/
theorem Launch.Protocol.result_task {l : Launch} {events : List TaskEvent} (h : l.Protocol events)
    {id : TaskId} {r : TaskResult} (hr : .result id r ∈ events) : r.task = l.job.id := by
  obtain ⟨opening, r', hopening, own, first⟩ := h
  rcases List.mem_append.1 (first.mem hr) with hr | hr
  · cases hopening <;> simp at hr
  · obtain ⟨-, rfl⟩ : id = l.job.id ∧ r = r' := by simpa using hr
    exact own

/-- Whatever the order in which events mix, each result comes after its task was created. -/
theorem Interleaved.announced {told : List (List TaskEvent)} {all : List TaskEvent}
    (h : Interleaved told all) (each : ∀ events ∈ told, Announced events) : Announced all := by
  induction h with
  | nil n => exact .of_no_result (by simp)
  | @snoc before after events all h e ih =>
    have own : Announced (events ++ [e]) := each _ (by simp)
    have others : ∀ events' ∈ before ++ events :: after, Announced events' := by
      intro events' hmem
      rcases List.mem_append.1 hmem with hb | hmem
      · exact each events' (by simp [hb])
      · rcases List.mem_cons.1 hmem with rfl | ha
        · exact own.of_append
        · exact each events' (by simp [ha])
    refine (ih others).concat fun r hr => ?_
    obtain ⟨id, rfl⟩ : ∃ id, e = .result id r := by
      cases e <;> simp_all [TaskEvent.result?]
    -- the worker has created its task earlier, and the crew has told so
    have created : TaskEvent.created r.task ∈ events := own events id r [] rfl
    exact h.perm.mem_iff.2 (by simp [created])

/-- A launch does not tell that its batch has completed. -/
theorem Launch.Protocol.ne_completed {l : Launch} {events : List TaskEvent} (h : l.Protocol events)
    {e : TaskEvent} (he : e ∈ events) : e ≠ .completed := by
  obtain ⟨opening, r, hopening, -, first⟩ := h
  rintro rfl
  rcases List.mem_append.1 (first.mem he) with opens | ends
  · cases hopening <;> simp at opens
  · simp at ends

section Crews

variable {W : Type} {bare : W → Worker}

theorem Seat.Told.protocol {l : Launch} {seat : Seat W} {events : List TaskEvent}
    (h : seat.Told bare l events) : l.Protocol events := by
  cases h with
  | waiting => exact ⟨_, .unknown l.job.id, .created, rfl, List.nil_prefix⟩
  | running h => exact h.course.2.protocol
  | finished h => exact h.course.2.protocol

theorem Seated.protocol {launches : List Launch} {seats : List (Seat W)}
    {told : List (List TaskEvent)} (h : Seated bare launches seats told) :
    ∀ events ∈ told, ∃ l ∈ launches, l.Protocol events := by
  induction h with
  | nil => simp
  | cons h _ ih =>
    intro events hmem
    rcases List.mem_cons.1 hmem with rfl | hmem
    · exact ⟨_, List.mem_cons_self, h.protocol⟩
    · obtain ⟨l, hl, protocol⟩ := ih events hmem
      exact ⟨l, List.mem_cons_of_mem _ hl, protocol⟩

variable {b : Batch} {c : Crew W} {all : List TaskEvent}

/-- **A crew tells of a result after it has told that the task was created.** -/
theorem Crew.Runs.announced (h : Crew.Runs bare b c all) : Announced all := by
  obtain ⟨told, before, hseated, hall, rfl⟩ := h.reported
  have mixed := hall.announced fun events hmem => by
    obtain ⟨l, -, protocol⟩ := hseated.protocol events hmem
    exact protocol.announced
  split
  · exact mixed.concat (by simp [TaskEvent.result?])
  · simpa using mixed

/-- Every result that a crew tells of is that of a task of its batch. -/
theorem Crew.Runs.result_task (h : Crew.Runs bare b c all) {id : TaskId} {r : TaskResult}
    (hr : .result id r ∈ all) : r.task ∈ b.taskIds := by
  obtain ⟨told, before, hseated, hall, rfl⟩ := h.reported
  have here : .result id r ∈ before := by
    rcases List.mem_append.1 hr with here | last
    · exact here
    · split at last <;> simp at last
  obtain ⟨events, hmem, hr⟩ := List.mem_flatten.1 (hall.perm.mem_iff.1 here)
  obtain ⟨l, hl, protocol⟩ := hseated.protocol events hmem
  exact protocol.result_task hr ▸ List.mem_map_of_mem hl

/-- A crew tells that its batch has completed when it is done, and then tells nothing more. -/
theorem Crew.Runs.completed_last (h : Crew.Runs bare b c all) : ∃ before,
    all = before ++ (if c.isDone then [.completed] else []) ∧ ∀ e ∈ before, e ≠ .completed := by
  obtain ⟨told, before, hseated, hall, rfl⟩ := h.reported
  refine ⟨before, rfl, fun e he => ?_⟩
  obtain ⟨events, hmem, he⟩ := List.mem_flatten.1 (hall.perm.mem_iff.1 he)
  obtain ⟨l, -, protocol⟩ := hseated.protocol events hmem
  exact protocol.ne_completed he

end Crews

end Workflow
