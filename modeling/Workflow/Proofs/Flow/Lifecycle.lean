import Workflow.Proofs.Flow.Durability
import Workflow.Proofs.Flow.Leases

/-!
# Workflow.Proofs.Flow.Lifecycle — which states a flow passes through, and that success is final

A driver decides on the record in memory, but a resume on the stored one, and after a failed save
the two differ.  That no start was stored of a flow that has not started in memory (`Coherent`)
keeps a resume from starting a flow; that a success in memory was stored (`Finished`) keeps it from
undoing one.
-/

namespace Workflow

namespace Driver

/-- The steps in the life of a flow, with the call that takes them if there is only one. -/
inductive Passage : Event → FlowState → FlowState → Prop
  | stays (e : Event) (state : FlowState) : Passage e state state
  | starts (now : Nat) : Passage (.move now .start) .created .running
  | pauses (e : Event) : Passage e .running .paused
  | completes (e : Event) : Passage e .running .completed
  | resumes (now : Nat) {state : FlowState} (settled : state.isSettled) :
    Passage (.move now .resume) state .running

theorem Passage.of_passes {r r' : Record} (h : r.Passes r') (e : Event) :
    Passage e r.state r'.state := by
  cases h with
  | keeps state => exact state ▸ .stays e _
  | runsOn before after => exact before ▸ after ▸ .stays e _
  | pauses before after => exact before ▸ after ▸ .pauses e
  | completes before after => exact before ▸ after ▸ .completes e

/-- A record that an event saves is one step on. -/
theorem Yields.passage {x : Driver × Services} {flow : FlowId} {type : String}
    (h : Coherent flow type (view x)) {e : Event} {r : Record} (hr : Yields x e r) :
    Passage e x.1.record.state r.state := by
  unfold Yields at hr
  split at hr
  · obtain ⟨created, rfl⟩ := hr
    exact created ▸ .starts _
  · obtain ⟨stored, -, -, found, free, rfl⟩ := hr
    obtain ⟨r₀, hstored, -, -, hcreated⟩ := h.stored
    have drives : x.1.flow = flow := h.drives
    rw [drives] at found
    obtain rfl : stored = r₀ := Option.some.inj (found.symm.trans hstored)
    cases hs : x.1.record.state with
    | created => simp [resumeFault?, hcreated hs] at free
    | running => exact .stays _ _
    | paused => exact .resumes _ rfl
    | completed => exact .resumes _ rfl
  · exact .of_passes hr.passes _

/-- **Every event takes a flow at most one step on in its life.** -/
theorem Coherent.passage {x : Driver × Services} {flow : FlowId} {type : String}
    (h : Coherent flow type (view x)) (e : Event) :
    Passage e x.1.record.state (Driver.happen x e).1.record.state := by
  rcases e.own_or_outside with own | ⟨change, rfl⟩
  · have writes := happen_writes h.known own
    change Passage e x.1.record.state (view (Driver.happen x e)).record.state
    generalize view (Driver.happen x e) = v' at writes
    cases writes with
    | leaves => exact .stays e _
    | saves hr => exact hr.passage h
  · exact .stays _ _

/-! ### Success -/

/-- The flow has succeeded, and this was stored. -/
structure Finished (flow : FlowId) (v : View) : Prop where
  state : v.record.state = .completed
  result : v.record.result = .success
  stored : ∃ r, v.store.find? flow = some r ∧ r.state = .completed ∧ r.result = .success

theorem resumeFault?_of_success (flow : FlowId) {stored : Record}
    (state : stored.state = .completed) (result : stored.result = .success) :
    resumeFault? flow stored = some (.alreadySucceeded flow) := by
  simp [resumeFault?, state, result]

/-- What is saved of a flow that has succeeded has succeeded. -/
theorem Yields.success {x : Driver × Services} {flow : FlowId} (drives : x.1.flow = flow)
    (h : Finished flow (view x)) {e : Event} {r : Record} (hr : Yields x e r) :
    r.state = .completed ∧ r.result = .success := by
  have state : x.1.record.state = .completed := h.state
  unfold Yields at hr
  split at hr
  · simp [state] at hr
  · obtain ⟨stored, -, -, found, free, -⟩ := hr
    obtain ⟨r₀, hstored, hstate, hresult⟩ := h.stored
    rw [drives] at found
    obtain rfl : stored = r₀ := Option.some.inj (found.symm.trans hstored)
    simp [resumeFault?_of_success _ hstate hresult] at free
  · cases hr.passes with
    | keeps same same' => exact ⟨same.trans state, same'.trans h.result⟩
    | runsOn before => simp [state] at before
    | pauses before => simp [state] at before
    | completes before => simp [state] at before

theorem Finished.happen {x : Driver × Services} {flow : FlowId} {type : String}
    (coherent : Coherent flow type (view x)) (h : Finished flow (view x)) {e : Event}
    (spares : e.SparesRecord flow) : Finished flow (view (happen x e)) := by
  rcases e.own_or_outside with own | ⟨change, rfl⟩
  · have writes := happen_writes coherent.known own
    generalize view (Driver.happen x e) = v' at writes
    cases writes with
    | leaves => exact h
    | @saves r hr =>
      obtain ⟨state, result⟩ := hr.success coherent.drives h
      refine ⟨state, result, ?_⟩
      rw [View.find?_save ((hr.admitted coherent).own.trans coherent.own)]
      split
      · exact h.stored
      · exact ⟨r, rfl, state, result⟩
  · refine ⟨h.state, h.result, ?_⟩
    have same : (change x.2).store.find? flow = x.2.store.find? flow := spares x.2
    exact same.symm ▸ h.stored

theorem Finished.run {x : Driver × Services} {flow : FlowId} {type : String}
    (coherent : Coherent flow type (view x)) (h : Finished flow (view x)) {es : List Event}
    (spares : ∀ e ∈ es, e.SparesRecord flow) : Finished flow (view (run x es)) := by
  induction es generalizing x with
  | nil => exact h
  | cons e es ih =>
    have spared := spares e List.mem_cons_self
    exact ih (coherent.happen spared) (h.happen coherent spared)
      fun e' he' => spares e' (List.mem_cons_of_mem _ he')

/-- A flow that has succeeded cannot be started, paused or resumed. -/
theorem Finished.refuses {x : Driver × Services} {flow : FlowId} (drives : x.1.flow = flow)
    (h : Finished flow (view x)) (now : Nat) :
    (x.1.start x.2 now).1 = .error (.invalidState (.notCreated flow .completed)) ∧
    (x.1.pause x.2 now).1 = .error (.invalidState (.cannotPause flow .completed)) ∧
    ∃ e, (x.1.resume x.2 now).1 = .error e := by
  have state : x.1.record.state = .completed := h.state
  refine ⟨?_, ?_, ?_⟩
  · simp [start, state, drives]
  · simp [pause, state, drives]
  · obtain ⟨r, hstored, hstate, hresult⟩ := h.stored
    cases ok : (x.1.resume x.2 now).1 with
    | error e => exact ⟨e, rfl⟩
    | ok u =>
      subst drives
      have free := (resume_ok hstored ok).1.free
      simp [resumeFault?_of_success _ hstate hresult] at free

/-- **The life of a flow.**  A flow was created, anything at all has happened to its driver, and
nobody else has changed its stored record; saves and lock calls may have failed.

* Whatever happens next, its state in memory stays the same, or a start takes it from created to
  running, or it is paused or completes while it is running, or a resume takes it from paused or
  completed to running.
* A completed flow has a result that is known.
* If no save has failed and the flow has succeeded, then whatever happens later, failed saves
  included, it stays so, and to start, pause or resume it is refused. -/
theorem lifecycle {w w' : World} {definition : Definition} {source : Nat} {d : Driver}
    (created : w.create definition source = (.ok d, w')) (es : List Event)
    (spares : ∀ e ∈ es, e.SparesRecord d.flow) (x : Driver × Services)
    (hx : run (d, w'.services) es = x) :
    (∀ e, Passage e x.1.record.state (happen x e).1.record.state) ∧
    (x.1.record.state = .completed → x.1.record.result ≠ .unknown) ∧
    (AllSaved (d, w'.services) es → x.1.record.state = .completed → x.1.record.result = .success →
      ∀ fs, (∀ e ∈ fs, e.SparesRecord d.flow) → ∀ y, run x fs = y →
        y.1.record.state = .completed ∧ y.1.record.result = .success ∧
        ∀ now, (y.1.start y.2 now).1 = .error (.invalidState (.notCreated d.flow .completed)) ∧
          (y.1.pause y.2 now).1 = .error (.invalidState (.cannotPause d.flow .completed)) ∧
          ∃ e, (y.1.resume y.2 now).1 = .error e) := by
  subst hx
  have mirrored := create_mirrored created
  have coherent := mirrored.coherent.run spares
  refine ⟨coherent.passage, coherent.final, fun saved state result fs spared y hy => ?_⟩
  subst hy
  have finished : Finished d.flow (view (run (d, w'.services) es)) :=
    ⟨state, result, _, (mirrored.run spares saved).stored, state, result⟩
  have later := finished.run coherent spared
  exact ⟨later.state, later.result, later.refuses (coherent.run spared).drives⟩

/-- A flow that has succeeded, and then is put on its step and paused, whose saves have failed by
then. -/
theorem lifecycle_solo : ∃ d w' x y,
    (World.ofPlan (3 < ·)).create (.solo completesFlow) 0 = (.ok d, w') ∧
    run (d, w'.services) [.move 0 .start, .move 0 (.proceed 0), .move 0 (.proceed 0)] = x ∧
    run x [.move 1 (.moveTo "solo"), .move 2 .pause, .move 3 .resume] = y ∧
    Passage (.move 1 .resume) x.1.record.state (happen x (.move 1 .resume)).1.record.state ∧
    x.1.record.result ≠ .unknown ∧ y.2.saving.calls = 4 ∧
    y.1.record.state = .completed ∧ y.1.record.result = .success ∧
    ∃ e, (y.1.resume y.2 4).1 = .error e := by
  have created : (World.ofPlan (3 < ·)).create (.solo completesFlow) 0 = (.ok _, _) := rfl
  obtain ⟨passage, final, success⟩ := lifecycle created
    [.move 0 .start, .move 0 (.proceed 0), .move 0 (.proceed 0)] (by simp [Event.SparesRecord])
    _ rfl
  obtain ⟨state, result, refuses⟩ := success
    (.cons (not_failsToSave rfl)
      (.cons (not_failsToSave rfl) (.cons (not_failsToSave rfl) trivial))) rfl rfl
    [.move 1 (.moveTo "solo"), .move 2 .pause, .move 3 .resume] (by simp [Event.SparesRecord])
    _ rfl
  exact ⟨_, _, _, _, created, rfl, rfl, passage _, final rfl, rfl, state, result, (refuses 4).2.2⟩

end Driver

end Workflow
