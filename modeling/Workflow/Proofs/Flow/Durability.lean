import Workflow.Proofs.Flow.Writes

/-!
# Workflow.Proofs.Flow.Durability — the stored record is the one in memory

As long as nobody else writes the record of a flow and no save fails, the store has the record that
its driver has in memory, after every critical section (`Mirrored.run`).  So whoever resumes the
flow, this driver or one that is loaded after a crash, goes on from exactly there (`durability`).
-/

namespace Workflow

namespace Driver

/-! ### Saves that fail -/

/-- A driver saves a record in an event, and the save fails. -/
def FailsToSave (x : Driver × Services) (e : Event) : Prop :=
  e.IsOwn ∧ (happen x e).2.saving.calls ≠ x.2.saving.calls ∧ x.2.saving.call.1 = true

theorem not_failsToSave {x : Driver × Services} {e : Event} (works : x.2.saving.call.1 = false) :
    ¬ FailsToSave x e :=
  fun ⟨_, _, fails⟩ => Bool.false_ne_true (works.symm.trans fails)

/-- No save fails in a run. -/
def AllSaved (x : Driver × Services) : List Event → Prop
  | [] => True
  | e :: es => ¬ FailsToSave x e ∧ AllSaved (happen x e) es

theorem AllSaved.cons {x : Driver × Services} {e : Event} {es : List Event}
    (saved : ¬ FailsToSave x e) (rest : AllSaved (happen x e) es) : AllSaved x (e :: es) :=
  ⟨saved, rest⟩

/-- A save that does not fail is taken by the store. -/
theorem Writes.taken {x : Driver × Services} {e : Event} {Yields : Record → Prop}
    (writes : Writes Yields (view x) (view (happen x e))) (own : e.IsOwn)
    (saved : ¬ FailsToSave x e) : view (happen x e) = view x ∨
      ∃ r, Yields r ∧ x.2.saving.call.1 = false ∧ view (happen x e) = (view x).save r := by
  generalize hv : view (happen x e) = v' at writes
  cases writes with
  | leaves => exact .inl rfl
  | @saves r hr =>
    refine .inr ⟨r, hr, ?_, rfl⟩
    have counted : (happen x e).2.saving.calls = x.2.saving.calls + 1 :=
      congrArg (·.saving.calls) hv
    cases fails : x.2.saving.call.1 with
    | false => rfl
    | true => exact absurd ⟨own, by omega, fails⟩ saved

/-! ### Memory and store -/

/-- The store has the record that is in memory. -/
structure Mirrored (flow : FlowId) (type : String) (v : View) : Prop where
  coherent : Coherent flow type v
  stored : v.store.find? flow = some v.record

theorem Mirrored.happen {x : Driver × Services} {flow : FlowId} {type : String}
    (h : Mirrored flow type (view x)) {e : Event} (spares : e.SparesRecord flow)
    (saved : ¬ FailsToSave x e) : Mirrored flow type (view (happen x e)) := by
  have coherent := h.coherent.happen spares
  refine ⟨coherent, ?_⟩
  rcases e.own_or_outside with own | ⟨change, rfl⟩
  · rcases (happen_writes h.coherent.known own).taken own saved with same | ⟨r, hr, works, heq⟩
    · exact same ▸ h.stored
    · rw [heq, View.find?_save ((hr.admitted h.coherent).own.trans h.coherent.own)]
      exact if_neg (by simpa [view] using works)
  · exact (spares x.2).trans h.stored

theorem Mirrored.run {x : Driver × Services} {flow : FlowId} {type : String}
    (h : Mirrored flow type (view x)) {es : List Event}
    (spares : ∀ e ∈ es, e.SparesRecord flow) (saved : AllSaved x es) :
    Mirrored flow type (view (run x es)) := by
  induction es generalizing x with
  | nil => exact h
  | cons e es ih =>
    exact ih (h.happen (spares e List.mem_cons_self) saved.1)
      (fun e' he' => spares e' (List.mem_cons_of_mem _ he')) saved.2

/-- A record that was saved is found. -/
theorem save_ok {s s' : Services} {r : Record} (h : s.save r = (.ok (), s')) :
    s'.store.find? r.flow = some r := by
  unfold Services.save at h
  simp only at h
  split at h
  · cases h
  · cases h
    exact find?_save s.store r

/-- The record of a flow that was just created is stored. -/
theorem create_mirrored {w w' : World} {definition : Definition} {source : Nat} {d : Driver}
    (h : w.create definition source = (.ok d, w')) :
    Mirrored d.flow definition.flowType (view (d, w'.services)) := by
  unfold World.create at h
  rcases hflow : w.services.nextFlow with ⟨flow, s⟩
  simp only [hflow] at h
  rcases hsave : s.save (Record.create flow definition.flowType w.instant) with ⟨saved, s'⟩
  rw [hsave] at h
  cases saved with
  | error e => cases h
  | ok u =>
    cases h
    have found := save_ok hsave
    exact ⟨⟨rfl, rfl, rfl, rfl, ⟨_, found, rfl, rfl, id⟩, nofun⟩, found⟩

/-! ### Going on from the stored record -/

/-- Nothing stands in the way of a resume that finds this record. -/
structure Resumable (d : Driver) (s : Services) (stored : Record) : Prop where
  idle : d.lease = none ∧ d.active = none
  found : s.finding.call.1 = false
  free : resumeFault? d.flow stored = none
  leased : s.acquiring.call.1 = false ∧ s.locks.isHeld d.flow = false
  saved : s.saving.call.1 = false

/-- A resume succeeds unless something stands in its way, and then the flow runs on from this
record. -/
def ResumesFrom (d : Driver) (s : Services) (stored : Record) : Prop :=
  ∀ now, ((d.resume s now).1 = .ok () ↔ Resumable d s stored) ∧
    ((d.resume s now).1 = .ok () → (d.resume s now).2.1.record =
      { stored with
        state := .running
        result := .unknown
        currentStep := some (stored.currentStep.getD d.definition.firstStep)
        updatedAt := .ofVirtualMs now })

theorem find_ok_iff {s : Services} {flow : FlowId} :
    (∃ found, (s.find flow).1 = .ok found) ↔ s.finding.call.1 = false := by
  unfold Services.find Services.lookUp
  cases h : s.finding.call.1 <;> simp [h]

theorem find_of_works {s : Services} (works : s.finding.call.1 = false) (flow : FlowId) :
    s.find flow = (.ok (s.store.find? flow), { s with finding := s.finding.call.2 }) := by
  unfold Services.find Services.lookUp
  simp [works]

theorem acquire_ok_iff {s : Services} {flow : FlowId} :
    (∃ lease s', s.acquire flow = (.ok lease, s')) ↔
      s.acquiring.call.1 = false ∧ s.locks.isHeld flow = false := by
  unfold Services.acquire Locks.acquire
  cases h : s.acquiring.call.1 <;> cases h' : s.locks.isHeld flow <;> simp [h, h']

theorem persist_ok_iff {d : Driver} {s : Services} {now : Nat} :
    (d.persist s now).1 = .ok () ↔ s.saving.call.1 = false := by
  unfold persist Services.save
  simp only
  cases s.saving.call.1 with
  | false => exact ⟨fun _ => rfl, fun _ => rfl⟩
  | true => exact ⟨nofun, nofun⟩

/-- A resume that succeeds has met nothing in its way. -/
theorem resume_ok {d : Driver} {s : Services} {now : Nat} {stored : Record}
    (h : s.store.find? d.flow = some stored) (ok : (d.resume s now).1 = .ok ()) :
    Resumable d s stored ∧
      (d.resume s now).2.1.record = (d.resumedRecord stored).touch (.ofVirtualMs now) := by
  revert ok
  refine resume_rule d s now (fun _ => nofun) (fun _ _ _ _ => nofun) (fun _ _ _ _ _ => nofun) ?_
  intro stored' lease s' hl ha found free got saved
  obtain rfl : stored' = stored := Option.some.inj ((find_ok found).symm.trans h)
  have works := find_ok_iff.1 ⟨_, found⟩
  rw [find_of_works works] at got
  have side : s'.saving = s.saving := congrArg Prod.snd (acquire_storeSide got)
  have leased := acquire_ok_iff.1 ⟨lease, s', got⟩
  exact ⟨⟨⟨hl, ha⟩, works, free, leased, side ▸ persist_ok_iff.1 saved⟩, rfl⟩

/-- A resume with nothing in its way succeeds. -/
theorem Resumable.resume_ok {d : Driver} {s : Services} {stored : Record}
    (able : Resumable d s stored) (h : s.store.find? d.flow = some stored) (now : Nat) :
    (d.resume s now).1 = .ok () := by
  obtain ⟨⟨hl, ha⟩, works, free, leased, saved⟩ := able
  obtain ⟨lease, s', got⟩ :=
    (@acquire_ok_iff { s with finding := s.finding.call.2 } d.flow).2 leased
  have side : s'.saving = s.saving := congrArg Prod.snd (acquire_storeSide got)
  unfold resume resumeFound acquireLease
  simp only [hl, ha, find_of_works works, h, free, got, Option.isSome_none, Bool.or_self,
    Bool.false_eq_true, if_false]
  exact persist_ok_iff.2 (side ▸ saved)

theorem resumesFrom {d : Driver} {s : Services} {stored : Record}
    (h : s.store.find? d.flow = some stored) : d.ResumesFrom s stored := fun now =>
  ⟨⟨fun ok => (resume_ok h ok).1, fun able => able.resume_ok h now⟩, fun ok => (resume_ok h ok).2⟩

/-- A driver that is loaded has the stored record. -/
theorem load_of_works {w : World} {definition : Definition} {flow : FlowId} {stored : Record}
    (h : w.services.store.find? flow = some stored) (works : w.services.finding.call.1 = false)
    (type : stored.flowType = definition.flowType) (source : Nat) :
    ∃ w', w.load definition source flow = (.ok (.ofRecord definition source stored), w') ∧
      w'.services.store = w.services.store := by
  unfold World.load
  simp only [find_of_works works, h, type, ne_eq, not_true_eq_false, if_false]
  exact ⟨_, rfl, rfl⟩

/-- **Durability.**  A flow was created, anything at all has happened to its driver, and nobody else
has changed its stored record; lock and store calls may have failed.  Then the state that was made
known is that of the record in memory.  If no save has failed, the store has the record in memory,
and so

* a resume by the driver succeeds unless something stands in its way, and the flow runs on from the
  driver's record;
* another driver of the same type that is loaded has the same record, and it likewise resumes from
  there, whatever has become of the locks. -/
theorem durability {w w' : World} {definition : Definition} {source : Nat} {d : Driver}
    (created : w.create definition source = (.ok d, w')) (es : List Event)
    (spares : ∀ e ∈ es, e.SparesRecord d.flow) (x : Driver × Services)
    (hx : run (d, w'.services) es = x) :
    x.1.published = x.1.record.state ∧
    (AllSaved (d, w'.services) es →
      x.2.store.find? d.flow = some x.1.record ∧
      x.1.ResumesFrom x.2 x.1.record ∧
      ∀ (later : World) (definition' : Definition) (source' : Nat),
        later.services.store = x.2.store → later.services.finding.call.1 = false →
        definition'.flowType = definition.flowType →
        ∃ d' later', later.load definition' source' d.flow = (.ok d', later') ∧
          d'.record = x.1.record ∧
          ∀ s, s.store = later'.services.store → d'.ResumesFrom s x.1.record) := by
  subst hx
  have mirrored := create_mirrored created
  have coherent := mirrored.coherent.run spares
  refine ⟨coherent.known, fun saved => ?_⟩
  have stored : (run (d, w'.services) es).2.store.find? d.flow =
      some (run (d, w'.services) es).1.record := (mirrored.run spares saved).stored
  have drives : (run (d, w'.services) es).1.flow = d.flow := coherent.drives
  refine ⟨stored, resumesFrom (drives ▸ stored),
    fun later definition' source' same works type => ?_⟩
  have found : later.services.store.find? d.flow = some (run (d, w'.services) es).1.record :=
    same ▸ stored
  obtain ⟨later', loaded, kept⟩ :=
    load_of_works found works (coherent.typed.trans type.symm) source'
  have own : (run (d, w'.services) es).1.record.flow = d.flow := coherent.own
  refine ⟨_, later', loaded, rfl, fun s hs => resumesFrom ?_⟩
  change s.store.find? (run (d, w'.services) es).1.record.flow = _
  rw [hs, kept, own]
  exact found

/-- A step that pauses the flow. -/
def pausesFlow : Nat → StepContext → StepWork := fun _ _ =>
  .atOnce (.plain (.ok (.park .paused .unknown none)))

/-- A flow that is created, started and paused by its step is stored so, and resumes. -/
theorem durability_paused : ∃ d w' x,
    World.empty.create (.solo pausesFlow) 0 = (.ok d, w') ∧
    run (d, w'.services) [.move 0 .start, .move 0 (.proceed 0), .move 0 (.proceed 0)] = x ∧
    x.1.published = .paused ∧ x.2.store.find? d.flow = some x.1.record ∧
    (x.1.resume x.2 5).1 = .ok () ∧
    ∃ d' later', World.load ⟨5, x.2, []⟩ (.solo pausesFlow) 0 d.flow = (.ok d', later') ∧
      d'.record = x.1.record := by
  have created : World.empty.create (.solo pausesFlow) 0 = (.ok _, _) := rfl
  obtain ⟨known, durable⟩ := durability created
    [.move 0 .start, .move 0 (.proceed 0), .move 0 (.proceed 0)] (by simp [Event.SparesRecord])
    _ rfl
  obtain ⟨stored, resumes, loads⟩ := durable
    (.cons (not_failsToSave rfl)
      (.cons (not_failsToSave rfl) (.cons (not_failsToSave rfl) trivial)))
  have able := (resumes 5).1.2 ⟨⟨rfl, rfl⟩, rfl, rfl, ⟨rfl, rfl⟩, rfl⟩
  obtain ⟨d', later', loaded, same, -⟩ := loads ⟨5, _, []⟩ (.solo pausesFlow) 0 rfl rfl rfl
  exact ⟨_, _, _, created, rfl, known, stored, able, d', later', loaded, same⟩

end Driver

end Workflow
