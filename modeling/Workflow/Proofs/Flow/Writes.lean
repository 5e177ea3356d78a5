import Workflow.Proofs.Flow.Run

/-!
# Workflow.Proofs.Flow.Writes — what each critical section makes of the record

Whatever a driver does to its record it does in one of two ways: it leaves the record, the state
that it has made known and the store as they are, or it saves a new record, which is then the one in
memory, and makes the state of that one known even if the save has failed (`happen_revises`).
`Revision` lists the new records; each is the old one revised, except that a resume takes it from
the store.
-/

namespace Workflow

namespace Record

/-- The same flow, with nothing forgotten of what was completed or logged. -/
structure Extends (r r' : Record) : Prop where
  flow : r'.flow = r.flow
  flowType : r'.flowType = r.flowType
  completed : r.completedSteps <+: r'.completedSteps
  log : r.log <+: r'.log

namespace Extends

theorem refl (r : Record) : r.Extends r :=
  ⟨rfl, rfl, List.prefix_refl _, List.prefix_refl _⟩

theorem trans {r r' r'' : Record} (h : r.Extends r') (h' : r'.Extends r'') : r.Extends r'' :=
  ⟨h'.flow.trans h.flow, h'.flowType.trans h.flowType, h.completed.trans h'.completed,
    h.log.trans h'.log⟩

variable {r r' : Record} (h : r.Extends r')
include h

/-- Any change that touches neither the flow nor what was completed or logged. -/
theorem congr {r'' : Record} (flow : r''.flow = r'.flow) (flowType : r''.flowType = r'.flowType)
    (completed : r''.completedSteps = r'.completedSteps) (log : r''.log = r'.log) : r.Extends r'' :=
  ⟨flow.trans h.flow, flowType.trans h.flowType, completed ▸ h.completed, log ▸ h.log⟩

theorem touch (now : Instant) : r.Extends (r'.touch now) := h.congr rfl rfl rfl rfl

theorem start (first : String) : r.Extends (r'.start first) := h.congr rfl rfl rfl rfl

theorem advanceTo (step : String) : r.Extends (r'.advanceTo step) := h.congr rfl rfl rfl rfl

theorem pause : r.Extends r'.pause := h.congr rfl rfl rfl rfl

theorem complete (result : FlowResult) : r.Extends (r'.complete result) := h.congr rfl rfl rfl rfl

theorem setResult (result : FlowResult) : r.Extends (r'.setResult result) :=
  h.congr rfl rfl rfl rfl

theorem recordError (step message : String) (cause : Option String) :
    r.Extends (r'.recordError step message cause) := h.congr rfl rfl rfl rfl

theorem recordTask (step : String) (task : TaskId) : r.Extends (r'.recordTask step task) :=
  h.congr rfl rfl rfl rfl

theorem saveResult (step : String) (result : TaskResult) : r.Extends (r'.saveResult step result) :=
  h.congr rfl rfl rfl rfl

theorem markCompleted (step : String) : r.Extends (r'.markCompleted step) := by
  unfold Record.markCompleted
  split
  · exact h
  · exact ⟨h.flow, h.flowType, h.completed.trans (List.prefix_append ..), h.log⟩

theorem appendLog (step : String) (task : Option TaskId) (entries : List LogEntry) (at_ : Instant) :
    r.Extends (r'.appendLog step task entries at_) := by
  unfold Record.appendLog
  split
  · exact h
  · exact ⟨h.flow, h.flowType, h.completed, h.log.trans (List.prefix_append ..)⟩

end Extends

/-- What a section that does not enter the flow makes of its state and result. -/
inductive Passes (r r' : Record) : Prop
  | keeps (state : r'.state = r.state) (result : r'.result = r.result)
  | runsOn (before : r.state = .running) (after : r'.state = .running)
  | pauses (before : r.state = .running) (after : r'.state = .paused)
  | completes (before : r.state = .running) (after : r'.state = .completed)
    (known : r'.result ≠ .unknown)

/-- A record as a section that does not enter the flow revises it. -/
structure Revised (r r' : Record) : Prop extends Extends r r' where
  passes : r.Passes r'

theorem Revised.touch {r r' : Record} (h : r.Revised r') (now : Instant) :
    r.Revised (r'.touch now) := by
  refine ⟨h.toExtends.touch now, ?_⟩
  cases h.passes with
  | keeps state result => exact .keeps state result
  | runsOn before after => exact .runsOn before after
  | pauses before after => exact .pauses before after
  | completes before after known => exact .completes before after known

end Record

namespace Driver

/-! ### Edges, errors and updates -/

section Revised

variable (d : Driver) (now : Instant) (step : String)

theorem logStep_extends (entries : List LogEntry) :
    d.record.Extends (d.logStep now step entries).record := by
  unfold logStep
  split
  · exact (Record.Extends.refl _).appendLog ..
  · exact .refl _

theorem logStep_result (entries : List LogEntry) :
    (d.logStep now step entries).record.result = d.record.result := by
  unfold logStep
  split
  · simp only [onRecord, Record.appendLog]
    split <;> rfl
  · rfl

theorem logStep_revised (entries : List LogEntry) :
    d.record.Revised (d.logStep now step entries).record :=
  ⟨logStep_extends .., .keeps (logStep_state ..) (logStep_result ..)⟩

/-- A launch after some log lines. -/
theorem launch_revised (entries : List LogEntry) (at_ : Nat) (l : StepLaunch) :
    d.record.Revised ((d.logStep now step entries).launch at_ step l).record :=
  ⟨(logStep_extends ..).trans (logStep_extends (d.logStep now step entries).nextEpoch ..),
    .keeps ((launch_state ..).trans (logStep_state ..))
      ((logStep_result (d.logStep now step entries).nextEpoch ..).trans (logStep_result ..))⟩

theorem finalResult_ne_unknown (r : FlowResult) : finalResult r ≠ .unknown := by
  cases r <;> simp [finalResult]

theorem edgeRecord_extends (t : Transition) : d.record.Extends (d.edgeRecord now step t) := by
  have logged : d.record.Extends
      (if d.keepsLog step then d.record.appendLog step none t.log now else d.record) := by
    split
    · exact (Record.Extends.refl _).appendLog ..
    · exact .refl _
  have completed : ∀ r, d.record.Extends r →
      d.record.Extends (if d.completes step then r.markCompleted step else r) := by
    intro r h
    split
    · exact h.markCompleted step
    · exact h
  unfold edgeRecord
  cases t.result with
  | none =>
    cases t.target with
    | none => exact completed _ logged
    | some target => exact (completed _ logged).advanceTo target
  | some result =>
    cases t.target with
    | none => exact (completed _ logged).setResult result
    | some target => exact ((completed _ logged).setResult result).advanceTo target

variable {d} (running : d.record.state = .running)
include running

theorem routeError_revised (e : FlowError) :
    d.record.Revised (d.routeError now step e).record := by
  let noting := d.onRecord (·.recordError step e.message e.cause)
  have noted : d.record.Extends
      ((noting.logStep now step [⟨e.message, e.cause⟩]).record.setResult .failed) :=
    (((Record.Extends.refl _).recordError ..).trans (logStep_extends noting ..)).setResult _
  have state : (noting.logStep now step [⟨e.message, e.cause⟩]).record.state = .running := by
    simpa [noting, onRecord] using running
  unfold routeError
  simp only
  split
  · exact ⟨noted.advanceTo _, .runsOn running state⟩
  · split
    · exact ⟨noted.complete _, .completes running rfl (by simp [onRecord, Record.complete])⟩
    · exact ⟨noted.pause, .pauses running rfl⟩

theorem takeEdge_revised (t : Transition) : d.record.Revised (d.takeEdge now step t).record := by
  have edge := edgeRecord_extends d now step t
  rw [takeEdge_eq]
  split
  · exact ⟨edge.complete _, .completes running rfl (finalResult_ne_unknown _)⟩
  · exact ⟨edge.pause, .pauses running rfl⟩
  · exact ⟨edge, .runsOn running ((edgeRecord_state ..).trans running)⟩

theorem applyDecision_revised (decision : Decision) :
    d.record.Revised (d.applyDecision now step decision).record := by
  cases decision with
  | error e => exact routeError_revised now step running e
  | ok t =>
    simp only [applyDecision, applyEdge]
    split
    · exact routeError_revised now step running _
    · exact takeEdge_revised now step running t

end Revised

/-- An update keeps the state and the result. -/
theorem applyUpdate_revised (d : Driver) (now : Instant) (step : String) (update : StepUpdate) :
    d.record.Revised (d.applyUpdate now step update).record := by
  have logged : ∀ (task : Option TaskId) (entries : List LogEntry) (r : Record),
      d.record.Extends r → d.record.Extends
        (if d.keepsLog step then r.appendLog step task entries now else r) := by
    intro task entries r h
    split
    · exact h.appendLog ..
    · exact h
  obtain ⟨r, hstate, -, heq⟩ := applyUpdate_eq d now step update
  have state : (d.applyUpdate now step update).record.state = d.record.state := by
    rw [heq]
    exact hstate
  cases update with
  | taskCreated task =>
    exact ⟨((Record.Extends.refl _).recordTask step task).touch now, .keeps rfl rfl⟩
  | taskResult r entries =>
    exact ⟨(logged _ _ _ ((Record.Extends.refl _).saveResult step r)).touch now,
      .keeps state (applyUpdate_result d now step (.taskResult r entries))⟩
  | log task entries =>
    exact ⟨(logged _ _ _ (.refl _)).touch now,
      .keeps state (applyUpdate_result d now step (.log task entries))⟩

/-! ### Saving -/

/-- What can be seen of a flow: whose it is, the record in memory, the state that was made known,
and the store with its outage. -/
structure View where
  flow : FlowId
  record : Record
  published : FlowState
  store : Store
  saving : Outage

/-- What a driver shows. -/
def view (x : Driver × Services) : View :=
  ⟨x.1.flow, x.1.record, x.1.published, x.2.store, x.2.saving⟩

/-- A record is saved, if the store takes it, and made known. -/
def View.save (v : View) (r : Record) : View :=
  ⟨v.flow, r, r.state, if v.saving.call.1 then v.store else v.store.save r, v.saving.call.2⟩

/-- Nothing is written, or a new record is. -/
inductive Writes (Yields : Record → Prop) (v : View) : View → Prop
  | leaves : Writes Yields v v
  | saves {r : Record} (h : Yields r) : Writes Yields v (v.save r)

/-- The store with the outage of its saves. -/
def storeSide (s : Services) : Store × Outage := (s.store, s.saving)

theorem find_storeSide (s : Services) (flow : FlowId) :
    storeSide (s.find flow).2 = storeSide s := by
  unfold Services.find Services.lookUp
  simp only
  split <;> rfl

theorem acquire_storeSide {s s' : Services} {flow : FlowId} {got : Except LockError Lease}
    (h : s.acquire flow = (got, s')) : storeSide s' = storeSide s := by
  unfold Services.acquire at h
  simp only at h
  split at h <;> cases h <;> rfl

theorem release_storeSide (s : Services) (lease : Lease) :
    storeSide (s.release lease).2 = storeSide s := by
  unfold Services.release
  simp only
  split <;> rfl

theorem Leased.storeSide {d : Driver} {s s' : Services} {lease : Lease} (h : Leased d s lease s') :
    storeSide s' = Driver.storeSide s := by
  cases h with
  | had => rfl
  | given _ got => exact acquire_storeSide got

/-- Two views are equal if the drivers agree on the flow, its record and the state made known. -/
theorem view_congr {d d' : Driver} {s s' : Services} (flow : d'.flow = d.flow)
    (record : d'.record = d.record) (published : d'.published = d.published)
    (side : storeSide s' = storeSide s) : view (d', s') = view (d, s) := by
  obtain ⟨hstore, hsaving⟩ := Prod.mk.inj side
  simp only [view, flow, record, published, hstore, hsaving]

section View

variable (d : Driver) (s : Services)

theorem persist_view (now : Nat) :
    view (d.persist s now).2 = (view (d, s)).save (d.record.touch (.ofVirtualMs now)) := by
  unfold persist Services.save
  simp only [onRecord]
  cases h : s.saving.call.1 <;> simp [view, View.save, h]

theorem releaseLease_view : view (d.releaseLease s) = view (d, s) := by
  unfold releaseLease
  split
  · exact view_congr rfl rfl rfl (release_storeSide ..)
  · rfl

theorem settle_view : view (d.settle s) = view (d, s) :=
  releaseLease_view { d with watchdog := none } s

theorem carryOn_view (now : Nat) :
    view (d.carryOn s now).2 = (view (d, s)).save (d.record.touch (.ofVirtualMs now)) := by
  rw [← persist_view]
  exact carryOn_rule d s now (fun _ _ => rfl) (fun _ _ => rfl) (fun _ _ => settle_view ..)

end View

/-- A driver that has changed saves its record; the flow and the store are the same as before. -/
theorem save_writes {Yields : Record → Prop} {d d' : Driver} {s s' : Services}
    (flow : d'.flow = d.flow) (side : storeSide s' = storeSide s) {r : Record} (h : Yields r) :
    Writes Yields (view (d, s)) ((view (d', s')).save r) := by
  obtain ⟨hstore, hsaving⟩ := Prod.mk.inj side
  have heq : (view (d', s')).save r = (view (d, s)).save r := by
    unfold View.save view
    simp only
    rw [flow, hstore, hsaving]
  exact heq ▸ .saves h

/-! ### Sections -/

theorem retired_published (d : Driver) : d.retired.published = d.published := by
  unfold retired abortActive
  split <;> rfl

/-- The record that an event may save, for each way of changing it: entering the flow, stopping it,
putting it on a step, an edge or an error, log lines with or without a launch, and an update. -/
inductive Revision (x : Driver × Services) : Event → Record → Prop
  | starts {now : Nat} (created : x.1.record.state = .created) :
    Revision x (.move now .start)
      ((x.1.record.start x.1.definition.firstStep).touch (.ofVirtualMs now))
  | resumes {now : Nat} {stored : Record} (lease : x.1.lease = none) (active : x.1.active = none)
    (found : x.2.store.find? x.1.flow = some stored) (free : resumeFault? x.1.flow stored = none) :
    Revision x (.move now .resume) ((x.1.resumedRecord stored).touch (.ofVirtualMs now))
  | pauses {now : Nat} (running : x.1.record.state = .running) :
    Revision x (.move now .pause) (x.1.record.pause.touch (.ofVirtualMs now))
  | moves {now : Nat} {step : String} (known : x.1.definition.hasStep step)
    (stopped : x.1.record.state ≠ .running) :
    Revision x (.move now (.moveTo step)) ((x.1.record.advanceTo step).touch (.ofVirtualMs now))
  | decides {e : Event} {now epoch : Nat} {step : String} {decision : Decision} {d : Driver}
    (brought : Brings x e epoch step decision) (current : x.1.epoch = epoch)
    (running : x.1.record.state = .running) (definition : d.definition = x.1.definition)
    (record : d.record = x.1.record) : Revision x e
      ((d.applyDecision (.ofVirtualMs now) step decision).record.touch (.ofVirtualMs now))
  | waits {now i : Nat} {step : String} {log : List LogEntry}
    (running : x.1.record.state = .running) :
    Revision x (.move now (.proceed i))
      ((x.1.logStep (.ofVirtualMs now) step log).record.touch (.ofVirtualMs now))
  | launches {now i : Nat} {step : String} {log : List LogEntry} {l : StepLaunch}
    (running : x.1.record.state = .running) :
    Revision x (.move now (.proceed i))
      (((x.1.logStep (.ofVirtualMs now) step log).launch now step l).record.touch
        (.ofVirtualMs now))
  | updates {e : Event} {now epoch : Nat} {step : String} {update : StepUpdate}
    (reported : Reports x e epoch step update) :
    Revision x e (x.1.applyUpdate (.ofVirtualMs now) step update).record
  | expires {now : Nat} (running : x.1.record.state = .running) :
    Revision x (.move now .expire) (((x.1.record.recordError (x.1.record.currentStep.getD "")
      x.1.deadlineMessage none).complete .timeout).touch (.ofVirtualMs now))

/-- The records that an event may save: that of a flow that starts, that of a stored flow that is
resumed, or else a revision of the one in memory. -/
def Yields (x : Driver × Services) : Event → Record → Prop
  | .move now .start, r => x.1.record.state = .created ∧
    r = (x.1.record.start x.1.definition.firstStep).touch (.ofVirtualMs now)
  | .move now .resume, r => ∃ stored, x.1.lease = none ∧ x.1.active = none ∧
    x.2.store.find? x.1.flow = some stored ∧ resumeFault? x.1.flow stored = none ∧
    r = (x.1.resumedRecord stored).touch (.ofVirtualMs now)
  | _, r => x.1.record.Revised r

theorem find_ok {s : Services} {flow : FlowId} {found : Option Record}
    (h : (s.find flow).1 = .ok found) : s.store.find? flow = found := by
  unfold Services.find Services.lookUp at h
  simp only at h
  split at h
  · cases h
  · exact Except.ok.inj h

/-- A record that an event may save is that of an entry, or a revision. -/
theorem Revision.yields {x : Driver × Services} {e : Event} {r : Record} (h : Revision x e r) :
    Yields x e r := by
  cases h with
  | starts created => exact ⟨created, rfl⟩
  | resumes lease active found free => exact ⟨_, lease, active, found, free, rfl⟩
  | pauses running =>
    exact Record.Revised.touch ⟨(Record.Extends.refl _).pause, .pauses running rfl⟩ _
  | moves =>
    exact Record.Revised.touch ⟨(Record.Extends.refl _).advanceTo _, .keeps rfl rfl⟩ _
  | @decides _ now epoch step decision d brought _ running _ record =>
    have revised : x.1.record.Revised ((d.applyDecision (.ofVirtualMs now) step
        decision).record.touch (.ofVirtualMs now)) := by
      rw [← record] at running ⊢
      exact (applyDecision_revised _ _ running _).touch _
    cases brought <;> exact revised
  | waits => exact (logStep_revised ..).touch _
  | launches => exact (launch_revised ..).touch _
  | @updates _ now _ step update reported =>
    have revised := applyUpdate_revised x.1 (.ofVirtualMs now) step update
    cases reported <;> exact revised
  | expires running =>
    exact Record.Revised.touch ⟨((Record.Extends.refl _).recordError ..).complete _,
      .completes running rfl (by simp [Record.complete])⟩ _

theorem Writes.mono {Yields Yields' : Record → Prop} {v v' : View} (h : Writes Yields v v')
    (le : ∀ r, Yields r → Yields' r) : Writes Yields' v v' := by
  cases h with
  | leaves => exact .leaves
  | saves hr => exact .saves (le _ hr)

section Sections

variable (d : Driver) (s : Services) (now : Nat)

theorem start_writes :
    Writes (Revision (d, s) (.move now .start)) (view (d, s)) (view (d.start s now).2) := by
  refine start_rule d s now (fun _ => .leaves) ?_ ?_
  · intro e s' _ _ got
    exact view_congr rfl rfl rfl (acquire_storeSide got) ▸ .leaves
  · intro lease s' created leased
    rw [persist_view]
    exact save_writes rfl leased.storeSide (.starts created)

theorem resume_writes :
    Writes (Revision (d, s) (.move now .resume)) (view (d, s)) (view (d.resume s now).2) := by
  refine resume_rule d s now (fun _ => .leaves) ?_ ?_ ?_
  · intro e _ _ _
    exact view_congr rfl rfl rfl (find_storeSide ..) ▸ .leaves
  · intro e s' _ _ got
    exact view_congr rfl rfl rfl ((acquire_storeSide got).trans (find_storeSide ..)) ▸ .leaves
  · intro stored lease s' hl ha found free got
    rw [persist_view]
    exact save_writes rfl ((acquire_storeSide got).trans (find_storeSide ..))
      (.resumes hl ha (find_ok found) free)

theorem pause_writes :
    Writes (Revision (d, s) (.move now .pause)) (view (d, s)) (view (d.pause s now).2) := by
  refine pause_rule d s now (fun _ => .leaves) (fun _ _ => .leaves) fun running => ?_
  rw [settle_view]
  refine (persist_view (d.stopped .pause) s now).symm ▸ save_writes (stopped_flow ..) rfl ?_
  rw [stopped_record]
  exact .pauses running

theorem moveTo_writes (step : String) : Writes (Revision (d, s) (.move now (.moveTo step)))
    (view (d, s)) (view (d.moveTo s now step).2) := by
  refine moveTo_rule d s now step (fun _ => .leaves) fun known stopped => ?_
  rw [persist_view]
  exact save_writes rfl rfl (.moves known stopped)

theorem look_view : view (d, (d.look s now).2) = view (d, s) := by
  refine look_rule d s now (fun _ => rfl) (fun _ _ _ => rfl) fun _ _ _ _ _ _ hs => ?_
  rw [hs]
  rfl

/-- A decision about the current epoch that takes effect, perhaps on a driver that has changed in
other ways, is saved. -/
theorem applyDecision_writes {x : Driver × Services} {e : Event} {epoch : Nat} {step : String}
    {decision : Decision} (brought : Brings x e epoch step decision) (current : x.1.epoch = epoch)
    (running : x.1.record.state = .running) {d : Driver} {s : Services}
    (definition : d.definition = x.1.definition) (flow : d.flow = x.1.flow)
    (record : d.record = x.1.record) (side : storeSide s = storeSide x.2) :
    Writes (Revision x e) (view x)
      (view ((d.applyDecision (.ofVirtualMs now) step decision).carryOn s now).2) := by
  have routed := applyDecision_routed (.ofVirtualMs now) step decision (record ▸ running)
  rw [carryOn_view]
  exact save_writes (routed.flow.trans flow) side
    (.decides brought current running definition record)

theorem conclude_writes {i : Nat} {e : Execution} (executing : d.requests[i]? = some (.executing e))
    (due : e.due ≤ now) : Writes (Revision (d, s) (.move now (.proceed i))) (view (d, s))
      (view (d.conclude s now e).2) := by
  have side : ∀ s' : Services, s' = { s with ids := s'.ids } → storeSide s' = storeSide s := by
    intro s' hs
    rw [hs]
    rfl
  refine conclude_rule d s now e ?_ ?_ ?_ ?_
  · -- the answer is dropped
    intro s' _ hs
    exact view_congr rfl rfl rfl (side s' hs) ▸ .leaves
  · -- it is an edge or an error
    intro decision s' current running hs decides
    exact applyDecision_writes now (.answer executing due decides) current running rfl rfl rfl
      (side s' hs)
  · -- the step waits, with nothing launched
    rintro log s' d' _ running hs _ rfl
    rw [releaseLease_view, persist_view]
    exact save_writes (by rw [logStep_eq]; rfl) (side s' hs) (.waits running)
  · -- it waits for what it has launched
    rintro log l s' d' _ running hs _ rfl
    rw [releaseLease_view, persist_view]
    exact save_writes (by rw [launch_flow, logStep_eq]; rfl) (side s' hs) (.launches running)

theorem proceed_writes (i : Nat) :
    Writes (Revision (d, s) (.move now (.proceed i))) (view (d, s)) (view (d.proceed s now i)) := by
  unfold proceed
  split
  · exact (look_view d s now).symm ▸ .leaves
  · split
    · exact conclude_writes d s now ‹_› ‹_›
    · exact .leaves
  · exact .leaves

theorem saveUpdate_writes (known : d.published = d.record.state) {e : Event} {epoch : Nat}
    {step : String} {update : StepUpdate} (reported : Reports (d, s) e epoch step update) :
    Writes (Revision (d, s) e) (view (d, s))
      (view (d.saveUpdate s now epoch step update).2) := by
  unfold saveUpdate
  split
  · exact .leaves
  · have revised := @Revision.updates (d, s) e now epoch step update reported
    obtain ⟨r, hstate, -, heq⟩ := applyUpdate_eq d (.ofVirtualMs now) step update
    rw [heq] at revised ⊢
    -- nothing is made known, but the state stays the same
    have saved : view ({ d with record := r }, (s.save r).2) = (view (d, s)).save r := by
      unfold Services.save
      simp only
      cases h : s.saving.call.1 <;> simp [view, View.save, h, known, hstate]
    exact saved ▸ .saves revised

/-- A decision that an event brings to a driver, which may have taken note of it. -/
theorem decide_writes {x : Driver × Services} {e : Event} {epoch : Nat} {step : String}
    {decision : Decision} (brought : Brings x e epoch step decision) {d : Driver}
    (noted : d = { x.1 with activations := d.activations }) :
    Writes (Revision x e) (view x) (view (d.decide x.2 now epoch step decision)) := by
  have same : view (d, x.2) = view x := by
    rw [noted]
    rfl
  refine decide_rule d x.2 now epoch step decision (fun _ => same ▸ .leaves) ?_ ?_
  · -- the epoch is over, though no lease was got, and nothing is written
    intro e s' _ _ _ got
    have retired : view (d.retired, s') = view (d, x.2) :=
      view_congr (retired_flow d) (retired_record d) (retired_published d) (acquire_storeSide got)
    exact retired ▸ same ▸ .leaves
  · rintro lease s' d' current running leased rfl
    rw [noted] at current running
    refine applyDecision_writes now brought current running ?_ ?_ ?_ leased.storeSide
    · exact (retired_definition d).trans (by rw [noted])
    · exact (retired_flow d).trans (by rw [noted])
    · exact (retired_record d).trans (by rw [noted])

theorem expire_writes :
    Writes (Revision (d, s) (.move now .expire)) (view (d, s)) (view (d.expire s now)) := by
  refine expire_rule d s now (fun _ => .leaves) ?_
  intro d' running hd
  have flow : d'.flow = d.flow := by
    rw [hd]
    exact stopped_flow ..
  rw [releaseLease_view, persist_view]
  refine save_writes flow rfl ?_
  rw [hd, stopped_record]
  exact .expires running

theorem perform_writes (known : d.published = d.record.state) (move : Move) :
    Writes (Revision (d, s) (.move now move)) (view (d, s)) (view (d.perform s now move)) := by
  cases move with
  | start => exact start_writes d s now
  | resume => exact resume_writes d s now
  | pause => exact pause_writes d s now
  | moveTo step => exact moveTo_writes d s now step
  | proceed i => exact proceed_writes d s now i
  | work i => exact work_rule d s now i .leaves fun _ _ _ _ _ _ => .leaves
  | hear i => exact hear_rule d s now i .leaves fun _ _ _ _ => .leaves
  | save i =>
    refine save_rule d s now i .leaves ?_
    rintro a update rest r activation updates rfl
    exact saveUpdate_writes d s now known (.heard activation updates)
  | decide i =>
    exact tell_rule d s now i .leaves fun _ _ activation decides =>
      decide_writes now (.told (x := (d, s)) activation decides) rfl
  | expire =>
    simp only [perform]
    split
    · exact expire_writes d s now
    · exact .leaves

end Sections

/-- It is the driver that does something. -/
def Event.IsOwn (e : Event) : Prop := ∀ change, e ≠ .outside change

theorem Event.own_or_outside (e : Event) : e.IsOwn ∨ ∃ change, e = .outside change := by
  cases e with
  | outside change => exact .inr ⟨change, rfl⟩
  | _ => exact .inl nofun

/-- **Every event of a driver leaves what is known of its flow, or saves a record and makes it
known.**  The record is one of those of `Revision`. -/
theorem happen_revises {x : Driver × Services} (known : x.1.published = x.1.record.state)
    {e : Event} (own : e.IsOwn) : Writes (Revision x e) (view x) (view (happen x e)) := by
  cases e with
  | move now move => exact perform_writes x.1 x.2 now known move
  | update now i update =>
    simp only [happen]
    split
    · rename_i a activation
      exact saveUpdate_writes x.1 x.2 now known (.blue activation)
    · exact .leaves
  | decision now i decision =>
    simp only [happen]
    split
    · rename_i a activation
      exact decide_writes now (.blue activation) rfl
    · exact .leaves
  | outside change => exact absurd rfl (own change)

theorem happen_writes {x : Driver × Services} (known : x.1.published = x.1.record.state) {e : Event}
    (own : e.IsOwn) : Writes (Yields x e) (view x) (view (happen x e)) :=
  (happen_revises known own).mono fun _ => Revision.yields

/-! ### Runs -/

/-- Nobody else changes the stored record of the flow. -/
def Event.SparesRecord (flow : FlowId) : Event → Prop
  | .outside change => ∀ s, (change s).store.find? flow = s.store.find? flow
  | _ => True

/-- How the record in memory and the stored one belong together, whichever saves have failed. -/
structure Coherent (flow : FlowId) (type : String) (v : View) : Prop where
  drives : v.flow = flow
  own : v.record.flow = flow
  typed : v.record.flowType = type
  known : v.published = v.record.state
  /-- As long as the flow has not started in memory, no start of it was stored. -/
  stored : ∃ r, v.store.find? flow = some r ∧ r.flow = flow ∧
    r.flowType = type ∧ (v.record.state = .created → r.state = .created)
  final : v.record.state = .completed → v.record.result ≠ .unknown

theorem find?_save (s : Store) (r : Record) : (s.save r).find? r.flow = some r := by
  simp [Store.save, Store.find?]

theorem View.find?_save {v : View} {r : Record} {flow : FlowId} (own : r.flow = flow) :
    (v.save r).store.find? flow = if v.saving.call.1 then v.store.find? flow else some r := by
  subst own
  unfold View.save
  split
  · rfl
  · exact Driver.find?_save v.store r

/-- What a new record must be like to be saved. -/
structure View.Admits (v : View) (r : Record) : Prop where
  own : r.flow = v.record.flow
  flowType : r.flowType = v.record.flowType
  created : r.state = .created → v.record.state = .created
  final : r.state = .completed → r.result = v.record.result ∧ v.record.state = .completed ∨
    r.result ≠ .unknown

theorem Coherent.save {flow : FlowId} {type : String} {v : View} (h : Coherent flow type v)
    {r : Record} (admits : v.Admits r) : Coherent flow type (v.save r) := by
  have own : r.flow = flow := admits.own.trans h.own
  obtain ⟨r₀, hstored, hown, htype, hcreated⟩ := h.stored
  have typed : r.flowType = type := admits.flowType.trans h.typed
  refine ⟨h.drives, own, typed, rfl, ?_, fun completed => ?_⟩
  · rw [View.find?_save own]
    split
    · exact ⟨r₀, hstored, hown, htype, fun created => hcreated (admits.created created)⟩
    · exact ⟨r, rfl, own, typed, id⟩
  · rcases admits.final completed with ⟨same, before⟩ | known
    · exact same ▸ h.final before
    · exact known

theorem View.admits_of_revised {v : View} {r : Record} (h : v.record.Revised r) :
    v.Admits r := by
  refine ⟨h.flow, h.flowType, fun created => ?_, fun completed => ?_⟩
  · cases h.passes with
    | keeps state => exact state.symm.trans created
    | runsOn _ after => simp [after] at created
    | pauses _ after => simp [after] at created
    | completes _ after => simp [after] at created
  · cases h.passes with
    | keeps state result => exact .inl ⟨result, state.symm.trans completed⟩
    | runsOn _ after => simp [after] at completed
    | pauses _ after => simp [after] at completed
    | completes _ _ known => exact .inr known

theorem Yields.admitted {x : Driver × Services} {flow : FlowId} {type : String}
    (h : Coherent flow type (view x)) {e : Event} {r : Record} (hr : Yields x e r) :
    (view x).Admits r := by
  unfold Yields at hr
  split at hr
  · obtain ⟨-, rfl⟩ := hr
    exact ⟨rfl, rfl, nofun, nofun⟩
  · obtain ⟨stored, -, -, found, -, rfl⟩ := hr
    obtain ⟨r₀, hstored, hown, htype, -⟩ := h.stored
    have hflow : x.1.flow = flow := h.drives
    rw [hflow] at found
    obtain rfl : stored = r₀ := Option.some.inj (found.symm.trans hstored)
    exact ⟨hown.trans h.own.symm, htype.trans h.typed.symm, nofun, nofun⟩
  · exact View.admits_of_revised hr

/-- **Whatever happens, and whichever saves fail**, memory and store stay coherent. -/
theorem Coherent.happen {x : Driver × Services} {flow : FlowId} {type : String}
    (h : Coherent flow type (view x)) {e : Event} (spares : e.SparesRecord flow) :
    Coherent flow type (view (happen x e)) := by
  rcases e.own_or_outside with own | ⟨change, rfl⟩
  · have writes := happen_writes h.known own
    generalize view (Driver.happen x e) = v' at writes
    cases writes with
    | leaves => exact h
    | saves hr => exact h.save (hr.admitted h)
  · refine ⟨h.drives, h.own, h.typed, h.known, ?_, h.final⟩
    have same : (change x.2).store.find? flow = x.2.store.find? flow := spares x.2
    exact same.symm ▸ h.stored

theorem Coherent.run {x : Driver × Services} {flow : FlowId} {type : String}
    (h : Coherent flow type (view x)) {es : List Event} (spares : ∀ e ∈ es, e.SparesRecord flow) :
    Coherent flow type (view (run x es)) := by
  induction es generalizing x with
  | nil => exact h
  | cons e es ih =>
    exact ih (h.happen (spares e List.mem_cons_self))
      fun e' he' => spares e' (List.mem_cons_of_mem _ he')

end Driver

end Workflow
