import Workflow.Proofs.Flow.Graph
import Workflow.Proofs.Flow.Walking
import Mathlib.Logic.Relation

/-!
# Workflow.Proofs.Flow.Following — a flow without launched tasks follows its graph

One turn of a synchronous step does to the record what the graph says (`Hops`): it moves the flow to
the successor of the step, or ends it there, and it completes the step or notes its error.  So a
flow that nobody disturbs treads on one step of its walk after the other.  If the walk has an end,
the flow gets there, whatever the order of things, with each step of the walk executed once
(`OnTurn.settles_walk`); if it has none, the flow stays on it (`Walks.moves`).  `follows_graph` has
both.
-/

namespace Workflow

namespace Driver

/-! ### The last error -/

section LastError

variable (d : Driver) (now : Instant) (step : String)

/-- Log lines of a step do not change the last error. -/
theorem logged_lastError (r : Record) (entries : List LogEntry) :
    (if d.keepsLog step then r.appendLog step none entries now else r).lastError =
      r.lastError := by
  split
  · unfold Record.appendLog
    split <;> rfl
  · rfl

/-- An edge leaves the last error as it is. -/
theorem takeEdge_lastError (t : Transition) :
    (d.takeEdge now step t).record.lastError = d.record.lastError := by
  have completed (r : Record) :
      (if d.completes step then r.markCompleted step else r).lastError = r.lastError := by
    unfold Record.markCompleted
    split
    · split <;> rfl
    · rfl
  have edge : (d.edgeRecord now step t).lastError = d.record.lastError := by
    unfold edgeRecord
    cases t.target <;> cases t.result <;>
      exact (completed _).trans (logged_lastError d now step d.record t.log)
  rw [takeEdge_eq]
  split <;> exact edge

/-- An error is the last one. -/
theorem routeError_lastError (e : FlowError) :
    (d.routeError now step e).record.lastError = some ⟨step, e.message, e.cause⟩ := by
  have noted : (d.errorRecord now step e).lastError = some ⟨step, e.message, e.cause⟩ :=
    logged_lastError d now step (d.record.recordError step e.message e.cause)
      [⟨e.message, e.cause⟩]
  rw [routeError_eq]
  split
  · exact noted
  · split <;> exact noted

end LastError

/-! ### A turn of a synchronous step -/

/-- What a turn of a synchronous step makes of a record. -/
structure Hops (definition : Definition) (id : String) (r r' : Record) : Prop where
  step : r'.currentStep = some ((definition.next? id).getD id)
  completed : r'.completedSteps =
    if definition.completesAt id = false ∨ id ∈ r.completedSteps then r.completedSteps
    else r.completedSteps ++ [id]
  lastError : r'.lastError = if definition.errsAt id then some (.aimless id) else r.lastError
  goes : definition.next? id ≠ none → r'.state = .running
  ends : definition.next? id = none → (r'.state, r'.result) = definition.endsAt id

section Hops

variable {d : Driver} {definition : Definition} (drives : d.definition = definition) {id : String}
  {step : Step} (now : Instant)

include drives

/-- An edge that is in order completes its step, if that counts, and is no error. -/
theorem takeEdge_orderly (known : definition.step? id = some step)
    (orderly : definition.errsAt id = false) (t : Transition) :
    ((d.takeEdge now id t).record.completedSteps =
      if definition.completesAt id = false ∨ id ∈ d.record.completedSteps
      then d.record.completedSteps else d.record.completedSteps ++ [id]) ∧
    (d.takeEdge now id t).record.lastError =
      if definition.errsAt id then some (.aimless id) else d.record.lastError := by
  have counts : definition.completesAt id = d.completes id := by
    simp [Definition.completesAt, orderly, known, completes_of_known drives known]
  rw [counts, orderly]
  exact ⟨takeEdge_completed d now id t, takeEdge_lastError d now id t⟩

/-- A step that leads to another one. -/
theorem applyEdge_goes (known : definition.step? id = some step)
    (running : d.record.state = .running) {target : String}
    (hop : definition.hop? id = some (.goes target)) :
    Hops definition id d.record (d.applyEdge now id (.runTo target)).record := by
  have exists_ : definition.hasStep target := Definition.hasStep_iff.2 (definition.goes_mem hop)
  have fine : d.edgeFault? id (.runTo target) = none := by
    simp [edgeFault?, Transition.runTo, drives, exists_]
  have next : definition.next? id = some target := by simp only [Definition.next?, hop]
  have orderly : definition.errsAt id = false := by simp [Definition.errsAt, hop, Hop.errs]
  have on : (Transition.runTo target).state ≠ some .paused := by simp [Transition.runTo]
  have stands := takeEdge_standing d now id _ on
  obtain ⟨completed, lastError⟩ := takeEdge_orderly drives now known orderly (.runTo target)
  rw [applyEdge_of_fine rfl fine]
  refine ⟨?step, completed, lastError, fun _ => ?goes, fun ended => absurd ended (by simp [next])⟩
  case step =>
    rw [next]
    exact congrArg Standing.step stands
  case goes => exact (congrArg Standing.state stands).trans running

/-- A step that stops the flow. -/
theorem applyEdge_parks (known : definition.step? id = some step)
    (here : d.record.currentStep = some id) {state : FlowState} {result : FlowResult}
    {message : Option String}
    (hop : definition.hop? id = some (.parks state result message)) (settled : state.isSettled) :
    Hops definition id d.record (d.applyEdge now id (.park state result message)).record := by
  have fine : d.edgeFault? id (.park state result message) = none := by
    cases state <;> simp_all [edgeFault?, Transition.park, FlowState.isSettled]
  have next : definition.next? id = none := by simp only [Definition.next?, hop, settled, if_true]
  have orderly : definition.errsAt id = false := by
    simp [Definition.errsAt, hop, Hop.errs, settled]
  obtain ⟨completed, lastError⟩ :=
    takeEdge_orderly drives now known orderly (.park state result message)
  -- the flow stays where it is, and has the state and the result of the edge
  have stands : (d.takeEdge now id (.park state result message)).record.currentStep = some id ∧
      ((d.takeEdge now id (.park state result message)).record.state,
        (d.takeEdge now id (.park state result message)).record.result) =
          definition.endsAt id := by
    cases state with
    | completed =>
      have on : (Transition.park .completed result message).state ≠ some .paused := by
        simp [Transition.park]
      have stands := takeEdge_standing d now id _ on
      refine ⟨(congrArg Standing.step stands).trans here, ?_⟩
      simp only [Definition.endsAt, hop]
      exact congrArg (fun z : Standing => (z.state, z.result)) stands
    | paused =>
      have stands := takeEdge_standing_paused d now id (.park .paused result message) rfl
      refine ⟨(congrArg Standing.step stands).trans here, ?_⟩
      simp only [Definition.endsAt, hop]
      exact congrArg (fun z : Standing => (z.state, z.result)) stands
    | created => cases settled
    | running => cases settled
  obtain ⟨stays, ends⟩ := stands
  rw [applyEdge_of_fine rfl fine]
  refine ⟨?_, completed, lastError, fun goes => absurd next goes, fun _ => ends⟩
  rw [next]
  exact stays

/-- A step whose edge is an error. -/
theorem applyEdge_errs (running : d.record.state = .running)
    (here : d.record.currentStep = some id) {state : FlowState} {result : FlowResult}
    {message : Option String}
    (hop : definition.hop? id = some (.parks state result message))
    (unsettled : state.isSettled = false) :
    Hops definition id d.record (d.applyEdge now id (.park state result message)).record := by
  have fault : d.edgeFault? id (.park state result message) =
      some (.invalidState (.aimlessEdge id)) := by
    cases state <;> simp_all [edgeFault?, Transition.park, FlowState.isSettled]
  have errs : definition.errsAt id = true := by
    simp [Definition.errsAt, hop, Hop.errs, unsettled]
  have uncounted : definition.completesAt id = false := by simp [Definition.completesAt, errs]
  have next : definition.next? id = d.exceptionStep? id := by
    simp [Definition.next?, hop, unsettled, Definition.rescue?, exceptionStep?, drives]
  have ends : definition.endsAt id =
      (if d.definition.properties.killNonRecoverable then .completed else .paused, .failed) := by
    cases state <;> simp_all [Definition.endsAt, FlowState.isSettled]
  have applied : d.applyEdge now id (.park state result message) =
      d.routeError now id (.invalidState (.aimlessEdge id)) := by
    simp only [applyEdge, fault]
  have stands := routeError_standing d now id (.invalidState (.aimlessEdge id))
  rw [← next] at stands
  rw [applied]
  refine ⟨?step, ?gained, ?lastError, fun goes => ?goes, fun ended => ?ends⟩
  case step =>
    refine (congrArg Standing.step stands).trans ?_
    show (definition.next? id).or d.record.currentStep = _
    rw [here]
    cases definition.next? id <;> rfl
  case gained =>
    rw [if_pos (.inl uncounted)]
    exact congrArg Standing.completed stands
  case lastError =>
    rw [if_pos errs]
    exact routeError_lastError ..
  case goes =>
    refine (congrArg Standing.state stands).trans ?_
    show (if (definition.next? id).isSome then d.record.state else _) = _
    rw [if_pos (Option.isSome_iff_ne_none.2 goes), running]
  case ends =>
    rw [ends]
    refine Prod.ext ((congrArg Standing.state stands).trans ?_) (congrArg Standing.result stands)
    show (if (definition.next? id).isSome then _ else _) = _
    rw [ended, if_neg (by simp)]

/-- Whatever a synchronous step does. -/
theorem applyEdge_hops (known : definition.step? id = some step)
    (running : d.record.state = .running) (here : d.record.currentStep = some id) {hop : Hop}
    (does : step.hop? = some hop) :
    Hops definition id d.record (d.applyEdge now id hop.transition).record := by
  have found : definition.hop? id = some hop := by simp [Definition.hop?, known, does]
  cases hop with
  | goes target => exact applyEdge_goes drives now known running found
  | parks state result message =>
    by_cases settled : state.isSettled
    · exact applyEdge_parks drives now known here found settled
    · exact applyEdge_errs drives now running here found (by simpa using settled)

end Hops

end Driver

/-! ### Counting turns -/

namespace Services

/-- How many turns a step of a definition has taken. -/
def turnsOf (s : Services) (source : Nat) (id : String) : Nat :=
  (s.turns.get? (source, id)).getD 0

theorem turnsOf_nextTurn (s : Services) (source : Nat) (id id' : String) :
    (s.nextTurn source id).2.turnsOf source id' = s.turnsOf source id' + [id].count id' := by
  by_cases own : id' = id
  · subst own
    simp [turnsOf, nextTurn]
  · have other : (source, id') ≠ (source, id) := fun same => own (congrArg Prod.snd same)
    simp [turnsOf, nextTurn, Table.get?_put_of_ne _ _ other, Ne.symm own]

theorem save_turns (s : Services) (r : Record) : (s.save r).2.turns = s.turns := by
  unfold save
  simp only
  split <;> rfl

theorem release_turns (s : Services) (lease : Lease) : (s.release lease).2.turns = s.turns := by
  unfold release
  simp only
  split <;> rfl

end Services

namespace Driver

theorem releaseLease_turns (d : Driver) (s : Services) :
    (d.releaseLease s).1.source = d.source ∧ (d.releaseLease s).2.turns = s.turns := by
  unfold releaseLease
  split
  · exact ⟨rfl, Services.release_turns ..⟩
  · exact ⟨rfl, rfl⟩

theorem carryOn_turns (d : Driver) (s : Services) (now : Nat) :
    (d.carryOn s now).2.1.source = d.source ∧ (d.carryOn s now).2.2.turns = s.turns := by
  have saved : (d.persist s now).2.2.turns = s.turns := Services.save_turns ..
  refine carryOn_rule (motive := fun r => r.2.1.source = d.source ∧ r.2.2.turns = s.turns) d s now
    (fun _ _ => ⟨rfl, saved⟩) (fun _ _ => ⟨rfl, saved⟩) fun _ _ => ?_
  obtain ⟨source, turns⟩ := releaseLease_turns { (d.persist s now).2.1 with watchdog := none }
    (d.persist s now).2.2
  exact ⟨source, turns.trans saved⟩

variable {flow : FlowId} {definition : Definition} {source i : Nat} {id : String}
  {x y z : Driver × Services}

/-- A flow treads on a synchronous step: it has taken a turn of it, and what came of this was
applied. -/
structure Treads (flow : FlowId) (definition : Definition) (i : Nat) (id : String)
    (x y : Driver × Services) : Prop where
  carried : CarriedOn flow definition i y.1.record x y
  hops : Hops definition id x.1.record y.1.record
  source : y.1.source = x.1.source
  turns : y.2.turns = (x.2.nextTurn x.1.source id).2.turns

/-- A turn of a synchronous step ends with its edge being applied. -/
theorem TakesTurn.treads {step : Step} {e : Execution} {hop : Hop}
    (h : TakesTurn flow definition i step x e z) (before : OnTurn flow definition i x)
    (here : x.1.record.currentStep = some id) (known : definition.step? id = some step)
    (does : step.hop? = some hop) {now : Nat} (due : e.due ≤ now) :
    Treads flow definition i id x (z.1.perform z.2 now (.proceed i)) := by
  have own : step.id = id := by simpa using List.find?_some known
  have drives : z.1.definition = definition := h.undisturbed.drives
  have record : z.1.record = x.1.record := by
    rw [h.driver]
    rfl
  have running : z.1.record.state = .running := by rw [record, before.running]
  have edge := hop.transition_isEdge
  have answers : ∀ turn ids,
      (step.execute turn x.1.record).answer ids = (.plain (.ok hop.transition), ids) :=
    fun turn ids => Step.answer_of_hop does turn x.1.record ids
  have carried := h.carriedOn before edge answers due
  have hops := applyEdge_hops drives (.ofVirtualMs now) known running (by rw [record, here]) does
  have applies := h.applies before edge answers due
  rw [own] at carried applies
  obtain ⟨same, kept⟩ :=
    carryOn_turns (z.1.applyEdge (.ofVirtualMs now) id hop.transition) z.2 now
  have led := (applyEdge_routed (.ofVirtualMs now) id hop.transition running).rest
  refine ⟨⟨carried.undisturbed, rfl, carried.work, carried.going, carried.rests,
    carried.answered⟩, ?hops, ?source, ?turns⟩
  case hops =>
    rw [carried.record, ← record]
    exact ⟨hops.step, hops.completed, hops.lastError, hops.goes, hops.ends⟩
  case source =>
    rw [applies]
    refine same.trans ?_
    rw [led, h.driver]
    rfl
  case turns =>
    rw [applies]
    exact kept.trans (own ▸ h.turns)

/-- A synchronous flow treads on its current step. -/
theorem OnTurn.settles_treading (h : OnTurn flow definition i x)
    (synchronous : definition.Synchronous) (here : x.1.record.currentStep = some id)
    (mem : id ∈ stepIds definition.steps) {Over : Driver × Services → Prop}
    (next : ∀ y, Treads flow definition i id x y → Settles Over y) : Settles Over x := by
  obtain ⟨step, hop, known, -, does⟩ := synchronous.exists_hop mem
  exact h.settles here known fun e z turn now due => next _ (turn.treads h here known does due)

/-- What a flow has of the steps that it has left, and of nothing else, since its services were
these. -/
structure Trodden (definition : Definition) (source : Nat) (before : Services) (ids : List String)
    (x : Driver × Services) : Prop where
  turns : ∀ id, x.2.turnsOf source id = before.turnsOf source id + ids.count id
  completed : x.1.record.completedSteps = ids.filter definition.completesAt
  lastError : x.1.record.lastError = (ids.filter definition.errsAt).getLast?.map .aimless
  source : x.1.source = source

/-- One step more. -/
theorem Trodden.on {before : Services} {ids : List String}
    (h : Trodden definition source before ids x) (new : id ∉ ids)
    (treads : Treads flow definition i id x y) :
    Trodden definition source before (ids ++ [id]) y := by
  refine ⟨fun id' => ?turns, ?completed, ?lastError, treads.source.trans h.source⟩
  case turns =>
    have turns := h.turns id'
    have more := x.2.turnsOf_nextTurn source id id'
    have same : y.2.turnsOf source id' = (x.2.nextTurn source id).2.turnsOf source id' := by
      rw [Services.turnsOf, treads.turns, h.source, Services.turnsOf]
    rw [List.count_append]
    omega
  case completed =>
    rw [treads.hops.completed, h.completed, List.filter_append]
    by_cases counts : definition.completesAt id
    · -- a step is marked once only, so it matters that `id` is new
      have unmarked : id ∉ ids.filter definition.completesAt := fun mem =>
        new (List.mem_filter.1 mem).1
      simp [counts, unmarked]
    · simp [counts]
  case lastError =>
    rw [treads.hops.lastError, h.lastError, List.filter_append]
    by_cases errs : definition.errsAt id
    · simp [errs]
    · simp [errs]

/-! ### A walk with an end -/

/-- A flow that has followed its graph along these steps has stopped at the last of them. -/
structure Followed (flow : FlowId) (definition : Definition) (source : Nat) (before : Services)
    (ids : List String) (x : Driver × Services) : Prop where
  answered : x.1.requests[0]? = some (.answered (.ok ()))
  known : x.1.published = x.1.record.state
  stored : x.2.store.find? flow = some x.1.record
  trodden : Trodden definition source before ids x
  last : ∃ id, ids.getLast? = some id ∧ x.1.record.currentStep = some id ∧
    (x.1.record.state, x.1.record.result) = definition.endsAt id

theorem Followed.isSettled {before : Services} {ids : List String}
    (h : Followed flow definition source before ids x) : x.1.published.isSettled := by
  obtain ⟨id, -, -, ends⟩ := h.last
  have settled := definition.endsAt_isSettled id
  rwa [← ends, ← h.known] at settled

/-- After the last step of the walk nothing more can happen. -/
theorem Treads.settles {before : Services} {ids : List String}
    (h : Treads flow definition 0 id x y) (ended : definition.next? id = none)
    (trodden : Trodden definition source before (ids ++ [id]) y) :
    Settles (Followed flow definition source before (ids ++ [id])) y := by
  have ends := h.hops.ends ended
  have stopped : y.1.record.state ≠ .running := by
    intro running
    have settled := definition.endsAt_isSettled id
    rw [← ends, running] at settled
    cases settled
  refine .ended ⟨h.carried.answered stopped, h.carried.undisturbed.known,
    h.carried.undisturbed.stored, trodden, id, ?_, ?_, ends⟩ fun now m => ?_
  · rw [List.getLast?_append]
    rfl
  · rw [h.hops.step, ended]
    rfl
  · exact (h.carried.rests stopped).still h.carried.undisturbed.unarmed now m

/-- **A flow whose walk has an end follows it to there**, in whatever order things happen. -/
theorem OnTurn.settles_walk (synchronous : definition.Synchronous) {before : Services}
    {ids : List String} (walks : definition.IsWalk ids) (once : ids.Nodup) (after : List String) :
    ∀ left id x, ids = left ++ id :: after → OnTurn flow definition 0 x →
      x.1.record.currentStep = some id → Trodden definition source before left x →
      Settles (Followed flow definition source before ids) x := by
  have new (left : List String) (id : String) (after : List String)
      (once : (left ++ id :: after).Nodup) : id ∉ left := by
    intro earlier
    have later := List.disjoint_of_nodup_append once earlier
    exact later List.mem_cons_self
  induction after with
  | nil =>
    rintro left id x rfl turn here trodden
    refine turn.settles_treading synchronous here walks.mem fun y treads => ?_
    exact treads.settles walks.next?_eq (trodden.on (new left id [] once) treads)
  | cons next after ih =>
    rintro left id x rfl turn here trodden
    have goes : definition.next? id = some next := walks.next?_eq
    refine turn.settles_treading synchronous here walks.mem fun y treads => ?_
    refine ih (left ++ [id]) next y (by simp) ?_ ?_
      (trodden.on (new left id (next :: after) once) treads)
    · exact treads.carried.going (treads.hops.goes (by simp [goes]))
    · rw [treads.hops.step, goes]
      rfl

/-- The walk begins with the first step. -/
theorem OnTurn.follows (h : OnTurn flow definition 0 x) (synchronous : definition.Synchronous)
    (here : x.1.record.currentStep = some definition.firstStep) {before : Services}
    (trodden : Trodden definition source before [] x) (once : definition.VisitsOnce) :
    ∃ ids, definition.IsWalk ids ∧ ids.Nodup ∧ ids.length ≤ definition.steps.length ∧
      Settles (Followed flow definition source before ids) x := by
  obtain ⟨ids, walks, nodup, le⟩ := Definition.exists_isWalk once
  have first : ids[0]? = some definition.firstStep := walks 0
  cases ids with
  | nil => cases first
  | cons id ids =>
    obtain rfl : id = definition.firstStep := Option.some.inj first
    exact ⟨_, walks, nodup, le, settles_walk synchronous walks nodup ids [] _ _ rfl h here trodden⟩

/-! ### A walk without an end -/

/-- Some possible move leads from one state to the other. -/
def Moves (x y : Driver × Services) : Prop :=
  ∃ now m, x.1.Enabled now m ∧ x.1.perform x.2 now m = y

/-- A flow is on its walk: it is about to take a turn of a step of the walk, or takes one. -/
inductive Walks (flow : FlowId) (definition : Definition) : Driver × Services → Prop
  | ready {x : Driver × Services} {n : Nat} (turn : OnTurn flow definition 0 x)
      (here : x.1.record.currentStep = definition.walk n) : Walks flow definition x
  | executing {x z : Driver × Services} {n : Nat} {id : String} {step : Step} {hop : Hop}
      {e : Execution} (turn : OnTurn flow definition 0 x)
      (here : x.1.record.currentStep = some id) (visits : definition.walk n = some id)
      (known : definition.step? id = some step) (does : step.hop? = some hop)
      (takes : TakesTurn flow definition 0 step x e z) : Walks flow definition z

namespace Walks

variable (h : Walks flow definition x)

include h

theorem unanswered (outcome : Except FlowError Unit) :
    x.1.requests[0]? ≠ some (.answered outcome) := by
  cases h with
  | ready turn here => simp [turn.ready]
  | executing turn here visits known does takes => simp [takes.executing turn]

/-- **A flow whose walk has no end stays on it**, whatever happens. -/
theorem moves (synchronous : definition.Synchronous) (endless : ∀ n, definition.walk n ≠ none)
    (moves : Moves x y) : Walks flow definition y := by
  obtain ⟨now, m, enabled, rfl⟩ := moves
  cases h with
  | @ready _ n turn here =>
    obtain ⟨id, visits⟩ := Option.ne_none_iff_exists'.1 (endless n)
    obtain ⟨step, hop, known, -, does⟩ := synchronous.exists_hop (definition.walk_mem visits)
    obtain rfl := turn.only_proceeds enabled
    obtain ⟨e, takes⟩ := turn.begins (here.trans visits) known now
    exact .executing turn (here.trans visits) visits known does takes
  | @executing x _ n id step hop e turn here visits known does takes =>
    obtain ⟨rfl, due⟩ := takes.only_proceeds turn enabled
    have treads := takes.treads turn here known does due
    have next : definition.walk (n + 1) = definition.next? id := by
      rw [Definition.walk, visits, Option.bind_some]
    obtain ⟨id', goes⟩ := Option.ne_none_iff_exists'.1 (endless (n + 1))
    rw [next] at goes
    refine .ready (n := n + 1) (treads.carried.going (treads.hops.goes (by simp [goes]))) ?_
    rw [treads.hops.step, next, goes]
    rfl

/-- It runs all the while. -/
theorem running : x.1.record.state = .running := by
  cases h with
  | ready turn here => exact turn.running
  | executing turn here visits known does takes =>
    rw [takes.driver]
    exact turn.running

theorem undisturbed : Undisturbed flow definition x := by
  cases h with
  | ready turn here => exact turn.undisturbed
  | executing turn here visits known does takes => exact takes.undisturbed

end Walks

end Driver

end Workflow
