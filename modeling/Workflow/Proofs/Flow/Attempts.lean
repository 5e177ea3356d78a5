import Workflow.Proofs.Flow.Stranding

/-!
# Workflow.Proofs.Flow.Attempts — the attempts of a flow, and what is applied in each

An attempt begins when a start or a resume is let in, whether or not its first save succeeds, and it
lasts until the next one begins.  In between the record changes its state or its result only by what
is applied to it, by a pause, and by the deadline (`happen_changes`).
-/

namespace Workflow

namespace Driver

/-! ### Entries -/

/-- The time at which the event begins an attempt, if it does: it is a start that takes a created
flow to running, or a resume that takes out the lease. -/
def entersAt? (x : Driver × Services) (e : Event) : Option Nat :=
  match e with
  | .move now .start =>
    if x.1.record.state = .created ∧ (happen x e).1.isRunning then some now else none
  | .move now .resume =>
    if x.1.lease.isNone ∧ (happen x e).1.lease.isSome then some now else none
  | _ => none

/-- What an entry makes of a driver. -/
structure Entered (d : Driver) (now : Nat) (d' : Driver) : Prop where
  running : d'.record.state = .running
  result : d'.record.result = .unknown ∨
    d.record.state = .created ∧ d'.record.result = d.record.result
  watchdog : d'.watchdog = (d.armWatchdog now).watchdog

/-- An event that begins no attempt although it is a start or a resume changes neither the record
nor the deadline. -/
structure TurnedAway (d d' : Driver) : Prop where
  record : d'.record = d.record
  watchdog : d'.watchdog = d.watchdog

theorem start_entersAt (x : Driver × Services) (now : Nat) :
    (∀ t, entersAt? x (.move now .start) = some t →
      t = now ∧ Entered x.1 now (happen x (.move now .start)).1) ∧
    (entersAt? x (.move now .start) = none →
      TurnedAway x.1 (happen x (.move now .start)).1) := by
  simp only [entersAt?, happen, perform]
  refine start_rule (motive := fun r =>
    (∀ t, (if x.1.record.state = .created ∧ (requesting r).1.isRunning then some now else none) =
      some t → t = now ∧ Entered x.1 now (requesting r).1) ∧
    ((if x.1.record.state = .created ∧ (requesting r).1.isRunning then some now else none) = none →
      TurnedAway x.1 (requesting r).1)) x.1 x.2 now ?refused ?unleased ?entered
  case refused =>
    exact fun other => ⟨fun t h => by simp [other] at h, fun _ => ⟨rfl, rfl⟩⟩
  case unleased =>
    intro e s' created _ _
    refine ⟨fun t h => ?_, fun _ => ⟨rfl, rfl⟩⟩
    simp [requesting, addRequest, isRunning, created] at h
  case entered =>
    intro lease s' created _
    have lets : (requesting ((({ x.1 with lease := some lease }.onRecord
        (·.start x.1.definition.firstStep)).armWatchdog now).persist s' now)).1.isRunning := rfl
    refine ⟨fun t h => ?_, fun h => ?_⟩
    · rw [if_pos ⟨created, lets⟩] at h
      exact ⟨(Option.some.inj h).symm, rfl, .inr ⟨created, rfl⟩, rfl⟩
    · rw [if_pos ⟨created, lets⟩] at h
      cases h

theorem resume_entersAt (x : Driver × Services) (now : Nat) :
    (∀ t, entersAt? x (.move now .resume) = some t →
      t = now ∧ Entered x.1 now (happen x (.move now .resume)).1) ∧
    (entersAt? x (.move now .resume) = none →
      TurnedAway x.1 (happen x (.move now .resume)).1) := by
  simp only [entersAt?, happen, perform]
  refine resume_rule (motive := fun r =>
    (∀ t, (if x.1.lease.isNone ∧ (requesting r).1.lease.isSome then some now else none) =
      some t → t = now ∧ Entered x.1 now (requesting r).1) ∧
    ((if x.1.lease.isNone ∧ (requesting r).1.lease.isSome then some now else none) = none →
      TurnedAway x.1 (requesting r).1)) x.1 x.2 now ?busy ?refused ?unleased ?entered
  case busy =>
    refine fun _ => ⟨fun t h => ?_, fun _ => ⟨rfl, rfl⟩⟩
    cases hl : x.1.lease <;> simp [requesting, addRequest, hl] at h
  case refused =>
    intro e hl _ _
    exact ⟨fun t h => by simp [requesting, addRequest, hl] at h, fun _ => ⟨rfl, rfl⟩⟩
  case unleased =>
    intro e s' hl _ _
    exact ⟨fun t h => by simp [requesting, addRequest, hl] at h, fun _ => ⟨rfl, rfl⟩⟩
  case entered =>
    intro stored lease s' hl _ _ _ _
    have lets : x.1.lease.isNone ∧ (requesting (({ x.1.nextEpoch with
        lease := some lease, record := x.1.resumedRecord stored }.armWatchdog now).persist s'
        now)).1.lease.isSome := ⟨by simp [hl], rfl⟩
    refine ⟨fun t h => ?_, fun h => ?_⟩
    · rw [if_pos lets] at h
      exact ⟨(Option.some.inj h).symm, rfl, .inl rfl, rfl⟩
    · rw [if_pos lets] at h
      cases h

/-- A call that is let in enters the flow. -/
theorem entersAt?_entered {x : Driver × Services} {e : Event} {now : Nat}
    (h : entersAt? x e = some now) : Entered x.1 now (happen x e).1 := by
  cases e with
  | move now' move =>
    cases move with
    | start =>
      obtain ⟨rfl, entered⟩ := (start_entersAt x now').1 now h
      exact entered
    | resume =>
      obtain ⟨rfl, entered⟩ := (resume_entersAt x now').1 now h
      exact entered
    | _ => cases h
  | _ => cases h

/-! ### What is applied -/

/-- What a decision about a step comes to once it is applied. -/
inductive Verdict where
  /-- The step takes an edge that is in order. -/
  | edge (step : String) (t : Transition)
  /-- An error of the step, perhaps that its edge is not in order. -/
  | error (step : String) (e : FlowError)

namespace Verdict

/-- The result that a verdict contributes to that of the flow. -/
def contribution? : Verdict → Option FlowResult
  | edge _ t => t.result
  | error .. => some .failed

/-- The latest contribution of some verdicts; not known if there is none. -/
def standing (vs : List Verdict) : FlowResult :=
  ((vs.filterMap contribution?).getLast?).getD .unknown

theorem standing_concat (vs : List Verdict) (v : Verdict) :
    standing (vs ++ [v]) = v.contribution?.getD (standing vs) := by
  unfold standing
  rw [List.filterMap_append]
  cases h : v.contribution? <;> simp [h]

/-- After an error only a later edge that carries success, or a result that is not known, makes up
for it. -/
theorem standing_of_error {before after : List Verdict} {step : String} {e : FlowError}
    {r : FlowResult} (h : standing (before ++ error step e :: after) = r) (hr : r ≠ .failed) :
    ∃ step t, edge step t ∈ after ∧ t.result = some r := by
  unfold standing at h
  have failed : (error step e).contribution? = some .failed := rfl
  rw [List.filterMap_append, List.filterMap_cons_some failed] at h
  rcases hlast : (after.filterMap contribution?).getLast? with _ | last
  · rw [List.getLast?_eq_none_iff.1 hlast] at h
    simp at h
    exact absurd h.symm hr
  · rw [List.getLast?_append, List.getLast?_cons, hlast] at h
    obtain rfl : last = r := by simpa using h
    obtain ⟨v, hv, carried⟩ := List.mem_filterMap.1 (List.mem_of_getLast? hlast)
    cases v with
    | edge step t => exact ⟨step, t, hv, carried⟩
    | error => exact absurd (Option.some.inj carried).symm hr

end Verdict

/-- What a decision about a step comes to. -/
def judge (d : Driver) (step : String) : Decision → Verdict
  | .error e => .error step e
  | .ok t =>
    match d.edgeFault? step t with
    | some e => .error step e
    | none => .edge step t

/-- A verdict takes effect. -/
def enact (d : Driver) (now : Instant) : Verdict → Driver
  | .edge step t => d.takeEdge now step t
  | .error step e => d.routeError now step e

theorem applyDecision_eq (d : Driver) (now : Instant) (step : String) (decision : Decision) :
    d.applyDecision now step decision = d.enact now (d.judge step decision) := by
  cases decision with
  | error e => rfl
  | ok t =>
    simp only [applyDecision, applyEdge, judge]
    cases d.edgeFault? step t <;> rfl

theorem judge_congr {d d' : Driver} (h : d'.definition = d.definition) : d'.judge = d.judge := by
  funext step decision
  cases decision with
  | error e => rfl
  | ok t => simp only [judge, edgeFault?, h]

/-- The decision that an event brings to the driver, with the epoch and the step that it is about.
-/
def brought? (x : Driver × Services) : Event → Option (Nat × String × Decision)
  | .move now (.proceed i) =>
    match x.1.requests[i]? with
    | some (.executing e) =>
      if e.due ≤ now then (e.answer x.2.ids.tasks).1.decision?.map (e.epoch, e.step, ·) else none
    | _ => none
  | .move _ (.decide i) =>
    x.1.activations[i]?.bind fun a => a.decision?.map (a.epoch, a.step, ·)
  | .decision _ i decision => x.1.activations[i]?.map (fun a => (a.epoch, a.step, decision))
  | _ => none

theorem brought?_eq_some {x : Driver × Services} {e : Event} {epoch : Nat} {step : String}
    {decision : Decision} :
    brought? x e = some (epoch, step, decision) ↔ Brings x e epoch step decision := by
  refine ⟨fun h => ?_, fun h => ?_⟩
  · cases e with
    | move now move =>
      cases move with
      | proceed i =>
        simp only [brought?] at h
        split at h
        · rename_i e executing
          split at h
          · rename_i due
            obtain ⟨decision', decides, heq⟩ := Option.map_eq_some_iff.1 h
            cases heq
            exact .answer executing due decides
          · cases h
        · cases h
      | decide i =>
        obtain ⟨a, activation, h⟩ := Option.bind_eq_some_iff.1 h
        obtain ⟨decision', decides, heq⟩ := Option.map_eq_some_iff.1 h
        cases heq
        exact .told activation decides
      | _ => cases h
    | decision now i decision' =>
      obtain ⟨a, activation, heq⟩ := Option.map_eq_some_iff.1 h
      cases heq
      exact .blue activation
    | _ => cases h
  · cases h with
    | answer executing due decides => simp [brought?, executing, due, decides]
    | told activation decides => simp [brought?, activation, decides]
    | blue activation => simp [brought?, activation]

/-- Whether what the event brings finds a lease.  A request that has executed a step asks for none.
-/
def leases (x : Driver × Services) : Event → Bool
  | .move _ (.proceed _) => true
  | _ => (x.1.acquireLease x.2).1.isOk

theorem refused_iff {d : Driver} {s : Services} :
    Refused d s ↔ (d.acquireLease s).1.isOk = false := by
  refine acquireLease_rule (motive := fun r => Refused d s ↔ r.1.isOk = false) d s ?_ ?_
  · exact fun e s' hl got => ⟨fun _ => rfl, fun _ => ⟨hl, e, s', got⟩⟩
  · intro lease s' leased
    refine ⟨fun ⟨hl, e, s₁, got⟩ => ?_, nofun⟩
    cases leased with
    | had had => exact absurd (hl.symm.trans had) (by simp)
    | given _ given => exact absurd (got.symm.trans given) (by simp)

/-- A decision about the current epoch is refused if it finds no lease. -/
theorem Brings.refuses_iff {x : Driver × Services} {e : Event} {epoch : Nat} {step : String}
    {decision : Decision} (brought : Brings x e epoch step decision) (current : x.1.epoch = epoch)
    (running : x.1.record.state = .running) : Refuses x e ↔ leases x e = false := by
  have hrun : x.1.isRunning := by simp [isRunning, running]
  cases brought with
  | answer executing due decides =>
    exact ⟨fun h => absurd h.1.choose_spec id, fun unleased => absurd unleased (by simp [leases])⟩
  | told activation decides =>
    exact ⟨fun h => refused_iff.1 h.2,
      fun h => ⟨⟨_, rfl, hrun, _, _, activation, decides, current.symm⟩, refused_iff.2 h⟩⟩
  | blue activation =>
    exact ⟨fun h => refused_iff.1 h.2,
      fun h => ⟨⟨_, rfl, hrun, _, activation, current.symm⟩, refused_iff.2 h⟩⟩

/-- What the event applies to the record of a running flow: it brings a decision about the current
epoch, which finds a lease. -/
def verdict? (x : Driver × Services) (e : Event) : Option Verdict :=
  (brought? x e).bind fun (epoch, step, decision) =>
    if x.1.isRunning ∧ x.1.epoch = epoch ∧ leases x e then some (x.1.judge step decision) else none

theorem verdict?_eq_some {x : Driver × Services} {e : Event} {v : Verdict} :
    verdict? x e = some v ↔ ∃ epoch step decision, Brings x e epoch step decision ∧
      x.1.epoch = epoch ∧ x.1.record.state = .running ∧ ¬ Refuses x e ∧
      x.1.judge step decision = v := by
  unfold verdict?
  rw [Option.bind_eq_some_iff]
  refine ⟨fun ⟨⟨epoch, step, decision⟩, brought, h⟩ => ?_,
    fun ⟨epoch, step, decision, brought, current, running, leased, h⟩ => ?_⟩
  · rw [brought?_eq_some] at brought
    obtain ⟨⟨runs, current, leased⟩, judged⟩ := Option.ite_none_right_eq_some.1 h
    have running : x.1.record.state = .running := by simpa [isRunning] using runs
    refine ⟨epoch, step, decision, brought, current, running, ?_, Option.some.inj judged⟩
    rw [brought.refuses_iff current running]
    simp [leased]
  · refine ⟨(epoch, step, decision), brought?_eq_some.2 brought, ?_⟩
    rw [brought.refuses_iff current running] at leased
    simp [isRunning, running, current, leased, h]

/-! ### What an event makes of the record -/

/-- What an event makes of the record, as far as its state and its result go. -/
inductive Changes (x : Driver × Services) (e : Event) (r : Record) : Prop
  | enters {now : Nat} (entry : entersAt? x e = some now) (running : r.state = .running)
    (result : r.result = .unknown ∨ x.1.record.state = .created ∧ r.result = x.1.record.result)
  | applies {v : Verdict} {now : Nat} {d : Driver} (verdict : verdict? x e = some v)
    (definition : d.definition = x.1.definition) (record : d.record = x.1.record)
    (enacted : r = ((d.enact (.ofVirtualMs now) v).record.touch (.ofVirtualMs now)))
  | expires {now : Nat} (deadline : e = .move now .expire) (due : x.1.watchdog.any (· ≤ now))
    (running : x.1.record.state = .running)
    (timeout : r.state = .completed ∧ r.result = .timeout)
  | stays (outside : entersAt? x e = none) (unapplied : verdict? x e = none)
    (state : r.state = x.1.record.state ∨ x.1.record.state = .running ∧ r.state = .paused)
    (result : r.result = x.1.record.result)

theorem Brings.entersAt? {x : Driver × Services} {e : Event} {epoch : Nat} {step : String}
    {decision : Decision} (brought : Brings x e epoch step decision) :
    Driver.entersAt? x e = none := by
  cases brought <;> rfl

/-- A verdict is applied to the record, and that is saved. -/
theorem verdict?_enacted {x : Driver × Services} {e : Event} {v : Verdict}
    (h : verdict? x e = some v) : ∃ (now : Nat) (d : Driver), d.definition = x.1.definition ∧
      d.record = x.1.record ∧ (happen x e).1.record =
        (d.enact (.ofVirtualMs now) v).record.touch (.ofVirtualMs now) := by
  obtain ⟨epoch, step, decision, brought, current, running, leased, rfl⟩ := verdict?_eq_some.1 h
  obtain ⟨now, d, definition, record, saved⟩ := (brought_settled brought current running).2 leased
  refine ⟨now, d, definition, record, ?_⟩
  rw [saved, applyDecision_eq, judge_congr definition]

/-- An event that neither begins an attempt nor applies anything. -/
theorem happen_stays {x : Driver × Services} (known : x.1.published = x.1.record.state) {e : Event}
    (outside : entersAt? x e = none) (unapplied : verdict? x e = none) :
    Changes x e (happen x e).1.record := by
  rcases e.own_or_outside.symm with ⟨change, rfl⟩ | own
  · exact .stays rfl rfl (.inl rfl) rfl
  have writes := happen_revises known own
  generalize hview : view (happen x e) = v' at writes
  have hrecord : (happen x e).1.record = v'.record := congrArg View.record hview
  rw [hrecord]
  cases writes with
  | leaves => exact .stays outside unapplied (.inl rfl) rfl
  | @saves r revision =>
    change Changes x e r
    cases revision with
    | starts created =>
      have away := ((start_entersAt x _).2 outside).record
      rw [hrecord] at away
      exact .stays outside unapplied (.inl (congrArg Record.state away)) rfl
    | resumes =>
      have away := ((resume_entersAt x _).2 outside).record
      rw [hrecord] at away
      exact .stays outside unapplied (.inl (congrArg Record.state away))
        (congrArg Record.result away)
    | pauses running => exact .stays outside unapplied (.inr ⟨running, rfl⟩) rfl
    | moves => exact .stays outside unapplied (.inl rfl) rfl
    | @decides _ now epoch step decision d brought current running definition record =>
      -- what is brought but not applied is lost
      have lost : Refuses x e := Classical.byContradiction fun leased =>
        Option.some_ne_none _ ((verdict?_eq_some.2
          ⟨epoch, step, decision, brought, current, running, leased, rfl⟩).symm.trans unapplied)
      have kept := ((brought_settled brought current running).1 lost).record
      rw [hrecord] at kept
      exact .stays outside unapplied (.inl (congrArg Record.state kept))
        (congrArg Record.result kept)
    | waits => exact .stays outside unapplied (.inl (logStep_state ..)) (logStep_result ..)
    | launches =>
      refine .stays outside unapplied (.inl ?_) ?_
      · exact (launch_state ..).trans (logStep_state ..)
      · exact (logStep_result (Driver.nextEpoch _) ..).trans (logStep_result ..)
    | @updates _ now epoch step update reported =>
      obtain ⟨r, hstate, -, heq⟩ := applyUpdate_eq x.1 (.ofVirtualMs now) step update
      refine .stays outside unapplied (.inl ?_) (applyUpdate_result ..)
      rw [heq]
      exact hstate
    | @expires now running =>
      by_cases due : x.1.watchdog.any (· ≤ now)
      · exact .expires rfl due running ⟨rfl, rfl⟩
      · -- a deadline that has not passed leaves the flow running
        have same : happen x (.move now .expire) = x := by
          simp only [happen, perform]
          rw [if_neg due]
        rw [same] at hrecord
        rw [hrecord] at running
        cases running

/-- **Whatever happens to a driver**, its record is that of an entry, has a verdict applied to it or
has expired, or it keeps its result and its state unless it is paused. -/
theorem happen_changes {x : Driver × Services} (known : x.1.published = x.1.record.state)
    (e : Event) : Changes x e (happen x e).1.record := by
  cases hv : verdict? x e with
  | some v =>
    obtain ⟨now, d, definition, record, enacted⟩ := verdict?_enacted hv
    exact .applies hv definition record enacted
  | none =>
    cases he : entersAt? x e with
    | some now =>
      have entered := entersAt?_entered he
      exact .enters he entered.running entered.result
    | none => exact happen_stays known he hv

/-- The state that was made known stays that of the record. -/
theorem happen_known {x : Driver × Services} (known : x.1.published = x.1.record.state)
    (e : Event) : (happen x e).1.published = (happen x e).1.record.state := by
  rcases e.own_or_outside.symm with ⟨change, rfl⟩ | own
  · exact known
  · have kept : (view (happen x e)).published = (view (happen x e)).record.state := by
      have writes := happen_revises known own
      generalize view (happen x e) = v' at writes
      cases writes with
      | leaves => exact known
      | saves => rfl
    exact kept

end Driver

end Workflow
