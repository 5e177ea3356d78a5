import Workflow.Proofs.Batch.Harvest
import Workflow.Proofs.Flow.Agreement
import Workflow.Proofs.Flow.Walking
import Workflow.Proofs.Step.FanOut

/-!
# Workflow.Proofs.Flow.Awaiting — a flow that waits for launched tasks

A step has launched tasks whose results are known beforehand, and nobody disturbs the flow.  Crew,
listener and driver take turns in any order: something happens to a worker, the listener hears an
event, what it has heard is saved (`Awaits.works`, `Awaits.hears`, `Awaits.saves`).  Each of them
leaves less to do, the crew fewer steps and the others fewer events and updates, and until the
listener tells its decision one of them is possible.  By then the record has all results, and the
polls that were foreseen were made (`Awaits.settles`).
-/

namespace Workflow

/-- What is known of a launch before it takes effect: what its tasks come to, and how its handler
decides then. -/
structure StepLaunch.Foreseen (l : StepLaunch) (rs : List TaskResult)
    (Decides : Transition → Prop) : Prop where
  distinct : (rs.map TaskResult.task).Nodup
  permits : l.batch.policy.maxConcurrency ≠ some 0
  unheard : l.handler.results = []
  decides : ∀ events, l.batch.Completes rs events →
    ∃ t, Decides t ∧ l.handler.verdict events = some (.ok t)

/-! ### Listeners -/

theorem Activation.hear?_eq_some {a a' : Activation} (h : a.hear? = some a') :
    ∃ event inbox, a.updates = [] ∧ a.listener.decision = none ∧ a.inbox = event :: inbox ∧
      a' = { a with
        listener := (a.listener.hear event).1
        inbox := inbox
        updates := (a.listener.hear event).2 } := by
  unfold hear? at h
  split at h
  · rename_i event inbox saved undecided next
    exact ⟨event, inbox, saved, undecided, next, (Option.some.inj h).symm⟩
  · cases h

/-- The listener of a launch has heard these events, and has not told anything. -/
structure Activation.Listens (l : StepLaunch) (heard : List TaskEvent) (a : Activation) : Prop where
  unfailed : a.failure = none
  untold : a.told = false
  runs : Crew.Runs TimedWorker.worker l.batch a.crew (heard ++ a.inbox)
  listener : a.listener = ((Listener.ofHandler l.handler).hearAll heard).1

namespace Activation.Listens

variable {l : StepLaunch} {heard : List TaskEvent} {a : Activation} (h : a.Listens l heard)
include h

/-- Nothing is decided before the last event. -/
theorem undecided (before : .completed ∉ heard) : a.listener.decision = none := by
  have running : ∀ e ∈ heard, e ≠ .completed := fun e he same => before (same ▸ he)
  rw [h.listener, Listener.hearAll_of_ne_completed running]
  rfl

/-- After the last event the tasks have ended, and nothing is left to be heard. -/
theorem ended (last : .completed ∈ heard) : a.crew.isDone ∧ a.inbox = [] ∧
    l.batch.Completes a.crew.ends heard := by
  obtain ⟨before, all, running⟩ := h.runs.completed_last
  have done : a.crew.isDone := by
    refine Classical.byContradiction fun going => ?_
    rw [if_neg going, List.append_nil] at all
    exact running _ (all ▸ List.mem_append_left _ last) rfl
  rw [if_pos done] at all
  have heardAll : a.inbox = [] := by
    rcases List.eq_nil_or_concat a.inbox with nothing | ⟨inbox, e, more⟩
    · exact nothing
    · rw [more, List.concat_eq_append, ← List.append_assoc] at all
      obtain ⟨same, -⟩ := List.append_inj' all rfl
      exact absurd rfl (running _ (same ▸ List.mem_append_left _ last))
  have completes := h.runs.completes done
  rw [heardAll, List.append_nil] at completes
  exact ⟨done, heardAll, completes⟩

/-- What the listener tells, it tells after the last event. -/
theorem told (home : a.aborted = false) (tells : a.decision?.isSome) :
    .completed ∈ heard ∧ a.updates = [] := by
  have saved := a.handed_over h.unfailed tells
  refine ⟨Classical.byContradiction fun before => ?_, saved⟩
  have silent := h.undecided before
  simp only [decision?, h.unfailed, h.untold, saved, silent, isClosed, home] at tells
  cases hi : a.inbox with
  | cons => simp [hi] at tells
  | nil =>
    have done : a.crew.isDone := by simpa [hi] using tells
    have completed := h.runs.completed_mem done
    rw [hi, List.append_nil] at completed
    exact before completed

/-- Once everything is heard and saved, the listener tells its decision. -/
theorem tells (saved : a.updates = []) {decision : Decision}
    (decided : a.listener.decision = some decision) : a.decision? = some decision := by
  simp [decision?, h.unfailed, h.untold, saved, decided]

/-- Once the decision is told and the crew is home, nothing more happens. -/
theorem idle (saved : a.updates = []) (decided : a.listener.decision.isSome) :
    a.tell.abort.Idle := by
  obtain ⟨decision, decided⟩ := Option.isSome_iff_exists.1 decided
  constructor <;>
    simp [tell, abort, due, hear?, Activation.decision?, h.unfailed, saved, decided]

end Activation.Listens

namespace Driver

theorem Quiet.onActivation {d : Driver} {request activation : Option Nat} {k : Nat}
    (h : d.Quiet request (some k)) {change : Activation → Activation}
    (goes : activation = some k ∨ ∀ a, d.activations[k]? = some a → (change a).Idle) :
    (d.onActivation k change).Quiet request activation := by
  refine ⟨h.requests, fun j a ha => ?_⟩
  rw [Driver.onActivation, List.getElem?_modify] at ha
  obtain ⟨before, hbefore, rfl⟩ := Option.map_eq_some_iff.1 ha
  by_cases own : k = j
  · subst own
    rw [if_pos rfl]
    exact goes.imp_right fun idle => idle before hbefore
  · rw [if_neg own]
    exact .inr ((h.activations j before hbefore).resolve_left (by simpa using own))

/-- Where an activation is, there is its next state. -/
theorem onActivation_at {d : Driver} {k : Nat} {a : Activation} (ha : d.activations[k]? = some a)
    (change : Activation → Activation) :
    (d.onActivation k change).activations[k]? = some (change a) := by
  simp [onActivation, ha]

theorem saveUpdate_workSide (d : Driver) (s : Services) (now epoch : Nat) (step : String)
    (update : StepUpdate) : (d.saveUpdate s now epoch step update).2.2.workSide = s.workSide :=
  saveUpdate_rule (motive := fun r => r.2.2.workSide = s.workSide) d s now epoch step update
    (fun _ => rfl) fun _ _ _ _ => Services.save_workSide ..

/-- A result that is noted is kept. -/
theorem note_results (l : Ledger) (step : String) (update : StepUpdate) :
    (l.note step update).results step =
      TaskResult.storeAll update.result?.toList (l.results step) := by
  cases update <;> simp [Ledger.note, StepUpdate.result?]

/-! ### Waiting -/

section Awaits

variable (flow : FlowId) (definition : Definition) (k : Nat) (step : String) (l : StepLaunch)
  (rs : List TaskResult) (polls : Nat) (r : Record)

/-- The flow waits for activation `k`, which is that of a launch, and nothing else goes on.  So many
steps are left to its crew; the record was `r` when the step launched its tasks. -/
structure Awaits (n : Nat) (heard : List TaskEvent) (a : Activation) (x : Driver × Services) :
    Prop where
  undisturbed : Undisturbed flow definition x
  active : x.1.active = some k
  quiet : x.1.Quiet none (some k)
  place : x.1.activations[k]? = some a
  own : a.step = step
  listens : a.Listens l heard
  ends : TimedCrew.SeatsEndWithin x.2.polls a.crew.seats n
  yields : ∃ more, TimedCrew.SeatsYield x.2.polls a.crew.seats rs more ∧
    TraceEntry.polls x.2.trace + more = polls
  fits : TraceEntry.Fits x.2.trace
  kept : TaskResult.storeAll (a.updates.filterMap StepUpdate.result?) (x.1.record.results step) =
    a.listener.handler.results
  same : r.KeptBut step x.1.record

/-- The flow has all results of the tasks that the step launched. -/
structure Gathers (x : Driver × Services) : Prop where
  undisturbed : Undisturbed flow definition x
  results : (x.1.record.results step).Perm rs
  polls : TraceEntry.polls x.2.trace = polls
  fits : TraceEntry.Fits x.2.trace
  same : r.KeptBut step x.1.record

end Awaits

namespace Awaits

variable {flow : FlowId} {definition : Definition} {k : Nat} {step : String} {l : StepLaunch}
  {rs : List TaskResult} {polls : Nat} {r : Record} {n : Nat} {heard : List TaskEvent}
  {a : Activation} {x : Driver × Services}
  (h : Awaits flow definition k step l rs polls r n heard a x)
include h

theorem live : x.1.record.state = .running ∧ a.epoch = x.1.epoch ∧ a.aborted = false := by
  obtain ⟨running, stamp⟩ := h.undisturbed.sound.active k h.active
  have own := Option.some.inj ((stamps_eq_some h.place).symm.trans stamp)
  obtain ⟨epoch, aborted⟩ := Prod.mk.inj own
  exact ⟨running, epoch, aborted⟩

/-- Something happens to a worker. -/
theorem works (distinct : (rs.map TaskResult.task).Nodup) {now : Nat}
    (enabled : x.1.Enabled now (.work k)) : ∃ left a', n = left + 1 ∧
      Awaits flow definition k step l rs polls r left heard a' (x.1.perform x.2 now (.work k)) := by
  obtain ⟨-, -, home⟩ := h.live
  obtain ⟨time, due, passed⟩ : ∃ time, a.crew.due = some time ∧ time ≤ now := by
    simpa [Enabled, h.place, Activation.due, home, Option.any_eq_true] using enabled
  obtain ⟨s, hs⟩ := TimedCrew.step?_of_due due passed x.2.polls
  have worked : x.1.perform x.2 now (.work k) =
      (x.1.onActivation k fun _ => { a with crew := s.crew, inbox := a.inbox ++ s.events },
        { x.2 with polls := s.counts, trace := x.2.trace ++ s.trace }) := by
    simp [perform, h.place, Activation.work?, home, hs]
  have staffed := h.listens.runs.staffed
  obtain ⟨left, same, ends⟩ := (TimedCrew.step?_moves hs).seatsEndWithin staffed h.ends
  obtain ⟨more, yields, total⟩ := h.yields
  obtain ⟨fits, more', spent, yields'⟩ := TimedCrew.step?_yields staffed distinct yields hs
  have undisturbed := h.undisturbed.perform now (.work k)
  rw [worked] at undisturbed ⊢
  refine ⟨left, _, same, undisturbed, h.active, h.quiet.onActivation (.inl rfl),
    onActivation_at h.place _, h.own,
    ⟨h.listens.unfailed, h.listens.untold, ?_, h.listens.listener⟩, ends, ⟨more', yields', ?_⟩,
    h.fits.append fits, h.kept, h.same⟩
  · have runs := (TimedCrew.step?_moves hs).runs h.listens.runs
    rwa [List.append_assoc] at runs
  · simp only [TraceEntry.polls_append]
    omega

/-- The listener hears the next event. -/
theorem hears {now : Nat} (enabled : x.1.Enabled now (.hear k)) : ∃ event a',
    2 * a'.inbox.length + a'.updates.length < 2 * a.inbox.length + a.updates.length ∧
      Awaits flow definition k step l rs polls r n (heard ++ [event]) a'
        (x.1.perform x.2 now (.hear k)) := by
  obtain ⟨a', hears⟩ : ∃ a', a.hear? = some a' :=
    Option.isSome_iff_exists.1 (by simpa [Enabled, h.place] using enabled)
  have heardOne : x.1.perform x.2 now (.hear k) = (x.1.onActivation k fun _ => a', x.2) := by
    simp [perform, h.place, hears]
  obtain ⟨event, inbox, saved, undecided, next, rfl⟩ := Activation.hear?_eq_some hears
  have undisturbed := h.undisturbed.perform now (.hear k)
  rw [heardOne] at undisturbed ⊢
  have heard' := Listener.hear_undecided undecided event
  refine ⟨event, _, ?_, undisturbed, h.active, h.quiet.onActivation (.inl rfl),
    onActivation_at h.place _, h.own, ⟨h.listens.unfailed, h.listens.untold, ?_, ?_⟩,
    h.ends, h.yields, h.fits, ?_, h.same⟩
  · have pending := Handler.hear_pending a.listener.handler event
    simp only [heard', next, List.length_cons]
    omega
  · have runs := h.listens.runs
    rwa [next, List.append_cons] at runs
  · rw [Listener.hearAll_concat, ← h.listens.listener]
  · have kept := h.kept
    simp only [saved, List.filterMap_nil, TaskResult.storeAll_nil] at kept
    simp only [heard', Handler.hear_updates, Handler.hear_results, ← kept]
    rfl

/-- What was heard is saved. -/
theorem saves {now : Nat} (enabled : x.1.Enabled now (.save k)) : ∃ a',
    2 * a'.inbox.length + a'.updates.length < 2 * a.inbox.length + a.updates.length ∧
      Awaits flow definition k step l rs polls r n heard a'
        (x.1.perform x.2 now (.save k)) := by
  obtain ⟨-, epoch, -⟩ := h.live
  cases pending : a.updates with
  | nil => simp [Enabled, h.place, pending] at enabled
  | cons update rest =>
    obtain ⟨ok, noting⟩ := saveUpdate_live now epoch h.undisturbed.saving.call.1 a.step update
    have work := saveUpdate_workSide x.1 x.2 now a.epoch a.step update
    have undisturbed := h.undisturbed.perform now (.save k)
    have saved : x.1.perform x.2 now (.save k) =
        ((x.1.applyUpdate (.ofVirtualMs now) a.step update).onActivation k
          ({ · with updates := rest, failure := none }),
          (x.1.saveUpdate x.2 now a.epoch a.step update).2.2) := by
      simp [perform, h.place, h.listens.unfailed, pending, ok, noting]
    rw [saved] at undisturbed ⊢
    generalize (x.1.saveUpdate x.2 now a.epoch a.step update).2.2 = s at *
    obtain ⟨counts, trace, -⟩ := Services.workSide_eq_iff.1 work
    have results := note_results x.1.ledger a.step update
    rw [← applyUpdate_ledger _ (.ofVirtualMs now)] at results
    have same := applyUpdate_keptBut x.1 (.ofVirtualMs now) a.step update
    obtain ⟨r', -, -, rest_⟩ := applyUpdate_eq x.1 (.ofVirtualMs now) a.step update
    rw [rest_] at undisturbed results same ⊢
    have quiet : Quiet { x.1 with record := r' } none (some k) := h.quiet.congr rfl rfl
    refine ⟨_, ?_, undisturbed, h.active, quiet.onActivation (.inl rfl), onActivation_at h.place _,
      h.own, ⟨rfl, h.listens.untold, h.listens.runs, h.listens.listener⟩,
      counts ▸ h.ends, ?_, trace ▸ h.fits, ?_, h.same.trans (h.own ▸ same)⟩
    · simp only [List.length_cons]
      omega
    · rw [counts, trace]
      exact h.yields
    · have kept := h.kept
      have noted : r'.results step =
          TaskResult.storeAll update.result?.toList (x.1.record.results step) := h.own ▸ results
      have first : (update :: rest).filterMap StepUpdate.result? =
          update.result?.toList ++ rest.filterMap StepUpdate.result? := by
        cases update <;> rfl
      rw [pending, first, TaskResult.storeAll_append, ← noted] at kept
      exact kept

/-- Once the decision is told and the crew is home, nothing goes on. -/
theorem silenced (saved : a.updates = []) (decided : a.listener.decision.isSome) :
    ((x.1.onActivation k .tell).onActivation k .abort).Quiet none none := by
  have telling : (x.1.onActivation k .tell).Quiet none (some k) := h.quiet.onActivation (.inl rfl)
  refine telling.onActivation (.inr fun a' ha' => ?_)
  obtain rfl : a.tell = a' := Option.some.inj ((onActivation_at h.place _).symm.trans ha')
  exact h.listens.idle saved decided

section Foreseen

variable {Decides : Transition → Prop} (foreseen : l.Foreseen rs Decides)
include foreseen

/-- After the last event the record has all results, those of the launch are decided on, and all
polls were made. -/
theorem ended (last : .completed ∈ heard) (saved : a.updates = []) : ∃ t, Decides t ∧
    a.listener.decision = some (.ok t) ∧ Gathers flow definition step rs polls r x := by
  obtain ⟨done, -, completes⟩ := h.listens.ended last
  obtain ⟨more, yields, total⟩ := h.yields
  obtain ⟨rfl, rfl⟩ := yields.ends done
  obtain ⟨t, decides, verdict⟩ := foreseen.decides heard completes
  obtain ⟨before, rfl, running, perm⟩ := completes.results
  refine ⟨t, decides, h.listens.listener ▸ verdict, h.undisturbed, ?_, total, h.fits, h.same⟩
  have kept := h.kept
  rw [saved, h.listens.listener, Listener.hearAll_results running, foreseen.unheard] at kept
  have distinct : ((before.filterMap TaskEvent.result?).map TaskResult.task).Nodup :=
    (perm.map TaskResult.task).nodup_iff.2 foreseen.distinct
  rw [TaskResult.storeAll_of_nodup distinct] at kept
  have same : x.1.record.results step = before.filterMap TaskEvent.result? := kept
  exact same ▸ perm

/-- Until the listener tells its decision there is something to do. -/
theorem exists_enabled : ∃ now m, x.1.Enabled now m := by
  obtain ⟨-, -, home⟩ := h.live
  cases pending : a.updates with
  | cons =>
    exact ⟨0, .save k, by simp [Enabled, h.place, pending, h.listens.unfailed]⟩
  | nil =>
    by_cases last : .completed ∈ heard
    · obtain ⟨t, -, decided, -⟩ := h.ended foreseen last pending
      have tells := h.listens.tells pending decided
      exact ⟨0, .decide k, by simp [Enabled, h.place, tells]⟩
    · have undecided := h.listens.undecided last
      cases unheard : a.inbox with
      | cons =>
        have hears : a.hear?.isSome := by simp [Activation.hear?, pending, undecided, unheard]
        exact ⟨0, .hear k, by simp [Enabled, h.place, hears]⟩
      | nil =>
        have going : a.crew.isDone = false := by
          cases done : a.crew.isDone with
          | false => rfl
          | true =>
            have completed := h.listens.runs.completed_mem done
            rw [unheard, List.append_nil] at completed
            exact absurd completed last
        have possible := TimedCrew.exists_moves h.listens.runs.staffed
          (Batch.limit_ne_zero foreseen.permits) h.ends going
        obtain ⟨now, -, due, -⟩ := TimedCrew.step?_of_moves possible
        exact ⟨now, .work k, by simp [Enabled, h.place, Activation.due, home, due]⟩

/-- The listener tells its decision, and the flow takes the edge. -/
theorem decides {now : Nat} (fine : ∀ t, Decides t → x.1.edgeFault? step t = none)
    (enabled : x.1.Enabled now (.decide k)) : ∃ t, Decides t ∧
      Gathers flow definition step rs polls r x ∧
      Takes flow definition x.1.requests.length step t x (x.1.perform x.2 now (.decide k)) := by
  obtain ⟨running, epoch, home⟩ := h.live
  obtain ⟨last, saved⟩ := h.listens.told home (by simpa [Enabled, h.place] using enabled)
  obtain ⟨t, hdecides, decided, gathers⟩ := h.ended foreseen last saved
  refine ⟨t, hdecides, gathers, ?_⟩
  have undisturbed := h.undisturbed.perform now (.decide k)
  have told : x.1.perform x.2 now (.decide k) =
      (x.1.onActivation k .tell).decide x.2 now a.epoch a.step (.ok t) := by
    simp [perform, h.place, h.listens.tells saved decided]
  rw [told] at undisturbed ⊢
  revert undisturbed
  -- nothing else has happened since the launch, and a lease is given: the decision takes effect
  refine decide_rule _ x.2 now a.epoch a.step (.ok t) ?stale ?unleased ?decided
  case stale => exact fun stale => absurd stale (by simp [epoch, running, onActivation])
  case unleased =>
    intro e s' _ _ free refused
    have registered : Registered ((x.1.onActivation k .tell).retired, x.2) :=
      h.undisturbed.registered.congr (retired_lease _) (retired_flow _) rfl
    exact (registered.not_refused free refused).elim
  case decided =>
    rintro lease s' d' - - leased rfl undisturbed
    let d : Driver := { (x.1.onActivation k .tell).retired with lease := some lease }
    have drives : d.definition = x.1.definition := retired_definition _
    have same : d.record = x.1.record := retired_record _
    have applied : d.applyDecision (.ofVirtualMs now) a.step (.ok t) =
        d.takeEdge (.ofVirtualMs now) step t :=
      h.own ▸ applyEdge_of_fine drives (h.own ▸ fine t hdecides) _
    have works : s'.saving.call.1 = false := by
      rw [show s'.saving = x.2.saving from congrArg Prod.snd leased.storeSide]
      exact h.undisturbed.saving.call.1
    have routed := takeEdge_routed (d := d) (.ofVirtualMs now) step t (same ▸ running)
    let carried := (d.takeEdge (.ofVirtualMs now) step t).carryOn s' now
    have requests : carried.2.1.requests = x.1.requests :=
      (carryOn_requests ..).trans (routed.requests.trans (retired_requests _))
    have activations : carried.2.1.activations =
        ((x.1.onActivation k .tell).onActivation k .abort).activations := by
      refine (carryOn_activations ..).trans (routed.activations.trans ?_)
      simp [d, retired, nextEpoch, onActivation, h.active]
    have quiet : carried.2.1.Quiet none none :=
      (h.silenced saved (by simp [decided])).congr requests activations
    rw [applied] at undisturbed ⊢
    refine CarriedOn.takes drives same (.of_routed routed (retired_active _) works carried rfl
      undisturbed rfl rfl ?_ ?_ fun request goes => ?_)
    · exact (carryOn_workSide ..).trans leased.workSide
    · show (carried.2.1.requests ++ [carried.1])[x.1.requests.length]? = some carried.1
      rw [requests]
      simp
    · exact quiet.addRequest (requests ▸ goes)

/-- **Tasks that nobody disturbs are awaited.**  In whatever order crew, listener and driver take
their turns, at last the flow has all results and takes the edge that was decided on. -/
theorem settles
    (fine : ∀ d : Driver, d.definition = definition → ∀ t, Decides t → d.edgeFault? step t = none)
    {Over : Driver × Services → Prop}
    (next : ∀ z y i t, Decides t → Gathers flow definition step rs polls r z →
      Takes flow definition i step t z y → Settles Over y) : Settles Over x := by
  -- a worker's step leaves fewer of them; else the crew rests, and less is to be heard and saved
  induction n using Nat.strongRecOn generalizing heard a x with
  | _ n fewer =>
  generalize pending : 2 * a.inbox.length + a.updates.length = m
  induction m using Nat.strongRecOn generalizing heard a x with
  | _ m less =>
  have known : x.1.published.isSettled = false := by rw [h.undisturbed.known, h.live.1]; rfl
  refine .moves known (h.exists_enabled foreseen) fun now move enabled => ?_
  rcases h.quiet.enabled h.undisturbed.unarmed enabled with ⟨_, nothing, -⟩ | ⟨_, same, possible⟩
  · cases nothing
  obtain rfl := Option.some.inj same
  simp only [List.mem_cons, List.not_mem_nil, or_false] at possible
  rcases possible with rfl | rfl | rfl | rfl
  · obtain ⟨left, a', rfl, worked⟩ := h.works foreseen.distinct enabled
    exact fewer left (Nat.lt_succ_self left) worked
  · obtain ⟨a', smaller, saved⟩ := h.saves enabled
    exact less _ (pending ▸ smaller) saved rfl
  · obtain ⟨t, decides, gathers, takes⟩ :=
      h.decides foreseen (fine x.1 h.undisturbed.drives) enabled
    exact next x _ _ t decides gathers takes
  · obtain ⟨event, a', smaller, heardOne⟩ := h.hears enabled
    exact less _ (pending ▸ smaller) heardOne rfl

end Foreseen

end Awaits

/-! ### Launching -/

/-- One more activation. -/
theorem Quiet.addActivation {d d' : Driver} {a : Activation} (h : d.Quiet none none)
    (requests : d'.requests = d.requests) (activations : d'.activations = d.activations ++ [a]) :
    d'.Quiet none (some d.activations.length) := by
  refine ⟨requests ▸ h.requests, fun j a' ha' => ?_⟩
  rw [activations] at ha'
  rcases Nat.lt_or_ge j d.activations.length with old | new
  · rw [List.getElem?_append_left old] at ha'
    exact .inr ((h.activations j a' ha').resolve_left (by simp))
  · have bound := (List.getElem?_eq_some_iff.1 ha').1
    rw [List.length_append, List.length_singleton] at bound
    exact .inl (congrArg some (Nat.le_antisymm new (Nat.le_of_lt_succ bound)))

/-- What a launch leaves: the request is answered, and there is one more activation. -/
structure HasLaunched (i : Nat) (id : String) (now : Nat) (l : StepLaunch)
    (x y : Driver × Services) : Prop where
  active : y.1.active = some x.1.activations.length
  activations : y.1.activations = x.1.activations ++ [.start id (x.1.epoch + 1) now l]
  requests : ∃ outcome, y.1.requests = (x.1.setRequest i (.answered outcome)).requests
  same : x.1.record.KeptBut id y.1.record
  results : y.1.record.results id = x.1.record.results id
  polls : y.2.polls = x.2.polls
  trace : y.2.trace = x.2.trace

section Launching

variable {flow : FlowId} {definition : Definition} {i : Nat} {x : Driver × Services}
  {id : String} {step : Step} {l : StepLaunch}

/-- A step answers with tasks to launch. -/
theorem TakesTurn.launches {e : Execution} {z : Driver × Services}
    (turn : TakesTurn flow definition i step x e z) (before : OnTurn flow definition i x)
    (own : step.id = id)
    (answers : ∀ turn, ((step.execute turn x.1.record).answer x.2.ids.tasks).1 =
      .ofLaunch l.batch l.handler) {now : Nat} (due : e.due ≤ now) :
    HasLaunched i id now l x (z.1.perform z.2 now (.proceed i)) := by
  obtain ⟨counts, trace, ids⟩ := Services.workSide_eq_iff.1 turn.work
  obtain ⟨number, answer⟩ := turn.answer
  have answered : (z.2.drawing e.answer).1 = .ofLaunch l.batch l.handler := by
    simp [Services.drawing, answer, ids, answers]
  have current : (z.1.epoch ≠ e.epoch || !z.1.isRunning) = false := by
    simp [turn.driver, turn.epoch, isRunning, setRequest, before.running]
  let logged := z.1.logStep (.ofVirtualMs now) id []
  let saved := (logged.launch now id l).persist (z.2.drawing e.answer).2 now
  have concludes : z.1.conclude z.2 now e =
      (.answered saved.1, saved.2.1.releaseLease saved.2.2) := by
    simp only [conclude, current, answered, turn.own.trans own, StepAnswer.ofLaunch]
    rfl
  have performs : z.1.perform z.2 now (.proceed i) =
      ((saved.2.1.releaseLease saved.2.2).1.setRequest i (.answered saved.1),
        (saved.2.1.releaseLease saved.2.2).2) := by
    simp only [perform, proceed, turn.executing before, due, if_true, concludes]
  -- beside the store and the locks only identifiers are drawn
  have work : (saved.2.1.releaseLease saved.2.2).2.workSide =
      (z.2.drawing e.answer).2.workSide :=
    (releaseLease_workSide ..).trans (persist_workSide ..)
  obtain ⟨counts', trace', -⟩ := Services.workSide_eq_iff.1 work
  have ledger := launched_ledger z.1 (z.2.drawing e.answer).2 now id [] l
  obtain ⟨record, rest⟩ : ∃ r, logged = { x.1.setRequest i (.executing e) with record := r } :=
    ⟨logged.record, by simp only [logged, turn.driver, logStep_eq, onRecord]⟩
  rw [performs]
  constructor
  · simp [setRequest, saved, rest]
  · simp [setRequest, saved, rest]
  · exact ⟨saved.1, by simp [setRequest, saved, rest]⟩
  · have same := (logStep_keptBut z.1 (.ofVirtualMs now) id []).trans
      (launch_keptBut logged id now l)
    rw [turn.driver] at same
    simpa [setRequest, saved] using same.touch _
  · have results : (saved.2.1.releaseLease saved.2.2).1.record.results = z.1.record.results :=
      congrArg Ledger.results ((releaseLease_ledger ..).trans ledger)
    rw [turn.driver] at results
    exact congrFun results id
  · exact counts'.trans counts
  · exact trace'.trans trace

variable {rs : List TaskResult} {polls : Nat} {Decides : Transition → Prop}
  (before : OnTurn flow definition i x) (new : x.1.record.results id = [])
  (foreseen : l.Foreseen rs Decides) (calls : ∀ c ∈ l.batch.launches, c.Answers)
  (yields : Launch.AllYield l.batch.launches rs polls)
  (fresh : ∀ key, ∀ c ∈ l.batch.launches, x.2.polls.asked (key, c.job.id) = 0)
  (fits : TraceEntry.Fits x.2.trace)
include before new foreseen calls yields fresh fits

/-- Then the flow waits for these tasks. -/
theorem HasLaunched.awaits {now : Nat} {y : Driver × Services}
    (launched : HasLaunched i id now l x y) (undisturbed : Undisturbed flow definition y) :
    ∃ n, Awaits flow definition x.1.activations.length id l rs
      (TraceEntry.polls x.2.trace + polls) x.1.record n [] (.start id (x.1.epoch + 1) now l) y := by
  obtain ⟨outcome, requests⟩ := launched.requests
  obtain ⟨n, ends⟩ := TimedCrew.SeatsEndWithin.ofLaunches calls
  have answered : (x.1.setRequest i (.answered outcome)).Quiet none none :=
    before.quiet.setRequest (.inr ⟨outcome, rfl⟩)
  refine ⟨n, undisturbed, launched.active, answered.addActivation requests launched.activations, ?_,
    rfl, ⟨rfl, rfl, .assemble (TimedWorker.staff_employs now), rfl⟩, ?_,
    ⟨polls, ?_, by rw [launched.trace]⟩, launched.trace ▸ fits, ?_, launched.same⟩
  · rw [launched.activations, List.getElem?_concat_length]
  · exact (ends y.2.polls).fills (Crew.fill_fills ..)
  · rw [launched.polls]
    exact yields.assemble fresh now
  · rw [launched.results, new]
    exact foreseen.unheard.symm

/-- **A step that launches tasks has the flow wait for them**, and then take the edge that their
handler decides on. -/
theorem OnTurn.launches {step : Step} (here : x.1.record.currentStep = some id)
    (known : definition.step? id = some step)
    (answers : ∀ turn, ((step.execute turn x.1.record).answer x.2.ids.tasks).1 =
      .ofLaunch l.batch l.handler)
    (fine : ∀ d : Driver, d.definition = definition → ∀ t, Decides t → d.edgeFault? id t = none)
    {Over : Driver × Services → Prop}
    (next : ∀ z y j t, Decides t →
      Gathers flow definition id rs (TraceEntry.polls x.2.trace + polls) x.1.record z →
      Takes flow definition j id t z y → Settles Over y) : Settles Over x := by
  refine before.settles here known fun e z turn now due => ?_
  have own : step.id = id := by simpa using List.find?_some known
  obtain ⟨n, awaits⟩ := (turn.launches before own answers due).awaits before new foreseen calls
    yields fresh fits (turn.undisturbed.perform ..)
  exact awaits.settles foreseen fine next

end Launching

end Driver

end Workflow
