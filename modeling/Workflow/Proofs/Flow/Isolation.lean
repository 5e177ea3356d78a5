import Workflow.Proofs.Flow.Calls

/-!
# Workflow.Proofs.Flow.Isolation — drivers of different flows do not interfere

Drivers of different flows share one store and one lock service, and each of them may be interrupted
between any two of its calls.  What one flow has of the shared services is its projection,
`Services.only`: its record, its saves and its lease.  The calls that a driver makes are on behalf
of its own flow (`Driver.calls_within`), so they commute with this projection, and calls of other
drivers leave it alone.  Hence `flows_do_not_interfere`: the projection of a run is a run of the
flow alone.
-/

namespace Workflow

/-! ### What one flow has of the services -/

namespace Table

variable {κ ν : Type} [DecidableEq κ]

/-- The table with one key at most. -/
def only (t : Table κ ν) (key : κ) : Table κ ν := (t.get? key).elim .empty (Table.empty.put key)

variable {t t' : Table κ ν} {key k : κ}

theorem only_congr (h : t'.get? key = t.get? key) : t'.only key = t.only key := by
  rw [only, only, h]

@[simp] theorem get?_only (t : Table κ ν) (key : κ) : (t.only key).get? key = t.get? key := by
  unfold only
  cases t.get? key <;> simp

theorem only_put (t : Table κ ν) (key : κ) (value : ν) :
    (t.put key value).only key = (t.only key).put key value := by
  unfold only
  rw [get?_put_self]
  cases t.get? key with
  | none => rfl
  | some old => exact (put_put ..).symm

theorem only_erase (t : Table κ ν) (key : κ) : (t.erase key).only key = (t.only key).erase key := by
  unfold only
  rw [get?_erase_self]
  cases t.get? key with
  | none => rfl
  | some old => simp [erase, put, empty, insert]

end Table

/-- The store with one flow at most. -/
def Store.only (s : Store) (flow : FlowId) : Store := ⟨s.kept.only flow⟩

/-- The leases of one flow. -/
def Locks.only (l : Locks) (flow : FlowId) : Locks := ⟨l.held.only flow⟩

@[simp] theorem Store.find?_only (s : Store) (flow : FlowId) :
    (s.only flow).find? flow = s.find? flow := by
  simp [only, find?]

@[simp] theorem Store.saves_only (s : Store) (flow : FlowId) :
    (s.only flow).saves flow = s.saves flow := by
  simp [only, saves]

theorem Store.save_only (s : Store) (r : Record) :
    (s.only r.flow).save r = (s.save r).only r.flow := by
  rw [save, saves_only, save, only, only, Table.only_put]

@[simp] theorem Locks.isHeld_only (l : Locks) (flow : FlowId) :
    (l.only flow).isHeld flow = l.isHeld flow := by
  simp [only, isHeld, Table.contains]

theorem Locks.acquire_only (l : Locks) (flow : FlowId) (ids : IdStream .lease) :
    (l.only flow).acquire flow ids =
      ((l.acquire flow ids).1, (l.acquire flow ids).2.1.only flow, (l.acquire flow ids).2.2) := by
  simp only [acquire, isHeld_only]
  split
  · rfl
  · simp only [only, Table.only_put]

theorem Locks.release_only (l : Locks) (lease : Lease) :
    (l.only lease.flow).release lease = (l.release lease).only lease.flow := by
  simp only [release, only, Table.get?_only]
  split
  · rw [Table.only_erase]
  · rfl

namespace Services

/-- What a flow has of the store and the lock service, and all the rest. -/
def only (s : Services) (flow : FlowId) : Services :=
  { s with store := s.store.only flow, locks := s.locks.only flow }

/-- The store and the lock service of one, amid all the rest of the other. -/
def beside (s own : Services) : Services := { s with store := own.store, locks := own.locks }

/-- A flow's record is kept under its own identifier. -/
def Keeps (flow : FlowId) (s : Services) : Prop :=
  ∀ r, s.store.find? flow = some r → r.flow = flow

/-- A flow has the same of both services: its record, its saves and its lease. -/
structure Spares (flow : FlowId) (s s' : Services) : Prop where
  kept : s'.store.kept.get? flow = s.store.kept.get? flow
  held : s'.locks.held.get? flow = s.locks.held.get? flow

theorem Spares.refl (flow : FlowId) (s : Services) : Spares flow s s := ⟨rfl, rfl⟩

section Only

variable {s s' : Services} {flow : FlowId}

theorem Spares.only (h : Spares flow s s') : s'.only flow = s'.beside (s.only flow) := by
  simp only [Services.only, beside, Store.only, Locks.only, Table.only_congr h.kept,
    Table.only_congr h.held]

theorem Spares.keeps (h : Spares flow s s') (keeps : s.Keeps flow) : s'.Keeps flow := by
  intro r hr
  refine keeps r ?_
  rwa [Store.find?, h.kept] at hr

/-! ### Calls of the flow itself -/

theorem save_only (s : Services) {r : Record} (own : r.flow = flow) :
    (s.only flow).save r = ((s.save r).1, (s.save r).2.only flow) := by
  subst own
  rcases h : s.saving.call with ⟨fails, saving⟩
  cases fails with
  | true => simp [Services.save, Services.only, h]
  | false => simp [Services.save, Services.only, h, Store.save_only]

theorem find_only (s : Services) (flow : FlowId) :
    (s.only flow).find flow = ((s.find flow).1, (s.find flow).2.only flow) := by
  rcases h : s.finding.call with ⟨fails, finding⟩
  cases fails <;> simp [Services.find, Services.lookUp, Services.only, h]

theorem acquire_only (s : Services) (flow : FlowId) :
    (s.only flow).acquire flow = ((s.acquire flow).1, (s.acquire flow).2.only flow) := by
  rcases h : s.acquiring.call with ⟨fails, acquiring⟩
  cases fails with
  | true => simp [Services.acquire, Services.only, h]
  | false => simp [Services.acquire, Services.only, h, Locks.acquire_only]

theorem release_only (s : Services) {lease : Lease} (own : lease.flow = flow) :
    (s.only flow).release lease = ((s.release lease).1, (s.release lease).2.only flow) := by
  subst own
  rcases h : s.releasing.call with ⟨fails, releasing⟩
  cases fails with
  | true => simp [Services.release, Services.only, h]
  | false => simp [Services.release, Services.only, h, Locks.release_only]

/-! ### Calls of other flows -/

theorem save_spares (s : Services) {r : Record} (other : r.flow ≠ flow) :
    Spares flow s (s.save r).2 := by
  simp only [Services.save]
  split
  · exact ⟨rfl, rfl⟩
  · exact ⟨Table.get?_put_of_ne _ _ (Ne.symm other), rfl⟩

theorem find_spares (s : Services) (other : FlowId) : Spares flow s (s.find other).2 := by
  simp only [Services.find, Services.lookUp]
  split <;> exact ⟨rfl, rfl⟩

theorem acquire_spares (s : Services) {other : FlowId} (h : other ≠ flow) :
    Spares flow s (s.acquire other).2 := by
  simp only [Services.acquire, Locks.acquire]
  split
  · exact ⟨rfl, rfl⟩
  · split
    · exact ⟨rfl, rfl⟩
    · exact ⟨rfl, Table.get?_put_of_ne _ _ (Ne.symm h)⟩

theorem release_spares (s : Services) {lease : Lease} (other : lease.flow ≠ flow) :
    Spares flow s (s.release lease).2 := by
  simp only [Services.release, Locks.release]
  split
  · exact ⟨rfl, rfl⟩
  · split
    · exact ⟨rfl, Table.get?_erase_of_ne _ (Ne.symm other)⟩
    · exact ⟨rfl, rfl⟩

/-- A lease that is given is one of the flow that was asked for. -/
theorem acquire_flow {s : Services} {lease : Lease} (h : (s.acquire flow).1 = .ok lease) :
    lease.flow = flow := by
  simp only [Services.acquire, Locks.acquire] at h
  split at h
  · cases h
  · split at h
    · cases h
    · cases h
      rfl

end Only

end Services

/-! ### Calls on behalf of one flow -/

namespace Calls

variable {α β : Type} {flow other : FlowId} {Q : α → Prop} {c : Calls α} {s : Services}

/-- All calls are on behalf of one flow, whatever the answers are, and the outcome is as it should
be. -/
def Within (flow : FlowId) (Q : α → Prop) : Calls α → Prop
  | done a => Q a
  | save r next => r.flow = flow ∧ ∀ reply, (next reply).Within flow Q
  | find asked next => asked = flow ∧
    ∀ reply, (∀ r, reply = .ok (some r) → r.flow = flow) → (next reply).Within flow Q
  | acquire asked next => asked = flow ∧
    ∀ reply, (∀ lease, reply = .ok lease → lease.flow = flow) → (next reply).Within flow Q
  | release lease next => lease.flow = flow ∧ ∀ reply, (next reply).Within flow Q
  | aside change next =>
    (∀ s own, change (s.beside own) = (change s).beside own ∧ next (s.beside own) = next s) ∧
      ∀ s, (next s).Within flow Q

theorem Within.bind {P : β → Prop} {f : α → Calls β} (h : c.Within flow Q)
    (next : ∀ a, Q a → (f a).Within flow P) : (c.bind f).Within flow P := by
  induction c with
  | done a => exact next a h
  | save r rest ih => exact ⟨h.1, fun reply => ih reply (h.2 reply)⟩
  | find asked rest ih => exact ⟨h.1, fun reply good => ih reply (h.2 reply good)⟩
  | acquire asked rest ih => exact ⟨h.1, fun reply good => ih reply (h.2 reply good)⟩
  | release lease rest ih => exact ⟨h.1, fun reply => ih reply (h.2 reply)⟩
  | aside change rest ih =>
    refine ⟨fun s own => ⟨(h.1 s own).1, ?_⟩, fun s => ih s (h.2 s)⟩
    exact congrArg (·.bind f) (h.1 s own).2

/-- What concerns neither the store nor the lock service leaves them alone. -/
theorem beside_of_aside {change : Services → Services}
    (h : ∀ s own : Services, change (s.beside own) = (change s).beside own) (s : Services) :
    (change s).store = s.store ∧ (change s).locks = s.locks := by
  have same : change s = (change s).beside s := h s s
  rw [same]
  exact ⟨rfl, rfl⟩

/-- What is left after a call is on behalf of the same flow. -/
theorem Within.step (h : c.Within flow Q) (keeps : s.Keeps flow) : (c.step s).1.Within flow Q := by
  cases c with
  | done a => exact h
  | save r next => exact h.2 _
  | find asked next =>
    obtain ⟨rfl, next⟩ := h
    exact next _ fun r hr => keeps r (Driver.find_ok hr)
  | acquire asked next =>
    obtain ⟨rfl, next⟩ := h
    exact next _ fun lease => Services.acquire_flow
  | release lease next => exact h.2 _
  | aside change next => exact h.2 _

/-- After a call the flow's record is still kept under its own identifier. -/
theorem Within.keeps (h : c.Within flow Q) (keeps : s.Keeps flow) : (c.step s).2.Keeps flow := by
  cases c with
  | done a => exact keeps
  | save r next =>
    obtain ⟨rfl, -⟩ := h
    intro r' hr'
    simp only [Calls.step, Services.save] at hr'
    split at hr'
    · exact keeps r' hr'
    · rw [Driver.find?_save] at hr'
      cases hr'
      rfl
  | find asked next =>
    exact (Services.find_spares s asked).keeps keeps
  | acquire asked next =>
    intro r hr
    refine keeps r ?_
    have same : (s.acquire asked).2.store = s.store := by
      simp only [Services.acquire]
      split <;> rfl
    rwa [Calls.step, same] at hr
  | release lease next =>
    intro r hr
    refine keeps r ?_
    have same : (s.release lease).2.store = s.store := by
      simp only [Services.release]
      split <;> rfl
    rwa [Calls.step, same] at hr
  | aside change next =>
    intro r hr
    refine keeps r ?_
    rwa [Calls.step, (beside_of_aside (fun s own => (h.1 s own).1) s).1] at hr

/-- A call on behalf of a flow is the same on what the flow has of the services. -/
theorem Within.only (h : c.Within flow Q) :
    c.step (s.only flow) = ((c.step s).1, (c.step s).2.only flow) := by
  cases c with
  | done a => rfl
  | save r next => simp only [Calls.step, s.save_only h.1]
  | find asked next =>
    obtain ⟨rfl, -⟩ := h
    simp only [Calls.step, s.find_only]
  | acquire asked next =>
    obtain ⟨rfl, -⟩ := h
    simp only [Calls.step, s.acquire_only]
  | release lease next => simp only [Calls.step, s.release_only h.1]
  | aside change next =>
    obtain ⟨same, -⟩ := h
    have here : s.only flow = s.beside (s.only flow) := rfl
    obtain ⟨store, locks⟩ := beside_of_aside (fun s own => (same s own).1) s
    rw [here]
    simp only [Calls.step, (same s (s.only flow)).1, (same s (s.only flow)).2]
    simp only [Services.beside, Services.only, store, locks]

/-- A call on behalf of another flow leaves what a flow has of the services. -/
theorem Within.spares (h : c.Within other Q) (distinct : other ≠ flow) :
    s.Spares flow (c.step s).2 := by
  cases c with
  | done a => exact .refl flow s
  | save r next => exact s.save_spares (h.1 ▸ distinct)
  | find asked next => exact s.find_spares asked
  | acquire asked next => exact s.acquire_spares (h.1 ▸ distinct)
  | release lease next => exact s.release_spares (h.1 ▸ distinct)
  | aside change next =>
    obtain ⟨store, locks⟩ := beside_of_aside (fun s own => (h.1 s own).1) s
    exact ⟨congrArg (·.kept.get? flow) store, congrArg (·.held.get? flow) locks⟩

end Calls

namespace Driver

/-! ### Drivers ask on behalf of their own flow -/

/-- Everything that a driver has is its flow's. -/
structure BelongsTo (flow : FlowId) (d : Driver) : Prop where
  drives : d.flow = flow
  record : d.record.flow = flow
  lease : ∀ lease, d.lease = some lease → lease.flow = flow

section BelongsTo

variable {flow : FlowId} {d d' : Driver} (h : d.BelongsTo flow)

include h

theorem BelongsTo.congr (same : d'.flow = d.flow) (record : d'.record.flow = d.record.flow)
    (lease : d'.lease = d.lease) : d'.BelongsTo flow :=
  ⟨same.trans h.drives, record.trans h.record, lease ▸ h.lease⟩

theorem BelongsTo.abortActive : d.abortActive.BelongsTo flow :=
  h.congr (by simp) (by simp) (by simp)

theorem BelongsTo.logStep (now : Instant) (step : String) (entries : List LogEntry) :
    (d.logStep now step entries).BelongsTo flow := by
  refine h.congr ?_ (logStep_extends ..).flow ?_ <;> rw [logStep_eq] <;> rfl

theorem BelongsTo.launch (now : Nat) (step : String) (l : StepLaunch) :
    (d.launch now step l).BelongsTo flow :=
  h.congr (by simp) (logStep_extends d.nextEpoch ..).flow (by simp)

/-- An edge or an error. -/
theorem BelongsTo.applyDecision (now : Instant) (step : String) (decision : Decision)
    (running : d.record.state = .running) : (d.applyDecision now step decision).BelongsTo flow :=
  have routed := applyDecision_routed now step decision running
  h.congr routed.flow (applyDecision_revised now step running decision).flow routed.lease

variable (now : Nat)

theorem persist_within : (d.persistCalls now).Within flow fun x => x.2.BelongsTo flow :=
  ⟨h.record, fun _ => h.congr rfl rfl rfl⟩

theorem acquireLease_within : d.acquireLeaseCalls.Within flow
    fun x => x.2.BelongsTo flow ∧ x.2.record = d.record := by
  unfold acquireLeaseCalls
  cases d.lease with
  | some lease => exact ⟨h, rfl⟩
  | none =>
    refine ⟨h.drives, fun reply good => ?_⟩
    cases reply with
    | error e => exact ⟨h, rfl⟩
    | ok lease =>
      refine ⟨⟨h.drives, h.record, fun lease' same => ?_⟩, rfl⟩
      cases same
      exact good lease rfl

theorem releaseLease_within : d.releaseLeaseCalls.Within flow (·.BelongsTo flow) := by
  unfold releaseLeaseCalls
  cases has : d.lease with
  | none => exact h
  | some lease => exact ⟨h.lease lease has, fun _ => ⟨h.drives, h.record, by simp⟩⟩

theorem settle_within : d.settleCalls.Within flow (·.BelongsTo flow) :=
  releaseLease_within (h.congr rfl rfl rfl)

theorem start_within : (d.startCalls now).Within flow fun x => x.2.BelongsTo flow := by
  unfold startCalls
  split
  · exact h
  · refine (acquireLease_within h).bind fun x ⟨drives, _⟩ => ?_
    rcases x with ⟨outcome, d⟩
    cases outcome with
    | error e => exact drives
    | ok _ =>
      have started :
          ((d.onRecord (·.start d.definition.firstStep)).armWatchdog now).BelongsTo flow :=
        drives.congr rfl rfl rfl
      exact persist_within started now

theorem resume_within : (d.resumeCalls now).Within flow fun x => x.2.BelongsTo flow := by
  unfold resumeCalls
  split
  · exact h
  · refine ⟨h.drives, fun reply good => ?_⟩
    match reply, good with
    | .error e, _ => exact h
    | .ok none, _ => exact h
    | .ok (some stored), good =>
      simp only
      cases resumeFault? d.flow stored with
      | some fault => exact h
      | none =>
        refine (acquireLease_within h).bind fun x ⟨drives, _⟩ => ?_
        rcases x with ⟨outcome, d⟩
        cases outcome with
        | error e => exact drives
        | ok _ =>
          let entered : Driver :=
            { d.nextEpoch with
              record := (stored.setResult .unknown).start d.definition.firstStep }
          have resumed : (entered.armWatchdog now).BelongsTo flow :=
            ⟨drives.drives, good stored rfl, drives.lease⟩
          exact persist_within resumed now

theorem pause_within : (d.pauseCalls now).Within flow fun x => x.2.BelongsTo flow := by
  unfold pauseCalls
  cases d.record.state with
  | running =>
    have aborted : (d.nextEpoch.abortActive.onRecord .pause).BelongsTo flow :=
      (BelongsTo.abortActive (d := d.nextEpoch) (h.congr rfl rfl rfl)).congr rfl rfl rfl
    refine (persist_within aborted now).bind fun x drives => ?_
    exact (settle_within drives).bind fun d settled => settled
  | created | paused | completed => exact h

theorem moveTo_within (step : String) :
    (d.moveToCalls now step).Within flow fun x => x.2.BelongsTo flow := by
  unfold moveToCalls
  split
  · exact h
  · split
    · exact h
    · have moved : (d.onRecord (·.advanceTo step)).BelongsTo flow := h.congr rfl rfl rfl
      exact persist_within moved now

omit h in
theorem look_within (d : Driver) (now : Nat) : (d.lookCalls now).Within flow fun _ => True := by
  unfold lookCalls
  split
  · trivial
  · cases d.record.currentStep with
    | none => trivial
    | some id =>
      simp only
      cases d.definition.step? id with
      | none => trivial
      | some step => exact ⟨fun _ _ => ⟨rfl, rfl⟩, fun _ => trivial⟩

theorem carryOn_within : (d.carryOnCalls now).Within flow fun x => x.2.BelongsTo flow := by
  refine (persist_within h now).bind fun x drives => ?_
  rcases x with ⟨outcome, d⟩
  cases outcome with
  | error e => exact drives
  | ok _ =>
    simp only
    split
    · exact drives
    · exact (settle_within drives).bind fun d settled => settled

theorem concluded_within (e : Execution) (answer : StepAnswer) :
    (d.concludedCalls now e answer).Within flow fun x => x.2.BelongsTo flow := by
  unfold concludedCalls
  split
  · exact h
  · rename_i goes
    have running : d.record.state = .running := by
      simp only [Bool.or_eq_true, not_or, isRunning] at goes
      simpa using goes.2
    cases answer.outcome with
    | error error => exact carryOn_within (h.applyDecision _ e.step (.error error) running) now
    | ok t =>
      simp only
      split
      · exact carryOn_within (h.applyDecision _ e.step (.ok t) running) now
      · have logged := h.logStep (.ofVirtualMs now) e.step t.log
        refine Calls.Within.bind (persist_within ?_ now) fun x drives =>
          (releaseLease_within drives).bind fun d released => released
        cases answer.launch with
        | none => exact logged
        | some l => exact logged.launch now e.step l

theorem conclude_within (e : Execution) :
    (d.concludeCalls now e).Within flow fun x => x.2.BelongsTo flow :=
  ⟨fun _ _ => ⟨rfl, rfl⟩, fun _ => concluded_within h now e _⟩

theorem proceed_within (i : Nat) : (d.proceedCalls now i).Within flow (·.BelongsTo flow) := by
  unfold proceedCalls
  cases d.requests[i]? with
  | none => exact h
  | some r =>
    cases r with
    | answered outcome => exact h
    | ready => exact (look_within d now).bind fun r _ => h.congr rfl rfl rfl
    | executing e =>
      simp only
      split
      · exact (conclude_within h now e).bind fun x drives => drives.congr rfl rfl rfl
      · exact h

theorem saveUpdate_within (epoch : Nat) (step : String) (update : StepUpdate) :
    (d.saveUpdateCalls now epoch step update).Within flow fun x => x.2.BelongsTo flow := by
  unfold saveUpdateCalls
  split
  · exact h
  · have applied : (d.applyUpdate (.ofVirtualMs now) step update).BelongsTo flow := by
      obtain ⟨r, -, -, heq⟩ := applyUpdate_eq d (.ofVirtualMs now) step update
      refine h.congr ?_ (applyUpdate_revised d (.ofVirtualMs now) step update).flow ?_ <;> rw [heq]
    exact ⟨applied.record, fun _ => applied⟩

theorem decide_within (epoch : Nat) (step : String) (decision : Decision) :
    (d.decideCalls now epoch step decision).Within flow (·.BelongsTo flow) := by
  unfold decideCalls
  split
  · exact h
  · rename_i goes
    have running : d.record.state = .running := by
      simp only [Bool.or_eq_true, not_or, isRunning] at goes
      simpa using goes.2
    have aborted : d.nextEpoch.abortActive.BelongsTo flow :=
      BelongsTo.abortActive (h.congr rfl rfl rfl)
    refine (acquireLease_within aborted).bind fun x kept => ?_
    obtain ⟨drives, same⟩ := kept
    rcases x with ⟨outcome, d'⟩
    cases outcome with
    | error e => exact drives
    | ok _ =>
      have runs : d'.record.state = .running := by
        rw [same, abortActive_record]
        exact running
      exact (carryOn_within (drives.applyDecision _ step decision runs) now).bind
        fun x carried => carried.congr rfl rfl rfl

theorem expire_within : (d.expireCalls now).Within flow (·.BelongsTo flow) := by
  unfold expireCalls
  simp only
  split
  · exact h.congr rfl rfl rfl
  · have aborted : ({ d with watchdog := none } : Driver).nextEpoch.abortActive.BelongsTo flow :=
      BelongsTo.abortActive (h.congr rfl rfl rfl)
    refine (persist_within ?_ now).bind fun x drives => releaseLease_within drives
    exact aborted.congr rfl rfl rfl

theorem work_within (i : Nat) : (d.workCalls now i).Within flow (·.BelongsTo flow) := by
  refine ⟨fun s own => ⟨?_, rfl⟩, fun s => ?_⟩
  · simp only [Services.beside]
    cases d.activations[i]?.bind (·.work? now s.polls) <;> rfl
  · simp only
    cases d.activations[i]?.bind (·.work? now s.polls) with
    | none => exact h
    | some a => exact h.congr rfl rfl rfl

theorem save_within (i : Nat) : (d.saveCalls now i).Within flow (·.BelongsTo flow) := by
  unfold saveCalls
  cases d.activations[i]? with
  | none => exact h
  | some a =>
    simp only
    cases a.failure with
    | some e => exact h
    | none =>
      cases a.updates with
      | nil => exact h
      | cons update rest =>
        exact (saveUpdate_within h now a.epoch a.step update).bind
          fun x drives => drives.congr rfl rfl rfl

/-- **All calls of a driver are on behalf of its own flow.** -/
theorem calls_within (e : Event) : (d.calls e).Within flow (·.BelongsTo flow) := by
  cases e with
  | outside change => exact h
  | update now i update =>
    simp only [calls]
    cases d.activations[i]? with
    | none => exact h
    | some a => exact (saveUpdate_within h now _ _ update).bind fun x drives => drives
  | decision now i decision =>
    simp only [calls]
    cases d.activations[i]? with
    | none => exact h
    | some a => exact decide_within h now _ _ decision
  | move now m =>
    cases m with
    | start => exact (start_within h now).bind fun x drives => drives.congr rfl rfl rfl
    | resume => exact (resume_within h now).bind fun x drives => drives.congr rfl rfl rfl
    | pause => exact (pause_within h now).bind fun x drives => drives.congr rfl rfl rfl
    | moveTo step => exact (moveTo_within h now step).bind fun x drives => drives.congr rfl rfl rfl
    | proceed i => exact proceed_within h now i
    | work i => exact work_within h now i
    | save i => exact save_within h now i
    | hear i =>
      simp only [calls]
      cases d.activations[i]?.bind (·.hear?) with
      | none => exact h
      | some a => exact h.congr rfl rfl rfl
    | decide i =>
      simp only [calls]
      cases d.activations[i]? with
      | none => exact h
      | some a =>
        simp only
        cases a.decision? with
        | none => exact h
        | some decision =>
          have told : (d.onActivation i .tell).BelongsTo flow := h.congr rfl rfl rfl
          exact decide_within told now a.epoch a.step decision
    | expire =>
      simp only [calls]
      split
      · exact expire_within h now
      · exact h

end BelongsTo

end Driver

/-! ### Drivers that share the services -/

/-- Drivers that share the services.  Each of them has something left to do; one that is at rest has
nothing left. -/
structure Shared where
  services : Services
  actors : List (Calls Driver)

namespace Shared

/-- Something that can happen next. -/
inductive Act where
  /-- An event of a driver begins, if the driver is at rest. -/
  | event (actor : Nat) (e : Driver.Event)
  /-- A driver makes its next call. -/
  | call (actor : Nat)
  /-- Anything else happens to the services. -/
  | around (change : Services → Services)

/-- One thing happens. -/
def act (w : Shared) : Act → Shared
  | .event i e =>
    match w.actors[i]? with
    | some (.done d) => { w with actors := w.actors.set i (d.calls e) }
    | _ => w
  | .call i =>
    match w.actors[i]? with
    | some c => ⟨(c.step w.services).2, w.actors.set i (c.step w.services).1⟩
    | none => w
  | .around change => { w with services := change w.services }

/-- One thing after the other happens. -/
def run (w : Shared) (acts : List Act) : Shared := acts.foldl act w

/-- Drivers at rest. -/
def ofDrivers (s : Services) (drivers : List Driver) : Shared := ⟨s, drivers.map .done⟩

/-- One driver alone, with what its flow has of the services. -/
def only (w : Shared) (i : Nat) (flow : FlowId) : Shared :=
  ⟨w.services.only flow, w.actors[i]?.toList⟩

/-- What a driver does in an act, if it is its own: it begins an event, or makes a call. -/
def Act.own? (i : Nat) : Act → Option (Option Driver.Event)
  | .event j e => if j = i then some (some e) else none
  | .call j => if j = i then some none else none
  | .around _ => none

/-- What else happens does not touch what some flows have of the services. -/
def Act.Spares (flows : List FlowId) : Act → Prop
  | .around change => ∀ flow ∈ flows, ∀ s, Services.Spares flow s (change s)
  | _ => True

/-- An act as a driver sees it that is alone with its store and its lock service.  Others leave
these two alone, so all that it sees is what has become of the rest. -/
def Act.seen (i : Nat) (later : Services) : Act → Act
  | .event j e => if j = i then .event 0 e else .around later.beside
  | .call j => if j = i then .call 0 else .around later.beside
  | .around _ => .around later.beside

/-- A run as one driver sees it. -/
def view (i : Nat) : Shared → List Act → List Act
  | _, [] => []
  | w, a :: acts => a.seen i (w.act a).services :: view i (w.act a) acts

/-- Every driver is in the midst of something on behalf of its own flow. -/
structure Parted (flows : List FlowId) (w : Shared) : Prop where
  size : w.actors.length = flows.length
  within : ∀ (i : Nat) (c : Calls Driver) (flow : FlowId), w.actors[i]? = some c →
    flows[i]? = some flow → c.Within flow (·.BelongsTo flow)
  keeps : ∀ flow ∈ flows, w.services.Keeps flow

section Parted

variable {flows : List FlowId} {w : Shared} {a : Act} {i : Nat} {flow : FlowId}

theorem Parted.ofDrivers {s : Services} {drivers : List Driver}
    (drives : ∀ d ∈ drivers, d.BelongsTo d.flow) (keeps : ∀ d ∈ drivers, s.Keeps d.flow) :
    (ofDrivers s drivers).Parted (drivers.map Driver.flow) := by
  refine ⟨by simp [Shared.ofDrivers], fun i c flow hc hflow => ?_, fun flow hflow => ?_⟩
  · simp only [Shared.ofDrivers, List.getElem?_map, Option.map_eq_some_iff] at hc hflow
    obtain ⟨d, hd, rfl⟩ := hc
    obtain ⟨d', hd', rfl⟩ := hflow
    obtain rfl : d = d' := Option.some.inj (hd.symm.trans hd')
    exact drives d (List.mem_of_getElem? hd)
  · obtain ⟨d, hd, rfl⟩ := List.mem_map.1 hflow
    exact keeps d hd

/-- An actor is put in the place of another one of the same flow. -/
theorem Parted.set (h : w.Parted flows) {c : Calls Driver} {s : Services}
    (within : ∀ flow, flows[i]? = some flow → c.Within flow (·.BelongsTo flow))
    (keeps : ∀ flow ∈ flows, s.Keeps flow) : Parted flows ⟨s, w.actors.set i c⟩ := by
  refine ⟨by simp [h.size], fun j c' flow hc hflow => ?_, keeps⟩
  by_cases hij : i = j
  · subst hij
    have hi : i < w.actors.length := by
      have := (List.getElem?_eq_some_iff.1 hc).1
      simpa using this
    rw [List.getElem?_set_self hi] at hc
    cases hc
    exact within flow hflow
  · rw [List.getElem?_set_ne hij] at hc
    exact h.within j c' flow hc hflow

/-- The flow of a driver's next call. -/
theorem Parted.flow_of_actor (h : w.Parted flows) {c : Calls Driver} (hc : w.actors[i]? = some c) :
    ∃ flow, flows[i]? = some flow ∧ c.Within flow (·.BelongsTo flow) := by
  have hi : i < flows.length := h.size ▸ (List.getElem?_eq_some_iff.1 hc).1
  exact ⟨flows[i], List.getElem?_eq_getElem hi, h.within i c _ hc (List.getElem?_eq_getElem hi)⟩

theorem ne_of_getElem? (distinct : flows.Nodup) {j : Nat} {other : FlowId}
    (hi : flows[i]? = some flow) (hj : flows[j]? = some other) (h : j ≠ i) : other ≠ flow := by
  rintro rfl
  obtain ⟨bound, -⟩ := List.getElem?_eq_some_iff.1 hi
  exact h ((List.getElem?_inj bound distinct).1 (hi.trans hj.symm)).symm

theorem Parted.act (h : w.Parted flows) (spares : a.Spares flows) : (w.act a).Parted flows := by
  unfold Shared.act
  cases a with
  | event j e =>
    simp only
    split
    · rename_i d hd
      refine h.set (fun flow hflow => ?_) h.keeps
      exact Driver.calls_within (h.within j (.done d) flow hd hflow) e
    · exact h
  | call j =>
    simp only
    split
    · rename_i c hc
      obtain ⟨flow, hflow, within⟩ := h.flow_of_actor hc
      have kept := h.keeps flow (List.mem_of_getElem? hflow)
      refine h.set (fun flow' hflow' => ?_) fun other hother => ?_
      · obtain rfl : flow = flow' := Option.some.inj (hflow.symm.trans hflow')
        exact within.step kept
      · -- the call keeps what belongs to its own flow, and spares the others
        by_cases same : flow = other
        · subst same
          exact within.keeps kept
        · exact (within.spares same).keeps (h.keeps other hother)
    · exact h
  | around change =>
    exact ⟨h.size, h.within, fun flow hflow => (spares flow hflow _).keeps (h.keeps flow hflow)⟩

/-- What others do leaves a driver and what its flow has of the services. -/
theorem Parted.others (h : w.Parted flows) (distinct : flows.Nodup) (spares : a.Spares flows)
    (hi : flows[i]? = some flow) (other : a.own? i = none) :
    (w.act a).actors[i]? = w.actors[i]? ∧
      Services.Spares flow w.services (w.act a).services := by
  unfold Shared.act
  cases a with
  | event j e =>
    have hji : j ≠ i := by simpa [Act.own?] using other
    simp only
    split
    · exact ⟨List.getElem?_set_ne hji, .refl flow _⟩
    · exact ⟨rfl, .refl flow _⟩
  | call j =>
    have hji : j ≠ i := by simpa [Act.own?] using other
    simp only
    split
    · rename_i c hc
      obtain ⟨flow', hflow', within⟩ := h.flow_of_actor hc
      exact ⟨List.getElem?_set_ne hji,
        within.spares (ne_of_getElem? distinct hi hflow' hji)⟩
    · exact ⟨rfl, .refl flow _⟩
  | around change => exact ⟨rfl, spares flow (List.mem_of_getElem? hi) _⟩

theorem Act.seen_of_other (other : a.own? i = none) (later : Services) :
    a.seen i later = .around later.beside := by
  cases a <;> simp_all [own?, seen]

/-- **An act among many is for each driver the act as it sees it.** -/
theorem Parted.only (h : w.Parted flows) (distinct : flows.Nodup) (spares : a.Spares flows)
    (hi : flows[i]? = some flow) :
    (w.act a).only i flow = (w.only i flow).act (a.seen i (w.act a).services) := by
  cases own : a.own? i with
  | none =>
    obtain ⟨actor, spared⟩ := h.others distinct spares hi own
    rw [Act.seen_of_other own, Shared.only, actor, spared.only]
    rfl
  | some e =>
    have bound : i < w.actors.length := h.size ▸ (List.getElem?_eq_some_iff.1 hi).1
    obtain ⟨c, hc⟩ : ∃ c, w.actors[i]? = some c := ⟨_, List.getElem?_eq_getElem bound⟩
    cases a with
    | event j e =>
      obtain rfl : j = i :=
        Decidable.byContradiction fun hji => by simp [Act.own?, hji] at own
      cases c <;> simp [Shared.act, Shared.only, Act.seen, hc, List.getElem?_set_self bound]
    | call j =>
      obtain rfl : j = i :=
        Decidable.byContradiction fun hji => by simp [Act.own?, hji] at own
      have same := (h.within j c flow hc hi).only (s := w.services)
      simp [Shared.act, Shared.only, Act.seen, hc, List.getElem?_set_self bound, same]
    | around change => cases own

end Parted

/-! ### Runs -/

section Runs

variable {flows : List FlowId} {w : Shared} {i : Nat} {flow : FlowId}

theorem Parted.run_only (h : w.Parted flows) (distinct : flows.Nodup) {acts : List Act}
    (spares : ∀ a ∈ acts, a.Spares flows) (hi : flows[i]? = some flow) :
    (w.run acts).only i flow = (w.only i flow).run (view i w acts) := by
  induction acts generalizing w with
  | nil => rfl
  | cons a acts ih =>
    have here := spares a List.mem_cons_self
    have step := h.only distinct here hi
    have rest := ih (h.act here) fun a' ha' => spares a' (List.mem_cons_of_mem _ ha')
    rw [step] at rest
    exact rest

theorem length_view (acts : List Act) : (view i w acts).length = acts.length := by
  induction acts generalizing w with
  | nil => rfl
  | cons a acts ih => exact congrArg (· + 1) ih

theorem view_take (acts : List Act) (n : Nat) :
    view i w (acts.take n) = (view i w acts).take n := by
  induction acts generalizing w n with
  | nil => simp [view]
  | cons a acts ih =>
    cases n with
    | zero => rfl
    | succ n => simp [view, ih]

/-- A driver alone does what it does among others. -/
theorem own_view (acts : List Act) :
    (view i w acts).filterMap (Act.own? 0) = acts.filterMap (Act.own? i) := by
  induction acts generalizing w with
  | nil => rfl
  | cons a acts ih =>
    have same : (a.seen i (w.act a).services).own? 0 = a.own? i := by
      cases a with
      | event j e => by_cases h : j = i <;> simp [Act.seen, Act.own?, h]
      | call j => by_cases h : j = i <;> simp [Act.seen, Act.own?, h]
      | around change => rfl
    simp only [view, List.filterMap_cons, same, ih]

/-- What a driver sees of others touches neither its store nor its lock service. -/
theorem around_view {acts : List Act} {change : Services → Services}
    (h : .around change ∈ view i w acts) (s : Services) :
    (change s).store = s.store ∧ (change s).locks = s.locks := by
  induction acts generalizing w with
  | nil => cases h
  | cons a acts ih =>
    rcases List.mem_cons.1 h with here | later
    · cases a with
      | event j e =>
        by_cases hji : j = i
        · simp [Act.seen, hji] at here
        · simp only [Act.seen, hji, if_false, Act.around.injEq] at here
          rw [here]
          exact ⟨rfl, rfl⟩
      | call j =>
        by_cases hji : j = i
        · simp [Act.seen, hji] at here
        · simp only [Act.seen, hji, if_false, Act.around.injEq] at here
          rw [here]
          exact ⟨rfl, rfl⟩
      | around change' =>
        simp only [Act.seen, Act.around.injEq] at here
        rw [here]
        exact ⟨rfl, rfl⟩
    · exact ih later

end Runs

/-- **Flows do not interfere.**  Drivers of pairwise distinct flows share the services, and whatever
happens to them, each of them may be interrupted between any two of its calls.

* The calls of an event, made without a pause, are the event.
* For each driver there is a run of it alone, with a store and a lock service that hold nothing but
  what its flow has of the shared ones.  In it the driver begins the same events and makes the same
  calls in the same order, and what else happens touches neither its store nor its lock service:
  only the supply of identifiers, the turns of steps, the polls of monitors and the trace are not
  its alone.
* After every step of one run and of the other the driver is in the same state.  It is at rest with
  the same record, the same state made known and the same answers to its calls, or it has the same
  left to do.  The stored record, the number of saves and the lease of its flow are the same as
  well.
-/
theorem flows_do_not_interfere (drivers : List Driver) (distinct : (drivers.map Driver.flow).Nodup)
    (drives : ∀ d ∈ drivers, d.BelongsTo d.flow) (s : Services)
    (keeps : ∀ d ∈ drivers, s.Keeps d.flow) (acts : List Act)
    (spares : ∀ a ∈ acts, a.Spares (drivers.map Driver.flow)) (i : Nat) (d : Driver)
    (hi : drivers[i]? = some d) :
    (∀ (x : Driver) (v : Services) (e : Driver.Event), e.IsOwn →
      (x.calls e).run v = Driver.happen (x, v) e) ∧
    ∃ solo : List Act, solo.length = acts.length ∧
      solo.filterMap (Act.own? 0) = acts.filterMap (Act.own? i) ∧
      (∀ change, .around change ∈ solo → ∀ v : Services,
        (change v).store = v.store ∧ (change v).locks = v.locks) ∧
      ∀ n x y, (ofDrivers s drivers).run (acts.take n) = x →
        (ofDrivers (s.only d.flow) [d]).run (solo.take n) = y →
        y.actors = x.actors[i]?.toList ∧ y.services = x.services.only d.flow ∧
        y.services.store.find? d.flow = x.services.store.find? d.flow ∧
        y.services.store.saves d.flow = x.services.store.saves d.flow ∧
        y.services.locks.isHeld d.flow = x.services.locks.isHeld d.flow := by
  have parted := Parted.ofDrivers drives keeps
  have hflow : (drivers.map Driver.flow)[i]? = some d.flow := by simp [hi]
  have alone : (ofDrivers s drivers).only i d.flow = ofDrivers (s.only d.flow) [d] := by
    simp [Shared.only, ofDrivers, hi]
  refine ⟨fun x v e own => x.calls_run v own, view i (ofDrivers s drivers) acts,
    length_view acts, own_view acts, fun change seen => around_view seen,
    fun n x y hx hy => ?_⟩
  have same : x.only i d.flow = y := by
    rw [← hx, ← hy, ← view_take, ← alone]
    exact parted.run_only distinct (fun a ha => spares a (List.mem_of_mem_take ha)) hflow
  rw [← same]
  exact ⟨rfl, rfl, by simp [Shared.only, Services.only], by simp [Shared.only, Services.only],
    by simp [Shared.only, Services.only]⟩

/-- The driver of a new flow of one step, which answers nothing. -/
def newDriver (n : Nat) : Driver :=
  .ofRecord (.solo fun _ _ => .atOnce (.plain (.ok .noop))) 0
    (.create (.ofNat n) "solo" (.ofVirtualMs 0))

/-- Two new flows are saved. -/
def twoSaved : Services :=
  (((Services.ofPlan fun _ => false).save (newDriver 1).record).2.save (newDriver 2).record).2

/-- Both are started at once, the calls of one between those of the other. -/
theorem flows_do_not_interfere_pair : ∃ solo : List Act,
    solo.filterMap (Act.own? 0) = [some (.move 0 .start), none, none] ∧
    ∃ y, (ofDrivers (twoSaved.only (.ofNat 2)) [newDriver 2]).run solo = y ∧
      y.services.store.saves (.ofNat 2) = 2 ∧ y.services.locks.isHeld (.ofNat 2) = true ∧
      y.services.store.size = 1 := by
  have drives : ∀ d ∈ [newDriver 1, newDriver 2], d.BelongsTo d.flow := by
    intro d hd
    simp only [List.mem_cons, List.not_mem_nil, or_false] at hd
    rcases hd with rfl | rfl
    · exact ⟨rfl, rfl, nofun⟩
    · exact ⟨rfl, rfl, nofun⟩
  have keeps : ∀ d ∈ [newDriver 1, newDriver 2], twoSaved.Keeps d.flow := by
    intro d hd r hr
    simp only [List.mem_cons, List.not_mem_nil, or_false] at hd
    rcases hd with rfl | rfl
    · cases hr
      rfl
    · cases hr
      rfl
  obtain ⟨-, solo, length, same, -, states⟩ := flows_do_not_interfere
    [newDriver 1, newDriver 2] (by decide) drives twoSaved keeps
    [.event 0 (.move 0 .start), .event 1 (.move 0 .start), .call 1, .call 0, .call 0, .call 1]
    (by simp [Act.Spares]) 1 (newDriver 2) rfl
  obtain ⟨-, services, -, saves, held⟩ := states 6 _ _ rfl rfl
  have all : solo.take 6 = solo := List.take_of_length_le (Nat.le_of_eq length)
  rw [all] at services saves held
  exact ⟨solo, same, _, rfl, saves, held, congrArg (·.store.size) services⟩

end Shared

end Workflow
