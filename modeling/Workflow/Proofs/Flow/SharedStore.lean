import Workflow.Proofs.Flow.Lifecycle

/-!
# Workflow.Proofs.Flow.SharedStore — several drivers of one flow

Each driver saves its own copy of the record, and only a resume reads the stored one again.  So a
driver whose copy is not the stored record any more, because another one has saved since, may take
the stored record backwards (`stale_start_undoes_success`).  Nothing else does
(`stored_record_grows`).

A section of a driver calls the store at most once, but a resume looks the record up and then saves
it, and another driver may save in between.  Hence the deeds of drivers are their sections, a resume
that has looked its record up some time ago (`Driver.resumeFound`), and changes of anything but the
store, such as whatever leases somebody takes or gives back in the midst of a section.
-/

namespace Workflow

namespace Record

/-- Nothing completed is lost, and a success stays one. -/
structure Onward (r r' : Record) : Prop where
  completed : r.completedSteps <+: r'.completedSteps
  success : r.state = .completed ∧ r.result = .success →
    r'.state = .completed ∧ r'.result = .success

theorem Onward.refl (r : Record) : r.Onward r := ⟨List.prefix_refl _, id⟩

theorem Onward.trans {r r' r'' : Record} (h : r.Onward r') (h' : r'.Onward r'') : r.Onward r'' :=
  ⟨h.completed.trans h'.completed, fun success => h'.success (h.success success)⟩

theorem Revised.onward {r r' : Record} (h : r.Revised r') : r.Onward r' := by
  refine ⟨h.completed, fun ⟨state, result⟩ => ?_⟩
  cases h.passes with
  | keeps same same' => exact ⟨same.trans state, same'.trans result⟩
  | runsOn before => simp [state] at before
  | pauses before => simp [state] at before
  | completes before => simp [state] at before

end Record

namespace Driver

/-! ### A resume that looked its record up some time ago -/

/-- A record with which a flow that was found like this is resumed. -/
def Resumes (d : Driver) (now : Nat) (found r : Record) : Prop :=
  resumeFault? d.flow found = none ∧ r = (d.resumedRecord found).touch (.ofVirtualMs now)

theorem resumeFound_writes (d : Driver) (s : Services) (now : Nat) (found : Record) :
    Writes (d.Resumes now found) (view (d, s)) (view (d.resumeFound found s now).2) := by
  unfold resumeFound
  cases free : resumeFault? d.flow found with
  | some fault => exact .leaves
  | none =>
    refine acquireLease_rule d s ?_ ?_
    · intro e s' _ got
      exact view_congr rfl rfl rfl (acquire_storeSide got) ▸ .leaves
    · intro lease s' leased
      simp only
      rw [persist_view]
      exact save_writes rfl leased.storeSide ⟨free, rfl⟩

theorem Resumes.onward {d : Driver} {now : Nat} {found r : Record} (h : d.Resumes now found r) :
    found.Onward r := by
  obtain ⟨free, rfl⟩ := h
  refine ⟨List.prefix_refl _, fun ⟨state, result⟩ => ?_⟩
  simp [resumeFault?_of_success _ state result] at free

theorem save_saving (s : Services) (r : Record) : (s.save r).2.saving = s.saving.call.2 := by
  unfold Services.save
  simp only
  split <;> rfl

end Driver

namespace World

/-! ### Deeds -/

/-- Something that happens among the drivers of a flow. -/
inductive Deed where
  /-- Another driver of the flow is loaded. -/
  | load (definition : Definition) (source : Nat)
  /-- An event of a driver. -/
  | event (driver : Nat) (e : Driver.Event)
  /-- A resume goes on that has found a record. -/
  | found (driver now : Nat) (record : Record)
  /-- Anything else that is shared changes. -/
  | around (change : Services → Services)

/-- One deed. -/
def act (flow : FlowId) (w : World) : Deed → World
  | .load definition source => (w.load definition source flow).2
  | .event i e => w.onDriver i fun d s => Driver.happen (d, s) e
  | .found i now record => w.onDriver i fun d s => Driver.requesting (d.resumeFound record s now)
  | .around change => { w with services := change w.services }

/-- A run of deeds. -/
def acts (flow : FlowId) (w : World) (deeds : List Deed) : World := deeds.foldl (act flow) w

/-- The stored record of a flow. -/
def stored? (w : World) (flow : FlowId) : Option Record := w.services.store.find? flow

/-- The driver of a deed, if it has one. -/
def Deed.driver? : Deed → Option Nat
  | .event i _ => some i
  | .found i _ _ => some i
  | _ => none

/-- The deed is one of the flow's drivers, or leaves the flow's stored record and working saves
alone. -/
def Deed.Within (flow : FlowId) : Deed → Prop
  | .event _ e => e.IsOwn
  | .found _ _ record => record.flow = flow
  | .around change => ∀ s, (change s).store.find? flow = s.store.find? flow ∧
    (s.saving.Works → (change s).saving.Works)
  | .load _ _ => True

/-- The record that a driver has in memory is the stored one. -/
def Fresh (flow : FlowId) (w : World) (i : Nat) : Prop :=
  ∃ d, w.drivers[i]? = some d ∧ w.stored? flow = some d.record

/-- The deed works on the stored record: a fresh driver does something, or a driver resumes the flow
and what it has found is still stored. -/
def Current (flow : FlowId) (w : World) : Deed → Prop
  | .event i e => w.Fresh flow i ∨ ∃ now, e = .move now .resume
  | .found _ _ record => w.stored? flow = some record
  | _ => True

/-- Drivers of one flow with a store that never fails to save. -/
structure Shares (flow : FlowId) (w : World) : Prop where
  drivers : ∀ d ∈ w.drivers, d.flow = flow ∧ d.record.flow = flow ∧ d.published = d.record.state
  stored : ∃ r, w.stored? flow = some r ∧ r.flow = flow
  saving : w.services.saving.Works

/-- What a driver may save in a deed. -/
def Deed.Yields (w : World) (d : Driver) : Deed → Record → Prop
  | .event _ e, r => Driver.Yields (d, w.services) e r
  | .found _ now record, r => d.Resumes now record r
  | _, _ => False

/-- What a deed does: the stored record and every driver's copy stay as they are, or one driver
saves a new record. -/
inductive Done (flow : FlowId) (w : World) (a : Deed) (w' : World) : Prop
  | quiet (stored : w'.stored? flow = w.stored? flow)
    (copies : ∀ (i : Nat) (d : Driver), w.drivers[i]? = some d →
      ∃ d', w'.drivers[i]? = some d' ∧ d'.record = d.record)
  | saves {i : Nat} {d d' : Driver} {r : Record} (mine : a.driver? = some i)
    (hi : w.drivers[i]? = some d) (yields : a.Yields w d r) (stored : w'.stored? flow = some r)
    (drivers : w'.drivers = w.drivers.set i d') (copy : d'.record = r)

/-- A load writes nothing; if it gives a driver, then one with the stored record. -/
theorem load_cases (w : World) (definition : Definition) (source : Nat) (flow : FlowId) :
    Driver.storeSide (w.load definition source flow).2.services = Driver.storeSide w.services ∧
      ((w.load definition source flow).2.drivers = w.drivers ∨
        ∃ record, w.stored? flow = some record ∧ (w.load definition source flow).2.drivers =
          w.drivers ++ [.ofRecord definition source record]) := by
  have side := Driver.find_storeSide w.services flow
  have found : ∀ record, (w.services.find flow).1 = .ok (some record) →
      w.stored? flow = some record := fun _ => Driver.find_ok
  unfold World.load
  generalize w.services.find flow = got at side found ⊢
  rcases got with ⟨got, s⟩
  match got with
  | .error e => exact ⟨side, .inl rfl⟩
  | .ok none => exact ⟨side, .inl rfl⟩
  | .ok (some record) =>
    simp only
    split
    · exact ⟨side, .inl rfl⟩
    · exact ⟨side, .inr ⟨record, found record rfl, rfl⟩⟩

/-- A driver that changes but keeps its record, among others. -/
theorem copies_set {drivers : List Driver} {i : Nat} {d d' : Driver} (hi : drivers[i]? = some d)
    (same : d'.record = d.record) (j : Nat) (x : Driver) (hj : drivers[j]? = some x) :
    ∃ x', (drivers.set i d')[j]? = some x' ∧ x'.record = x.record := by
  by_cases hij : i = j
  · subst hij
    obtain rfl : d = x := Option.some.inj (hi.symm.trans hj)
    exact ⟨d', List.getElem?_set_self (List.getElem?_eq_some_iff.1 hi).1, same⟩
  · exact ⟨x, (List.getElem?_set_ne hij).trans hj, rfl⟩

section Shares

variable {flow : FlowId} {w : World} (h : Shares flow w)
include h

theorem Deed.Yields.own {a : Deed} (within : a.Within flow) {d : Driver} (hd : d ∈ w.drivers)
    {r : Record} (hr : a.Yields w d r) : r.flow = flow := by
  obtain ⟨drives, own, known⟩ := h.drivers d hd
  cases a with
  | load => exact hr.elim
  | around => exact hr.elim
  | found i now record =>
    obtain ⟨-, rfl⟩ := hr
    exact within
  | event i e =>
    obtain ⟨stored, hstored, hflow⟩ := h.stored
    simp only [Deed.Yields, Driver.Yields] at hr
    split at hr
    · obtain ⟨-, rfl⟩ := hr
      exact own
    · obtain ⟨record, -, -, found, -, rfl⟩ := hr
      rw [drives] at found
      obtain rfl : record = stored := Option.some.inj (found.symm.trans hstored)
      exact hflow
    · exact hr.flow.trans own

/-- One driver changes, and the services with it. -/
theorem Shares.set {d' : Driver} {s' : Services}
    (mine : d'.flow = flow ∧ d'.record.flow = flow ∧ d'.published = d'.record.state)
    (stored : ∃ r, s'.store.find? flow = some r ∧ r.flow = flow) (works : s'.saving.Works)
    (i : Nat) : Shares flow { w with drivers := w.drivers.set i d', services := s' } := by
  refine ⟨fun x hx => ?_, stored, works⟩
  rcases List.mem_or_eq_of_mem_set hx with hx | rfl
  · exact h.drivers x hx
  · exact mine

/-- What the driver of a deed writes is all that the deed writes. -/
theorem Shares.onDriver {a : Deed} (within : a.Within flow) {i : Nat} (mine : a.driver? = some i)
    {change : Driver → Services → Driver × Services}
    (writes : ∀ d, w.drivers[i]? = some d →
      Driver.Writes (a.Yields w d) (Driver.view (d, w.services))
        (Driver.view (change d w.services))) :
    Done flow w a (w.onDriver i change) ∧ Shares flow (w.onDriver i change) := by
  unfold World.onDriver
  cases hi : w.drivers[i]? with
  | none => exact ⟨.quiet rfl fun j d hj => ⟨d, hj, rfl⟩, h⟩
  | some d =>
    have hd := List.mem_of_getElem? hi
    have own := h.drivers d hd
    have wrote := writes d hi
    rcases hc : change d w.services with ⟨d', s'⟩
    rw [hc] at wrote
    simp only [hc]
    generalize hv : Driver.view (d', s') = v' at wrote
    cases wrote with
    | leaves =>
      simp only [Driver.view, Driver.View.mk.injEq] at hv
      obtain ⟨hflow, hrecord, hpublished, hstore, hsaving⟩ := hv
      have stored : s'.store.find? flow = w.stored? flow := congrArg (·.find? flow) hstore
      obtain ⟨r, hr, hown⟩ := h.stored
      exact ⟨.quiet stored (copies_set hi hrecord), h.set (by rwa [hflow, hrecord, hpublished])
        ⟨r, stored.trans hr, hown⟩ (hsaving ▸ h.saving) i⟩
    | @saves r hr =>
      obtain ⟨works, later⟩ := h.saving.call
      have ownFlow := hr.own h within hd
      simp only [Driver.view, Driver.View.save, works, Bool.false_eq_true, if_false,
        Driver.View.mk.injEq] at hv
      obtain ⟨hflow, hrecord, hpublished, hstore, hsaving⟩ := hv
      have stored : s'.store.find? flow = some r := by
        rw [hstore, ← ownFlow]
        exact Driver.find?_save w.services.store r
      exact ⟨.saves mine hi hr stored rfl hrecord, h.set
        (by rw [hflow, hrecord, hpublished]; exact ⟨own.1, ownFlow, rfl⟩)
        ⟨r, stored, ownFlow⟩ (hsaving ▸ later) i⟩

/-- **What a deed can do.** -/
theorem Shares.act {a : Deed} (within : a.Within flow) :
    Done flow w a (w.act flow a) ∧ Shares flow (w.act flow a) := by
  unfold World.act
  cases a with
  | event i e =>
    refine h.onDriver within rfl fun d hi => ?_
    exact Driver.happen_writes (x := (d, w.services)) (h.drivers d (List.mem_of_getElem? hi)).2.2
      within
  | found i now record =>
    exact h.onDriver within rfl fun d _ => Driver.resumeFound_writes d w.services now record
  | around change =>
    obtain ⟨stored, saving⟩ := within w.services
    refine ⟨.quiet stored fun j d hj => ⟨d, hj, rfl⟩, h.drivers, ?_, saving h.saving⟩
    obtain ⟨r, hr, hown⟩ := h.stored
    exact ⟨r, stored.trans hr, hown⟩
  | load definition source =>
    simp only
    obtain ⟨side, drivers⟩ := load_cases w definition source flow
    generalize (w.load definition source flow).2 = w' at side drivers
    obtain ⟨hstore, hsaving⟩ := Prod.mk.inj side
    have stored : w'.stored? flow = w.stored? flow := congrArg (·.find? flow) hstore
    obtain ⟨r, hr, hown⟩ := h.stored
    refine ⟨.quiet stored fun j d hj => ⟨d, ?_, rfl⟩, fun d hd => ?_, ⟨r, stored.trans hr, hown⟩,
      hsaving.symm ▸ h.saving⟩
    · rcases drivers with drivers | ⟨record, -, drivers⟩
      · exact drivers ▸ hj
      · rw [drivers, List.getElem?_append_left (List.getElem?_eq_some_iff.1 hj).1]
        exact hj
    · rcases drivers with drivers | ⟨record, found, drivers⟩
      · exact h.drivers d (drivers ▸ hd)
      · rw [drivers] at hd
        rcases List.mem_append.1 hd with hd | hd
        · exact h.drivers d hd
        · -- the driver that is loaded takes the stored record over
          obtain rfl : record = r := Option.some.inj (found.symm.trans hr)
          rw [List.mem_singleton.1 hd]
          exact ⟨hown, hown, rfl⟩

end Shares

/-! ### Stale and fresh drivers -/

section Fresh

variable {flow : FlowId} {w : World}

/-- What a deed on the stored record saves goes on from there. -/
theorem Deed.Yields.onward {a : Deed} {i : Nat} {d : Driver} {r r' : Record}
    (mine : a.driver? = some i) (hi : w.drivers[i]? = some d) (drives : d.flow = flow)
    (stored : w.stored? flow = some r) (current : Current flow w a) (hr : a.Yields w d r') :
    r.Onward r' := by
  cases a with
  | load => exact hr.elim
  | around => exact hr.elim
  | found j now record =>
    obtain rfl : r = record := Option.some.inj (stored.symm.trans current)
    exact Driver.Resumes.onward hr
  | event j e =>
    obtain rfl : j = i := Option.some.inj mine
    have resumed : ∀ now, Driver.Yields (d, w.services) (.move now .resume) r' → r.Onward r' := by
      rintro now ⟨record, -, -, found, free, heq⟩
      rw [drives] at found
      obtain rfl : record = r := Option.some.inj (found.symm.trans stored)
      exact Driver.Resumes.onward ⟨free, heq⟩
    -- the copy is the stored record, or a resume reads it again
    rcases current with ⟨d', hd', copy⟩ | ⟨now, rfl⟩
    · obtain rfl : d = d' := Option.some.inj (hi.symm.trans hd')
      obtain rfl : r = d.record := Option.some.inj (stored.symm.trans copy)
      simp only [Deed.Yields, Driver.Yields] at hr
      split at hr
      · obtain ⟨created, rfl⟩ := hr
        exact ⟨List.prefix_refl _, fun success => by simp [created] at success⟩
      · exact resumed _ hr
      · exact hr.onward
    · exact resumed now hr

/-- **A deed on the stored record does not take it backwards.** -/
theorem Shares.onward (h : Shares flow w) {a : Deed} (within : a.Within flow)
    (current : Current flow w a) {r r' : Record} (stored : w.stored? flow = some r)
    (later : (w.act flow a).stored? flow = some r') : r.Onward r' := by
  cases (h.act within).1 with
  | quiet same =>
    obtain rfl : r' = r := Option.some.inj (later.symm.trans (same.trans stored))
    exact .refl _
  | saves mine hi yields saved =>
    obtain rfl := Option.some.inj (saved.symm.trans later)
    exact yields.onward mine hi (h.drivers _ (List.mem_of_getElem? hi)).1 stored current

/-- A driver that saves is fresh, and stays so while nobody else does. -/
theorem Shares.fresh (h : Shares flow w) {a : Deed} (within : a.Within flow) {i : Nat}
    (hi : i < w.drivers.length) :
    (a.driver? = some i → w.Fresh flow i ∨ (w.act flow a).stored? flow ≠ w.stored? flow →
      (w.act flow a).Fresh flow i) ∧
    (w.Fresh flow i → (w.act flow a).stored? flow = w.stored? flow →
      (w.act flow a).Fresh flow i) := by
  cases (h.act within).1 with
  | quiet stored copies =>
    have kept : w.Fresh flow i → (w.act flow a).Fresh flow i := by
      rintro ⟨d, hd, copy⟩
      obtain ⟨d', hd', same⟩ := copies i d hd
      exact ⟨d', hd', by rw [stored, same, copy]⟩
    exact ⟨fun _ fresh => kept (fresh.resolve_right fun changed => changed stored),
      fun fresh _ => kept fresh⟩
  | @saves j d d' r mine hj _ stored drivers copy =>
    have wrote : i = j → (w.act flow a).Fresh flow i := by
      rintro rfl
      exact ⟨d', by rw [drivers, List.getElem?_set_self hi], by rw [stored, copy]⟩
    refine ⟨fun own _ => wrote (Option.some.inj (own.symm.trans mine)), fun fresh same => ?_⟩
    by_cases hij : i = j
    · exact wrote hij
    · obtain ⟨x, hx, hcopy⟩ := fresh
      exact ⟨x, by rw [drivers, List.getElem?_set_ne (Ne.symm hij), hx], by rw [same, hcopy]⟩

/-- A driver that is loaded is fresh. -/
theorem load_fresh (w : World) (flow : FlowId) (definition : Definition) (source : Nat)
    (loaded : w.drivers.length < (w.act flow (.load definition source)).drivers.length) :
    (w.act flow (.load definition source)).Fresh flow w.drivers.length := by
  simp only [World.act] at loaded ⊢
  obtain ⟨side, drivers⟩ := load_cases w definition source flow
  generalize (w.load definition source flow).2 = w' at side drivers loaded ⊢
  obtain ⟨hstore, -⟩ := Prod.mk.inj side
  rcases drivers with drivers | ⟨record, found, drivers⟩
  · simp [drivers] at loaded
  · refine ⟨.ofRecord definition source record, by simp [drivers], ?_⟩
    exact (congrArg (·.find? flow) hstore).trans found

end Fresh

/-! ### Runs -/

/-- Every deed of a run works on the stored record. -/
def AllCurrent (flow : FlowId) (w : World) : List Deed → Prop
  | [] => True
  | a :: deeds => Current flow w a ∧ AllCurrent flow (w.act flow a) deeds

section Runs

variable {flow : FlowId} {w : World}

theorem Shares.acts (h : Shares flow w) {deeds : List Deed} (within : ∀ a ∈ deeds, a.Within flow) :
    Shares flow (w.acts flow deeds) := by
  induction deeds generalizing w with
  | nil => exact h
  | cons a deeds ih =>
    exact ih (h.act (within a List.mem_cons_self)).2
      fun a' ha' => within a' (List.mem_cons_of_mem _ ha')

theorem Shares.run_onward (h : Shares flow w) {deeds : List Deed}
    (within : ∀ a ∈ deeds, a.Within flow) (current : AllCurrent flow w deeds) {r r' : Record}
    (stored : w.stored? flow = some r) (later : (w.acts flow deeds).stored? flow = some r') :
    r.Onward r' := by
  induction deeds generalizing w r with
  | nil =>
    obtain rfl : r = r' := Option.some.inj (stored.symm.trans later)
    exact .refl _
  | cons a deeds ih =>
    have next := (h.act (within a List.mem_cons_self)).2
    obtain ⟨r₁, between, -⟩ := next.stored
    exact (h.onward (within a List.mem_cons_self) current.1 stored between).trans
      (ih next (fun a' ha' => within a' (List.mem_cons_of_mem _ ha')) current.2 between later)

end Runs

theorem create_shares {w w' : World} {definition : Definition} {source : Nat} {d : Driver}
    (nobody : w.drivers = []) (works : w.services.saving.Works)
    (created : w.create definition source = (.ok d, w')) : Shares d.flow w' := by
  have mirrored := Driver.create_mirrored created
  have coherent := mirrored.coherent
  obtain ⟨drivers, saving⟩ : w'.drivers = [d] ∧ w'.services.saving = w.services.saving.call.2 := by
    unfold World.create at created
    simp only at created
    split at created
    · cases created
    · cases created
      exact ⟨by rw [nobody]; rfl, Driver.save_saving ..⟩
  refine ⟨fun x hx => ?_, ⟨d.record, mirrored.stored, coherent.own⟩,
    saving ▸ works.call.2⟩
  rw [drivers] at hx
  obtain rfl := List.mem_singleton.1 hx
  exact ⟨rfl, coherent.own, coherent.known⟩

/-- **When the stored record of a flow does not go backwards.**  A flow was created with a store
that never fails to save, other drivers of it were loaded, and anything has happened among them in
any order, whatever the lock service has answered.

* What is stored after the next deed goes on from what is stored before it, if a driver does
  something whose copy is the stored record, or a driver resumes the flow and what it has found is
  still stored.
* A driver that is loaded has such a copy; one that has it, or that saves anything, has it after a
  deed of its own, and keeps it until another driver saves something.
* So in a run in which nobody does anything with an old copy the stored record never goes backwards.
-/
theorem stored_record_grows {w w' : World} {definition : Definition} {source : Nat} {d : Driver}
    (nobody : w.drivers = []) (works : w.services.saving.Works)
    (created : w.create definition source = (.ok d, w')) (deeds : List Deed)
    (within : ∀ a ∈ deeds, a.Within d.flow) (x : World) (hx : w'.acts d.flow deeds = x) :
    (∀ a, a.Within d.flow → ∃ r r', x.stored? d.flow = some r ∧
      (x.act d.flow a).stored? d.flow = some r' ∧ (Current d.flow x a → r.Onward r')) ∧
    (∀ definition' source',
      x.drivers.length < (x.act d.flow (.load definition' source')).drivers.length →
      (x.act d.flow (.load definition' source')).Fresh d.flow x.drivers.length) ∧
    (∀ a i, a.Within d.flow → i < x.drivers.length →
      (a.driver? = some i →
        x.Fresh d.flow i ∨ (x.act d.flow a).stored? d.flow ≠ x.stored? d.flow →
        (x.act d.flow a).Fresh d.flow i) ∧
      (x.Fresh d.flow i → (x.act d.flow a).stored? d.flow = x.stored? d.flow →
        (x.act d.flow a).Fresh d.flow i)) ∧
    (∀ more, (∀ a ∈ more, a.Within d.flow) → AllCurrent d.flow x more → ∀ r r',
      x.stored? d.flow = some r → (x.acts d.flow more).stored? d.flow = some r' → r.Onward r') := by
  subst hx
  have shares := (create_shares nobody works created).acts within
  refine ⟨fun a inside => ?_, load_fresh _ _, fun a i inside hi => shares.fresh inside hi,
    fun more inside current r r' => shares.run_onward inside current⟩
  obtain ⟨r, hr, -⟩ := shares.stored
  obtain ⟨r', hr', -⟩ := (shares.act inside).2.stored
  exact ⟨r, r', hr, hr', fun current => shares.onward inside current hr hr'⟩

/-- A flow is started and paused by one driver, and then resumed by another one that was loaded. -/
theorem stored_record_grows_handover : ∃ d w' x r r',
    World.empty.create (.solo Driver.pausesFlow) 0 = (.ok d, w') ∧
    w'.acts d.flow [.event 0 (.move 0 .start), .event 0 (.move 1 .pause)] = x ∧
    x.stored? d.flow = some r ∧ r.state = .paused ∧
    (x.acts d.flow [.load (.solo Driver.pausesFlow) 0, .event 1 (.move 2 .resume)]).stored? d.flow =
      some r' ∧ r'.state = .running ∧ r.Onward r' := by
  have created : World.empty.create (.solo Driver.pausesFlow) 0 = (.ok _, _) := rfl
  obtain ⟨-, -, -, onward⟩ := stored_record_grows rfl ⟨rfl, fun _ => rfl⟩ created
    [.event 0 (.move 0 .start), .event 0 (.move 1 .pause)]
    (by simp [Deed.Within, Driver.Event.IsOwn]) _ rfl
  have grown := onward [.load (.solo Driver.pausesFlow) 0, .event 1 (.move 2 .resume)]
    (by simp [Deed.Within, Driver.Event.IsOwn]) ⟨trivial, .inr ⟨2, rfl⟩, trivial⟩ _ _ rfl rfl
  exact ⟨_, _, _, _, _, created, rfl, rfl, rfl, rfl, rfl, grown⟩

/-- Two drivers have a flow that has not started.  One completes it with success; the other one,
whose copy is of a flow that has not started, starts it again. -/
theorem stale_start_undoes_success : ∃ d w' x r r',
    World.empty.create (.solo Driver.completesFlow) 0 = (.ok d, w') ∧
    w'.acts d.flow [.load (.solo Driver.completesFlow) 0, .event 0 (.move 0 .start),
      .event 0 (.move 0 (.proceed 0)), .event 0 (.move 0 (.proceed 0))] = x ∧
    x.stored? d.flow = some r ∧ r.state = .completed ∧ r.result = .success ∧
    r.completedSteps = ["solo"] ∧
    (x.act d.flow (.event 1 (.move 1 .start))).stored? d.flow = some r' ∧
    r'.state = .running ∧ r'.completedSteps = [] :=
  ⟨_, _, _, _, _, rfl, rfl, rfl, rfl, rfl, rfl, rfl, rfl, rfl⟩

end World

end Workflow
