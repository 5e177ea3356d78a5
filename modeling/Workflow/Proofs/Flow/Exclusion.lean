import Mathlib.Data.List.Induction
import Mathlib.Data.List.Nodup
import Workflow.Flow.Store
import Workflow.Proofs.Supply

/-!
# Workflow.Proofs.Flow.Exclusion — which leases are out, told from the calls alone

Anybody calls the lock service for any flow, and gives back any lease: the current one, a stale one,
a copy, or one that was never granted.  What a call does is said once (`LockService.call_holds`): a
lease is current after it if it was granted, or was current and was not given back.  So the leases
that the service holds are those that were granted and not given back since
(`LockService.holds_iff`), and as long as no identifier is drawn twice a lease stands for the one
time at which it was granted (`LockService.excludes`).
-/

namespace Workflow

/-- A lock service: the current leases, and where the identifiers of new ones come from. -/
structure LockService where
  locks : Locks
  ids : IdStream .lease

/-- A call of the lock service. -/
inductive LockCall where
  | acquire (flow : FlowId)
  | release (lease : Lease)

/-- The flow that a call is about. -/
def LockCall.flow : LockCall → FlowId
  | .acquire flow => flow
  | .release lease => lease.flow

/-- What is seen of a call. -/
inductive LockEvent where
  | granted (lease : Lease)
  | refused (error : LockError)
  | released (lease : Lease)
deriving DecidableEq

namespace LockEvent

def lease? : LockEvent → Option Lease
  | granted lease => some lease
  | _ => none

/-- The leases that were granted, in order. -/
def leases (h : List LockEvent) : List Lease := h.filterMap lease?

/-- A lease was granted, and not given back since. -/
def Unreleased (h : List LockEvent) (lease : Lease) : Prop :=
  ∃ before after, h = before ++ granted lease :: after ∧ released lease ∉ after

theorem not_unreleased_nil (lease : Lease) : ¬ Unreleased [] lease := by
  rintro ⟨before, after, split, -⟩
  simp at split

theorem unreleased_concat {h : List LockEvent} {e : LockEvent} {lease : Lease} :
    Unreleased (h ++ [e]) lease ↔
      e = granted lease ∨ Unreleased h lease ∧ e ≠ released lease := by
  constructor
  · rintro ⟨before, after, split, out⟩
    rcases List.eq_nil_or_concat after with rfl | ⟨after, last, rfl⟩
    · -- the lease was granted last
      exact .inl (List.append_inj' split rfl |>.2 |> List.singleton_inj.1)
    · -- it was granted before, and the last event did not give it back
      rw [List.concat_eq_append] at split out
      have split' : h ++ [e] = (before ++ granted lease :: after) ++ [last] := by
        simpa using split
      obtain ⟨rfl, same⟩ := List.append_inj' split' rfl
      obtain rfl := List.singleton_inj.1 same
      rw [List.mem_append, not_or, List.mem_singleton] at out
      exact .inr ⟨⟨before, after, rfl, out.1⟩, Ne.symm out.2⟩
  · rintro (rfl | ⟨⟨before, after, rfl, out⟩, other⟩)
    · exact ⟨h, [], rfl, List.not_mem_nil⟩
    · refine ⟨before, after ++ [e], by simp, ?_⟩
      rw [List.mem_append, not_or, List.mem_singleton]
      exact ⟨out, Ne.symm other⟩

/-- Where no lease is granted twice, each stands for the time at which it was granted. -/
theorem granted_once {h : List LockEvent} (distinct : (leases h).Nodup) {i j : Nat} {lease : Lease}
    (hi : h[i]? = some (granted lease)) (hj : h[j]? = some (granted lease)) : i = j := by
  have apart := List.pairwise_iff_getElem.1 (List.pairwise_filterMap.1 distinct)
  obtain ⟨hi, hi'⟩ := List.getElem?_eq_some_iff.1 hi
  obtain ⟨hj, hj'⟩ := List.getElem?_eq_some_iff.1 hj
  have never {a b : Nat} (ha : a < h.length) (hb : b < h.length) (ha' : h[a] = granted lease)
      (hb' : h[b] = granted lease) : ¬ a < b := fun hlt =>
    apart a b ha hb hlt lease (by rw [ha']; rfl) lease (by rw [hb']; rfl) rfl
  have := never hi hj hi' hj'
  have := never hj hi hj' hi'
  omega

end LockEvent

namespace LockService

/-- A lock service that nobody has called yet. -/
def fresh (ids : IdStream .lease) : LockService := ⟨.empty, ids⟩

/-- One call. -/
def call (x : LockService) : LockCall → LockEvent × LockService
  | .acquire flow =>
    match x.locks.acquire flow x.ids with
    | (.ok lease, locks, ids) => (.granted lease, ⟨locks, ids⟩)
    | (.error e, locks, ids) => (.refused e, ⟨locks, ids⟩)
  | .release lease => (.released lease, ⟨x.locks.release lease, x.ids⟩)

/-- The service after some calls. -/
def after (x : LockService) (calls : List LockCall) : LockService :=
  calls.foldl (fun x c => (x.call c).2) x

/-- What is seen of some calls. -/
def history : LockService → List LockCall → List LockEvent
  | _, [] => []
  | x, c :: calls => (x.call c).1 :: (x.call c).2.history calls

/-- The lease is the current one of its flow. -/
def Holds (x : LockService) (lease : Lease) : Prop :=
  x.locks.held.get? lease.flow = some lease.id

/-- Whoever asks for the flow now gets a lease of it. -/
def Grants (x : LockService) (flow : FlowId) : Prop :=
  ∃ lease : Lease, lease.flow = flow ∧ (x.call (.acquire flow)).1 = .granted lease

theorem after_concat (x : LockService) (calls : List LockCall) (c : LockCall) :
    x.after (calls ++ [c]) = ((x.after calls).call c).2 := by
  simp [after, List.foldl_append]

theorem history_concat (x : LockService) (calls : List LockCall) (c : LockCall) :
    x.history (calls ++ [c]) = x.history calls ++ [((x.after calls).call c).1] := by
  induction calls generalizing x with
  | nil => rfl
  | cons first calls ih =>
    show (x.call first).1 :: (x.call first).2.history (calls ++ [c]) = _
    rw [ih]
    rfl

/-! ### One call -/

variable {x : LockService}

theorem Holds.unique {lease lease' : Lease} (h : x.Holds lease) (h' : x.Holds lease')
    (same : lease.flow = lease'.flow) : lease = lease' := by
  unfold Holds at h
  rw [same, h'] at h
  cases lease
  cases lease'
  simp_all

/-- A flow that has a current lease is refused, and any other gets one. -/
theorem acquire_cases (x : LockService) (flow : FlowId) :
    (∃ lease, x.Holds lease ∧ lease.flow = flow ∧
      x.call (.acquire flow) = (.refused (.held flow), x)) ∨
    (∀ lease, x.Holds lease → lease.flow ≠ flow) ∧
      x.call (.acquire flow) = (.granted ⟨x.ids.next.1, flow⟩,
        ⟨⟨x.locks.held.put flow x.ids.next.1⟩, x.ids.next.2⟩) := by
  unfold call Locks.acquire Locks.isHeld Table.contains
  cases held : x.locks.held.get? flow with
  | some id =>
    exact .inl ⟨⟨id, flow⟩, held, rfl, by simp [held]⟩
  | none =>
    refine .inr ⟨?_, by simp [held]⟩
    rintro lease current rfl
    exact Option.some_ne_none _ (current.symm.trans held)

/-- A lease that is given back ends if it is current, and else nothing happens. -/
theorem release_cases (x : LockService) (lease : Lease) :
    x.Holds lease ∧ x.call (.release lease) =
      (.released lease, ⟨⟨x.locks.held.erase lease.flow⟩, x.ids⟩) ∨
    ¬ x.Holds lease ∧ x.call (.release lease) = (.released lease, x) := by
  by_cases current : x.locks.held.get? lease.flow = some lease.id
  · exact .inl ⟨current, by simp [call, Locks.release, current]⟩
  · exact .inr ⟨current, by simp [call, Locks.release, current]⟩

/-- **What a call does.**  The current leases are the granted one and those that were current
before, but for the one that was given back. -/
theorem call_holds (x : LockService) (c : LockCall) (lease : Lease) :
    (x.call c).2.Holds lease ↔
      (x.call c).1 = .granted lease ∨ x.Holds lease ∧ (x.call c).1 ≠ .released lease := by
  cases c with
  | acquire flow =>
    rcases acquire_cases x flow with ⟨-, -, -, refused⟩ | ⟨free, granted⟩
    · simp [refused]
    · rw [granted]
      by_cases own : lease.flow = flow
      · -- the only lease of this flow is the new one
        subst own
        have new : ¬ x.Holds lease := fun current => free lease current rfl
        simp only [new, false_and, or_false, LockEvent.granted.injEq]
        simp only [Holds, Table.get?_put_self, Option.some_inj]
        exact ⟨fun same => same ▸ rfl, fun same => congrArg Lease.id same⟩
      · have other : (⟨x.ids.next.1, flow⟩ : Lease) ≠ lease := fun same => own (same ▸ rfl)
        simp [Holds, Table.get?_put_of_ne _ _ own, other]
  | release lease' =>
    rcases release_cases x lease' with ⟨current, ended⟩ | ⟨stale, kept⟩
    · rw [ended]
      by_cases own : lease.flow = lease'.flow
      · -- the flow has no lease any more
        have gone : ¬ LockService.Holds ⟨⟨x.locks.held.erase lease'.flow⟩, x.ids⟩ lease := by
          simp [Holds, own]
        have back : x.Holds lease → lease' = lease := fun held => current.unique held own.symm
        simpa [gone] using back
      · have other : lease' ≠ lease := fun same => own (same ▸ rfl)
        simp [Holds, Table.get?_erase_of_ne _ own, other]
    · -- a stale lease is given back, which changes nothing
      rw [kept]
      have other : x.Holds lease → lease' ≠ lease := fun held same => stale (same ▸ held)
      simpa using other

theorem call_granted {c : LockCall} {lease : Lease} (h : (x.call c).1 = .granted lease) :
    c = .acquire lease.flow := by
  cases c with
  | acquire flow =>
    rcases acquire_cases x flow with ⟨-, -, -, refused⟩ | ⟨-, granted⟩
    · simp [refused] at h
    · rw [granted] at h
      rw [← LockEvent.granted.inj h]
  | release lease' => cases h

/-- A flow is granted just if it has no current lease. -/
theorem grants_iff (x : LockService) (flow : FlowId) :
    x.Grants flow ↔ ∀ lease, x.Holds lease → lease.flow ≠ flow := by
  unfold Grants
  rcases acquire_cases x flow with ⟨lease, current, own, refused⟩ | ⟨free, granted⟩
  · rw [refused]
    exact ⟨fun ⟨_, _, granted⟩ => (nomatch granted), fun free => absurd own (free lease current)⟩
  · rw [granted]
    exact ⟨fun _ => free, fun _ => ⟨_, rfl, rfl⟩⟩

theorem call_released {c : LockCall} {lease : Lease} (h : (x.call c).1 = .released lease) :
    c = .release lease := by
  cases c with
  | acquire flow =>
    rcases acquire_cases x flow with ⟨-, -, -, refused⟩ | ⟨-, granted⟩
    · simp [refused] at h
    · simp [granted] at h
  | release lease' => exact congrArg LockCall.release (LockEvent.released.inj h)

/-- A lease ends only by being given back. -/
theorem Holds.kept {lease : Lease} (h : x.Holds lease) {calls : List LockCall}
    (kept : .release lease ∉ calls) : (x.after calls).Holds lease := by
  induction calls using List.reverseRecOn with
  | nil => exact h
  | append_singleton calls c ih =>
    rw [List.mem_append, not_or, List.mem_singleton] at kept
    rw [after_concat, call_holds]
    refine .inr ⟨ih kept.1, fun released => kept.2 ?_⟩
    exact (call_released released).symm

/-- **The leases that are held** are those that were granted and not given back since. -/
theorem holds_iff (ids : IdStream .lease) (calls : List LockCall) (lease : Lease) :
    ((fresh ids).after calls).Holds lease ↔
      LockEvent.Unreleased ((fresh ids).history calls) lease := by
  induction calls using List.reverseRecOn with
  | nil => simp [after, history, Holds, fresh, Locks.empty, LockEvent.not_unreleased_nil]
  | append_singleton calls c ih =>
    rw [after_concat, history_concat, call_holds, LockEvent.unreleased_concat, ih]

/-- A call draws the identifier of the lease that it grants, and no other. -/
theorem call_draws (x : LockService) (c : LockCall) :
    ((x.call c).1.lease? = none ∧ (x.call c).2.ids = x.ids) ∨
    ∃ lease, (x.call c).1.lease? = some lease ∧ lease.id = x.ids.next.1 ∧
      (x.call c).2.ids = x.ids.next.2 := by
  cases c with
  | acquire flow =>
    rcases acquire_cases x flow with ⟨-, -, -, refused⟩ | ⟨-, granted⟩
    · exact .inl (refused ▸ ⟨rfl, rfl⟩)
    · exact .inr (granted ▸ ⟨_, rfl, rfl, rfl⟩)
  | release lease => exact .inl ⟨rfl, rfl⟩

/-- Leases are granted with the identifiers in their order. -/
theorem leases_ids (x : LockService) (calls : List LockCall) :
    (LockEvent.leases (x.history calls)).map Lease.id =
      x.ids.upcoming (LockEvent.leases (x.history calls)).length := by
  induction calls generalizing x with
  | nil => rfl
  | cons c calls ih =>
    have rest := ih (x.call c).2
    unfold LockEvent.leases at rest ⊢
    rw [history]
    rcases call_draws x c with ⟨nothing, same⟩ | ⟨lease, granted, first, drawn⟩
    · rw [List.filterMap_cons_none nothing, rest, same]
    · rw [List.filterMap_cons_some granted, List.map_cons, List.length_cons, rest, first, drawn]
      rfl

/-- Calls for other flows leave a flow alone. -/
theorem after_others (x : LockService) {flow : FlowId} {calls : List LockCall}
    (others : ∀ c ∈ calls, c.flow ≠ flow) {lease : Lease} (own : lease.flow = flow) :
    (x.after calls).Holds lease ↔ x.Holds lease := by
  induction calls using List.reverseRecOn with
  | nil => exact Iff.rfl
  | append_singleton calls c ih =>
    obtain ⟨others, other⟩ := List.forall_mem_append.1 others
    have other := other c (List.mem_singleton.2 rfl)
    rw [after_concat, call_holds, ih others]
    have ungranted : ((x.after calls).call c).1 ≠ .granted lease := fun granted =>
      other (call_granted granted ▸ own)
    have unreleased : ((x.after calls).call c).1 ≠ .released lease := fun released =>
      other (call_released released ▸ own)
    simp [ungranted, unreleased]

/-- **Exclusion.**  Anybody has called a lock service for any flows, and has given back any leases.
No identifier was drawn twice for the leases that were granted.  Then

* no lease was granted twice, so the release of one that was granted at another time, as a stale
  one is, ends no lease;
* a flow is granted to whoever asks for it now just if no lease of it is out, one that was granted
  and not given back since; otherwise the answer is that it is held;
* the leases that are out are the current ones, and no flow has two of them;
* a current lease stays so until it is itself given back, which ends it, and to give back a lease
  that is not current changes nothing;
* calls for other flows change neither the lease of a flow nor whether it is granted. -/
theorem excludes {ids : IdStream .lease} {calls : List LockCall} {x : LockService}
    (hx : (fresh ids).after calls = x) {h : List LockEvent} (hh : (fresh ids).history calls = h)
    (distinct : (ids.upcoming (LockEvent.leases h).length).Nodup) :
    (∀ (i j : Nat) (old lease : Lease), h[i]? = some (.granted old) →
      h[j]? = some (.granted lease) → (old = lease ↔ i = j) ∧
      (i ≠ j → x.Holds lease → (x.call (.release old)).2.Holds lease)) ∧
    (∀ flow, (x.Grants flow ↔ ∀ lease, LockEvent.Unreleased h lease → lease.flow ≠ flow) ∧
      (¬ x.Grants flow → x.call (.acquire flow) = (.refused (.held flow), x))) ∧
    (∀ lease, x.Holds lease ↔ LockEvent.Unreleased h lease) ∧
    (∀ lease lease', x.Holds lease → x.Holds lease' → lease.flow = lease'.flow → lease = lease') ∧
    (∀ lease more, x.Holds lease → .release lease ∉ more → (x.after more).Holds lease) ∧
    (∀ lease, ¬ (x.call (.release lease)).2.Holds lease ∧
      (¬ x.Holds lease → (x.call (.release lease)).2 = x)) ∧
    ∀ flow more, (∀ c ∈ more, LockCall.flow c ≠ flow) →
      (∀ lease : Lease, lease.flow = flow → ((x.after more).Holds lease ↔ x.Holds lease)) ∧
      ((x.after more).Grants flow ↔ x.Grants flow) := by
  subst hx
  have once : (LockEvent.leases h).Nodup := by
    refine List.Nodup.of_map Lease.id ?_
    rw [← hh, leases_ids, hh]
    exact distinct
  have out (lease : Lease) : ((fresh ids).after calls).Holds lease ↔ LockEvent.Unreleased h lease :=
    hh ▸ holds_iff ids calls lease
  generalize (fresh ids).after calls = x at *
  -- giving a lease back ends no other one
  have ends (lease other : Lease) (apart : lease ≠ other) (current : x.Holds other) :
      (x.call (.release lease)).2.Holds other :=
    (call_holds ..).2 (.inr ⟨current, fun released => apart (LockEvent.released.inj released)⟩)
  refine ⟨fun i j old lease hi hj => ?once, fun flow => ?grants, out, fun lease lease' => ?unique,
    fun lease more current => current.kept, fun lease => ?ends, fun flow more others => ?others⟩
  case once =>
    have same : old = lease ↔ i = j := by
      constructor
      · rintro rfl
        exact LockEvent.granted_once once hi hj
      · rintro rfl
        exact LockEvent.granted.inj (Option.some.inj (hi.symm.trans hj))
    exact ⟨same, fun apart => ends old lease (mt same.1 apart)⟩
  case grants =>
    refine ⟨(grants_iff x flow).trans (forall_congr' fun lease => by rw [out]), fun refused => ?_⟩
    rcases acquire_cases x flow with ⟨-, -, -, answer⟩ | ⟨-, granted⟩
    · exact answer
    · exact absurd ⟨_, rfl, congrArg Prod.fst granted⟩ refused
  case unique => exact Holds.unique
  case ends =>
    rcases release_cases x lease with ⟨current, ended⟩ | ⟨stale, kept⟩
    · exact ⟨by simp [ended, Holds], fun stale => absurd current stale⟩
    · rw [kept]
      exact ⟨stale, fun _ => rfl⟩
  case others =>
    have same (lease : Lease) (own : lease.flow = flow) := after_others x others own
    refine ⟨same, ?_⟩
    rw [grants_iff, grants_iff]
    constructor
    · intro free lease current own
      exact free lease ((same lease own).2 current) own
    · intro free lease current own
      exact free lease ((same lease own).1 current) own

/-- A flow is granted, given back and granted again, and then the first lease comes back twice. -/
def staleReleases : List LockCall :=
  [.acquire (.ofNat 7), .release ⟨.ofNat 1, .ofNat 7⟩, .acquire (.ofNat 7),
    .release ⟨.ofNat 1, .ofNat 7⟩, .acquire (.ofNat 8), .release ⟨.ofNat 1, .ofNat 7⟩]

/-- The second lease stays, and the flow is refused until it is given back. -/
theorem excludes_stale : ∃ x h, (fresh .counting).after staleReleases = x ∧
    (fresh .counting).history staleReleases = h ∧
    h[2]? = some (.granted ⟨.ofNat 2, .ofNat 7⟩) ∧ x.Holds ⟨.ofNat 2, .ofNat 7⟩ ∧
    ¬ x.Grants (.ofNat 7) ∧ (x.call (.release ⟨.ofNat 1, .ofNat 7⟩)).2.Holds ⟨.ofNat 2, .ofNat 7⟩ ∧
    (x.call (.release ⟨.ofNat 2, .ofNat 7⟩)).2.Grants (.ofNat 7) := by
  obtain ⟨once, grants, out, -, -, -, -⟩ :=
    @excludes .counting staleReleases _ rfl _ rfl (by decide)
  have unreleased : LockEvent.Unreleased ((fresh .counting).history staleReleases)
      ⟨.ofNat 2, .ofNat 7⟩ := ⟨[_, _], [_, _, _], rfl, by decide⟩
  have current := (out _).2 unreleased
  refine ⟨_, _, rfl, rfl, rfl, current, fun granted => ?_, ?_, ⟨⟨.ofNat 4, .ofNat 7⟩, rfl, rfl⟩⟩
  · exact (grants _).1.1 granted _ unreleased rfl
  · exact (once 0 2 _ _ rfl rfl).2 (by decide) current

end LockService

end Workflow
