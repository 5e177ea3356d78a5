import Workflow.Task.Group

/-!
# Workflow.Proofs.Supply — the identifiers that are drawn next

A supply of identifiers hands them out in their order; so what is drawn for a list of targets, or
for leases, is the next stretch of the supply (`IdStream.upcoming`), and the rest is left
(`IdStream.skip`).
-/

namespace Workflow

namespace IdStream

variable {kind : IdKind}

/-- The identifiers that are drawn next. -/
def upcoming (s : IdStream kind) : Nat → List (Id kind)
  | 0 => []
  | n + 1 => s.next.1 :: s.next.2.upcoming n

/-- The supply after some identifiers were drawn. -/
def skip (s : IdStream kind) (n : Nat) : IdStream kind := { s with drawn := s.drawn + n }

@[simp] theorem length_upcoming (s : IdStream kind) (n : Nat) : (s.upcoming n).length = n := by
  induction n generalizing s with
  | zero => rfl
  | succ n ih => simp [upcoming, ih]

theorem skip_succ (s : IdStream kind) (n : Nat) : s.skip (n + 1) = s.next.2.skip n := by
  simp only [skip, next]
  congr 1
  omega

theorem upcoming_succ (s : IdStream kind) (n : Nat) :
    s.upcoming (n + 1) = s.upcoming n ++ [(s.skip n).next.1] := by
  induction n generalizing s with
  | zero => rfl
  | succ n ih =>
    rw [upcoming, ih, skip_succ]
    rfl

theorem skip_skip (s : IdStream kind) (m n : Nat) : (s.skip m).skip n = s.skip (m + n) := by
  simp only [skip, Nat.add_assoc]

theorem upcoming_add (s : IdStream kind) (m n : Nat) :
    s.upcoming (m + n) = s.upcoming m ++ (s.skip m).upcoming n := by
  induction n with
  | zero => simp [upcoming]
  | succ n ih =>
    rw [← Nat.add_assoc, upcoming_succ, upcoming_succ, ih, skip_skip, List.append_assoc]

end IdStream

theorem drawFor_eq (ids : IdStream .task) (targets : List Target) : drawFor ids targets =
    ((ids.upcoming targets.length).zip targets, ids.skip targets.length) := by
  induction targets generalizing ids with
  | nil => rfl
  | cons target targets ih =>
    have rest := ih ids.next.2
    simp only [drawFor, List.length_cons, IdStream.skip_succ, IdStream.upcoming, List.zip_cons_cons]
    rw [rest]

end Workflow
