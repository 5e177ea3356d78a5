import Mathlib.Tactic.DeprecateTo
import Workflow.Rollout.Report

/-!
# Workflow.Main — the command line: a rollout in real time

The only argument is the file with the settings; without it every setting has its own value.  The
exit code is 1 if the file cannot be read or the rollout is refused.
-/

open Workflow

/-- Identifiers with the time in front, of which no two are the same. -/
def freshIds : IO IdSource := do
  -- `Std.Time` is in scope by way of `Mathlib.Tactic.DeprecateTo`
  let ms := (← Std.Time.Timestamp.now).toMillisecondsSinceUnixEpoch.val
  let seed ← IO.rand 0 (UInt64.size - 1)
  let stream {kind : IdKind} : IdStream kind := ⟨fun n => Id.generate ms (seed + n), 0⟩
  return ⟨stream, stream, stream⟩

/-- How many moves may happen at one time. -/
def movesAtOnce : Nat := Nat.pow 2 62

/-- Lets time pass as fast as it does until the flow is settled. -/
partial def runLive (w : World) : IO World := do
  let w := w.settle movesAtOnce
  match w.settled? 0, w.due with
  | some _, _ => return w
  | none, some due =>
    IO.sleep (UInt32.ofNat (due - w.now))
    runLive { w with now := max due w.now }
  | none, none =>
    IO.sleep 1000
    runLive w

/-- The settings of the command line. -/
def readSettings : List String → IO Rollout
  | [] => return default
  | path :: _ => do
    match Rollout.ofText? (← IO.FS.readFile path) with
    | some r => return r
    | none => throw (IO.userError (path ++ " has no settings of a rollout"))

def main (args : List String) : IO UInt32 := do
  try
    let r ← readSettings args
    match r.start (← freshIds) with
    | .error e =>
      IO.eprintln ("Error: " ++ e.message)
      return 1
    | .ok w =>
      (Rollout.report (← runLive w)).forM IO.println
      return 0
  catch e =>
    IO.eprintln ("Error: " ++ toString e)
    return 1
