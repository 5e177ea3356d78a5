import Workflow.Table
import Workflow.Worker.Machine

/-!
# Workflow.Worker.Timed — a worker among its calls in virtual time

A timed worker knows when the next thing happens to it: a call starts or ends, a delay is over, a
monitor answers at once, or the deadline passes.  Of two things at one time the deadline comes
before calls, and after everything that the worker does by itself.
-/

namespace Workflow

/-- What a call into a task or a monitor leaves in the trace. -/
inductive Mark where
  | call (n : Nat)
  | callEnd (n : Nat)
  | createPoll (n : Nat) (last : TaskResult)
  | poll (n : Nat)
  | pollEnd (n : Nat)

namespace Mark

def name : Mark → String
  | call _ => "call"
  | callEnd _ => "call_end"
  | createPoll _ _ => "create_poll"
  | poll _ => "poll"
  | pollEnd _ => "poll_end"

/-- The number of the attempt or poll, counted from 1. -/
def number : Mark → Nat
  | call n => n
  | callEnd n => n
  | createPoll n _ => n
  | poll n => n
  | pollEnd n => n

end Mark

/-- One entry of the trace of calls. -/
structure TraceEntry where
  time : Nat
  task : TaskId
  mark : Mark

/-- Whether one thing is told before another: by time, and then by a number of its own. -/
def toldBefore (a b : Nat × Nat) : Bool := a.1 < b.1 || (a.1 = b.1 && a.2 ≤ b.2)

/-- Entries by time and then by task, in order of happening otherwise. -/
def TraceEntry.inOrder (trace : List TraceEntry) : List TraceEntry :=
  trace.mergeSort fun a b => toldBefore (a.time, a.task.toNat) (b.time, b.task.toNat)

/-- How many polls were asked for, per monitor and task. -/
abbrev PollCounts := Table (List Nat × TaskId) Nat

/-- The next thing that happens to a worker. -/
inductive Wake where
  /-- Call number `n` starts. -/
  | begin (n : Nat) (call : Call)
  /-- Call number `n` ends. -/
  | reply (n : Nat) (reply : Reply)
  /-- A delay or interval is over. -/
  | elapsed
  /-- The monitor made no poll. -/
  | refused (error : TaskError)
  /-- The monitor broke off. -/
  | broke (detail : String)

/-- Whether the worker's deadline comes first at the same time. -/
def Wake.yieldsToDeadline : Wake → Bool
  | begin _ _ => true
  | reply _ _ => true
  | _ => false

/-- A worker, its launch and its timers. -/
structure TimedWorker where
  launch : Launch
  worker : Worker
  wake : Option (Nat × Wake)
  deadline : Option Nat

namespace TimedWorker

/-- What happened when a timer fired. -/
structure Fired where
  worker : TimedWorker
  counts : PollCounts
  events : List TaskEvent
  trace : List TraceEntry

/-- Sets the timer of the phase that the worker has just entered. -/
def arrange (w : TimedWorker) (now : Nat) (counts : PollCounts) (events : List TaskEvent)
    (trace : List TraceEntry) : Fired :=
  let set (wake : Option (Nat × Wake)) : Fired := ⟨{ w with wake := wake }, counts, events, trace⟩
  match w.worker.phase with
  | .calling failures =>
    set (some (now, .begin (failures + 1) (w.launch.job.attempt (failures + 1))))
  | .backingOff _ delay => set (some (now + delay.timerMs, .elapsed))
  | .polling last _ _ =>
    match w.launch.kind with
    | .submit => set none
    | .poll monitor =>
      let task := w.worker.task
      let n := (counts.get? (monitor.key, task)).getD 0 + 1
      let wake := match monitor.poll n task last with
        | .refused e => Wake.refused e
        | .broke detail => .broke detail
        | .started call => .begin n call
      ⟨{ w with wake := some (now, wake) }, counts.put (monitor.key, task) n, events,
        trace ++ [⟨now, task, .createPoll n last⟩]⟩
  | .resting _ _ _ =>
    let interval := (w.worker.pollPolicy.map PollPolicy.interval).getD ⟨0⟩
    set (some (now + interval.timerMs, .elapsed))
  | .done _ => ⟨{ w with wake := none, deadline := none }, counts, events, trace⟩

/-- A worker that starts now. -/
def start (launch : Launch) (now : Nat) : TimedWorker × List TaskEvent :=
  let (worker, events) := Worker.start launch
  let deadline := worker.policy.timeout?.map (now + ·.timerMs)
  let fired := (⟨launch, worker, none, deadline⟩ : TimedWorker).arrange now .empty events []
  (fired.worker, fired.events)

/-- When the next thing happens, if ever. -/
def due (w : TimedWorker) : Option Nat :=
  match w.wake, w.deadline with
  | some (t, _), some d => some (min t d)
  | some (t, _), none => some t
  | none, d => d

/-- Whether it is the deadline that comes next. -/
def deadlineFirst (w : TimedWorker) : Bool :=
  match w.wake, w.deadline with
  | some (t, wake), some d => d < t || (d == t && wake.yieldsToDeadline)
  | none, some _ => true
  | _, none => false

/-- The worker reacts to a signal. -/
def signal (w : TimedWorker) (now : Nat) (counts : PollCounts) (s : Worker.Signal)
    (trace : List TraceEntry) : Fired :=
  let (worker, events) := w.worker.react s
  { w with worker := worker }.arrange now counts events trace

/-- Whether the worker is polling, and not submitting. -/
def isPolling (w : TimedWorker) : Bool :=
  match w.worker.phase with
  | .polling _ _ _ => true
  | _ => false

/-- The signal that the end of a call is to the worker. -/
def replySignal (w : TimedWorker) (reply : Reply) : Worker.Signal :=
  match w.worker.phase, w.launch.kind with
  | .polling _ _ _, .poll monitor =>
    match reply.outcome with
    | .error e => .polled (.failed e)
    | .ok answer =>
      if answer.isError then .polled (.answered answer none)
      else
        match monitor.interpret w.worker.task answer with
        | .ok verdict => .polled (.answered answer verdict)
        | .error detail => .monitorBroke detail
  | _, _ => .answered reply.outcome

/-- The next thing happens. -/
def fire (w : TimedWorker) (now : Nat) (counts : PollCounts) : Fired :=
  if w.deadlineFirst then w.signal now counts .expired []
  else
    let task := w.worker.task
    match w.wake with
    | none => ⟨w, counts, [], []⟩
    | some (_, .begin n call) =>
      let mark := if w.isPolling then Mark.poll n else .call n
      ⟨{ w with wake := call.time.map (now + ·, .reply n call.reply) }, counts, [],
        [⟨now, task, mark⟩]⟩
    | some (_, .reply n reply) =>
      let mark := if w.isPolling then Mark.pollEnd n else .callEnd n
      let trace := match reply with
        | .answer _ => [⟨now, task, mark⟩]
        | .broke _ => []
      w.signal now counts (w.replySignal reply) trace
    | some (_, .elapsed) => w.signal now counts .elapsed []
    | some (_, .refused e) => w.signal now counts (.polled (.failed e)) []
    | some (_, .broke detail) => w.signal now counts (.monitorBroke detail) []

end TimedWorker

/-- What has happened so far, each event with its time. -/
structure Timeline where
  events : List (Nat × TaskEvent)
  trace : List TraceEntry

namespace Timeline

def empty : Timeline := ⟨[], []⟩

/-- The timeline with what happened now. -/
def extend (t : Timeline) (now : Nat) (events : List TaskEvent) (trace : List TraceEntry) :
    Timeline :=
  ⟨t.events ++ events.map (now, ·), t.trace ++ trace⟩

/-- When the latest event happened. -/
def lastTime (t : Timeline) : Nat := (t.events.getLast?.map Prod.fst).getD 0

/-- Events by time and then by task, what belongs to no task last. -/
def eventsInOrder (t : Timeline) : List (Nat × TaskEvent) :=
  let place (e : Nat × TaskEvent) : Nat × Nat :=
    (e.1, (e.2.task?.map Id.toNat).getD (Nat.pow 2 128))
  t.events.mergeSort fun a b => toldBefore (place a) (place b)

/-- Results by the time of their events, and then by task. -/
def resultsInOrder (t : Timeline) : List TaskResult :=
  let results := t.events.filterMap fun (time, event) => match event with
    | .result _ r => some (time, r)
    | _ => none
  (results.mergeSort fun a b => toldBefore (a.1, a.2.task.toNat) (b.1, b.2.task.toNat)).map Prod.snd

end Timeline

namespace TimedWorker

/-- Lets everything happen that is due before `limit`, in at most `fuel` steps. -/
def run (limit : Nat) : Nat → TimedWorker → PollCounts → Timeline → TimedWorker × Timeline
  | 0, w, _, past => (w, past)
  | fuel + 1, w, counts, past =>
    match w.due with
    | none => (w, past)
    | some now =>
      if limit ≤ now then (w, past)
      else
        let fired := w.fire now counts
        run limit fuel fired.worker fired.counts (past.extend now fired.events fired.trace)

/-- A launch driven alone from time 0 on. -/
def runAlone (launch : Launch) (limit fuel : Nat) : TimedWorker × Timeline :=
  let (w, events) := start launch 0
  w.run limit fuel .empty (Timeline.empty.extend 0 events [])

end TimedWorker

end Workflow
