import HookRegistry.Failure.Basic
import HookRegistry.Item
import HookRegistry.Poller.Interval
import HookRegistry.Poller.State
import HookRegistry.Metrics.Measures

/-!
# The poller

A poller fetches all items at every tick, hands them to a listener and records the outcome.  Between
an accepted start and its stop one task does the polling; a stop gives the task its shutdown signal,
cancels it and waits for its end, unless it is called from inside that task.  An outcome that cannot
be recorded ends the task with its first poll, and nothing else notices.

The poller is a transition system.  Each transition is what happens between two points at which
something else can run, so that a run of `Poller.step?` is any interleaving of callers, of the poll
tasks and of time.  Every task that was ever created stays in `tasks`, under its number.
-/

namespace HookRegistry

/-- A wait for a tick, and the moment at which it ends. -/
structure TickWait where
  tick : Rat
  due : Rat
  deriving DecidableEq, Repr

/-- Where a poll task stands. -/
inductive Phase where
  /-- It has not run yet. -/
  | created
  /-- It waits for its shutdown signal, and for its tick unless that never comes. -/
  | waiting (wait : Option TickWait)
  /-- It waits for the reader, since a tick. -/
  | fetching (tick : Rat)
  /-- It waits for the listener, which has the items. -/
  | updating (tick : Rat) (items : List Item)
  | finished

/-- A poll task. -/
structure PollTask where
  phase : Phase := .created
  /-- Its shutdown signal has been given. -/
  signalled : Bool := false
  /-- It has been sent a cancellation. -/
  cancelled : Bool := false

/-- How many polls were counted, by outcome. -/
structure Tally where
  success : Nat := 0
  failure : Nat := 0
  deriving DecidableEq, Repr

/-- One more poll with an outcome. -/
def Tally.add (t : Tally) : PollOutcome → Tally
  | .success => { t with success := t.success + 1 }
  | .failure => { t with failure := t.failure + 1 }

/-- A poller. -/
structure Poller where
  interval : Interval
  clock : Clock := Clock.exact
  /-- The names of the measures that the outcomes of polls are recorded through. -/
  names : MetricNames := {}
  flag : PollerState := .stopped
  /-- The number of the task that was started last and not detached by a stop. -/
  task : Option Nat := none
  /-- The number of the task whose shutdown signal is at hand. -/
  signal : Option Nat := none
  tasks : List PollTask := []
  /-- The stop calls that wait, each by the number of the task it waits for. -/
  stops : List Nat := []
  tally : Tally := {}
  now : Rat := 0

/-- How a call of start ended. -/
inductive StartOutcome where
  | accepted
  | refused
  /-- The task was created, but the length of the interval could not be put on record. -/
  | unrecorded
  /-- The task could not be created. -/
  | failed
  deriving DecidableEq, Repr

/-- How a call of stop ended, or that it waits for a task. -/
inductive StopOutcome where
  | finished
  | refused
  | waits (task : Nat)
  deriving DecidableEq, Repr

/-- How a fetch ended. -/
inductive FetchOutcome where
  | returned (items : List Item)
  | failed
  /-- The reader passed the cancellation on. -/
  | cancelled

/-- How an update ended. -/
inductive UpdateOutcome where
  | returned
  | failed
  /-- The listener passed the cancellation on. -/
  | cancelled
  deriving DecidableEq, Repr

namespace Poller

/-- The owner whose items are fetched; the empty one stands for all. -/
def fetchOwner : String := ""

/-! ## Calls -/

/-- Whether the length of the interval can be computed with. -/
def intervalFits (p : Poller) : Bool :=
  match p.interval with
  | .oversized => false
  | _ => true

/-- Changes a task. -/
def modifyTask (p : Poller) (n : Nat) (f : PollTask → PollTask) : Poller :=
  { p with tasks := p.tasks.modify n f }

/-- Moves a task to another phase. -/
def moveTask (p : Poller) (n : Nat) (phase : Phase) : Poller :=
  p.modifyTask n fun t => { t with phase }

/-- Starts polling, when the poller is stopped. -/
def start (p : Poller) : Poller × StartOutcome :=
  let (won, flag) := p.flag.compareAndSwap .stopped .transitioning
  if won then
    let n := p.tasks.length
    ({ p with flag := .running, tasks := p.tasks ++ [{}], task := some n, signal := some n },
      if p.intervalFits then .accepted else .unrecorded)
  else ({ p with flag }, .refused)

/-- A start where no task can be created: the flag goes back. -/
def startUnscheduled (p : Poller) : Poller × StartOutcome :=
  let (won, flag) := p.flag.compareAndSwap .stopped .transitioning
  if won then ({ p with flag := .stopped }, .failed) else ({ p with flag }, .refused)

/-- Gives the shutdown signal that is at hand. -/
def giveSignal (p : Poller) : Poller :=
  match p.signal with
  | some n => { p with signal := none }.modifyTask n fun t => { t with signalled := true }
  | none => p

/-- Stops polling, when the poller is running: detaches the task, gives its signal and, unless the
call comes from inside the task, cancels it and waits. -/
def stop (p : Poller) (caller : Option Nat) : Poller × StopOutcome :=
  let (won, flag) := p.flag.compareAndSwap .running .transitioning
  if won then
    let detached := ({ p with flag, task := none } : Poller).giveSignal
    match p.task with
    | some n =>
      if caller = some n then ({ detached with flag := .stopped }, .finished)
      else
        let cancelled := detached.modifyTask n fun t => { t with cancelled := true }
        ({ cancelled with stops := cancelled.stops ++ [n] }, .waits n)
    | none => ({ detached with flag := .stopped }, .finished)
  else ({ p with flag }, .refused)

/-- Whether a task has come to its end. -/
def isFinished (p : Poller) (n : Nat) : Bool :=
  match p.tasks[n]? with
  | some { phase := .finished, .. } => true
  | _ => false

/-- A waiting stop returns, when its task has come to its end. -/
def stopReturns? (p : Poller) (i : Nat) : Option Poller := do
  let n ← p.stops[i]?
  if p.isFinished n then some { p with flag := .stopped, stops := p.stops.eraseIdx i } else none

/-- A waiting stop is cancelled itself; it no longer waits for its task. -/
def stopCancelled? (p : Poller) (i : Nat) : Option Poller := do
  let _ ← p.stops[i]?
  some { p with flag := .stopped, stops := p.stops.eraseIdx i }

/-! ## The poll task -/

/-- What a task does that is to wait for a tick: it waits, or polls at once when the time until the
tick is not positive. -/
def awaitTick (p : Poller) (n : Nat) (tick : Tick) : Poller :=
  match tick with
  | some tick =>
    let span := p.clock.between p.now tick
    if span ≤ 0 then p.moveTask n (.fetching tick)
    else p.moveTask n (.waiting (some { tick, due := p.clock.later p.now span }))
  | none => p.moveTask n (.waiting none)

/-- A task runs for the first time.  With an interval that cannot be computed with it comes to its
end at once. -/
def begin? (p : Poller) (n : Nat) : Option Poller :=
  match p.tasks[n]? with
  | some { phase := .created, cancelled, .. } =>
    if cancelled || !p.intervalFits then some (p.moveTask n .finished)
    else some (p.awaitTick n (p.interval.next p.clock p.now))
  | _ => none

/-- A waiting task goes on: to its end when it was signalled or cancelled, to a poll when its tick
has come. -/
def wake? (p : Poller) (n : Nat) : Option Poller :=
  match p.tasks[n]? with
  | some { phase := .waiting wait, signalled, cancelled } =>
    if cancelled || signalled then some (p.moveTask n .finished)
    else
      match wait with
      | some w => if p.clock.reached w.due p.now then some (p.moveTask n (.fetching w.tick)) else none
      | none => none
  | _ => none

/-- A poll has ended: it is counted, and the task waits for the next tick that has not passed.
Where its outcome cannot be recorded, it is not counted and the task comes to its end. -/
def endPoll (p : Poller) (n : Nat) (tick : Rat) (outcome : PollOutcome) : Poller :=
  if Measures.CanRecord p.names then
    { p with tally := p.tally.add outcome }.awaitTick n (p.interval.after p.clock tick p.now)
  else p.moveTask n .finished

/-- A fetch has ended. -/
def fetchEnds? (p : Poller) (n : Nat) (outcome : FetchOutcome) : Option Poller :=
  match p.tasks[n]? with
  | some { phase := .fetching tick, cancelled, .. } =>
    match outcome with
    | .returned items => some (p.moveTask n (.updating tick items))
    | .failed => some (p.endPoll n tick .failure)
    | .cancelled => if cancelled then some (p.moveTask n .finished) else none
  | _ => none

/-- An update has ended.  Whether the listener failed makes no difference to the poller. -/
def updateEnds? (p : Poller) (n : Nat) (outcome : UpdateOutcome) : Option Poller :=
  match p.tasks[n]? with
  | some { phase := .updating tick _, cancelled, .. } =>
    match outcome with
    | .returned | .failed => some (p.endPoll n tick .success)
    | .cancelled => if cancelled then some (p.moveTask n .finished) else none
  | _ => none

/-- Time passes. -/
def pass (p : Poller) (span : Rat) : Poller :=
  { p with now := p.now + span }

/-! ## Interleavings -/

/-- Whether a call can come from a task: the task is inside the reader or the listener. -/
def canCall (p : Poller) (n : Nat) : Bool :=
  match p.tasks[n]? with
  | some { phase := .fetching _, .. } | some { phase := .updating _ _, .. } => true
  | _ => false

/-- What may happen next. -/
inductive Action where
  | pass (span : Rat)
  | start
  | startUnscheduled
  | stop (caller : Option Nat)
  | stopReturns (i : Nat)
  | stopCancelled (i : Nat)
  | begin (task : Nat)
  | wake (task : Nat)
  | fetchEnds (task : Nat) (outcome : FetchOutcome)
  | updateEnds (task : Nat) (outcome : UpdateOutcome)

/-- The poller after an action, when the action can happen. -/
def step? (p : Poller) : Action → Option Poller
  | .pass span => if 0 ≤ span then some (p.pass span) else none
  | .start => some p.start.1
  | .startUnscheduled => some p.startUnscheduled.1
  | .stop caller => if caller.all p.canCall then some (p.stop caller).1 else none
  | .stopReturns i => p.stopReturns? i
  | .stopCancelled i => p.stopCancelled? i
  | .begin n => p.begin? n
  | .wake n => p.wake? n
  | .fetchEnds n outcome => p.fetchEnds? n outcome
  | .updateEnds n outcome => p.updateEnds? n outcome

/-- The poller after a run of actions, when each of them can happen in turn. -/
def run? (p : Poller) (actions : List Action) : Option Poller :=
  actions.foldlM step? p

/-! ## What is logged -/

/-- A record of the poller. -/
def record (level : LogLevel) (text : String) : LogRecord :=
  ⟨level, .poller, text⟩

/-- The log of a call of start. -/
def startLog (interval : Seconds) : StartOutcome → List LogRecord
  | .accepted =>
    [record .debug
      ("Listener started with pull interval " ++ String.ofList (interval.toDouble.fixed 3) ++ "s")]
  | .refused => [record .error "Start called when a listener was not in stopped state"]
  | .unrecorded | .failed => []

/-- The result of a call of start. -/
def startResult : StartOutcome → Except Failure Unit
  | .accepted => .ok ()
  | .refused => .error .notStopped
  | .unrecorded => .error .oversizedNumber
  | .failed => .error .noScheduler

/-- The log of a stop that returns. -/
def stoppedLog : List LogRecord :=
  [record .debug "Listener stopped"]

/-- The log of a stop that is refused. -/
def stopRefusedLog : List LogRecord :=
  [record .error "Stop called when a listener was not in running state"]

/-- The log of a fetch that failed. -/
def fetchFailedLog : List LogRecord :=
  [record .error "Failed to get items for listeners"]

/-- The log of an update that failed. -/
def updateFailedLog (items : List Item) : List LogRecord :=
  [record .error ("Listener failed to process " ++ toString items.length ++ " items")]

end Poller

end HookRegistry
