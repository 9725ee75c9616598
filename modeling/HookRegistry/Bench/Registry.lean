import HookRegistry.Bench.EchoStore
import HookRegistry.Registry.Basic

/-!
# A registry over an echoing store

The store answers at once, so a poll takes no time: at each tick the poll task fetches, tells the
watches and waits again.  Time is virtual.
-/

namespace HookRegistry.Bench

/-- A call of a watch. -/
structure WatchCall where
  watch : Nat
  time : Rat
  urls : List String

/-- A registry, its store and its clock. -/
structure RegistryBench where
  registry : Registry
  sessions : Sessions := []
  store : EchoStore := {}
  clock : Timestamp.Open
  /-- The result of every push, without a request, when set. -/
  pushResult : Option PushResult := none
  requests : List SessionRequest := []
  watchCalls : List WatchCall := []
  log : List LogRecord := []

namespace RegistryBench

/-- Adds records to the log. -/
def write (b : RegistryBench) (log : List LogRecord) : RegistryBench :=
  { b with log := b.log ++ log }

/-- The reply to a request, which is recorded. -/
def answer (r : SessionRequest) (b : RegistryBench) : Reply × RegistryBench :=
  let (reply, store) := b.store.handle r
  (reply, { b with store, requests := b.requests ++ [r] })

/-- Runs an operation over the session. -/
def run {α : Type} (b : RegistryBench) (op : StoreClient.Operation α) :
    Except Failure α × RegistryBench :=
  let (o, b) := (op.through b.registry.store.transport.send).run answer b
  (o.result, b.write o.log)

/-! ## The poll task -/

/-- Replaces the poller. -/
def setPoller (b : RegistryBench) (poller : Poller) : RegistryBench :=
  { b with registry := { b.registry with poller } }

/-- The calls of the watches in a round; the one that keeps the gauge is left out. -/
def callsOf (b : RegistryBench) (u : Watch.Update) : List WatchCall :=
  (u.round.calls.filter (·.1 < b.registry.watches.length - 1)).map fun c =>
    { watch := c.1, time := b.registry.poller.now, urls := c.2.map (·.delivery.url) }

/-- A task fetches the items, tells the watches and, when the outcome can be recorded, waits for the
next tick. -/
def poll? (b : RegistryBench) (n : Nat) : Option RegistryBench := do
  let (result, b) := b.run b.registry.poll
  let (registry, round) := b.registry.finishPoll result
  let b := { b with registry, watchCalls := b.watchCalls ++ b.callsOf round.update }.write round.log
  match result with
  | .error _ => (b.registry.poller.fetchEnds? n .failed).map b.setPoller
  | .ok items =>
    let p ← b.registry.poller.fetchEnds? n (.returned items)
    let p ← p.updateEnds? n (if round.update.round.failure.isSome then .failed else .returned)
    some (b.setPoller p)

/-- What a task does, when it can go on now. -/
def runTask? (b : RegistryBench) (n : Nat) : Option RegistryBench :=
  let p := b.registry.poller
  match p.tasks[n]? with
  | some { phase := .created, .. } => (p.begin? n).map b.setPoller
  | some { phase := .waiting _, .. } => (p.wake? n).map b.setPoller
  | some { phase := .fetching _, .. } => b.poll? n
  | _ => none

/-- A waiting stop returns, when it can. -/
def returnStop? (b : RegistryBench) (i : Nat) : Option RegistryBench :=
  (b.registry.poller.stopReturns? i).map fun p => (b.setPoller p).write Poller.stoppedLog

/-- The first thing that can happen now. -/
def settleOnce? (b : RegistryBench) : Option RegistryBench :=
  let p := b.registry.poller
  ((List.range p.tasks.length).findSome? b.runTask?).or
    ((List.range p.stops.length).findSome? b.returnStop?)

/-- Lets everything happen that can happen now, in at most `fuel` steps. -/
def settleWithin : Nat → RegistryBench → RegistryBench
  | 0, b => b
  | fuel + 1, b =>
    match b.settleOnce? with
    | some b => settleWithin fuel b
    | none => b

/-- Lets everything happen that can happen now; a task takes a few steps. -/
def settle (b : RegistryBench) : RegistryBench :=
  settleWithin (8 * (b.registry.poller.tasks.length + 2)) b

/-! ## Time -/

/-- The moment for which a task waits. -/
def dueOf (t : PollTask) : Option Rat :=
  match t.phase with
  | .waiting wait => wait.map (·.due)
  | _ => none

/-- Moves the clock of the poller to a moment. -/
def moveTo (b : RegistryBench) (t : Rat) : RegistryBench :=
  b.setPoller (b.registry.poller.pass (t - b.registry.poller.now))

/-- Lets time pass until a moment has come, in at most `fuel` jumps from one moment at which
something is due to the next. -/
def advanceWithin : Nat → Rat → RegistryBench → RegistryBench
  | 0, target, b => b.moveTo target
  | fuel + 1, target, b =>
    let p := b.registry.poller
    if p.clock.reached target p.now then b
    else
      let next := match (p.tasks.filterMap dueOf).min? with
        | some due => min due target
        | none => target
      advanceWithin fuel target (b.moveTo next).settle

/-- Lets a span of time pass. -/
def advance (b : RegistryBench) (span : Rat) : RegistryBench :=
  let p := b.registry.poller
  let ticks := match p.interval with
    | .every length _ => (span / length).ceil.toNat + 3
    | .never | .oversized => 3
  advanceWithin (2 * ticks * (p.tasks.length + 1)) (p.clock.later p.now span) b.settle

/-! ## Steps -/

/-- Starts the poller. -/
def start (b : RegistryBench) : Except Failure Unit × RegistryBench :=
  let (p, outcome) := b.registry.poller.start
  (Poller.startResult outcome,
    ((b.setPoller p).write (Poller.startLog b.registry.pullInterval outcome)).settle)

/-- The log of a stop that did not have to wait, and its result. -/
def stopped (b : RegistryBench) : StopOutcome → Except Failure Unit × RegistryBench
  | .finished => (.ok (), b.write Poller.stoppedLog)
  | .refused => (.error .notRunning, b.write Poller.stopRefusedLog)
  | .waits _ => (.ok (), b.settle)

/-- Stops the poller. -/
def stop (b : RegistryBench) : Except Failure Unit × RegistryBench :=
  let (p, outcome) := b.registry.poller.stop none
  let (result, b) := (b.setPoller p).stopped outcome
  (result, b.settle)

/-- Enters the registry. -/
def enter (b : RegistryBench) : Except Failure Unit × RegistryBench :=
  let (registry, sessions, outcome) := b.registry.enter b.sessions
  (Poller.startResult outcome,
    ({ b with registry, sessions }.write (Poller.startLog b.registry.pullInterval outcome)).settle)

/-- Leaves the registry. -/
def exit (b : RegistryBench) : RegistryBench :=
  let (registry, outcome) := b.registry.beginExit none
  let b := { b with registry }
  let b := match outcome with
    | some outcome => (b.stopped outcome).2
    | none => b
  let (registry, sessions) := b.registry.endExit b.sessions
  { b with registry, sessions }.settle

/-- Registers what a caller submits. -/
def submit (b : RegistryBench) (owner : String) (w : Submission) : Except Failure Unit × RegistryBench :=
  match b.pushResult, w with
  | some r, .webhook w =>
    match w.toItem b.clock with
    | .error f => (.error f, b)
    | .ok _ =>
      let o := Registry.pushed w.delivery.url { result := .ok r }
      (o.result, b.write o.log)
  | _, w => b.run (b.registry.submit b.clock owner w)

/-- Forgets the records so far. -/
def clear (b : RegistryBench) : RegistryBench :=
  { b with requests := [], watchCalls := [], log := [] }

end RegistryBench

end HookRegistry.Bench
