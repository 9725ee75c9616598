import HookRegistry.Poller.Basic

/-!
# A poller between scripted collaborators

The reader and the listener follow scripts: how long they take, what they give or how they fail,
and what they do when they are cancelled.  Time is virtual: it stands still while anything can
happen, and then moves to the next moment at which something is due.
-/

namespace HookRegistry.Bench

/-- A call on the poller. -/
inductive Call where
  | start
  | stop
  deriving DecidableEq, Repr

/-- The name of a call. -/
def Call.name : Call → String
  | .start => "start"
  | .stop => "stop"

/-- What a reader does when it is asked for the items. -/
structure ReaderScript where
  delay : Rat := 0
  /-- How the fetch fails, unless it gives items. -/
  failure : Option Failure := none
  items : Except Failure (List Item) := .ok []
  /-- How long it stays after a cancellation, when it stays at all. -/
  linger : Option Rat := none
  /-- Whether it goes on, after it has stayed, as if there had been no cancellation. -/
  swallow : Bool := false

/-- What a listener does when it is told the items. -/
structure ListenerScript where
  delay : Rat := 0
  /-- The calls that it makes on its own poller. -/
  calls : List Call := []
  failure : Option Failure := none

/-- How a listener works. -/
inductive ListenerKind where
  /-- It returns at once. -/
  | immediate
  /-- It can wait. -/
  | waiting
  /-- It cannot be told anything. -/
  | broken
  deriving DecidableEq, Repr

/-- What a poll task is doing inside a collaborator. -/
inductive Activity where
  | reading (script : ReaderScript) (due : Rat)
  | lingering (script : ReaderScript) (due : Rat)
  | listening (due : Rat)
  | calling (rest : List Call)
  /-- It waits for its own call of stop. -/
  | blocked (rest : List Call)

/-- Who waits for a stop. -/
inductive Waiter where
  /-- A call of the current step, by its place. -/
  | step (place : Nat)
  /-- A call in the background, by its place. -/
  | background (place : Nat)
  /-- A listener inside a poll task. -/
  | callback (task : Nat)
  deriving DecidableEq, Repr

/-- The task that a waiter is inside of. -/
def Waiter.caller? : Waiter → Option Nat
  | .callback n => some n
  | _ => none

/-- The result of a call that has returned. -/
abbrev Returned := Except Failure Unit

/-- Something that happened. -/
inductive Event where
  | fetch (time : Rat) (owner : String)
  | cancelled (time : Rat)
  | update (time : Rat) (ids : List String)
  | done (time : Rat)
  | call (call : Call) (time : Rat) (result : Returned) (state : PollerState)

/-- A poller and its collaborators. -/
structure PollerBench where
  poller : Poller
  pullInterval : Seconds
  kind : ListenerKind
  reader : ReaderScript
  listener : ListenerScript
  /-- What the tasks are doing, by number. -/
  activities : List (Nat × Activity) := []
  /-- The tasks whose cancellation the reader has absorbed. -/
  absorbed : List Nat := []
  /-- Who waits for the waiting stops, in the order of `Poller.stops`. -/
  waiters : List Waiter := []
  /-- The calls of the current step; `none` has not returned. -/
  step : List (Option Returned) := []
  background : List (Option Returned) := []
  events : List Event := []
  log : List LogRecord := []

namespace PollerBench

/-! ## Records -/

/-- Adds an event. -/
def emit (b : PollerBench) (e : Event) : PollerBench :=
  { b with events := b.events ++ [e] }

/-- Adds records to the log. -/
def write (b : PollerBench) (log : List LogRecord) : PollerBench :=
  { b with log := b.log ++ log }

/-- Sets what a task is doing. -/
def setActivity (b : PollerBench) (n : Nat) (a : Activity) : PollerBench :=
  { b with activities := (n, a) :: b.activities.filter (·.1 != n) }

/-- A task is doing nothing inside a collaborator. -/
def clearActivity (b : PollerBench) (n : Nat) : PollerBench :=
  { b with activities := b.activities.filter (·.1 != n) }

/-- What a task is doing. -/
def activity? (b : PollerBench) (n : Nat) : Option Activity :=
  (b.activities.find? (·.1 == n)).map (·.2)

/-- Whether a task has been sent a cancellation that it has not noticed. -/
def cancelPending (b : PollerBench) (n : Nat) : Bool :=
  match b.poller.tasks[n]? with
  | some t => t.cancelled && !b.absorbed.contains n
  | none => false

/-! ## Calls -/

/-- A call has returned to the one who waits for it. -/
def deliver (b : PollerBench) (w : Waiter) (c : Call) (r : Returned) : PollerBench :=
  match w with
  | .step place => { b with step := b.step.set place (some r) }
  | .background place => { b with background := b.background.set place (some r) }
  | .callback n =>
    let b := b.emit (.call c b.poller.now r b.poller.flag)
    match b.activity? n with
    | some (.blocked rest) => b.setActivity n (.calling rest)
    | _ => b

/-- Makes a call. -/
def call (b : PollerBench) (w : Waiter) : Call → PollerBench
  | .start =>
    let (poller, outcome) := b.poller.start
    { b with poller }.write (Poller.startLog b.pullInterval outcome)
      |>.deliver w .start (Poller.startResult outcome)
  | .stop =>
    let (poller, outcome) := b.poller.stop w.caller?
    let b := { b with poller }
    match outcome with
    | .finished => (b.write Poller.stoppedLog).deliver w .stop (.ok ())
    | .refused => (b.write Poller.stopRefusedLog).deliver w .stop (.error .notRunning)
    | .waits _ => { b with waiters := b.waiters ++ [w] }

/-! ## What can happen at once -/

/-- The moment a span from now. -/
def fromNow (b : PollerBench) (span : Rat) : Rat :=
  b.poller.clock.later b.poller.now span

/-- Whether a moment has come. -/
def reached (b : PollerBench) (due : Rat) : Bool :=
  b.poller.clock.reached due b.poller.now

/-- A poll begins: the reader is asked. -/
def beginFetch (b : PollerBench) (n : Nat) : PollerBench :=
  (b.emit (.fetch b.poller.now Poller.fetchOwner)).setActivity n
    (.reading b.reader (b.fromNow b.reader.delay))

/-- A poll ends because its fetch failed, or because the reader passed the cancellation on. -/
def endFetch? (b : PollerBench) (n : Nat) (outcome : FetchOutcome) (log : List LogRecord) :
    Option PollerBench :=
  (b.poller.fetchEnds? n outcome).map fun poller =>
    ({ b with poller }.clearActivity n).write log

/-- A poll ends with the end of its update. -/
def endUpdate? (b : PollerBench) (n : Nat) (outcome : UpdateOutcome) (log : List LogRecord) :
    Option PollerBench :=
  (b.poller.updateEnds? n outcome).map fun poller =>
    ({ b with poller }.clearActivity n).write log

/-- The items that a task has handed to the listener. -/
def itemsOf (b : PollerBench) (n : Nat) : List Item :=
  match b.poller.tasks[n]? with
  | some { phase := .updating _ items, .. } => items
  | _ => []

/-- The update of a task fails or returns, as the script says. -/
def finishUpdate? (b : PollerBench) (n : Nat) : Option PollerBench :=
  match b.listener.failure with
  | some _ => b.endUpdate? n .failed (Poller.updateFailedLog (b.itemsOf n))
  | none => b.endUpdate? n .returned []

/-- The listener is told the items. -/
def beginUpdate? (b : PollerBench) (n : Nat) (items : List Item) : Option PollerBench := do
  let poller ← b.poller.fetchEnds? n (.returned items)
  let b := { b with poller }.clearActivity n
  match b.kind with
  | .broken => b.endUpdate? n .failed (Poller.updateFailedLog items)
  | .immediate => (b.emit (.update b.poller.now (items.map (·.id)))).finishUpdate? n
  | .waiting =>
    some <| (b.emit (.update b.poller.now (items.map (·.id)))).setActivity n
      (.listening (b.fromNow b.listener.delay))

/-- The reader gives what its script says. -/
def finishFetch? (b : PollerBench) (n : Nat) (script : ReaderScript) : Option PollerBench :=
  match script.failure, script.items with
  | none, .ok items => b.beginUpdate? n items
  | _, _ => b.endFetch? n .failed Poller.fetchFailedLog

/-- The reader has stayed after a cancellation, and ends. -/
def finishLinger? (b : PollerBench) (n : Nat) (script : ReaderScript) : Option PollerBench :=
  if script.swallow then b.finishFetch? n script else b.endFetch? n .cancelled []

/-- What a task does inside a collaborator, when it can go on now. -/
def act? (b : PollerBench) (n : Nat) : Activity → Option PollerBench
  | .reading script due =>
    if b.cancelPending n then
      let b := { b with absorbed := n :: b.absorbed }.emit (.cancelled b.poller.now)
      match script.linger with
      | some span => some (b.setActivity n (.lingering script (b.fromNow span)))
      | none => b.endFetch? n .cancelled []
    else if b.reached due then b.finishFetch? n script
    else none
  | .lingering script due => if b.reached due then b.finishLinger? n script else none
  | .listening due =>
    if b.cancelPending n then b.endUpdate? n .cancelled []
    else if b.reached due then some (b.setActivity n (.calling b.listener.calls))
    else none
  | .calling [] =>
    match b.listener.failure with
    | some _ => b.finishUpdate? n
    | none => (b.emit (.done b.poller.now)).finishUpdate? n
  | .calling (c :: rest) => some ((b.setActivity n (.blocked rest)).call (.callback n) c)
  | .blocked _ => none

/-- What a task does, when it can go on now. -/
def runTask? (b : PollerBench) (n : Nat) : Option PollerBench :=
  match b.activity? n with
  | some a => b.act? n a
  | none =>
    match b.poller.tasks[n]? with
    | some { phase := .created, .. } => (b.poller.begin? n).map fun poller => { b with poller }
    | some { phase := .waiting _, .. } => (b.poller.wake? n).map fun poller => { b with poller }
    | some { phase := .fetching _, .. } => some (b.beginFetch n)
    | _ => none

/-- A waiting stop returns, when it can. -/
def returnStop? (b : PollerBench) (i : Nat) : Option PollerBench := do
  let poller ← b.poller.stopReturns? i
  let w ← b.waiters[i]?
  let b := { b with poller, waiters := b.waiters.eraseIdx i }
  some ((b.write Poller.stoppedLog).deliver w .stop (.ok ()))

/-- The first thing that can happen now: a task goes on, or else a stop returns. -/
def settleOnce? (b : PollerBench) : Option PollerBench :=
  ((List.range b.poller.tasks.length).findSome? b.runTask?).or
    ((List.range b.waiters.length).findSome? b.returnStop?)

/-- Lets everything happen that can happen now, in at most `fuel` steps. -/
def settleWithin : Nat → PollerBench → PollerBench
  | 0, b => b
  | fuel + 1, b =>
    match b.settleOnce? with
    | some b => settleWithin fuel b
    | none => b

/-- Lets everything happen that can happen now.  A task takes a few steps, and a few more for each
call that its listener makes. -/
def settle (b : PollerBench) : PollerBench :=
  let calls := b.listener.calls.length
  settleWithin (4 * (b.poller.tasks.length + calls + 2) * (calls + 8)) b

/-! ## Time -/

/-- The moment for which a task waits. -/
def dueOf (b : PollerBench) (n : Nat) : Option Rat :=
  match b.activity? n with
  | some (.reading _ due) | some (.lingering _ due) | some (.listening due) => some due
  | some _ => none
  | none =>
    match b.poller.tasks[n]? with
    | some { phase := .waiting wait, .. } => wait.map (·.due)
    | _ => none

/-- The earlier of two moments. -/
def earlier (s t : Rat) : Rat :=
  if s ≤ t then s else t

/-- The next moment at which something is due. -/
def nextDue? (b : PollerBench) : Option Rat :=
  match (List.range b.poller.tasks.length).filterMap b.dueOf with
  | [] => none
  | due :: rest => some (rest.foldl earlier due)

/-- Moves the clock to a moment. -/
def moveTo (b : PollerBench) (t : Rat) : PollerBench :=
  { b with poller := b.poller.pass (t - b.poller.now) }

/-- Lets time pass until a moment has come, in at most `fuel` jumps from one moment at which
something is due to the next. -/
def advanceWithin : Nat → Rat → PollerBench → PollerBench
  | 0, target, b => b.moveTo target
  | fuel + 1, target, b =>
    if b.reached target then b
    else
      let next := match b.nextDue? with
        | some due => earlier due target
        | none => target
      advanceWithin fuel target (b.moveTo next).settle

/-- The number of jumps that a span can need: a few for each tick in it. -/
def jumps (b : PollerBench) (span : Rat) : Nat :=
  match b.poller.interval with
  | .every length _ => 8 * (((span / length).ceil.toNat + 2) + b.poller.tasks.length)
  | .never | .oversized => 8 * (b.poller.tasks.length + 2)

/-- Lets a span of time pass. -/
def advance (b : PollerBench) (span : Rat) : PollerBench :=
  advanceWithin (b.jumps span) (b.fromNow span) b.settle

/-- Lets time pass until every call of the step has returned, in at most `fuel` jumps. -/
def awaitStep : Nat → PollerBench → PollerBench
  | 0, b => b
  | fuel + 1, b =>
    if b.step.all Option.isSome then b
    else
      match b.nextDue? with
      | some due => awaitStep fuel (b.moveTo due).settle
      | none => b

/-! ## Steps -/

/-- A step of a run. -/
inductive Step where
  | call (c : Call)
  /-- Starts the poller on the way in. -/
  | enter
  /-- Stops the poller on the way out, when it runs. -/
  | exit
  /-- Makes calls at the same time. -/
  | gather (calls : List Call)
  /-- Makes a call without waiting for it. -/
  | background (c : Call)
  | backgroundResults
  | advance (span : Rat)
  | setReader (script : ReaderScript)
  | setListener (script : ListenerScript)

/-- What a step gave. -/
inductive StepResult where
  | returned (r : Option Returned)
  | entered (r : Option Returned)
  | several (rs : List (Option Returned))

/-- Makes calls at the same time, in order, and waits until all have returned. -/
def gather (b : PollerBench) (calls : List Call) : PollerBench :=
  let b := { b with step := List.replicate calls.length none }
  let b := (calls.zipIdx).foldl (fun b c => b.call (.step c.2) c.1) b
  awaitStep (8 * (b.poller.tasks.length + 4)) b.settle

/-- Makes one call and waits until it has returned. -/
def single (b : PollerBench) (c : Call) : PollerBench × Option Returned :=
  let b := b.gather [c]
  (b, (b.step.head?).join)

/-- A step of a run. -/
def perform (b : PollerBench) : Step → PollerBench × StepResult
  | .call c =>
    let (b, r) := b.single c
    (b, .returned r)
  | .enter =>
    let (b, r) := b.single .start
    (b, .entered r)
  | .exit =>
    if b.poller.flag = .running then
      let (b, r) := b.single .stop
      (b, .returned r)
    else (b.settle, .returned (some (.ok ())))
  | .gather calls =>
    let b := b.gather calls
    (b, .several b.step)
  | .background c =>
    let place := b.background.length
    let b := { b with background := b.background ++ [none] }
    ((b.call (.background place) c).settle, .returned (some (.ok ())))
  | .backgroundResults => (b.settle, .several b.background)
  | .advance span => (b.advance span, .returned (some (.ok ())))
  | .setReader reader => ({ b with reader }.settle, .returned (some (.ok ())))
  | .setListener listener => ({ b with listener }.settle, .returned (some (.ok ())))

/-- Forgets the events and the log of the steps so far. -/
def clear (b : PollerBench) : PollerBench :=
  { b with events := [], log := [] }

/-- A poller at rest, when it has a listener and a reader. -/
def create (listener : Option (ListenerKind × ListenerScript)) (reader : Option ReaderScript)
    (pullInterval : Seconds) : Except Failure PollerBench :=
  match listener, reader with
  | some (kind, listener), some reader =>
    .ok
      { poller := { interval := Interval.ofSeconds pullInterval, clock := Clock.machine }
        pullInterval := Interval.effective pullInterval
        kind, reader, listener }
  | _, _ =>
    .error <| .badPoller <|
      (if listener.isNone then [.listener] else []) ++ (if reader.isNone then [.reader] else [])

end PollerBench

/-- Milliseconds as a product of doubles, to the nearest whole number with a half going to the even
neighbour. -/
def milliseconds (t : Rat) : Nat :=
  let product := Clock.roundToDouble (t * 1000)
  Double.divHalfEven product.num.natAbs product.den

end HookRegistry.Bench
