import HookRegistry.Registry.Basic

/-!
# Entering, leaving and stopping at the same time

Leaving a registry takes two moments, with a wait between them when the poller has to be stopped.
`Lifecycle.step?` lets any number of calls of enter and exit, and everything that can happen to the
poller, take place in any order.
-/

namespace HookRegistry

/-- A registry with the calls of exit that are under way. -/
structure Lifecycle where
  registry : Registry
  sessions : Sessions := []
  /-- The calls of exit between their two halves, each with the task that its stop waits for. -/
  exits : List (Option Nat) := []

namespace Lifecycle

/-- What may happen next. -/
inductive Action where
  | poller (a : Poller.Action)
  | enter
  | enterUnscheduled
  | beginExit (caller : Option Nat)
  | endExit (i : Nat)

/-- The task that a stop waits for. -/
def awaited : Option StopOutcome → Option Nat
  | some (.waits n) => some n
  | _ => none

/-- A call of exit begins. -/
def beginExit (l : Lifecycle) (caller : Option Nat) : Lifecycle :=
  let (registry, outcome) := l.registry.beginExit caller
  { l with registry, exits := l.exits ++ [awaited outcome] }

/-- Whether the stop of a call of exit has returned. -/
def stopReturned (l : Lifecycle) : Option Nat → Bool
  | some n => !l.registry.poller.stops.contains n
  | none => true

/-- A call of exit ends, when its stop has returned. -/
def endExit? (l : Lifecycle) (i : Nat) : Option Lifecycle := do
  let awaited ← l.exits[i]?
  if l.stopReturned awaited then
    let (registry, sessions) := l.registry.endExit l.sessions
    some { registry, sessions, exits := l.exits.eraseIdx i }
  else none

/-- The state after an action, when the action can happen. -/
def step? (l : Lifecycle) : Action → Option Lifecycle
  | .poller a =>
    (l.registry.poller.step? a).map fun poller =>
      { l with registry := { l.registry with poller } }
  | .enter =>
    let (registry, sessions, _) := l.registry.enter l.sessions
    some { l with registry, sessions }
  | .enterUnscheduled =>
    let (registry, sessions, _) := l.registry.enterUnscheduled l.sessions
    some { l with registry, sessions }
  | .beginExit caller =>
    if caller.all l.registry.poller.canCall then some (l.beginExit caller) else none
  | .endExit i => l.endExit? i

/-- The state after a run of actions, when each of them can happen in turn. -/
def run? (l : Lifecycle) (actions : List Action) : Option Lifecycle :=
  actions.foldlM step? l

end Lifecycle

end HookRegistry
