/-!
# The state flag

Start and stop of a poller go through one flag.  A caller moves it by comparing and swapping, so of
several callers that see the same state one wins and the others know at once.
-/

namespace HookRegistry

/-- The state of a poller. -/
inductive PollerState where
  | stopped
  | running
  | transitioning
  deriving DecidableEq, Repr, Inhabited

namespace PollerState

/-- The name of a state. -/
def name : PollerState → String
  | .stopped => "STOPPED"
  | .running => "RUNNING"
  | .transitioning => "TRANSITIONING"

/-- The number of a state. -/
def number : PollerState → Nat
  | .stopped => 0
  | .running => 1
  | .transitioning => 2

/-- The state with a given number. -/
def ofNumber? (n : Int) : Option PollerState :=
  [PollerState.stopped, .running, .transitioning].find? fun s => (s.number : Int) == n

/-- Swaps the flag to `new` when it is at `old`, and says whether it was. -/
def compareAndSwap (flag old new : PollerState) : Bool × PollerState :=
  if flag = old then (true, new) else (false, flag)

/-- The number of callers, out of `n` with the same comparison, that win, and the flag after. -/
def race (flag old new : PollerState) : Nat → Nat × PollerState
  | 0 => (0, flag)
  | n + 1 =>
    let (won, flag) := compareAndSwap flag old new
    let (wins, flag) := race flag old new n
    ((if won then 1 else 0) + wins, flag)

theorem compareAndSwap_fst {flag old new : PollerState} :
    (compareAndSwap flag old new).1 = true ↔ flag = old := by
  unfold compareAndSwap
  split <;> simp_all

end PollerState

end HookRegistry
