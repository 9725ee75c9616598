import HookRegistry.Webhook.Conversion

/-!
# Watches

A watch is told the complete list of webhooks after a poll.  `Watch.fanOut` tells one watch after
the other; a watch that fails ends the round.  All watches of a round share one list, so a watch
that changes it in place changes what the watches after it are told.  A list with an item that holds
no webhook is dropped as a whole.
-/

namespace HookRegistry

/-- Something that is told the list of webhooks. -/
inductive Watch where
  /-- A watch that leaves the list as it likes and may fail on it. -/
  | observer (react : List Webhook → List Webhook × Option Failure)
  /-- The watch that keeps the gauge at the length of the list. -/
  | size

/-- What a round of calls did. -/
structure FanOut where
  /-- The calls in order: the position of each watch, and the list that it was told. -/
  calls : List (Nat × List Webhook) := []
  /-- The new value of the gauge, when it was set. -/
  gauge : Option Nat := none
  /-- The failure of the last watch that was called. -/
  failure : Option Failure := none

namespace Watch

/-- A watch that may fail on a list and leaves it as it is. -/
def reading (failure? : List Webhook → Option Failure) : Watch :=
  .observer fun webhooks => (webhooks, failure? webhooks)

/-- Calls the watches from position `i` on. -/
def fanOutFrom (i : Nat) (webhooks : List Webhook) : List Watch → FanOut
  | [] => {}
  | .size :: rest =>
    let r := fanOutFrom (i + 1) webhooks rest
    { r with calls := (i, webhooks) :: r.calls, gauge := r.gauge.or (some webhooks.length) }
  | .observer react :: rest =>
    match react webhooks with
    | (_, some f) => { calls := [(i, webhooks)], failure := some f }
    | (left, none) =>
      let r := fanOutFrom (i + 1) left rest
      { r with calls := (i, webhooks) :: r.calls }

/-- Calls the watches in order, until one fails. -/
def fanOut (webhooks : List Webhook) (watches : List Watch) : FanOut :=
  fanOutFrom 0 webhooks watches

/-- What an update with polled items did: nothing when an item holds no webhook. -/
structure Update where
  webhooks : List Webhook := []
  round : FanOut := {}
  log : List LogRecord := []

/-- Tells the watches about polled items. -/
def update (watches : List Watch) (items : List Item) : Update :=
  match Webhook.ofItems items with
  | .ok webhooks => { webhooks, round := fanOut webhooks watches }
  | .error _ => { log := [⟨.error, .watch, "Failed to convert items to webhooks"⟩] }

end Watch

end HookRegistry
