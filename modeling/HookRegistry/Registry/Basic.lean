import HookRegistry.StoreClient
import HookRegistry.Poller.Basic
import HookRegistry.Webhook.Watch

/-!
# The registry of webhooks

The registry keeps webhooks as items of the store and tells its watches about them after each
poll.  `add`, `all` and `remove` ask the store at most once; a failure of the store client is passed
on as a failure of the registry.
-/

namespace HookRegistry

/-- A registry of webhooks. -/
structure Registry where
  store : StoreClient
  poller : Poller
  pullInterval : Seconds
  /-- The watches of the caller, and after them the one that keeps the gauge. -/
  watches : List Watch
  /-- The length of the last list that came to a watch that keeps the gauge. -/
  gauge : Nat := 0

namespace Registry

/-- A registry for a configuration that breaks no rule, with measures of the given names. -/
def create (config : Config) (watches : List Watch) (session : Option Nat)
    (decorate : Option Decorator) (names : MetricNames) : Except Failure Registry := do
  let store ← StoreClient.create config decorate session false
  return {
    store
    poller := { interval := Interval.ofSeconds config.pullInterval, clock := Clock.machine, names }
    pullInterval := Interval.effective config.pullInterval
    watches := watches ++ [.size] }

/-! ## Operations -/

/-- The end of an addition, from the end of its push. -/
def pushed (url : String) (o : Outcome PushResult) : Outcome Unit :=
  match o.result with
  | .error f =>
    { result := .error (if f.isOwn then .push f else f), log := o.log }
  | .ok .nothing => { result := .error .noPushResult, log := o.log }
  | .ok r =>
    { result := .ok ()
      log := o.log ++ [⟨.debug, .registry, "Webhook for " ++ url ++ " " ++ r.text⟩] }

/-- Registers a webhook for an owner. -/
def add (s : Registry) (now : Timestamp.Open) (owner : String) (w : Webhook) :
    StoreClient.Operation Unit :=
  match w.toItem now with
  | .error f => .fail f
  | .ok item => (s.store.pushItem owner item).mapOutcome (pushed w.delivery.url)

/-- Registers what a caller submits, which may have no encoding. -/
def submit (s : Registry) (now : Timestamp.Open) (owner : String) :
    Submission → StoreClient.Operation Unit
  | .webhook w => s.add now owner w
  | .unencodable => .fail .webhookConversion

/-- All webhooks that are registered. -/
def all (s : Registry) : StoreClient.Operation (List Webhook) :=
  s.store.getItems.mapOutcome fun o =>
    { log := o.log
      result := match o.result with
        | .error f => .error (if f.isOwn then .fetch f else f)
        | .ok items => Webhook.ofItems items }

/-- Removes the webhook that delivers to an address. -/
def remove (s : Registry) (owner url : String) : StoreClient.Operation Webhook :=
  (s.store.removeItem (Webhook.idOfUrl url) owner).mapOutcome fun o =>
    { log := o.log
      result := match o.result with
        | .error f => .error (if f.isOwn then .remove f else f)
        | .ok item => Webhook.ofItem item }

/-! ## Polls -/

/-- What a poll came to. -/
structure PollRound where
  outcome : PollOutcome
  update : Watch.Update := {}
  log : List LogRecord := []

/-- The request of a poll: the items of every owner. -/
def poll (s : Registry) : StoreClient.Operation (List Item) :=
  s.store.getItems Poller.fetchOwner

/-- What happens when the fetch of a poll has ended: the watches are told, the gauge is set. -/
def finishPoll (s : Registry) : Except Failure (List Item) → Registry × PollRound
  | .error _ => (s, { outcome := .failure, log := Poller.fetchFailedLog })
  | .ok items =>
    let update := Watch.update s.watches items
    ({ s with gauge := update.round.gauge.getD s.gauge },
      { outcome := .success, update
        log := update.log ++
          (if update.round.failure.isSome then Poller.updateFailedLog items else []) })

/-! ## Entering and leaving -/

/-- Opens the store client and lets `start` start the poller; when the start is not accepted, the
client is closed. -/
def enterWith (s : Registry) (sessions : Sessions) (start : Poller → Poller × StartOutcome) :
    Registry × Sessions × StartOutcome :=
  let (store, sessions) := s.store.enter sessions
  let (poller, outcome) := start s.poller
  match outcome with
  | .accepted => ({ s with store, poller }, sessions, outcome)
  | _ =>
    let (store, sessions) := store.close sessions
    ({ s with store, poller }, sessions, outcome)

/-- Enters the registry. -/
def enter (s : Registry) (sessions : Sessions) : Registry × Sessions × StartOutcome :=
  s.enterWith sessions Poller.start

/-- Enters the registry where no task can be created. -/
def enterUnscheduled (s : Registry) (sessions : Sessions) : Registry × Sessions × StartOutcome :=
  s.enterWith sessions Poller.startUnscheduled

/-- The first half of leaving: the poller is stopped, when it runs. -/
def beginExit (s : Registry) (caller : Option Nat) : Registry × Option StopOutcome :=
  if s.poller.flag = .running then
    let (poller, outcome) := s.poller.stop caller
    ({ s with poller }, some outcome)
  else (s, none)

/-- The second half of leaving: the store client is closed. -/
def endExit (s : Registry) (sessions : Sessions) : Registry × Sessions :=
  let (store, sessions) := s.store.close sessions
  ({ s with store }, sessions)

end Registry

end HookRegistry
