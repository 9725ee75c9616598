import HookRegistry.Proofs.Poller.Accounting
import HookRegistry.Proofs.Registry.Containment
import HookRegistry.Proofs.Registry.Lifecycle
import HookRegistry.Proofs.Webhook.FanOut

/-!
# Polls of a registry

A poll that ran to its end is known by the registry as it found it and by the reply of the session:
an `EndedPoll`.  `EndedPoll.allOrNothing` says what such a poll comes to, whatever these are: the
watches are handed the list of all webhooks, in order and up to the first that fails, or nothing.
They share that list, so a watch that changes it changes what the watches after it are told.

`Polling` is a lifecycle with the polls that ended in it, where every poll of the poller is one of
the registry.  The watches and the decorator of a caller may remember what they like, so each poll
comes with what they do this time.  `Polling.Sound` is the invariant of its steps, and
`polls_of_run` puts both together: what a poll comes to depends on nothing that an earlier one met,
unless no outcome can be recorded, when the first poll is the last one: `answered_poll_uncounted`.
-/

namespace HookRegistry

/-! ## One poll -/

/-- A poll that ran to its end. -/
structure EndedPoll where
  /-- The registry with the client that asked, and with the watches and the decorator as they were
  at that time. -/
  registry : Registry
  /-- What the session had for the request, if there was one. -/
  reply : Reply

namespace EndedPoll

variable {e : EndedPoll} {items : List Item}

/-- How the fetch ended. -/
def fetched (e : EndedPoll) : Except Failure (List Item) :=
  e.registry.store.resultOf e.reply e.registry.poll

/-- What the poll came to. -/
def round (e : EndedPoll) : Registry.PollRound :=
  (e.registry.finishPoll e.fetched).2

/-- The request of the poll. -/
def request (e : EndedPoll) : StoreRequest where
  method := "GET"
  url := e.registry.store.config.bucketUrl
  owner := ""

/-- The request was answered with status 200 and a body that holds the items. -/
structure Fetches (e : EndedPoll) (items : List Item) : Prop where
  isOpen : e.registry.store.channel.isSome = true
  authorized : e.registry.store.Authorizes e.request
  answered : ∃ headers body, e.reply = .answered 200 headers (.ok body) ∧
    StoreClient.itemsOfBody body = .ok items

theorem fetched_eq_ok_iff (hconfig : e.registry.store.config.problems = .ok []) :
    e.fetched = .ok items ↔ e.Fetches items := by
  have hmethod : Transport.isMethod "GET" = true := by decide
  have hcheck : Transport.check e.request.method e.request.url = .ok () :=
    Config.check_bucketUrl hconfig hmethod
  have hfetched : e.fetched = _ := StoreClient.resultOf_ask e.registry.store e.reply e.request _
  rw [hfetched]
  cases hback : e.registry.store.reported e.reply e.request with
  | error cause =>
    refine ⟨fun h => (by cases h), ?_⟩
    rintro ⟨hopen, hauth, headers, body, hreply, -⟩
    have hanswered := (StoreClient.reported_eq_ok_iff hcheck).2
      ⟨hopen, hauth, 200, headers, body, hreply, rfl⟩
    rw [hback] at hanswered
    cases hanswered
  | ok answer =>
    obtain ⟨hopen, hauth, status, headers, body, hreply, rfl⟩ :=
      (StoreClient.reported_eq_ok_iff hcheck).1 hback
    simp only [StoreClient.conclude]
    constructor
    · intro h
      split at h
      next hstatus =>
        subst hstatus
        exact ⟨hopen, hauth, headers, body, hreply, h⟩
      next => cases h
    · rintro ⟨-, -, headers', body', hreply', hitems⟩
      rw [hreply] at hreply'
      cases hreply'
      exact hitems

/-- What a poll comes to. -/
structure AllOrNothing (e : EndedPoll) : Prop where
  success_iff : e.round.outcome = .success ↔ ∃ items, e.Fetches items
  failure_iff : e.round.outcome = .failure ↔ ∀ items, ¬ e.Fetches items
  /-- Nobody is told about a poll that failed. -/
  failed : (∀ items, ¬ e.Fetches items) → e.round.update.round.calls = []
  /-- Nor about one with an item that holds no webhook, wherever it stands. -/
  dropped : ∀ items, e.Fetches items → (∃ item ∈ items, ∀ w, Webhook.ofItem item ≠ .ok w) →
    e.round.update.round.calls = []
  /-- All others are handed to the watches, as the list of all webhooks. -/
  told : ∀ items, e.Fetches items → (∀ item ∈ items, ∃ w, Webhook.ofItem item = .ok w) →
    ∃ ws, items.map Webhook.ofItem = ws.map .ok ∧ ws.length = items.length ∧
      e.round.update.webhooks = ws ∧ Watch.Hands ws e.registry.watches e.round.update.round

theorem round_of_error {f : Failure} (h : e.fetched = .error f) :
    e.round = { outcome := .failure, log := Poller.fetchFailedLog } := by
  unfold round
  rw [h]
  rfl

theorem round_of_ok (h : e.fetched = .ok items) :
    e.round.outcome = .success ∧ e.round.update = Watch.update e.registry.watches items := by
  unfold round
  rw [h]
  exact ⟨rfl, rfl⟩

/-- An update with an item that holds no webhook tells nobody. -/
theorem update_of_unconvertible (watches : List Watch) {item : Item} (hmem : item ∈ items)
    (hitem : ∀ w, Webhook.ofItem item ≠ .ok w) : (Watch.update watches items).round = {} := by
  rcases Registry.ofItems_cases items with ⟨ws, -, hmap⟩ | ⟨_, _, problems, _, herror⟩
  · exact absurd hmap (Registry.not_all_hold hmem hitem)
  · simp only [Watch.update, herror]

/-- Items of which each holds a webhook are converted to all of these. -/
theorem ofItems_of_convertible (hitems : ∀ item ∈ items, ∃ w, Webhook.ofItem item = .ok w) :
    ∃ ws, Webhook.ofItems items = .ok ws ∧ items.map Webhook.ofItem = ws.map .ok := by
  rcases Registry.ofItems_cases items with hws | ⟨item, hmem, problems, herror, -⟩
  · exact hws
  · obtain ⟨w, hw⟩ := hitems item hmem
    rw [hw] at herror
    cases herror

/-- What a poll comes to, whatever the store and the watches do. -/
theorem allOrNothing (hconfig : e.registry.store.config.problems = .ok []) : e.AllOrNothing := by
  have hfetches : ∀ items, e.fetched = .ok items ↔ e.Fetches items :=
    fun items => fetched_eq_ok_iff hconfig
  cases hfetched : e.fetched with
  | error f =>
    have hnone : ∀ items, ¬ e.Fetches items := by
      intro items h
      rw [← hfetches, hfetched] at h
      cases h
    rw [hfetched] at hfetches
    refine ⟨?_, ?_, ?_, fun items h => absurd h (hnone items),
      fun items h => absurd h (hnone items)⟩
    · simp [round_of_error hfetched, hnone]
    · simp [round_of_error hfetched, hnone]
    · rw [round_of_error hfetched]
      exact fun _ => rfl
  | ok items =>
    obtain ⟨houtcome, hupdate⟩ := round_of_ok hfetched
    have hitems : e.Fetches items := (hfetches items).1 hfetched
    have hunique : ∀ others, e.Fetches others → others = items := by
      intro others h
      rw [← hfetches, hfetched] at h
      exact (Except.ok.inj h).symm
    refine ⟨?_, ?_, fun hnone => absurd hitems (hnone items), ?_, ?_⟩
    · simp only [houtcome, true_iff]
      exact ⟨items, hitems⟩
    · simp only [houtcome, reduceCtorEq, false_iff, not_forall, not_not]
      exact ⟨items, hitems⟩
    · rintro others hothers ⟨item, hmem, hitem⟩
      cases hunique others hothers
      rw [hupdate, update_of_unconvertible _ hmem hitem]
    · intro others hothers hall
      cases hunique others hothers
      obtain ⟨ws, hws, hmap⟩ := ofItems_of_convertible hall
      have hround : Watch.update e.registry.watches items =
          { webhooks := ws, round := Watch.fanOut ws e.registry.watches } := by
        simp only [Watch.update, hws]
      rw [hupdate, hround]
      exact ⟨ws, hmap, by simpa using (congrArg List.length hmap).symm, rfl,
        Watch.hands_fanOut ws e.registry.watches⟩

end EndedPoll

/-! ## The poller at the end of a poll -/

namespace Poller

variable {p q : Poller} {n : Nat} {fetched : Except Failure (List Item)}
  {failure : Option Failure}

/-- What a task does at the end of a poll: when items were fetched, the listener is told at once. -/
def pollActions (n : Nat) (failure : Option Failure) : Except Failure (List Item) → List Action
  | .error _ => [.fetchEnds n .failed]
  | .ok items =>
    [.fetchEnds n (.returned items), .updateEnds n (if failure.isSome then .failed else .returned)]

/-- The outcome of a poll, by its fetch. -/
def pollOutcome : Except Failure (List Item) → PollOutcome
  | .error _ => .failure
  | .ok _ => .success

/-- Whether an action ends a poll, or a part of one that is not cut short. -/
def Action.endsPoll : Action → Bool
  | .fetchEnds _ (.returned _) | .fetchEnds _ .failed | .updateEnds _ _ => true
  | _ => false

/-- Nothing else is counted. -/
theorem tally_of_not_endsPoll {a : Action} (ha : a.endsPoll = false) (h : p.step? a = some q) :
    q.tally = p.tally := by
  cases htask : a.task? with
  | none => exact step_tally htask h
  | some n =>
    obtain ⟨t, phase, tally, -, hmoves, rfl⟩ := taskStep_cases htask h
    cases hmoves with
    | fails | succeeds => cases ha
    | _ => rfl

/-- The end of a poll is counted once, under its outcome, when outcomes can be recorded. -/
theorem tally_pollActions (h : p.run? (pollActions n failure fetched) = some q) (o : PollOutcome) :
    q.tally.of o =
      p.tally.of o + if Measures.CanRecord p.names ∧ pollOutcome fetched = o then 1 else 0 := by
  cases fetched with
  | error f =>
    obtain ⟨r, hr, hrest⟩ := run?_cons_eq_some.1 h
    cases hrest
    obtain ⟨t, phase, tally, -, hmoves, rfl⟩ := taskStep_cases (n := n) rfl hr
    cases hmoves with
    | fails _ hrecords =>
      simp only [hrecords, true_and]
      exact Tally.of_add _ _ _
    | failsUnrecorded _ hrecords =>
      simp only [hrecords, false_and, if_false]
      rfl
  | ok items =>
    obtain ⟨r, hr, hrest⟩ := run?_cons_eq_some.1 h
    obtain ⟨r', hr', hrest'⟩ := run?_cons_eq_some.1 hrest
    cases hrest'
    have hnames : r.names = p.names := (sameMake_step hr).names
    have htally : r.tally = p.tally := by
      obtain ⟨t, phase, tally, -, hmoves, rfl⟩ := taskStep_cases (n := n) rfl hr
      cases hmoves
      rfl
    have houtcome : (if failure.isSome then UpdateOutcome.failed else .returned) ≠ .cancelled := by
      split <;> simp
    rw [← htally, ← hnames]
    generalize (if failure.isSome then UpdateOutcome.failed else .returned) = outcome
      at hr' houtcome
    obtain ⟨t, phase, tally, -, hmoves, rfl⟩ := taskStep_cases (n := n) rfl hr'
    cases hmoves with
    | succeeds _ _ hrecords =>
      simp only [hrecords, true_and]
      exact Tally.of_add _ _ _
    | succeedsUnrecorded _ _ hrecords =>
      simp only [hrecords, false_and, if_false]
      rfl
    | updateCut => exact absurd rfl houtcome

/-- A task that waits for the reader can end its poll in every way.  When outcomes can be recorded
it goes on unless it was stopped, and otherwise it has come to its end. -/
theorem Custody.pollEnds (hp : p.Custody) (hticking : p.Ticking) {t : PollTask} {tick : Rat}
    (ht : p.tasks[n]? = some t) (hphase : t.phase = .fetching tick)
    (fetched : Except Failure (List Item)) (failure : Option Failure) :
    ∃ q, p.run? (pollActions n failure fetched) = some q ∧
      (Measures.CanRecord p.names → t.signalled = false → q.GoesOn n) ∧
      (¬ Measures.CanRecord p.names → q.isFinished n = true) := by
  obtain ⟨phase, signalled, cancelled⟩ := t
  cases hphase
  have hpoll : p.IsPolling n :=
    isPolling_iff.2 (.inl ⟨tick, phase?_eq_some_iff.2 ⟨_, ht, rfl⟩⟩)
  cases fetched with
  | error f =>
    have hstep : p.step? (.fetchEnds n .failed) = some (p.endPoll n tick .failure) := by
      simp only [step?, fetchEnds?, ht]
    refine ⟨_, run?_cons_eq_some.2 ⟨_, hstep, rfl⟩, fun hrecords hsignal => ?_, fun hrecords => ?_⟩
    · exact hp.goesOn hticking ht hsignal hpoll rfl (.inl hrecords) hstep
    · exact (eq_moved_of_endsPoll hrecords (by simp [Action.endsPollOf]) hstep).2
  | ok items =>
    have hfetch : p.step? (.fetchEnds n (.returned items)) =
        some (p.moveTask n (.updating tick items)) := by
      simp only [step?, fetchEnds?, ht]
    have ht' : (p.moveTask n (.updating tick items)).tasks[n]? =
        some { phase := .updating tick items, signalled, cancelled } := task_moveTask ht _
    have hupdate : ∀ outcome, outcome ≠ .cancelled →
        (p.moveTask n (.updating tick items)).step? (.updateEnds n outcome) =
          some ((p.moveTask n (.updating tick items)).endPoll n tick .success) := by
      intro outcome houtcome
      cases outcome with
      | cancelled => exact absurd rfl houtcome
      | returned | failed => simp only [step?, updateEnds?, ht']
    have hlast := hupdate (if failure.isSome then .failed else .returned) (by split <;> simp)
    refine ⟨_, run?_cons_eq_some.2 ⟨_, hfetch, run?_cons_eq_some.2 ⟨_, hlast, rfl⟩⟩, ?_, ?_⟩
    · intro hrecords hsignal
      have hpoll' : (p.moveTask n (.updating tick items)).IsPolling n :=
        isPolling_iff.2 (.inr ⟨tick, items, phase?_moveTask ht _⟩)
      exact (hp.step hfetch).goesOn (hticking.step hfetch) ht' hsignal hpoll' rfl (.inl hrecords)
        hlast
    · intro hrecords
      exact (eq_moved_of_endsPoll (p := p.moveTask n (.updating tick items)) hrecords
        (by simp [Action.endsPollOf]) hlast).2

end Poller

theorem EndedPoll.outcome_round (e : EndedPoll) :
    e.round.outcome = Poller.pollOutcome e.fetched := by
  cases h : e.fetched with
  | error f =>
    rw [round_of_error h]
    rfl
  | ok items => exact (round_of_ok h).1

/-! ## Every poll of a run -/

/-- What a poll meets. -/
structure Meeting where
  /-- What the watches of the caller do with a list this time, by their positions. -/
  reacts : Nat → List Webhook → List Webhook × Option Failure
  /-- What the decorator of the caller does to headers this time. -/
  decorate : Option Decorator := none
  /-- What the session replies. -/
  reply : Reply

/-- A watch that takes lists in another way; the one that keeps the gauge cannot. -/
def Watch.taking (react : List Webhook → List Webhook × Option Failure) : Watch → Watch
  | .observer _ => .observer react
  | .size => .size

/-- A lifecycle with the polls that ended in it. -/
structure Polling where
  lifecycle : Lifecycle
  /-- The store client as each task met it at its last step, where it asks if it polls then. -/
  asked : Nat → StoreClient
  polls : List EndedPoll := []

namespace Polling

/-- A registry that has not polled. -/
def fresh (s : Registry) (sessions : Sessions) : Polling where
  lifecycle := { registry := s, sessions }
  asked := fun _ => s.store

/-- What may happen next. -/
inductive Action where
  /-- Anything that ends no poll. -/
  | other (a : Lifecycle.Action)
  /-- The poll of a task ends. -/
  | pollEnds (task : Nat) (m : Meeting)

/-- The action of the poller that an action is. -/
def pollerAction? : Lifecycle.Action → Option Poller.Action
  | .poller a => some a
  | _ => none

/-- The clients that were asked, when a task takes a step. -/
def askedAfter (s : Polling) (task : Option Nat) (n : Nat) : StoreClient :=
  if task = some n then s.lifecycle.registry.store else s.asked n

/-- The poll of a task, with what it meets. -/
def pollOf (s : Polling) (n : Nat) (m : Meeting) : EndedPoll where
  registry :=
    { s.lifecycle.registry with
      store := { s.asked n with decorate := m.decorate }
      watches := s.lifecycle.registry.watches.mapIdx fun i w => w.taking (m.reacts i) }
  reply := m.reply

/-- The registry when a poll has ended in it. -/
def afterPoll (s : Polling) (n : Nat) (e : EndedPoll) (poller : Poller) : Polling where
  lifecycle :=
    { s.lifecycle with
      registry :=
        { s.lifecycle.registry with poller, gauge := (e.registry.finishPoll e.fetched).1.gauge } }
  asked := s.askedAfter (some n)
  polls := s.polls ++ [e]

/-- The state after an action, when the action can happen. -/
def step? (s : Polling) : Action → Option Polling
  | .other a =>
    if (pollerAction? a).any Poller.Action.endsPoll then none
    else
      (s.lifecycle.step? a).map fun lifecycle =>
        { s with lifecycle, asked := s.askedAfter ((pollerAction? a).bind Poller.Action.task?) }
  | .pollEnds n m =>
    let e := s.pollOf n m
    (s.lifecycle.registry.poller.run?
      (Poller.pollActions n e.round.update.round.failure e.fetched)).map (s.afterPoll n e)

/-- The state after a run of actions, when each of them can happen in turn. -/
def run? (s : Polling) (actions : List Action) : Option Polling :=
  actions.foldlM step? s

/-- What a step does. -/
inductive Does (s : Polling) : Action → Polling → Prop where
  | other {a : Lifecycle.Action} {lifecycle : Lifecycle} {task : Option Nat}
      (hends : (pollerAction? a).any Poller.Action.endsPoll = false)
      (h : s.lifecycle.step? a = some lifecycle) :
      Does s (.other a) { s with lifecycle, asked := s.askedAfter task }
  | pollEnds {n : Nat} {m : Meeting} {poller : Poller}
      (h : s.lifecycle.registry.poller.run?
        (Poller.pollActions n (s.pollOf n m).round.update.round.failure (s.pollOf n m).fetched) =
          some poller) :
      Does s (.pollEnds n m) (s.afterPoll n (s.pollOf n m) poller)

theorem step_cases {s s' : Polling} {a : Action} (h : s.step? a = some s') : s.Does a s' := by
  cases a with
  | other a =>
    obtain ⟨hends, hstep⟩ := Option.ite_none_left_eq_some.1 h
    obtain ⟨lifecycle, hlifecycle, rfl⟩ := Option.map_eq_some_iff.1 hstep
    exact .other (Bool.eq_false_iff.2 hends) hlifecycle
  | pollEnds n m =>
    obtain ⟨poller, hpoller, rfl⟩ := Option.map_eq_some_iff.1 h
    exact .pollEnds hpoller

/-- What holds of a registry after every run, when it was created with a configuration, with watches
and with names of measures. -/
structure Sound (config : Config) (watches : List Watch) (names : MetricNames) (s : Polling) :
    Prop where
  config_eq : s.lifecycle.registry.store.config = config
  asked : ∀ n, (s.asked n).config = config
  watches_eq : s.lifecycle.registry.watches = watches
  /-- Each poll found the registered watches, in their places. -/
  polls : ∀ e ∈ s.polls, e.registry.store.config = config ∧
    ∃ reacts : Nat → List Webhook → List Webhook × Option Failure,
      e.registry.watches = watches.mapIdx fun i w => w.taking (reacts i)
  names_eq : s.lifecycle.registry.poller.names = names
  tally : ∀ o, s.lifecycle.registry.poller.tally.of o =
    if Measures.CanRecord names then s.polls.countP (·.round.outcome = o) else 0
  custody : s.lifecycle.registry.poller.Custody
  ticking : s.lifecycle.registry.poller.Ticking

/-- What the polls of a lifecycle count, no other of its steps does. -/
theorem step_tally {l m : Lifecycle} {a : Lifecycle.Action}
    (hends : (pollerAction? a).any Poller.Action.endsPoll = false) (h : l.step? a = some m) :
    m.registry.poller.tally = l.registry.poller.tally := by
  cases Lifecycle.step_cases h with
  | poller hpoller => exact Poller.tally_of_not_endsPoll hends hpoller
  | enter =>
    rw [Lifecycle.poller_entered]
    exact Poller.step_tally (a := .start) rfl rfl
  | enterUnscheduled =>
    rw [Lifecycle.poller_entered]
    exact Poller.step_tally (a := .startUnscheduled) rfl rfl
  | @beginExit caller hcaller =>
    rw [Lifecycle.registry_beginExit]
    exact Poller.step_tally (a := .stop caller) rfl (if_pos hcaller)
  | endExit => rfl

variable {config : Config} {watches : List Watch} {names : MetricNames} {s s' : Polling}

theorem Sound.askedAfter (hs : s.Sound config watches names) (task : Option Nat) (n : Nat) :
    (s.askedAfter task n).config = config := by
  unfold Polling.askedAfter
  split
  · exact hs.config_eq
  · exact hs.asked n

theorem Sound.step (hs : s.Sound config watches names) {a : Action} (h : s.step? a = some s') :
    s'.Sound config watches names := by
  cases step_cases h with
  | other hends hstep =>
    obtain ⟨session, channel, hstore⟩ := Lifecycle.step_store hstep
    have hwatches := (Lifecycle.step_watches hstep).1
    refine ⟨?_, hs.askedAfter _, hwatches.trans hs.watches_eq, hs.polls, ?_, ?_, ?_, ?_⟩
    · rw [hstore]
      exact hs.config_eq
    · rcases Lifecycle.step_poller hstep with hsame | ⟨b, hb⟩
      · rw [hsame]
        exact hs.names_eq
      · exact (Poller.sameMake_step hb).names.trans hs.names_eq
    · rw [step_tally hends hstep]
      exact hs.tally
    · rcases Lifecycle.step_poller hstep with hsame | ⟨b, hb⟩
      · rw [hsame]
        exact hs.custody
      · exact hs.custody.step hb
    · rcases Lifecycle.step_poller hstep with hsame | ⟨b, hb⟩
      · rw [hsame]
        exact hs.ticking
      · exact hs.ticking.step hb
  | @pollEnds n m poller hpoller =>
    refine ⟨hs.config_eq, hs.askedAfter _, hs.watches_eq, ?_,
      (Poller.sameMake_run hpoller).names.trans hs.names_eq, ?_, ?_, ?_⟩
    · intro e he
      rcases List.mem_append.1 he with hold | hnew
      · exact hs.polls e hold
      · cases List.mem_singleton.1 hnew
        refine ⟨hs.asked n, m.reacts, ?_⟩
        rw [← hs.watches_eq]
        rfl
    · intro o
      have htally := Poller.tally_pollActions hpoller o
      rw [← EndedPoll.outcome_round, hs.names_eq, hs.tally o] at htally
      refine htally.trans ?_
      by_cases hrecords : Measures.CanRecord names
      · simp only [hrecords, true_and, if_true, afterPoll, List.countP_append,
          List.countP_singleton, decide_eq_true_eq]
      · simp only [hrecords, false_and, if_false]
    · exact Poller.run_invariant Poller.Custody.step hs.custody hpoller
    · exact Poller.run_invariant Poller.Ticking.step hs.ticking hpoller

theorem Sound.run (hs : s.Sound config watches names) {actions : List Action}
    (h : s.run? actions = some s') : s'.Sound config watches names :=
  foldlM_invariant (Sound config watches names) (fun _ _ _ _ hs hnext => hs.step hnext) h hs

theorem sound_fresh {session : Option Nat} {decorate : Option Decorator} {r : Registry}
    (h : Registry.create config watches session decorate names = .ok r) (sessions : Sessions) :
    (fresh r sessions).Sound config (watches ++ [Watch.size]) names := by
  obtain ⟨hpoller, hstore⟩ := Registry.create_eq_ok h
  have hconfig : r.store.config = config := by rw [StoreClient.create_eq_ok hstore]
  refine ⟨hconfig, fun n => hconfig, (Registry.watches_create h).1, ?_, ?_, ?_, ?_, ?_⟩
  · intro e he
    cases he
  · rw [fresh, hpoller]
    rfl
  · intro o
    rw [fresh, hpoller]
    cases o <;> exact (ite_self 0).symm
  · rw [fresh, hpoller]
    exact Poller.custody_fresh _ _ _ _
  · rw [fresh, hpoller]
    exact fun n phase hphase => by simp [Poller.fresh, Poller.phase?] at hphase

/-- Whatever happens to a registry, with any watches, any decorator and any replies of the session:
each of its polls that ran to its end tells all or nothing, to the watches that were registered, and
a task that waits for the reader can end its poll in every way there is.

When outcomes can be recorded, each poll is counted once, under its outcome, and the task goes on
with the next one unless it was stopped.  Under the one label with which they cannot, no poll is
counted and each ends its task. -/
theorem polls_of_run {session : Option Nat} {decorate : Option Decorator} {r : Registry}
    (hcreate : Registry.create config watches session decorate names = .ok r) (sessions : Sessions)
    {actions : List Action} (hrun : (fresh r sessions).run? actions = some s) :
    (∀ e ∈ s.polls, e.AllOrNothing ∧
      ∃ reacts : Nat → List Webhook → List Webhook × Option Failure,
        e.registry.watches = (watches ++ [Watch.size]).mapIdx fun i w => w.taking (reacts i)) ∧
    (∀ o, s.lifecycle.registry.poller.tally.of o =
      if Measures.CanRecord names then s.polls.countP (·.round.outcome = o) else 0) ∧
    ∀ n t tick, s.lifecycle.registry.poller.tasks[n]? = some t → t.phase = .fetching tick →
      ∀ m, ∃ s', s.step? (.pollEnds n m) = some s' ∧ s'.polls = s.polls ++ [s.pollOf n m] ∧
        (names.outcomeLabel ≠ Measures.ownName → t.signalled = false →
          s'.lifecycle.registry.poller.GoesOn n) ∧
        (names.outcomeLabel = Measures.ownName →
          s'.lifecycle.registry.poller.isFinished n = true) := by
  have hs := (sound_fresh hcreate sessions).run hrun
  have hproblems : config.problems = .ok [] :=
    StoreClient.problems_create (Registry.create_eq_ok hcreate).2
  refine ⟨?_, hs.tally, ?_⟩
  · intro e he
    obtain ⟨hconfig, hwatches⟩ := hs.polls e he
    exact ⟨EndedPoll.allOrNothing (hconfig ▸ hproblems), hwatches⟩
  · intro n t tick ht hphase m
    obtain ⟨poller, hpoller, hgoes, hends⟩ := hs.custody.pollEnds hs.ticking ht hphase
      (s.pollOf n m).fetched (s.pollOf n m).round.update.round.failure
    rw [hs.names_eq] at hgoes hends
    exact ⟨s.afterPoll n (s.pollOf n m) poller, Option.map_eq_some_iff.2 ⟨poller, hpoller, rfl⟩,
      rfl, hgoes, fun hlabel => hends fun hcan => hcan hlabel⟩

/-- A registry that nothing has happened to yet, with the default interval, measures of some names
and one watch of the caller. -/
def watched (names : MetricNames) : Registry :=
  { Lifecycle.plain.registry with
    poller := Poller.fresh .standard .machine names 0
    watches := [.reading fun _ => none, .size] }

theorem create_watched (names : MetricNames) :
    Registry.create (watched names).store.config [.reading fun _ => none] none none names =
      .ok (watched names) := by
  have hplain : Lifecycle.plain.registry.store.config.problems = .ok [] :=
    Config.problems_eq_ok (by decide +kernel)
  have hproblems : (watched names).store.config.problems = .ok [] := hplain
  unfold Registry.create StoreClient.create
  rw [hproblems]
  rfl

/-- An answer of the store with a text, to a poll in which the watch of the caller does something
with the list. -/
def meets (status : Int) (text : String)
    (react : List Webhook → List Webhook × Option Failure) : Meeting where
  reacts := fun _ => react
  reply := .answered status [] (.ok text.toUTF8)

/-- An interval passes, and a poll of the first task begins and ends. -/
def nextPoll (m : Meeting) : List Action :=
  [.other (.poller (.pass 5)), .other (.poller (.wake 0)), .pollEnds 0 m]

/-- The first poll of a run, of a list of one webhook. -/
def firstPoll (react : List Webhook → List Webhook × Option Failure) : List Action :=
  [.other .enter, .other (.poller (.begin 0))] ++
    nextPoll (meets 200 "[\x7b\"id\":\"a\",\"data\":\x7b\x7d\x7d]" react)

/-- The positions of the watches that a poll called, each with the length of the list that it was
told. -/
def calledWith (e : EndedPoll) : List (Nat × Nat) :=
  e.round.update.round.calls.map fun c => (c.1, c.2.length)

/-- A poll whose list the store sent and everybody was told is not counted, and is the last one of
its task: the measures have the label that the counter calls itself by.  The poller is running all
the same. -/
theorem answered_poll_uncounted :
    ∃ s, (fresh (watched { outcomeLabel := Measures.ownName }) []).run? (firstPoll (·, none)) =
        some s ∧
      s.polls.map (fun e => (e.round.outcome, calledWith e)) =
        [(.success, [(0, 1), (1, 1)])] ∧
      s.lifecycle.registry.poller.tally = {} ∧
      s.lifecycle.registry.poller.isFinished 0 = true ∧
      s.lifecycle.registry.poller.flag = .running := by
  have hrun : ((fresh (watched { outcomeLabel := Measures.ownName }) []).run?
      (firstPoll (·, none))).map (fun s =>
        (s.polls.map fun e => (e.round.outcome, calledWith e), s.lifecycle.registry.poller.tally,
          s.lifecycle.registry.poller.isFinished 0, s.lifecycle.registry.poller.flag)) =
      some ([(.success, [(0, 1), (1, 1)])], {}, true, .running) := by
    decide +kernel
  obtain ⟨s, hs, hstate⟩ := Option.map_eq_some_iff.1 hrun
  simp only [Prod.mk.injEq] at hstate
  exact ⟨s, hs, hstate⟩

/-- A watch that empties the list takes it away from the watch behind it, which keeps the gauge. -/
theorem polled_list_emptied :
    ∃ s, (fresh (watched {}) []).run? (firstPoll fun _ => ([], none)) = some s ∧
      s.polls.map calledWith = [[(0, 1), (1, 0)]] ∧ s.lifecycle.registry.gauge = 0 := by
  have hrun : ((fresh (watched {}) []).run? (firstPoll fun _ => ([], none))).map (fun s =>
      (s.polls.map calledWith, s.lifecycle.registry.gauge)) = some ([[(0, 1), (1, 0)]], 0) := by
    decide +kernel
  obtain ⟨s, hs, hstate⟩ := Option.map_eq_some_iff.1 hrun
  exact ⟨s, hs, Prod.mk.inj hstate⟩

/-- A poll with a failing watch, one with an item that holds no webhook behind one that does, one
that the store refuses, and one of a list that everybody is told. -/
def mixed : List Action :=
  let good := "[\x7b\"id\":\"a\",\"data\":\x7b\x7d\x7d]"
  let bad := "[\x7b\"id\":\"a\"\x7d,\x7b\"id\":\"b\",\"data\":\x7b\"config\":1\x7d\x7d]"
  firstPoll (·, some .emptyToken) ++ nextPoll (meets 200 bad (·, none)) ++
    nextPoll (meets 403 good (·, none)) ++ nextPoll (meets 200 good (·, none))

/-- Only the first poll calls the watch without the gauge, and the last one both. -/
theorem polls_of_run_mixed :
    ∃ s, (fresh (watched {}) []).run? mixed = some s ∧
      s.polls.map (fun e => (e.round.outcome, calledWith e)) =
        [(.success, [(0, 1)]), (.success, []), (.failure, []), (.success, [(0, 1), (1, 1)])] ∧
      s.lifecycle.registry.poller.tally = { success := 3, failure := 1 } ∧
      (∀ o, s.lifecycle.registry.poller.tally.of o = s.polls.countP (·.round.outcome = o)) ∧
      ∀ e ∈ s.polls, e.AllOrNothing := by
  have hrun : ((fresh (watched {}) []).run? mixed).map (fun s =>
      (s.polls.map fun e => (e.round.outcome, calledWith e),
        s.lifecycle.registry.poller.tally)) =
      some ([(.success, [(0, 1)]), (.success, []), (.failure, []), (.success, [(0, 1), (1, 1)])],
        { success := 3, failure := 1 }) := by
    decide +kernel
  obtain ⟨s, hs, hstate⟩ := Option.map_eq_some_iff.1 hrun
  obtain ⟨hpolls, htally⟩ := Prod.mk.inj hstate
  obtain ⟨hall, hcounts, -⟩ := polls_of_run (create_watched {}) [] hs
  exact ⟨s, hs, hpolls, htally, hcounts, fun e he => (hall e he).1⟩

end Polling

end HookRegistry
