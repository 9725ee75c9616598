import HookRegistry.Proofs.Metrics.Measures
import HookRegistry.Proofs.Poller.Overlap

/-!
# What the polls of a run come to

`trace` is what the tasks of a run ask, are told and count, in order.  A `Poll` is one that ran to
its end, and `Poll.events` is all that such a poll does; `OpenPoll` is what a task has done since.
`Ledger` is the invariant: the events of each task are those of its polls one after the other, and
the tally counts the polls.  One lemma for a step of a task, `TaskMoves.enters`, carries it along a
run, and `polls_accounted` is what a run comes to.

All this depends on whether the outcomes can be recorded.  Where they cannot, no poll is counted and
each task ends with its first poll: `poll_uncounted`.
-/

namespace HookRegistry

/-- How many polls ended with an outcome. -/
def Tally.of (t : Tally) : PollOutcome → Nat
  | .success => t.success
  | .failure => t.failure

@[simp] theorem Tally.of_add (t : Tally) (o o' : PollOutcome) :
    (t.add o).of o' = t.of o' + if o = o' then 1 else 0 := by
  cases o <;> cases o' <;> rfl

/-! ## Events -/

/-- What a poll task asks, is told and counts. -/
inductive PollEvent where
  | fetch (owner : String)
  | fetched (outcome : FetchOutcome)
  | update (items : List Item)
  | updated (outcome : UpdateOutcome)
  | count (outcome : PollOutcome)

/-- The items that the listener is told. -/
def PollEvent.told? : PollEvent → Option (List Item)
  | .update items => some items
  | _ => none

/-- The items that the reader returned. -/
def PollEvent.returned? : PollEvent → Option (List Item)
  | .fetched (.returned items) => some items
  | _ => none

/-- The outcome that is counted. -/
def PollEvent.counted? : PollEvent → Option PollOutcome
  | .count outcome => some outcome
  | _ => none

/-- What is counted when one tally follows another. -/
def Tally.counted (before after : Tally) : List PollEvent :=
  List.replicate (after.success - before.success) (.count .success) ++
    List.replicate (after.failure - before.failure) (.count .failure)

/-- What a task asks when it comes to a phase. -/
def Phase.asked : Phase → List PollEvent
  | .fetching _ => [.fetch Poller.fetchOwner]
  | .updating _ items => [.update items]
  | _ => []

/-- The tick that a phase belongs to. -/
def Phase.tick? : Phase → Option Rat
  | .waiting wait => wait.map TickWait.tick
  | .fetching tick | .updating tick _ => some tick
  | .created | .finished => none

namespace Poller

/-- What a task is told by an action. -/
def Action.heard : Action → List PollEvent
  | .fetchEnds _ outcome => [.fetched outcome]
  | .updateEnds _ outcome => [.updated outcome]
  | _ => []

/-- The events of an action after which its task has come to a phase. -/
def moveEvents (a : Action) (before after : Tally) (phase : Phase) : List PollEvent :=
  a.heard ++ Tally.counted before after ++ phase.asked

/-- The events of a step, each with the task that it belongs to. -/
def stepEvents (p : Poller) (a : Action) (q : Poller) : List (Nat × PollEvent) :=
  match a.task? with
  | some n =>
    match q.phase? n with
    | some phase => (moveEvents a p.tally q.tally phase).map fun e => (n, e)
    | none => []
  | none => []

/-- The events of a run. -/
def trace (p : Poller) : List Action → List (Nat × PollEvent)
  | [] => []
  | a :: actions =>
    match p.step? a with
    | some q => p.stepEvents a q ++ q.trace actions
    | none => []

theorem trace_cons {p q : Poller} {a : Action} (h : p.step? a = some q) (actions : List Action) :
    p.trace (a :: actions) = p.stepEvents a q ++ q.trace actions := by
  rw [trace, h]

/-- What belongs to a task. -/
def ofTask {α : Type} (n : Nat) (entries : List (Nat × α)) : List α :=
  (entries.filter (·.1 == n)).map Prod.snd

@[simp] theorem ofTask_append {α : Type} (n : Nat) (xs ys : List (Nat × α)) :
    ofTask n (xs ++ ys) = ofTask n xs ++ ofTask n ys := by
  simp [ofTask]

theorem ofTask_map_self {α : Type} (n : Nat) (xs : List α) :
    ofTask n (xs.map fun x => (n, x)) = xs := by
  induction xs with
  | nil => rfl
  | cons x xs ih => simpa [ofTask] using ih

theorem ofTask_map_of_ne {α : Type} {n m : Nat} (h : m ≠ n) (xs : List α) :
    ofTask n (xs.map fun x => (m, x)) = [] := by
  induction xs with
  | nil => rfl
  | cons x xs ih => simp [ofTask, h]

/-! ## Polls -/

/-- A poll that ran to its end: its fetch failed, or its items were handed to the listener, which
accepted them or failed. -/
inductive Poll where
  | failed
  | handled (items : List Item) (accepted : Bool)

/-- What is counted for a poll. -/
def Poll.outcome : Poll → PollOutcome
  | .failed => .failure
  | .handled _ _ => .success

/-- The counting of an outcome, which takes place when it can be recorded. -/
def countEvents (names : MetricNames) (outcome : PollOutcome) : List PollEvent :=
  if Measures.CanRecord names then [.count outcome] else []

/-- All that a poll does. -/
def Poll.events (names : MetricNames) : Poll → List PollEvent
  | .failed => [.fetch "", .fetched .failed] ++ countEvents names .failure
  | .handled items accepted =>
    [.fetch "", .fetched (.returned items), .update items,
      .updated (if accepted then .returned else .failed)] ++ countEvents names .success

/-- What a task has done since its last poll that ran to its end. -/
inductive OpenPoll : Option Phase → List PollEvent → Prop where
  | notStarted : OpenPoll none []
  | created : OpenPoll (some .created) []
  | waiting (wait : Option TickWait) : OpenPoll (some (.waiting wait)) []
  | fetching (tick : Rat) : OpenPoll (some (.fetching tick)) [.fetch ""]
  | updating (tick : Rat) (items : List Item) :
    OpenPoll (some (.updating tick items))
      [.fetch "", .fetched (.returned items), .update items]
  | finished : OpenPoll (some .finished) []
  | fetchCut : OpenPoll (some .finished) [.fetch "", .fetched .cancelled]
  | updateCut (items : List Item) :
    OpenPoll (some .finished)
      [.fetch "", .fetched (.returned items), .update items, .updated .cancelled]

/-- A task that is to wait for a tick has asked for nothing, or begins its next poll. -/
theorem openPoll_awaitPhase (p : Poller) (tick : Tick) :
    OpenPoll (some (p.awaitPhase tick)) (p.awaitPhase tick).asked := by
  unfold awaitPhase
  split
  · split
    · exact .fetching _
    · exact .waiting _
  · exact .waiting none

/-! ## One step of a task -/

@[simp] theorem counted_self (t : Tally) : Tally.counted t t = [] := by
  simp [Tally.counted]

@[simp] theorem counted_add (t : Tally) (o : PollOutcome) :
    Tally.counted t (t.add o) = [.count o] := by
  cases o <;> simp [Tally.counted, Tally.add]

/-- What a step of a task adds: the polls that end in it, and what the task has done since. -/
structure Enters (p : Poller) (before added : List PollEvent) (phase : Phase) (tally : Tally)
    (polls : List Poll) (since : List PollEvent) : Prop where
  events : before ++ added = polls.flatMap (Poll.events p.names) ++ since
  since : OpenPoll (some phase) since
  tally : ∀ o, tally.of o =
    p.tally.of o + if Measures.CanRecord p.names then polls.countP (·.outcome = o) else 0
  /-- Where no outcome can be recorded, the task ends with its poll. -/
  last : ¬ Measures.CanRecord p.names → polls ≠ [] → (∃ poll, polls = [poll]) ∧ phase = .finished

/-- A step that ends no poll. -/
theorem Enters.none {p : Poller} {before added : List PollEvent} {phase : Phase}
    (h : OpenPoll (some phase) (before ++ added)) :
    p.Enters before added phase p.tally [] (before ++ added) where
  events := rfl
  since := h
  tally := fun o => by simp
  last := fun _ hpolls => absurd rfl hpolls

/-- A step that ends a poll, which is counted. -/
theorem Enters.counted {p : Poller} (hrecords : Measures.CanRecord p.names) (poll : Poll)
    {o : PollOutcome} (ho : poll.outcome = o) {before heard : List PollEvent} (tick : Tick)
    (hpoll : before ++ heard ++ [.count o] = poll.events p.names) :
    p.Enters before (heard ++ [.count o] ++ (p.awaitPhase tick).asked)
      (p.awaitPhase tick) (p.tally.add o) [poll] (p.awaitPhase tick).asked where
  events := by
    rw [List.flatMap_singleton, ← hpoll]
    simp
  since := p.openPoll_awaitPhase tick
  tally := fun o' => by simp [hrecords, ho]
  last := fun hnot => absurd hrecords hnot

/-- A step that ends a poll whose outcome cannot be recorded. -/
theorem Enters.uncounted {p : Poller} (hrecords : ¬ Measures.CanRecord p.names) (poll : Poll)
    {before added : List PollEvent} (hpoll : before ++ added = poll.events p.names) :
    p.Enters before added .finished p.tally [poll] [] where
  events := by
    rw [List.flatMap_singleton, ← hpoll, List.append_nil]
  since := .finished
  tally := fun o => by simp [hrecords]
  last := fun _ _ => ⟨⟨poll, rfl⟩, rfl⟩

/-- A step of a task adds to what it has done since its last poll, and perhaps ends a poll. -/
theorem TaskMoves.enters {p : Poller} {t : PollTask} {a : Action} {phase : Phase} {tally : Tally}
    (h : TaskMoves p t a phase tally) {rest : List PollEvent} (hopen : OpenPoll (some t.phase) rest) :
    ∃ polls since, p.Enters rest (moveEvents a p.tally tally phase) phase tally polls since := by
  obtain ⟨phase₀, signalled, cancelled⟩ := t
  unfold moveEvents
  cases h with
  | neverRuns hphase | leaves hphase =>
    cases hphase
    cases hopen
    exact ⟨[], _, .none (by simpa [Action.heard, Phase.asked] using .finished)⟩
  | begins hphase =>
    cases hphase
    cases hopen
    exact ⟨[], _, .none (by simpa [Action.heard] using openPoll_awaitPhase p _)⟩
  | @polls _ w hphase =>
    cases hphase
    cases hopen
    exact ⟨[], _, .none (by simpa [Action.heard, Phase.asked, fetchOwner] using .fetching w.tick)⟩
  | @updates _ tick items hphase =>
    cases hphase
    cases hopen
    exact ⟨[], _, .none (by simpa [Action.heard, Phase.asked] using .updating tick items)⟩
  | fails hphase hrecords =>
    cases hphase
    cases hopen
    rw [counted_add]
    refine ⟨[.failed], _, .counted hrecords .failed rfl _ ?_⟩
    simp [Action.heard, Poll.events, countEvents, Poll.outcome, hrecords]
  | failsUnrecorded hphase hrecords =>
    cases hphase
    cases hopen
    rw [counted_self]
    refine ⟨[.failed], [], .uncounted hrecords .failed ?_⟩
    simp [Action.heard, Poll.events, countEvents, hrecords, Phase.asked]
  | fetchCut hphase =>
    cases hphase
    cases hopen
    exact ⟨[], _, .none (by simpa [Action.heard, Phase.asked] using .fetchCut)⟩
  | @succeeds _ _ items outcome hphase houtcome hrecords =>
    cases hphase
    cases hopen
    rw [counted_add]
    refine ⟨_, _, .counted hrecords (.handled items (outcome = .returned)) rfl _ ?_⟩
    cases outcome with
    | cancelled => exact absurd rfl houtcome
    | returned | failed => simp [Action.heard, Poll.events, countEvents, Poll.outcome, hrecords]
  | @succeedsUnrecorded _ _ items outcome hphase houtcome hrecords =>
    cases hphase
    cases hopen
    rw [counted_self]
    refine ⟨_, [], .uncounted hrecords (.handled items (outcome = .returned)) ?_⟩
    cases outcome with
    | cancelled => exact absurd rfl houtcome
    | returned | failed => simp [Action.heard, Poll.events, countEvents, hrecords, Phase.asked]
  | @updateCut _ _ items hphase =>
    cases hphase
    cases hopen
    exact ⟨[], _, .none (by simpa [Action.heard, Phase.asked] using .updateCut items)⟩

/-- A task that is to wait for a tick asks the reader at most. -/
theorem asked_awaitPhase (p : Poller) (tick : Tick) :
    (p.awaitPhase tick).asked = [] ∨ (p.awaitPhase tick).asked = [.fetch fetchOwner] := by
  unfold awaitPhase
  split
  · split
    · exact .inr rfl
    · exact .inl rfl
  · exact .inl rfl

/-- The listener is told what the reader has just returned, and nothing else. -/
theorem TaskMoves.told_eq {p : Poller} {t : PollTask} {a : Action} {phase : Phase} {tally : Tally}
    (h : TaskMoves p t a phase tally) :
    (moveEvents a p.tally tally phase).filterMap PollEvent.told? =
      (moveEvents a p.tally tally phase).filterMap PollEvent.returned? := by
  have hsame : ∀ tick, (p.awaitPhase tick).asked.filterMap PollEvent.told? =
      (p.awaitPhase tick).asked.filterMap PollEvent.returned? := by
    intro tick
    rcases p.asked_awaitPhase tick with hasked | hasked <;> rw [hasked] <;> rfl
  unfold moveEvents
  cases h with
  | begins =>
    rw [counted_self, List.filterMap_append, List.filterMap_append, hsame]
    rfl
  | fails | succeeds =>
    rw [counted_add, List.filterMap_append, List.filterMap_append, hsame]
    rfl
  | _ =>
    rw [counted_self]
    rfl

/-- What a step of a task adds to the tally is counted in it. -/
theorem TaskMoves.counted_eq {p : Poller} {t : PollTask} {a : Action} {phase : Phase}
    {tally : Tally} (h : TaskMoves p t a phase tally) (o : PollOutcome) :
    tally.of o =
      p.tally.of o + ((moveEvents a p.tally tally phase).filterMap PollEvent.counted?).count o := by
  have hnone : ∀ tick, (p.awaitPhase tick).asked.filterMap PollEvent.counted? = [] := by
    intro tick
    rcases p.asked_awaitPhase tick with hasked | hasked <;> rw [hasked] <;> rfl
  unfold moveEvents
  rw [List.filterMap_append, List.filterMap_append]
  cases h with
  | begins =>
    rw [counted_self, hnone]
    rfl
  | fails | succeeds =>
    rw [counted_add, hnone, Tally.of_add]
    cases o <;> rfl
  | _ =>
    rw [counted_self]
    rfl

/-! ## The ledger of a run -/

/-- What a run has come to, with the events `trace` and the polls that ran to their end. -/
structure Ledger (p : Poller) (trace : List (Nat × PollEvent)) (polls : List (Nat × Poll)) :
    Prop where
  /-- The events of a task are its polls, one after the other, and what it has done since. -/
  task : ∀ n, ∃ rest, ofTask n trace = (ofTask n polls).flatMap (Poll.events p.names) ++ rest ∧
    OpenPoll (p.phase? n) rest
  /-- The tally is the number of polls with an outcome, where outcomes can be recorded. -/
  tally : ∀ o, p.tally.of o =
    if Measures.CanRecord p.names then polls.countP (·.2.outcome = o) else 0
  /-- Where they cannot, a task has one poll at most, and has ended after it. -/
  last : ¬ Measures.CanRecord p.names → ∀ n, ofTask n polls ≠ [] →
    (∃ poll, ofTask n polls = [poll]) ∧ p.phase? n = some .finished
  counted : ∀ o, p.tally.of o = (trace.filterMap (·.2.counted?)).count o
  told : trace.filterMap (·.2.told?) = trace.filterMap (·.2.returned?)

theorem ledger_fresh (interval : Interval) (clock : Clock) (names : MetricNames) (now : Rat) :
    Ledger (fresh interval clock names now) [] [] where
  task := fun _ => ⟨[], rfl, .notStarted⟩
  tally := fun o => by cases o <;> exact (ite_self 0).symm
  last := fun _ _ hpolls => absurd rfl hpolls
  counted := fun o => by cases o <;> rfl
  told := rfl

/-- A step leaves what a task has done alone, when it is no step of the task. -/
theorem OpenPoll.other {p q : Poller} {a : Action} {n : Nat} {rest : List PollEvent}
    (hopen : OpenPoll (p.phase? n) rest) (ha : a.task? ≠ some n) (h : p.step? a = some q) :
    OpenPoll (q.phase? n) rest := by
  rcases Nat.lt_or_ge n p.tasks.length with hlt | hge
  · rw [step_phase?_other ha hlt h]
    exact hopen
  · have hnone : p.phase? n = none := by simp [phase?, hge]
    rw [hnone] at hopen
    cases hopen
    rcases phase?_of_new h hge with hnew | hnew
    · rw [hnew]
      exact .notStarted
    · rw [hnew]
      exact .created

/-- A step that is no step of a task adds nothing to the ledger. -/
theorem Ledger.call {p q : Poller} {a : Action} {trace : List (Nat × PollEvent)}
    {polls : List (Nat × Poll)} (hp : p.Ledger trace polls) (ha : a.task? = none)
    (h : p.step? a = some q) : q.Ledger trace polls := by
  have htally := step_tally ha h
  have hnames := (sameMake_step h).names
  have hother : ∀ n, a.task? ≠ some n := fun n => by rw [ha]; exact nofun
  refine ⟨fun n => ?_, by rw [htally, hnames]; exact hp.tally, fun hrecords n hpolls => ?_,
    by rw [htally]; exact hp.counted, hp.told⟩
  · obtain ⟨rest, hrest, hopen⟩ := hp.task n
    exact ⟨rest, hnames ▸ hrest, hopen.other (hother n) h⟩
  · obtain ⟨hone, hphase⟩ := hp.last (hnames ▸ hrecords) n hpolls
    exact ⟨hone, (step_phase?_other (hother n) (lt_length_of_phase? hphase) h).trans hphase⟩

/-- A step of a task adds its events to the ledger, and the poll that it ends, if any. -/
theorem Ledger.own {p q : Poller} {a : Action} {trace : List (Nat × PollEvent)}
    {polls : List (Nat × Poll)} (hp : p.Ledger trace polls) {m : Nat} (ha : a.task? = some m)
    (h : p.step? a = some q) : ∃ ended, q.Ledger (trace ++ p.stepEvents a q) (polls ++ ended) := by
  obtain ⟨t, phase, ht, hmoves, hphase⟩ := step_phase?_own ha h
  have hnames := (sameMake_step h).names
  have hevents : p.stepEvents a q = (moveEvents a p.tally q.tally phase).map fun e => (m, e) := by
    rw [stepEvents, ha]
    simp only [hphase]
  have hother : ∀ {n}, m ≠ n → a.task? ≠ some n := fun hn => by rw [ha]; simpa using hn
  have hbefore : p.phase? m = some t.phase := phase?_eq_some_iff.2 ⟨t, ht, rfl⟩
  obtain ⟨rest, hrest, hopen⟩ := hp.task m
  rw [hbefore] at hopen
  obtain ⟨ended, since, henters⟩ := hmoves.enters hopen
  refine ⟨ended.map fun e => (m, e), fun n => ?_, fun o => ?_, fun hrecords n hpolls => ?_,
    fun o => ?_, ?_⟩
  · rw [ofTask_append, ofTask_append, hevents, hnames]
    by_cases hn : m = n
    · subst hn
      refine ⟨since, ?_, by rw [hphase]; exact henters.since⟩
      rw [ofTask_map_self, ofTask_map_self, hrest, List.append_assoc, henters.events,
        List.flatMap_append, List.append_assoc]
    · obtain ⟨rest, hrest, hopen⟩ := hp.task n
      refine ⟨rest, ?_, hopen.other (hother hn) h⟩
      rw [ofTask_map_of_ne hn, ofTask_map_of_ne hn, List.append_nil, List.append_nil, hrest]
  · rw [henters.tally o, hp.tally o, hnames, List.countP_append, List.countP_map]
    split <;> rfl
  · rw [hnames] at hrecords
    rw [ofTask_append] at hpolls ⊢
    by_cases hn : m = n
    · -- a task that takes a step had not ended, so it had no poll
      subst hn
      have hfirst : ofTask m polls = [] := by
        refine Classical.byContradiction fun hne => hmoves.not_finished ?_
        have hended := (hp.last hrecords m hne).2
        rw [hbefore, Option.some.injEq] at hended
        exact hended
      rw [hfirst, List.nil_append, ofTask_map_self] at hpolls ⊢
      obtain ⟨hone, rfl⟩ := henters.last hrecords hpolls
      exact ⟨hone, hphase⟩
    · rw [ofTask_map_of_ne hn, List.append_nil] at hpolls ⊢
      obtain ⟨hone, hfinished⟩ := hp.last hrecords n hpolls
      exact ⟨hone,
        (step_phase?_other (hother hn) (lt_length_of_phase? hfinished) h).trans hfinished⟩
  · rw [hmoves.counted_eq o, hp.counted o, hevents, List.filterMap_append, List.count_append,
      List.filterMap_map]
    rfl
  · rw [hevents, List.filterMap_append, List.filterMap_append, List.filterMap_map,
      List.filterMap_map, hp.told]
    exact congrArg _ hmoves.told_eq

/-- A step adds its events to the ledger, and the poll that it ends, if any. -/
theorem Ledger.step {p q : Poller} {a : Action} {trace : List (Nat × PollEvent)}
    {polls : List (Nat × Poll)} (hp : p.Ledger trace polls) (h : p.step? a = some q) :
    ∃ ended, q.Ledger (trace ++ p.stepEvents a q) (polls ++ ended) := by
  cases ha : a.task? with
  | none =>
    have hevents : p.stepEvents a q = [] := by rw [stepEvents, ha]
    refine ⟨[], ?_⟩
    rw [hevents, List.append_nil, List.append_nil]
    exact hp.call ha h
  | some m => exact hp.own ha h

/-- A run adds its events to the ledger, and the polls that end in it. -/
theorem Ledger.run {p r : Poller} {actions : List Action} {trace : List (Nat × PollEvent)}
    {polls : List (Nat × Poll)} (hp : p.Ledger trace polls) (h : p.run? actions = some r) :
    ∃ ended, r.Ledger (trace ++ p.trace actions) (polls ++ ended) := by
  induction actions generalizing p trace polls with
  | nil =>
    rw [run?_nil] at h
    cases h
    exact ⟨[], by simpa [Poller.trace] using hp⟩
  | cons a actions ih =>
    obtain ⟨q, hq, hrest⟩ := run?_cons_eq_some.1 h
    obtain ⟨first, hfirst⟩ := hp.step hq
    obtain ⟨others, hothers⟩ := ih hfirst hrest
    refine ⟨first ++ others, ?_⟩
    rw [trace_cons hq, ← List.append_assoc, ← List.append_assoc]
    exact hothers

/-! ## Going on -/

/-- Only an interval of finite length has ticks. -/
def Ticking (p : Poller) : Prop :=
  ∀ n phase, p.phase? n = some phase → phase.tick?.isSome = true →
    ∃ length positive, p.interval = .every length positive

/-- A tick that a task is to wait for comes from an interval of finite length. -/
theorem every_of_awaitPhase_next {p : Poller}
    (h : (p.awaitPhase (p.interval.next p.clock p.now)).tick?.isSome = true) :
    ∃ length positive, p.interval = .every length positive := by
  cases hinterval : p.interval with
  | every length positive => exact ⟨length, positive, rfl⟩
  | never | oversized =>
    rw [hinterval] at h
    cases h

theorem TaskMoves.every_of_tick {p : Poller} {t : PollTask} {a : Action} {phase : Phase}
    {tally : Tally} (h : TaskMoves p t a phase tally) (htick : phase.tick?.isSome = true) :
    t.phase.tick?.isSome = true ∨ ∃ length positive, p.interval = .every length positive := by
  cases h with
  | neverRuns | leaves | fetchCut | updateCut | failsUnrecorded | succeedsUnrecorded => cases htick
  | begins => exact .inr (every_of_awaitPhase_next htick)
  | polls hphase | updates _ hphase | fails hphase | succeeds hphase =>
    rw [hphase]
    exact .inl rfl

theorem Ticking.step {p q : Poller} {a : Action} (hp : p.Ticking) (h : p.step? a = some q) :
    q.Ticking := by
  intro n phase hphase htick
  rw [(sameMake_step h).interval]
  by_cases ha : a.task? = some n
  · obtain ⟨t, phase', ht, hmoves, hphase'⟩ := step_phase?_own ha h
    rw [hphase] at hphase'
    cases hphase'
    rcases hmoves.every_of_tick htick with hbefore | hevery
    · exact hp n t.phase (phase?_eq_some_iff.2 ⟨t, ht, rfl⟩) hbefore
    · exact hevery
  · rcases Nat.lt_or_ge n p.tasks.length with hlt | hge
    · rw [step_phase?_other ha hlt h] at hphase
      exact hp n phase hphase htick
    · rcases phase?_of_new h hge with hnew | hnew
      · rw [hnew] at hphase
        cases hphase
      · rw [hnew] at hphase
        cases hphase
        cases htick

theorem run_ticking {interval : Interval} {clock : Clock} {names : MetricNames} {now : Rat}
    {actions : List Action} {p : Poller}
    (h : (fresh interval clock names now).run? actions = some p) : p.Ticking :=
  run_invariant Ticking.step (fun n phase hphase => by simp [fresh, phase?] at hphase) h

/-- A task without its signal is the one that the poller holds, and goes on polling. -/
theorem Custody.polls {p : Poller} (hp : p.Custody) {n : Nat} {t : PollTask}
    (ht : p.tasks[n]? = some t) (hsignal : t.signalled = false) : Polls p.interval p.names t := by
  have htask := hp.held n t ht hsignal
  cases hflag : p.flag with
  | stopped =>
    rw [(hp.stopped hflag).1] at htask
    cases htask
  | transitioning =>
    obtain ⟨_, _, hnone, _⟩ := hp.transitioning hflag
    rw [hnone] at htask
    cases htask
  | running =>
    obtain ⟨m, u, hm, _, hu, hpolls, _⟩ := hp.running hflag
    rw [hm] at htask
    cases htask
    rw [ht] at hu
    cases hu
    exact hpolls

/-- A task is inside a poll, or waits for a tick and polls when that has come. -/
def Resumes (p : Poller) (n : Nat) : Prop :=
  p.IsPolling n ∨
    ∃ w span q, p.phase? n = some (.waiting (some w)) ∧ 0 ≤ span ∧
      p.run? [.pass span, .wake n] = some q ∧ q.phase? n = some (.fetching w.tick)

/-- A task that waits for a tick polls when it has come. -/
theorem resumes_of_waiting {p : Poller} {n : Nat} {w : TickWait}
    (ht : p.tasks[n]? = some { phase := .waiting (some w) }) : p.Resumes n := by
  have hspan : 0 ≤ max 0 (w.due - p.now) := by grind
  have hreached : p.clock.reached w.due (p.now + max 0 (w.due - p.now)) = true := by
    have hdue : w.due ≤ p.now + max 0 (w.due - p.now) := by grind
    simp [Clock.reached, hdue]
  have hpass : p.step? (.pass (max 0 (w.due - p.now))) = some (p.pass (max 0 (w.due - p.now))) :=
    if_pos hspan
  have hwake : (p.pass (max 0 (w.due - p.now))).step? (.wake n) =
      some ((p.pass (max 0 (w.due - p.now))).moveTask n (.fetching w.tick)) := by
    have htask : (p.pass (max 0 (w.due - p.now))).tasks[n]? =
        some { phase := .waiting (some w) } := ht
    simp only [step?, wake?, htask, Bool.or_false, Bool.false_eq_true, if_false]
    exact if_pos hreached
  refine .inr ⟨w, _, _, phase?_eq_some_iff.2 ⟨_, ht, rfl⟩, hspan,
    run?_cons_eq_some.2 ⟨_, hpass, run?_cons_eq_some.2 ⟨_, hwake, rfl⟩⟩, ?_⟩
  exact phase?_moveTask (p := p.pass _) ht _

/-- The loop of a task has not ended: the task is inside a poll, waits for its next tick, or has a
next tick beyond every number of the clock.  On exact times there is a next tick, and it lies
ahead. -/
structure GoesOn (p : Poller) (n : Nat) : Prop where
  resumes : p.Resumes n ∨ p.phase? n = some (.waiting none)
  exact_times : p.clock = .exact → p.phase? n ≠ some (.waiting none) ∧
    ∀ w, p.phase? n = some (.waiting (some w)) → p.now < w.tick

theorem isPolling_iff {p : Poller} {n : Nat} :
    p.IsPolling n ↔ (∃ tick, p.phase? n = some (.fetching tick)) ∨
      ∃ tick items, p.phase? n = some (.updating tick items) := by
  unfold IsPolling canCall phase?
  cases p.tasks[n]? with
  | none => simp
  | some t =>
    obtain ⟨phase, signalled, cancelled⟩ := t
    cases phase <;> simp

theorem goesOn_of_isPolling {p : Poller} {n : Nat} (h : p.IsPolling n) : p.GoesOn n where
  resumes := .inl (.inl h)
  exact_times := fun _ => by
    rcases isPolling_iff.1 h with ⟨tick, hphase⟩ | ⟨tick, items, hphase⟩
    · rw [hphase]
      exact ⟨nofun, nofun⟩
    · rw [hphase]
      exact ⟨nofun, nofun⟩

/-- A task that has come to wait for a tick goes on. -/
theorem goesOn_awaitPhase {p q : Poller} {n : Nat} {tick : Tick} (hclock : q.clock = p.clock)
    (hnow : q.now = p.now) (ht : q.tasks[n]? = some { phase := p.awaitPhase tick })
    (hahead : p.clock = .exact → ∃ t, tick = some t ∧ p.now < t) : q.GoesOn n := by
  have hphase : q.phase? n = some (p.awaitPhase tick) := phase?_eq_some_iff.2 ⟨_, ht, rfl⟩
  cases tick with
  | none =>
    refine ⟨.inr hphase, fun hexact => ?_⟩
    obtain ⟨t, hnone, -⟩ := hahead (hclock ▸ hexact)
    cases hnone
  | some t =>
    by_cases hspan : p.clock.between p.now t ≤ 0
    · have hfetching : p.awaitPhase (some t) = .fetching t := if_pos hspan
      rw [hfetching] at hphase
      exact goesOn_of_isPolling (isPolling_iff.2 (.inl ⟨t, hphase⟩))
    · have hwaiting : ∃ due, p.awaitPhase (some t) = .waiting (some { tick := t, due }) :=
        ⟨_, if_neg hspan⟩
      obtain ⟨due, hwaiting⟩ := hwaiting
      rw [hwaiting] at ht hphase
      refine ⟨.inl (resumes_of_waiting ht), fun hexact => ⟨?_, fun w hw => ?_⟩⟩
      · rw [hphase]
        exact nofun
      · obtain ⟨t', ht', hlt⟩ := hahead (hclock ▸ hexact)
        cases ht'
        cases hphase.symm.trans hw
        rw [hnow]
        exact hlt

/-- However the fetch or the update of a task ends, the task goes on, unless it was stopped or its
poll ended and cannot be recorded. -/
theorem Custody.goesOn {p q : Poller} {n : Nat} {t : PollTask} {a : Action} (hp : p.Custody)
    (hticking : p.Ticking) (ht : p.tasks[n]? = some t) (hsignal : t.signalled = false)
    (hpoll : p.IsPolling n) (ha : a.task? = some n)
    (hrecords : Measures.CanRecord p.names ∨ a.endsPollOf n = false) (h : p.step? a = some q) :
    q.GoesOn n := by
  have hpolls := hp.polls ht hsignal
  have hphase : p.phase? n = some t.phase := phase?_eq_some_iff.2 ⟨t, ht, rfl⟩
  obtain ⟨u, phase, tally, hu, hmoves, rfl⟩ := taskStep_cases ha h
  rw [ht] at hu
  cases hu
  have htask : (p.moved n phase tally).tasks[n]? = some { phase } := by
    have hmoved : (p.moved n phase tally).tasks[n]? = some { t with phase } :=
      task_moveTask ht phase
    rw [hmoved, hpolls.not_signalled, hpolls.not_cancelled]
  have hnew : (p.moved n phase tally).phase? n = some phase := by rw [phase?, htask]; rfl
  have hafter : ∀ tick, t.phase.tick? = some tick →
      phase = p.awaitPhase (p.interval.after p.clock tick p.now) →
        (p.moved n phase tally).GoesOn n := by
    rintro tick htick rfl
    refine goesOn_awaitPhase (p := p) rfl rfl htask fun hclock => ?_
    obtain ⟨length, positive, hinterval⟩ := hticking n t.phase hphase (by rw [htick]; rfl)
    rw [hclock, hinterval]
    have hnext := Interval.after_exact positive tick p.now
    exact ⟨_, hnext, Interval.lt_after hnext⟩
  cases hmoves with
  | neverRuns hcreated | begins hcreated | leaves hcreated | polls hcreated =>
    rw [hcreated] at hphase
    rcases isPolling_iff.1 hpoll with ⟨tick, hother⟩ | ⟨tick, items, hother⟩
    · cases hphase.symm.trans hother
    · cases hphase.symm.trans hother
  | fetchCut _ hcancel | updateCut _ hcancel =>
    rw [hpolls.not_cancelled] at hcancel
    cases hcancel
  | updates items => exact goesOn_of_isPolling (isPolling_iff.2 (.inr ⟨_, _, hnew⟩))
  | fails hfetching => exact hafter _ (by rw [hfetching]; rfl) rfl
  | succeeds hupdating => exact hafter _ (by rw [hupdating]; rfl) rfl
  | failsUnrecorded _ hcannot | succeedsUnrecorded _ _ hcannot =>
    rcases hrecords with hcan | hends
    · exact absurd hcan hcannot
    · rw [Option.some.inj ha] at hends
      simp [Action.endsPollOf] at hends

/-! ## What a run comes to -/

/-- What is counted, when it can be recorded at all, is what measures show that record it. -/
theorem Ledger.pollCount {p : Poller} {trace : List (Nat × PollEvent)} {polls : List (Nat × Poll)}
    (hp : p.Ledger trace polls) {r q : MetricRegistry}
    (hcreate : Measures.create r p.names = (q, .ok ())) :
    ∃ q', Measures.recordAll q p.names (trace.filterMap (·.2.counted?)) = .ok q' ∧
      ∀ o, Measures.pollCount q' p.names o =
        Double.ofInt (min (p.tally.of o) Measures.greatestCount : Nat) := by
  by_cases hrecords : Measures.CanRecord p.names
  · obtain ⟨q', hq', hcounts⟩ :=
      Measures.pollCount_recordAll hcreate hrecords (trace.filterMap (·.2.counted?))
    refine ⟨q', hq', fun o => ?_⟩
    rw [hcounts o, hp.counted o]
  · have hzero : ∀ o, p.tally.of o = 0 := fun o => by rw [hp.tally o, if_neg hrecords]
    have hnone : trace.filterMap (·.2.counted?) = [] := by
      refine List.eq_nil_iff_forall_not_mem.2 fun o ho => ?_
      have hpositive := List.count_pos_iff.2 ho
      rw [← hp.counted o, hzero o] at hpositive
      exact absurd hpositive (Nat.lt_irrefl 0)
    rw [hnone]
    refine ⟨q, rfl, fun o => ?_⟩
    rw [(Measures.counts_create hcreate).pollCount_eq, hzero o, Nat.zero_min]
    rfl

/-- The polls of any run of starts, stops and poll tasks, whatever the reader and the listener do.

* Every task does one poll after the other as `Poll.events` says, and after them at most a part of
  one, which counts nothing.
* Each poll that ran to its end is counted once, under its outcome, when outcomes can be recorded,
  and measures of the same names that record what is counted show these numbers.
* The listener is told just the lists that the reader returned, in order.
* A task that was not stopped goes on, however its fetch or its update ends, when outcomes can be
  recorded.  Under the one label with which they cannot, the first poll that ends, ends its task,
  and the poller is running all the same. -/
theorem polls_accounted {interval : Interval} {clock : Clock} {names : MetricNames} {now : Rat}
    {actions : List Action} {p : Poller}
    (h : (fresh interval clock names now).run? actions = some p) :
    (∃ polls, p.Ledger ((fresh interval clock names now).trace actions) polls ∧
      p.tally.success + p.tally.failure =
        if Measures.CanRecord names then polls.length else 0) ∧
    (∀ r q, Measures.create r names = (q, .ok ()) →
      ∃ q', Measures.recordAll q names
          (((fresh interval clock names now).trace actions).filterMap (·.2.counted?)) = .ok q' ∧
        ∀ o, Measures.pollCount q' names o =
          Double.ofInt (min (p.tally.of o) Measures.greatestCount : Nat)) ∧
    ∀ n t a q, p.tasks[n]? = some t → t.signalled = false → p.IsPolling n → a.task? = some n →
      p.step? a = some q →
        (names.outcomeLabel ≠ Measures.ownName ∨ a.endsPollOf n = false → q.GoesOn n) ∧
        (names.outcomeLabel = Measures.ownName → a.endsPollOf n = true →
          q.flag = .running ∧ q.isFinished n = true ∧ q.tally = p.tally) := by
  have hnames : p.names = names := (sameMake_run h).names
  obtain ⟨polls, hledger⟩ := (ledger_fresh interval clock names now).run h
  rw [List.nil_append, List.nil_append] at hledger
  refine ⟨⟨polls, hledger, ?_⟩, ?_, ?_⟩
  · have hsuccess : p.tally.success = _ := hledger.tally .success
    have hfailure : p.tally.failure = _ := hledger.tally .failure
    rw [hsuccess, hfailure, hnames]
    split
    · rw [List.length_eq_countP_add_countP (·.2.outcome = .success)]
      congr 2
      funext e
      cases e.2 <;> rfl
    · rfl
  · intro r q hcreate
    rw [← hnames] at hcreate
    simpa only [hnames] using hledger.pollCount hcreate
  · intro n t a q ht hsignal hpoll ha hstep
    have hcustody := run_custody h
    refine ⟨fun hends => ?_, fun hlabel hends => ?_⟩
    · exact hcustody.goesOn (run_ticking h) ht hsignal hpoll ha (hnames.symm ▸ hends) hstep
    · have hrecords : ¬ Measures.CanRecord p.names := fun hcan => hcan (hnames ▸ hlabel)
      have htask := hcustody.held n t ht hsignal
      obtain ⟨hflag, -, hfinished, htally⟩ :=
        hcustody.finished_of_endsPoll hrecords htask hends hstep
      exact ⟨hflag, hfinished, htally⟩

/-- A poll whose update fails, one whose fetch fails, and one that a stop cuts short. -/
theorem polls_accounted_cut :
    ∃ actions p, (fresh .standard .exact {} 0).run? actions = some p ∧
      actions = [.start, .begin 0, .pass 5, .wake 0, .fetchEnds 0 (.returned []),
        .updateEnds 0 .failed, .pass 5, .wake 0, .fetchEnds 0 .failed, .pass 5, .wake 0,
        .stop none, .fetchEnds 0 .cancelled] ∧
      p.tally = { success := 1, failure := 1 } ∧
      ∃ polls, p.Ledger ((fresh .standard .exact {} 0).trace actions) polls ∧
        polls.length = 2 := by
  have hrun : ((fresh .standard .exact {} 0).run?
      [.start, .begin 0, .pass 5, .wake 0, .fetchEnds 0 (.returned []),
        .updateEnds 0 .failed, .pass 5, .wake 0, .fetchEnds 0 .failed, .pass 5, .wake 0,
        .stop none, .fetchEnds 0 .cancelled]).map Poller.tally =
      some { success := 1, failure := 1 } := by
    decide +kernel
  obtain ⟨p, hp, htally⟩ := Option.map_eq_some_iff.1 hrun
  obtain ⟨⟨polls, hledger, hlength⟩, -, -⟩ := polls_accounted hp
  rw [htally, if_pos (by decide)] at hlength
  exact ⟨_, p, hp, rfl, htally, polls, hledger, hlength.symm⟩

/-- A list was fetched, the listener was told it and returned, and nothing is counted: no outcome can
be recorded, and the task has ended. -/
theorem poll_uncounted :
    ∃ actions p, (fresh .standard .exact { outcomeLabel := Measures.ownName } 0).run? actions =
        some p ∧
      actions = [.start, .begin 0, .pass 5, .wake 0, .fetchEnds 0 (.returned []),
        .updateEnds 0 .returned] ∧
      ((fresh .standard .exact { outcomeLabel := Measures.ownName } 0).trace actions).countP
        (·.2.told?.isSome) = 1 ∧
      p.tally = {} ∧ p.isFinished 0 = true ∧ p.flag = .running := by
  have hrun : ((fresh .standard .exact { outcomeLabel := Measures.ownName } 0).run?
      [.start, .begin 0, .pass 5, .wake 0, .fetchEnds 0 (.returned []),
        .updateEnds 0 .returned]).map (fun p => (p.tally, p.isFinished 0, p.flag)) =
      some ({}, true, .running) := by
    decide +kernel
  obtain ⟨p, hp, hstate⟩ := Option.map_eq_some_iff.1 hrun
  simp only [Prod.mk.injEq] at hstate
  exact ⟨_, p, hp, rfl, by decide +kernel, hstate⟩

end Poller

end HookRegistry
