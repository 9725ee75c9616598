import HookRegistry.Proofs.Poller.Step

/-!
# Who holds the poll task

Start writes the flag, the task and its shutdown signal; stop takes the two away and writes the
flag once more when its wait is over.  `Custody` is the invariant that ties the three together
between any two of these writes, and `run_custody` says that every run of calls, waits and poll
tasks keeps it.

The calls that are accepted are read off a run by `acceptedCalls`.  `Custody.alternates` says that
they are a start, a stop, a start and so on, since the state of the flag tells which of the two can
be accepted next.

One thing can end the task of a running poller behind its back: an outcome that cannot be recorded.
The flag says that the poller runs then, and nothing polls: `runs_without_task`.
-/

namespace HookRegistry

/-- An interval that is given as a double is never too large to be computed with. -/
theorem Interval.ofSeconds_real_ne_oversized (x : Double) : ofSeconds (.real x) ≠ .oversized := by
  have hrat : ∀ r, ofRat r ≠ .oversized := by
    intro r
    unfold ofRat
    split
    · intro h
      cases h
    · intro h
      cases h
  unfold ofSeconds
  split
  · show (x.toRat?.map ofRat).getD .never ≠ .oversized
    cases x.toRat? with
    | none =>
      intro h
      cases h
    | some r => exact hrat r
  · intro h
    cases h

namespace Poller

/-! ## The invariant -/

/-- A task that is to go on polling: it has been given no signal and no cancellation, and it has
not ended, unless nothing can be computed with the length of the interval or no outcome can be
recorded. -/
structure Polls (interval : Interval) (names : MetricNames) (t : PollTask) : Prop where
  not_signalled : t.signalled = false
  not_cancelled : t.cancelled = false
  not_finished : interval ≠ .oversized → Measures.CanRecord names → t.phase ≠ .finished

/-- A task that a stop waits for: it has its signal and its cancellation. -/
structure Ends (t : PollTask) : Prop where
  signalled : t.signalled = true
  cancelled : t.cancelled = true

/-- How the flag, the task, its signal and the waiting stops belong together. -/
structure Custody (p : Poller) : Prop where
  /-- A stopped poller holds nothing, and no stop is under way. -/
  stopped : p.flag = .stopped → p.task = none ∧ p.signal = none ∧ p.stops = []
  /-- A running poller holds a task that polls, and the signal of that task. -/
  running : p.flag = .running →
    ∃ n t, p.task = some n ∧ p.signal = some n ∧ p.tasks[n]? = some t ∧
      Polls p.interval p.names t ∧ p.stops = []
  /-- In between the poller holds nothing, and exactly one stop waits for its task. -/
  transitioning : p.flag = .transitioning →
    ∃ n t, p.task = none ∧ p.signal = none ∧ p.stops = [n] ∧ p.tasks[n]? = some t ∧ Ends t
  /-- Of all tasks only the one that is held can be without its signal. -/
  held : ∀ n t, p.tasks[n]? = some t → t.signalled = false → p.task = some n

theorem custody_fresh (interval : Interval) (clock : Clock) (names : MetricNames) (now : Rat) :
    Custody (fresh interval clock names now) where
  stopped := fun _ => ⟨rfl, rfl, rfl⟩
  running := fun h => by simp [fresh] at h
  transitioning := fun h => by simp [fresh] at h
  held := fun n t h => by simp [fresh] at h

/-! ## Each step keeps it -/

/-- A start puts a new task into a poller that holds none. -/
theorem Custody.started {p : Poller} (hp : p.Custody) (hflag : p.flag = .stopped) :
    p.started.Custody where
  stopped := fun h => by simp [Poller.started] at h
  running := fun _ => by
    obtain ⟨_, _, hstops⟩ := hp.stopped hflag
    refine ⟨p.tasks.length, {}, rfl, rfl, ?_, ⟨rfl, rfl, fun _ _ => by simp⟩, hstops⟩
    simp [Poller.started]
  transitioning := fun h => by simp [Poller.started] at h
  held := fun n t ht hsignal => by
    obtain ⟨htask, _, _⟩ := hp.stopped hflag
    have hlength : n < p.tasks.length + 1 := by
      simpa [Poller.started] using (List.getElem?_eq_some_iff.1 ht).1
    rcases Nat.lt_or_ge n p.tasks.length with hlt | hge
    · rw [Poller.started, List.getElem?_append_left hlt] at ht
      rw [hp.held n t ht hsignal] at htask
      simp at htask
    · have hlast : n = p.tasks.length := by omega
      rw [hlast]
      rfl

/-- After an accepted stop no task is without its signal. -/
theorem held_of_modify {p : Poller} {n : Nat} (hp : p.Custody) (htask : p.task = some n)
    {f : PollTask → PollTask} (hf : ∀ t, (f t).signalled = true) {m : Nat} {t : PollTask}
    (ht : (p.tasks.modify n f)[m]? = some t) : t.signalled = true := by
  rw [List.getElem?_modify] at ht
  obtain ⟨u, hu, rfl⟩ := Option.map_eq_some_iff.1 ht
  by_cases hm : n = m
  · simp [hm, hf]
  · have hsignal : u.signalled = true := by
      cases hu' : u.signalled with
      | true => rfl
      | false =>
        have hheld := hp.held m u hu hu'
        rw [htask] at hheld
        exact absurd (Option.some.inj hheld) hm
    simp [hm, hsignal]

/-- A stop that is accepted takes the task and its signal away, wherever it is called. -/
theorem Custody.stop {p : Poller} (hp : p.Custody) (caller : Option Nat) :
    (p.stop caller).1.Custody := by
  by_cases hflag : p.flag = .running
  · obtain ⟨n, t, htask, hsignal, ht, -, hstops⟩ := hp.running hflag
    rw [stop_eq_of_running caller hflag htask hsignal]
    by_cases hcaller : caller = some n
    · rw [if_pos hcaller]
      refine ⟨fun _ => ⟨rfl, rfl, hstops⟩, fun h => by simp at h, fun h => by simp at h, ?_⟩
      intro m u hu hfalse
      have := held_of_modify hp htask (fun _ => rfl) hu
      simp [hfalse] at this
    · rw [if_neg hcaller]
      refine ⟨fun h => by simp at h, fun h => by simp at h, fun _ => ?_, ?_⟩
      · refine ⟨n, { t with signalled := true, cancelled := true }, rfl, rfl, ?_, ?_, ⟨rfl, rfl⟩⟩
        · show p.stops ++ [n] = [n]
          rw [hstops, List.nil_append]
        · show (cancelTask p.tasks n)[n]? = _
          simp [cancelTask, ht]
      · intro m u hu hfalse
        have := held_of_modify hp htask (fun _ => rfl) hu
        simp [hfalse] at this
  · rw [stop_eq_of_not_running caller hflag]
    exact hp

/-- A stop that waits is the only one, for a task that is not held any more. -/
theorem Custody.waits {p : Poller} (hp : p.Custody) {i n : Nat} (hi : p.stops[i]? = some n) :
    p.flag = .transitioning ∧ p.task = none ∧ p.stops = [n] := by
  have hmem : n ∈ p.stops := List.mem_of_getElem? hi
  cases hflag : p.flag with
  | stopped =>
    rw [(hp.stopped hflag).2.2] at hmem
    cases hmem
  | running =>
    obtain ⟨_, _, _, _, _, _, hstops⟩ := hp.running hflag
    rw [hstops] at hmem
    cases hmem
  | transitioning =>
    obtain ⟨m, _, htask, _, hstops, _, _⟩ := hp.transitioning hflag
    rw [hstops, List.mem_singleton] at hmem
    exact ⟨rfl, htask, by rw [hstops, hmem]⟩

/-- Only a running poller holds a task. -/
theorem Custody.running_of_task {p : Poller} (hp : p.Custody) {n : Nat} (htask : p.task = some n) :
    p.flag = .running := by
  cases hflag : p.flag with
  | running => rfl
  | stopped =>
    rw [(hp.stopped hflag).1] at htask
    cases htask
  | transitioning =>
    obtain ⟨_, _, hnone, -⟩ := hp.transitioning hflag
    rw [hnone] at htask
    cases htask

/-- When a waiting stop ends, nothing is held and no other stop waits. -/
theorem Custody.stopEnds {p : Poller} (hp : p.Custody) {i n : Nat} (hi : p.stops[i]? = some n) :
    ({ p with flag := .stopped, stops := p.stops.eraseIdx i } : Poller).Custody := by
  obtain ⟨hflag, htask, hstops⟩ := hp.waits hi
  obtain ⟨m, t, -, hsignal, -⟩ := hp.transitioning hflag
  refine ⟨fun _ => ⟨htask, hsignal, ?_⟩, fun h => by simp at h, fun h => by simp at h, hp.held⟩
  show p.stops.eraseIdx i = []
  have hzero : i = 0 := by
    have := (List.getElem?_eq_some_iff.1 hi).1
    rw [hstops] at this
    simpa using this
  rw [hstops, hzero, List.eraseIdx_cons_zero]

/-- A task that polls goes on polling, whatever it does. -/
theorem Polls.moves {p : Poller} {t : PollTask} {a : Action} {phase : Phase} {tally : Tally}
    (ht : Polls p.interval p.names t) (h : TaskMoves p t a phase tally) :
    Polls p.interval p.names { t with phase } where
  not_signalled := ht.not_signalled
  not_cancelled := ht.not_cancelled
  not_finished := fun hfits hrecords => by
    have hfits : p.intervalFits = true := intervalFits_iff.2 hfits
    have hawait : ∀ tick, p.awaitPhase tick ≠ .finished := by
      intro tick
      unfold awaitPhase
      split
      · split <;> simp
      · simp
    cases h with
    | neverRuns _ hend => simp [ht.not_cancelled, hfits] at hend
    | leaves _ hend => simp [ht.not_cancelled, ht.not_signalled] at hend
    | fetchCut _ hcancel | updateCut _ hcancel => simp [ht.not_cancelled] at hcancel
    | failsUnrecorded _ hcannot | succeedsUnrecorded _ _ hcannot => exact absurd hrecords hcannot
    | begins | fails | succeeds => exact hawait _
    | polls | updates => simp

/-- An action of a task leaves the flag, the task that is held, its signal and the stops alone. -/
theorem Custody.moved {p : Poller} (hp : p.Custody) {a : Action} {n : Nat} {t : PollTask}
    {phase : Phase} {tally : Tally} (hn : p.tasks[n]? = some t)
    (h : TaskMoves p t a phase tally) : (p.moved n phase tally).Custody := by
  have hget : ∀ m, (p.moved n phase tally).tasks[m]? =
      (p.tasks[m]?).map fun u => if n = m then { u with phase } else u :=
    fun m => List.getElem?_modify _ _ _ _
  refine ⟨hp.stopped, ?_, ?_, ?_⟩
  · intro hflag
    obtain ⟨m, u, htask, hsignal, hu, hpolls, hstops⟩ := hp.running hflag
    by_cases hm : n = m
    · subst hm
      rw [hn] at hu
      cases hu
      refine ⟨n, { t with phase }, htask, hsignal, ?_, hpolls.moves h, hstops⟩
      rw [hget, hn]
      simp
    · refine ⟨m, u, htask, hsignal, ?_, hpolls, hstops⟩
      rw [hget, hu]
      simp [hm]
  · intro hflag
    obtain ⟨m, u, htask, hsignal, hstops, hu, hends⟩ := hp.transitioning hflag
    refine ⟨m, if n = m then { u with phase } else u, htask, hsignal, hstops, ?_, ?_⟩
    · rw [hget, hu]
      rfl
    · by_cases hm : n = m
      · rw [if_pos hm]
        exact ⟨hends.signalled, hends.cancelled⟩
      · rw [if_neg hm]
        exact hends
  · intro m u hu hsignal
    rw [hget] at hu
    obtain ⟨v, hv, rfl⟩ := Option.map_eq_some_iff.1 hu
    refine hp.held m v hv ?_
    by_cases hm : n = m
    · simpa [hm] using hsignal
    · simpa [hm] using hsignal

/-- Every step keeps the invariant. -/
theorem Custody.step {p q : Poller} {a : Action} (hp : p.Custody) (h : p.step? a = some q) :
    q.Custody := by
  cases ha : a.task? with
  | none =>
    cases callStep_cases ha h with
    | passes => exact ⟨hp.stopped, hp.running, hp.transitioning, hp.held⟩
    | starts hflag => exact hp.started hflag
    | startRefused | startFails => exact hp
    | stops => exact hp.stop _
    | stopReturns hi | stopCancelled hi => exact hp.stopEnds hi
  | some n =>
    obtain ⟨t, phase, tally, ht, hmoves, rfl⟩ := taskStep_cases ha h
    exact hp.moved ht hmoves

/-- Every run from a fresh poller keeps it. -/
theorem run_custody {interval : Interval} {clock : Clock} {names : MetricNames} {now : Rat}
    {actions : List Action} {p : Poller}
    (h : (fresh interval clock names now).run? actions = some p) : p.Custody :=
  run_invariant Custody.step (custody_fresh interval clock names now) h

/-! ## Accepted calls -/

/-- A call that is accepted. -/
inductive Accepted where
  | start
  | stop
  deriving DecidableEq, Repr

/-- The call that can be accepted after one. -/
def Accepted.next : Accepted → Accepted
  | .start => .stop
  | .stop => .start

/-- Whether an action is a call, from wherever it is made. -/
def Action.isCall : Action → Bool
  | .start | .startUnscheduled | .stop _ => true
  | _ => false

/-- The accepted call that an action is, if it is one.  A start without a task to run is none. -/
def accepted? (p : Poller) : Action → Option Accepted
  | .start => if p.start.2 = .refused then none else some .start
  | .stop caller => if (p.stop caller).2 = .refused then none else some .stop
  | _ => none

/-- The accepted calls of a run, in order. -/
def acceptedCalls (p : Poller) : List Action → List Accepted
  | [] => []
  | a :: actions =>
    (p.accepted? a).toList ++
      match p.step? a with
      | some q => q.acceptedCalls actions
      | none => []

/-- Calls that alternate, where `c` is the first one that can come. -/
def Alternates : Accepted → List Accepted → Prop
  | _, [] => True
  | c, d :: rest => d = c ∧ Alternates c.next rest

/-- The call that can be accepted next. -/
def nextAccepted (p : Poller) : Accepted :=
  if p.flag = .running then .stop else .start

/-- A start is accepted by a stopped poller, and by no other. -/
theorem accepted?_start (p : Poller) :
    p.accepted? .start = if p.flag = .stopped then some .start else none := by
  unfold accepted?
  rw [start_eq]
  by_cases hflag : p.flag = .stopped
  · by_cases hfits : p.intervalFits = true
    · simp [hflag, hfits]
    · simp [hflag, hfits]
  · simp [hflag]

/-- A stop is accepted by a running poller, and by no other. -/
theorem Custody.accepted?_stop {p : Poller} (hp : p.Custody) (caller : Option Nat) :
    p.accepted? (.stop caller) = if p.flag = .running then some .stop else none := by
  simp only [accepted?]
  by_cases hflag : p.flag = .running
  · obtain ⟨n, t, htask, hsignal, -⟩ := hp.running hflag
    rw [stop_eq_of_running caller hflag htask hsignal]
    by_cases hcaller : caller = some n
    · simp [hflag, hcaller]
    · simp [hflag, hcaller]
  · rw [stop_eq_of_not_running caller hflag]
    simp [hflag]

/-- A call that is not accepted changes nothing at all. -/
theorem Custody.eq_of_not_accepted {p q : Poller} {a : Action} (hp : p.Custody)
    (ha : a.isCall = true) (hnone : p.accepted? a = none) (h : p.step? a = some q) : q = p := by
  cases a with
  | start =>
    rw [accepted?_start] at hnone
    have hflag : p.flag ≠ .stopped := by
      intro hflag
      simp [hflag] at hnone
    simp only [step?, start_eq, if_neg hflag, Option.some.injEq] at h
    exact h.symm
  | startUnscheduled =>
    simp only [step?, startUnscheduled_eq, Option.some.injEq] at h
    exact h.symm
  | stop caller =>
    rw [hp.accepted?_stop] at hnone
    have hflag : p.flag ≠ .running := by
      intro hflag
      simp [hflag] at hnone
    simp only [step?, stop_eq_of_not_running caller hflag, Option.ite_none_right_eq_some,
      Option.some.injEq] at h
    exact h.2.symm
  | _ => simp [Action.isCall] at ha

/-- An accepted call is the one that was expected, and then the other one is. -/
theorem Custody.nextAccepted_of_accepted {p q : Poller} {a : Action} {c : Accepted}
    (hp : p.Custody) (hc : p.accepted? a = some c) (h : p.step? a = some q) :
    c = p.nextAccepted ∧ q.nextAccepted = p.nextAccepted.next := by
  cases a with
  | start =>
    rw [accepted?_start] at hc
    by_cases hflag : p.flag = .stopped
    · simp only [step?, start_eq, if_pos hflag, Option.some.injEq] at h hc
      subst h hc
      have hstarted : p.started.flag = .running := rfl
      simp [nextAccepted, hflag, hstarted, Accepted.next]
    · simp [hflag] at hc
  | stop caller =>
    rw [hp.accepted?_stop] at hc
    by_cases hflag : p.flag = .running
    · obtain ⟨n, t, htask, hsignal, -⟩ := hp.running hflag
      simp only [step?, stop_eq_of_running caller hflag htask hsignal, if_pos hflag,
        Option.ite_none_right_eq_some, Option.some.injEq] at h hc
      obtain ⟨-, rfl⟩ := h
      subst hc
      by_cases hcaller : caller = some n
      · simp [nextAccepted, hflag, hcaller, Accepted.next]
      · simp [nextAccepted, hflag, hcaller, Accepted.next]
    · simp [hflag] at hc
  | _ => simp [accepted?] at hc

/-- An action that is no accepted call does not change which call can be accepted. -/
theorem Custody.nextAccepted_of_not_accepted {p q : Poller} {a : Action} (hp : p.Custody)
    (hnone : p.accepted? a = none) (h : p.step? a = some q) : q.nextAccepted = p.nextAccepted := by
  cases hcall : a.isCall with
  | true => rw [hp.eq_of_not_accepted hcall hnone h]
  | false =>
    cases ha : a.task? with
    | none =>
      cases callStep_cases ha h with
      | passes => rfl
      | stopReturns hi | stopCancelled hi => simp [nextAccepted, (hp.waits hi).1]
      | starts | startRefused | startFails | stops => cases hcall
    | some n =>
      obtain ⟨t, phase, tally, -, -, rfl⟩ := taskStep_cases ha h
      rfl

/-- The accepted calls of a run alternate, from the one that the flag allows. -/
theorem Custody.alternates {p : Poller} (hp : p.Custody) (actions : List Action) :
    Alternates p.nextAccepted (p.acceptedCalls actions) := by
  induction actions generalizing p with
  | nil => trivial
  | cons a actions ih =>
    unfold acceptedCalls
    cases h : p.step? a with
    | none =>
      -- a call can always be made, but one from inside a task only where the task is
      cases hc : p.accepted? a with
      | none => trivial
      | some c =>
        refine ⟨?_, trivial⟩
        cases a with
        | start => simp [step?] at h
        | stop caller =>
          rw [hp.accepted?_stop] at hc
          by_cases hflag : p.flag = .running
          · simp only [hflag, if_true, Option.some.injEq] at hc
            simp [← hc, nextAccepted, hflag]
          · simp [hflag] at hc
        | _ => simp [accepted?] at hc
    | some q =>
      cases hc : p.accepted? a with
      | none =>
        have hnext := hp.nextAccepted_of_not_accepted hc h
        simpa [hnext] using ih (hp.step h)
      | some c =>
        obtain ⟨hfirst, hnext⟩ := hp.nextAccepted_of_accepted hc h
        refine ⟨hfirst, ?_⟩
        rw [← hnext]
        exact ih (hp.step h)

/-! ## The task of a running poller -/

/-- Where no outcome can be recorded, the first poll that ends ends its task uncounted. -/
theorem eq_moved_of_endsPoll {p q : Poller} {n : Nat} {a : Action}
    (hrecords : ¬ Measures.CanRecord p.names) (ha : a.endsPollOf n = true)
    (h : p.step? a = some q) : q = p.moved n .finished p.tally ∧ q.isFinished n = true := by
  have hown : a.task? = some n := by
    refine Classical.byContradiction fun hother => ?_
    rw [Action.endsPollOf_eq_false hother] at ha
    cases ha
  obtain ⟨t, phase, tally, ht, hmoves, rfl⟩ := taskStep_cases hown h
  obtain ⟨rfl, rfl⟩ := hmoves.finished_of_not_canRecord ha hrecords
  exact ⟨rfl, isFinished_moveTask ht⟩

/-- The poller goes on running then, and holds a task that has ended. -/
theorem Custody.finished_of_endsPoll {p q : Poller} (hp : p.Custody) {n : Nat} {a : Action}
    (hrecords : ¬ Measures.CanRecord p.names) (htask : p.task = some n)
    (ha : a.endsPollOf n = true) (h : p.step? a = some q) :
    q.flag = .running ∧ q.task = some n ∧ q.isFinished n = true ∧ q.tally = p.tally := by
  obtain ⟨rfl, hfinished⟩ := eq_moved_of_endsPoll hrecords ha h
  exact ⟨hp.running_of_task htask, htask, hfinished, rfl⟩

/-- Whatever calls are made by whatever tasks, and whatever the poll tasks, the reader and the
listener do: the flag, the task and its signal belong together after every step, the accepted calls
are a start, a stop, a start and so on, a start is accepted exactly when the poller is stopped and
a stop exactly when it runs, and a call that is not accepted changes nothing.

With an interval that is given as a double the task of a running poller has not ended, if the label
of the measures is one under which outcomes can be recorded.  Under the one other label the first
poll that ends, ends the task too, and the poller is running all the same. -/
theorem run_keeps_custody {interval : Interval} {clock : Clock} {names : MetricNames} {now : Rat}
    {actions : List Action} {p : Poller}
    (h : (fresh interval clock names now).run? actions = some p) :
    p.Custody ∧
      Alternates .start ((fresh interval clock names now).acceptedCalls actions) ∧
      (p.accepted? .start = some .start ↔ p.flag = .stopped) ∧
      (∀ caller, p.accepted? (.stop caller) = some .stop ↔ p.flag = .running) ∧
      (∀ a q, a.isCall = true → p.accepted? a = none → p.step? a = some q → q = p) ∧
      (names.outcomeLabel ≠ Measures.ownName →
        ∀ x, interval = Interval.ofSeconds (.real x) → p.flag = .running →
          ∃ n t, p.task = some n ∧ p.tasks[n]? = some t ∧ t.phase ≠ .finished) ∧
      (names.outcomeLabel = Measures.ownName →
        ∀ n a q, p.task = some n → a.endsPollOf n = true → p.step? a = some q →
          q.flag = .running ∧ q.task = some n ∧ q.isFinished n = true ∧ q.tally = p.tally) := by
  have hp : p.Custody := run_custody h
  have hmake := sameMake_run h
  refine ⟨hp, (custody_fresh interval clock names now).alternates actions, ?_, ?_, ?_, ?_, ?_⟩
  · rw [accepted?_start]
    simp
  · intro caller
    rw [hp.accepted?_stop]
    simp
  · intro a q ha hnone hstep
    exact hp.eq_of_not_accepted ha hnone hstep
  · intro hlabel x hx hflag
    obtain ⟨n, t, htask, -, ht, hpolls, -⟩ := hp.running hflag
    have hinterval : p.interval = Interval.ofSeconds (.real x) := hmake.interval.trans hx
    have hrecords : Measures.CanRecord p.names := hmake.names ▸ hlabel
    refine ⟨n, t, htask, ht, hpolls.not_finished ?_ hrecords⟩
    rw [hinterval]
    exact Interval.ofSeconds_real_ne_oversized x
  · intro hlabel n a q htask ha hstep
    have hrecords : ¬ Measures.CanRecord p.names := fun hcan => hcan (hmake.names ▸ hlabel)
    exact hp.finished_of_endsPoll hrecords htask ha hstep

/-- A poller whose measures have the label that the counter calls itself by, after its first poll: it
says that it is running, refuses to be started, and its task has ended. -/
theorem runs_without_task :
    ∃ p, (fresh .standard .exact { outcomeLabel := Measures.ownName } 0).run?
        [.start, .begin 0, .pass 5, .wake 0, .fetchEnds 0 (.returned []),
          .updateEnds 0 .returned] = some p ∧
      p.flag = .running ∧ p.task = some 0 ∧ p.isFinished 0 = true ∧ p.accepted? .start = none ∧
      p.tally = {} := by
  have hrun : ((fresh .standard .exact { outcomeLabel := Measures.ownName } 0).run?
      [.start, .begin 0, .pass 5, .wake 0, .fetchEnds 0 (.returned []),
        .updateEnds 0 .returned]).map (fun p =>
          (p.flag, p.task, p.isFinished 0, p.accepted? .start, p.tally)) =
      some (.running, some 0, true, none, {}) := by
    decide +kernel
  obtain ⟨p, hp, hstate⟩ := Option.map_eq_some_iff.1 hrun
  simp only [Prod.mk.injEq] at hstate
  exact ⟨p, hp, hstate⟩

/-- A poller that is started, stopped from outside while its first poll is under way, started again
when that stop has been cancelled, and stopped once more from inside the first task, which is still
in its poll. -/
theorem run_keeps_custody_restarted :
    ∃ p, (fresh .standard .exact {} 0).run?
        [.start, .begin 0, .pass 5, .wake 0, .stop none, .startUnscheduled, .stopCancelled 0,
          .start, .stop (some 0)] = some p ∧
      p.flag = .transitioning ∧ p.Custody := by
  have hrun : ((fresh .standard .exact {} 0).run?
      [.start, .begin 0, .pass 5, .wake 0, .stop none, .startUnscheduled, .stopCancelled 0,
        .start, .stop (some 0)]).map flag = some .transitioning := by
    decide +kernel
  obtain ⟨p, hp, hflag⟩ := Option.map_eq_some_iff.1 hrun
  exact ⟨p, hp, hflag, (run_keeps_custody hp).1⟩

end Poller

end HookRegistry
