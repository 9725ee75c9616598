import HookRegistry.Poller.Basic

/-!
# What a step of the poller can do

`Poller.step?` is taken apart here, once for each action, so that no later proof opens it.  There
are three groups.

* The calls.  `start_eq`, `startUnscheduled_eq`, `stop_eq_of_running` and `stop_eq_of_not_running`
  give the state after a call in each of its cases, and `stopReturns?_eq_some_iff` and
  `stopCancelled?_eq_some_iff` say when a waiting stop ends and what it leaves behind.
* The poll tasks.  `taskStep_cases` says that an action of a task changes the phase of that task
  and the tally, and `TaskMoves` lists the phases that it can lead to.
* Runs.  `foldlM_invariant`, and for the poller `run_invariant`, carry a property along a run once
  every step keeps it.
-/

namespace HookRegistry

/-- A run is a fold over steps that can be impossible; what every step keeps holds at its end. -/
theorem foldlM_invariant {σ α : Type} {f : σ → α → Option σ} (P : σ → Prop) {l : List α}
    (hstep : ∀ s, ∀ a ∈ l, ∀ s', P s → f s a = some s' → P s') {s s' : σ}
    (h : l.foldlM f s = some s') (hs : P s) : P s' := by
  induction l generalizing s with
  | nil =>
    cases h
    exact hs
  | cons a l ih =>
    rw [List.foldlM_cons] at h
    obtain ⟨t, ht, hrest⟩ := Option.bind_eq_some_iff.1 h
    exact ih (fun s b hb => hstep s b (List.mem_cons_of_mem a hb)) hrest
      (hstep s a List.mem_cons_self t hs ht)

namespace Poller

/-- A poller before anything has happened to it. -/
def fresh (interval : Interval) (clock : Clock) (names : MetricNames) (now : Rat) : Poller :=
  { interval, clock, names, now }

/-- The task that an action is a step of. -/
def Action.task? : Action → Option Nat
  | .begin n | .wake n | .fetchEnds n _ | .updateEnds n _ => some n
  | _ => none

/-- Whether an action ends a poll of a task, by a failed fetch or by the end of the update. -/
def Action.endsPollOf (n : Nat) : Action → Bool
  | .fetchEnds m (.failed) | .updateEnds m _ => m == n
  | _ => false

/-- Only a step of the task ends a poll of it. -/
theorem Action.endsPollOf_eq_false {n : Nat} {a : Action} (ha : a.task? ≠ some n) :
    a.endsPollOf n = false := by
  cases a with
  | fetchEnds m outcome => cases outcome <;> simp_all [endsPollOf, task?]
  | updateEnds m outcome => simpa [endsPollOf, task?] using ha
  | _ => rfl

/-- All intervals but those beyond every number of a clock can be computed with. -/
theorem intervalFits_iff {p : Poller} : p.intervalFits = true ↔ p.interval ≠ .oversized := by
  unfold intervalFits
  split <;> simp_all

/-! ## The calls -/

/-- Creates a task for a poller that is stopped. -/
def started (p : Poller) : Poller :=
  { p with
    flag := .running
    tasks := p.tasks ++ [{}]
    task := some p.tasks.length
    signal := some p.tasks.length }

/-- A stopped poller starts, and every other one refuses. -/
theorem start_eq (p : Poller) :
    p.start =
      if p.flag = .stopped then
        (p.started, if p.intervalFits then .accepted else .unrecorded)
      else (p, .refused) := by
  unfold start PollerState.compareAndSwap
  by_cases h : p.flag = .stopped
  · simp [h, started]
  · simp [h]

/-- A start without a task to run changes nothing, whatever the state. -/
theorem startUnscheduled_eq (p : Poller) :
    p.startUnscheduled = (p, if p.flag = .stopped then .failed else .refused) := by
  unfold startUnscheduled PollerState.compareAndSwap
  by_cases h : p.flag = .stopped
  · have hself : { p with flag := .stopped } = p := by rw [← h]
    simp only [h, if_true, hself]
  · simp [h]

/-- Gives the shutdown signal of a task. -/
def signalTask (tasks : List PollTask) (n : Nat) : List PollTask :=
  tasks.modify n fun t => { t with signalled := true }

/-- Gives the shutdown signal of a task and cancels the task. -/
def cancelTask (tasks : List PollTask) (n : Nat) : List PollTask :=
  tasks.modify n fun t => { t with signalled := true, cancelled := true }

/-- A running poller whose task and signal belong together stops: at once when the call comes from
inside the task, otherwise after a wait for the task. -/
theorem stop_eq_of_running {p : Poller} {n : Nat} (caller : Option Nat) (hflag : p.flag = .running)
    (htask : p.task = some n) (hsignal : p.signal = some n) :
    p.stop caller =
      if caller = some n then
        ({ p with flag := .stopped, task := none, signal := none, tasks := signalTask p.tasks n },
          .finished)
      else
        ({ p with
            flag := .transitioning, task := none, signal := none, tasks := cancelTask p.tasks n
            stops := p.stops ++ [n] },
          .waits n) := by
  unfold stop PollerState.compareAndSwap
  by_cases hcaller : caller = some n
  · simp [hflag, htask, hsignal, hcaller, giveSignal, modifyTask, signalTask]
  · simp [hflag, htask, hsignal, hcaller, giveSignal, modifyTask, cancelTask, List.modify_modify_eq,
      Function.comp_def]

/-- A poller that is not running refuses to stop. -/
theorem stop_eq_of_not_running {p : Poller} (caller : Option Nat) (hflag : p.flag ≠ .running) :
    p.stop caller = (p, .refused) := by
  unfold stop PollerState.compareAndSwap
  simp [hflag]

/-- A task has come to its end when its phase says so. -/
theorem isFinished_iff {p : Poller} {n : Nat} :
    p.isFinished n = true ↔ ∃ t, p.tasks[n]? = some t ∧ t.phase = .finished := by
  unfold isFinished
  split
  next t h => simp [h]
  next h =>
    simp only [Bool.false_eq_true, false_iff, not_exists, not_and]
    intro t ht hphase
    exact h t.signalled t.cancelled (by rw [ht, ← hphase])

/-- A waiting stop returns exactly when its task has come to its end. -/
theorem stopReturns?_eq_some_iff {p q : Poller} {i : Nat} :
    p.stopReturns? i = some q ↔
      ∃ n, p.stops[i]? = some n ∧ p.isFinished n = true ∧
        q = { p with flag := .stopped, stops := p.stops.eraseIdx i } := by
  unfold stopReturns?
  cases h : p.stops[i]? with
  | none => simp
  | some n =>
    simp only [Option.bind_eq_bind, Option.bind_some, Option.some.injEq, exists_eq_left']
    split
    next hfinished => simp [hfinished, eq_comm]
    next hfinished => simp [hfinished]

/-- A waiting stop can be cancelled at any time. -/
theorem stopCancelled?_eq_some_iff {p q : Poller} {i : Nat} :
    p.stopCancelled? i = some q ↔
      ∃ n, p.stops[i]? = some n ∧
        q = { p with flag := .stopped, stops := p.stops.eraseIdx i } := by
  unfold stopCancelled?
  cases h : p.stops[i]? with
  | none => simp
  | some n => simp [eq_comm]

/-! ## The poll tasks -/

theorem task_moveTask {p : Poller} {n : Nat} {t : PollTask} (ht : p.tasks[n]? = some t)
    (phase : Phase) : (p.moveTask n phase).tasks[n]? = some { t with phase } := by
  show (p.tasks.modify n _)[n]? = _
  rw [List.getElem?_modify_eq, ht]
  rfl

theorem isFinished_moveTask {p : Poller} {n : Nat} {t : PollTask} (ht : p.tasks[n]? = some t) :
    (p.moveTask n .finished).isFinished n = true :=
  isFinished_iff.2 ⟨_, task_moveTask ht .finished, rfl⟩

/-- Where a task stands that is to wait for a tick: it waits, or it polls when the time until the
tick is not positive. -/
def awaitPhase (p : Poller) : Tick → Phase
  | some tick =>
    if p.clock.between p.now tick ≤ 0 then .fetching tick
    else .waiting (some { tick, due := p.clock.later p.now (p.clock.between p.now tick) })
  | none => .waiting none

theorem awaitTick_eq (p : Poller) (n : Nat) (tick : Tick) :
    p.awaitTick n tick = p.moveTask n (p.awaitPhase tick) := by
  unfold awaitTick awaitPhase
  cases tick with
  | none => rfl
  | some tick =>
    by_cases h : p.clock.between p.now tick ≤ 0
    · simp [h]
    · simp [h]

/-- The phase that an action of a task leads to, and the tally after it. -/
inductive TaskMoves (p : Poller) (t : PollTask) : Action → Phase → Tally → Prop where
  | neverRuns {n} (hphase : t.phase = .created)
      (hend : t.cancelled = true ∨ p.intervalFits = false) :
      TaskMoves p t (.begin n) .finished p.tally
  | begins {n} (hphase : t.phase = .created) (hcancel : t.cancelled = false)
      (hfits : p.intervalFits = true) :
      TaskMoves p t (.begin n) (p.awaitPhase (p.interval.next p.clock p.now)) p.tally
  | leaves {n wait} (hphase : t.phase = .waiting wait)
      (hend : t.cancelled = true ∨ t.signalled = true) :
      TaskMoves p t (.wake n) .finished p.tally
  | polls {n w} (hphase : t.phase = .waiting (some w)) (hcancel : t.cancelled = false)
      (hsignal : t.signalled = false) (hdue : p.clock.reached w.due p.now = true) :
      TaskMoves p t (.wake n) (.fetching w.tick) p.tally
  | updates {n tick} (items : List Item) (hphase : t.phase = .fetching tick) :
      TaskMoves p t (.fetchEnds n (.returned items)) (.updating tick items) p.tally
  | fails {n tick} (hphase : t.phase = .fetching tick) (hrecords : Measures.CanRecord p.names) :
      TaskMoves p t (.fetchEnds n .failed)
        (p.awaitPhase (p.interval.after p.clock tick p.now)) (p.tally.add .failure)
  | failsUnrecorded {n tick} (hphase : t.phase = .fetching tick)
      (hrecords : ¬ Measures.CanRecord p.names) :
      TaskMoves p t (.fetchEnds n .failed) .finished p.tally
  | fetchCut {n tick} (hphase : t.phase = .fetching tick) (hcancel : t.cancelled = true) :
      TaskMoves p t (.fetchEnds n .cancelled) .finished p.tally
  | succeeds {n tick items outcome} (hphase : t.phase = .updating tick items)
      (houtcome : outcome ≠ .cancelled) (hrecords : Measures.CanRecord p.names) :
      TaskMoves p t (.updateEnds n outcome)
        (p.awaitPhase (p.interval.after p.clock tick p.now)) (p.tally.add .success)
  | succeedsUnrecorded {n tick items outcome} (hphase : t.phase = .updating tick items)
      (houtcome : outcome ≠ .cancelled) (hrecords : ¬ Measures.CanRecord p.names) :
      TaskMoves p t (.updateEnds n outcome) .finished p.tally
  | updateCut {n tick items} (hphase : t.phase = .updating tick items)
      (hcancel : t.cancelled = true) :
      TaskMoves p t (.updateEnds n .cancelled) .finished p.tally

/-- The first poll that ends ends its task uncounted, where no outcome can be recorded. -/
theorem TaskMoves.finished_of_not_canRecord {p : Poller} {t : PollTask} {a : Action} {phase : Phase}
    {tally : Tally} (h : TaskMoves p t a phase tally) {n : Nat} (ha : a.endsPollOf n = true)
    (hrecords : ¬ Measures.CanRecord p.names) : phase = .finished ∧ tally = p.tally := by
  cases h with
  | fails _ hcan | succeeds _ _ hcan => exact absurd hcan hrecords
  | failsUnrecorded | succeedsUnrecorded | updateCut => exact ⟨rfl, rfl⟩
  | _ => cases ha

/-- The poller after an action of a task: the phase of the task and the tally are new. -/
def moved (p : Poller) (n : Nat) (phase : Phase) (tally : Tally) : Poller :=
  { p.moveTask n phase with tally }

/-- The end of a poll whose outcome is recorded. -/
theorem endPoll_eq_of_canRecord {p : Poller} (h : Measures.CanRecord p.names) (n : Nat) (tick : Rat)
    (outcome : PollOutcome) :
    p.endPoll n tick outcome =
      p.moved n (p.awaitPhase (p.interval.after p.clock tick p.now)) (p.tally.add outcome) := by
  unfold endPoll
  rw [if_pos h, awaitTick_eq]
  rfl

/-- The end of a poll whose outcome cannot be recorded. -/
theorem endPoll_eq_of_not_canRecord {p : Poller} (h : ¬ Measures.CanRecord p.names) (n : Nat)
    (tick : Rat) (outcome : PollOutcome) :
    p.endPoll n tick outcome = p.moved n .finished p.tally := by
  unfold endPoll
  rw [if_neg h]
  rfl

theorem begin?_eq_some {p q : Poller} {n : Nat} (h : p.begin? n = some q) :
    ∃ t phase tally, p.tasks[n]? = some t ∧ TaskMoves p t (.begin n) phase tally ∧
      q = p.moved n phase tally := by
  unfold begin? at h
  split at h
  next signalled cancelled ht =>
    split at h
    next hend =>
      simp only [Bool.or_eq_true, Bool.not_eq_true'] at hend
      exact ⟨_, _, _, ht, .neverRuns rfl hend, (Option.some.inj h).symm⟩
    next hend =>
      simp only [Bool.or_eq_true, Bool.not_eq_true', not_or, Bool.not_eq_true,
        Bool.not_eq_false] at hend
      rw [awaitTick_eq] at h
      exact ⟨_, _, _, ht, .begins rfl hend.1 hend.2, (Option.some.inj h).symm⟩
  next => simp at h

theorem wake?_eq_some {p q : Poller} {n : Nat} (h : p.wake? n = some q) :
    ∃ t phase tally, p.tasks[n]? = some t ∧ TaskMoves p t (.wake n) phase tally ∧
      q = p.moved n phase tally := by
  unfold wake? at h
  split at h
  next wait signalled cancelled ht =>
    split at h
    next hend =>
      simp only [Bool.or_eq_true] at hend
      exact ⟨_, _, _, ht, .leaves rfl hend, (Option.some.inj h).symm⟩
    next hend =>
      simp only [Bool.or_eq_true, not_or, Bool.not_eq_true] at hend
      cases wait with
      | none => simp at h
      | some w =>
        simp only [Option.ite_none_right_eq_some] at h
        exact ⟨_, _, _, ht, .polls rfl hend.1 hend.2 h.1, (Option.some.inj h.2).symm⟩
  next => simp at h

theorem fetchEnds?_eq_some {p q : Poller} {n : Nat} {outcome : FetchOutcome}
    (h : p.fetchEnds? n outcome = some q) :
    ∃ t phase tally, p.tasks[n]? = some t ∧ TaskMoves p t (.fetchEnds n outcome) phase tally ∧
      q = p.moved n phase tally := by
  unfold fetchEnds? at h
  split at h
  next tick signalled cancelled ht =>
    cases outcome with
    | returned items => exact ⟨_, _, _, ht, .updates items rfl, (Option.some.inj h).symm⟩
    | failed =>
      have hq := (Option.some.inj h).symm
      by_cases hrecords : Measures.CanRecord p.names
      · rw [endPoll_eq_of_canRecord hrecords] at hq
        exact ⟨_, _, _, ht, .fails rfl hrecords, hq⟩
      · rw [endPoll_eq_of_not_canRecord hrecords] at hq
        exact ⟨_, _, _, ht, .failsUnrecorded rfl hrecords, hq⟩
    | cancelled =>
      simp only [Option.ite_none_right_eq_some] at h
      exact ⟨_, _, _, ht, .fetchCut rfl h.1, (Option.some.inj h.2).symm⟩
  next => simp at h

theorem updateEnds?_eq_some {p q : Poller} {n : Nat} {outcome : UpdateOutcome}
    (h : p.updateEnds? n outcome = some q) :
    ∃ t phase tally, p.tasks[n]? = some t ∧ TaskMoves p t (.updateEnds n outcome) phase tally ∧
      q = p.moved n phase tally := by
  unfold updateEnds? at h
  split at h
  next tick items signalled cancelled ht =>
    cases outcome with
    | cancelled =>
      simp only [Option.ite_none_right_eq_some] at h
      exact ⟨_, _, _, ht, .updateCut rfl h.1, (Option.some.inj h.2).symm⟩
    | returned | failed =>
      have hq := (Option.some.inj h).symm
      by_cases hrecords : Measures.CanRecord p.names
      · rw [endPoll_eq_of_canRecord hrecords] at hq
        exact ⟨_, _, _, ht, .succeeds rfl (by simp) hrecords, hq⟩
      · rw [endPoll_eq_of_not_canRecord hrecords] at hq
        exact ⟨_, _, _, ht, .succeedsUnrecorded rfl (by simp) hrecords, hq⟩
  next => simp at h

/-- An action of a task changes its phase and the tally, and nothing else. -/
theorem taskStep_cases {p q : Poller} {a : Action} {n : Nat} (hn : a.task? = some n)
    (h : p.step? a = some q) :
    ∃ t phase tally, p.tasks[n]? = some t ∧ TaskMoves p t a phase tally ∧
      q = p.moved n phase tally := by
  cases a with
  | begin m => cases hn; exact begin?_eq_some h
  | wake m => cases hn; exact wake?_eq_some h
  | fetchEnds m outcome => cases hn; exact fetchEnds?_eq_some h
  | updateEnds m outcome => cases hn; exact updateEnds?_eq_some h
  | _ => cases hn

/-! ## Every step -/

/-- What a stop leaves alone: the interval, the clock, the names, the tally and the time. -/
theorem stop_frame (p : Poller) (caller : Option Nat) :
    ∃ flag task signal tasks stops,
      (p.stop caller).1 = { p with flag, task, signal, tasks, stops } := by
  have hgive : ∀ q : Poller, ∃ signal tasks, q.giveSignal = { q with signal, tasks } := by
    intro q
    unfold giveSignal
    split <;> exact ⟨_, _, rfl⟩
  unfold stop PollerState.compareAndSwap
  by_cases hflag : p.flag = .running
  · obtain ⟨signal, tasks, hgiven⟩ := hgive { p with flag := .transitioning, task := none }
    simp only [hflag, if_true, hgiven]
    cases p.task with
    | none => exact ⟨_, _, _, _, _, rfl⟩
    | some n =>
      by_cases hcaller : caller = some n
      · simp only [if_pos hcaller]
        exact ⟨_, _, _, _, _, rfl⟩
      · simp only [if_neg hcaller]
        exact ⟨_, _, _, _, _, rfl⟩
  · simp only [if_neg hflag]
    exact ⟨_, _, _, _, _, rfl⟩

/-- What a step does that is no step of a task. -/
inductive Calls (p : Poller) : Action → Poller → Prop where
  | passes {span} (hspan : 0 ≤ span) : Calls p (.pass span) (p.pass span)
  | starts (hflag : p.flag = .stopped) : Calls p .start p.started
  | startRefused (hflag : p.flag ≠ .stopped) : Calls p .start p
  | startFails : Calls p .startUnscheduled p
  | stops {caller} (hcaller : caller.all p.canCall = true) :
      Calls p (.stop caller) (p.stop caller).1
  | stopReturns {i n} (hi : p.stops[i]? = some n) (hfinished : p.isFinished n = true) :
      Calls p (.stopReturns i) { p with flag := .stopped, stops := p.stops.eraseIdx i }
  | stopCancelled {i n} (hi : p.stops[i]? = some n) :
      Calls p (.stopCancelled i) { p with flag := .stopped, stops := p.stops.eraseIdx i }

/-- An action that is no step of a task is a call, the end of one, or time that passes. -/
theorem callStep_cases {p q : Poller} {a : Action} (ha : a.task? = none)
    (h : p.step? a = some q) : Calls p a q := by
  cases a with
  | pass span =>
    simp only [step?, Option.ite_none_right_eq_some, Option.some.injEq] at h
    obtain ⟨hspan, rfl⟩ := h
    exact .passes hspan
  | start =>
    simp only [step?, start_eq, Option.some.injEq] at h
    subst h
    by_cases hflag : p.flag = .stopped
    · rw [if_pos hflag]
      exact .starts hflag
    · rw [if_neg hflag]
      exact .startRefused hflag
  | startUnscheduled =>
    simp only [step?, startUnscheduled_eq, Option.some.injEq] at h
    exact h ▸ .startFails
  | stop caller =>
    simp only [step?, Option.ite_none_right_eq_some, Option.some.injEq] at h
    obtain ⟨hcaller, rfl⟩ := h
    exact .stops hcaller
  | stopReturns i =>
    obtain ⟨n, hi, hfinished, rfl⟩ := stopReturns?_eq_some_iff.1 h
    exact .stopReturns hi hfinished
  | stopCancelled i =>
    obtain ⟨n, hi, rfl⟩ := stopCancelled?_eq_some_iff.1 h
    exact .stopCancelled hi
  | begin n | wake n | fetchEnds n outcome | updateEnds n outcome => cases ha

/-- What a poller is made with: its interval, its clock and the names of its measures. -/
structure SameMake (p q : Poller) : Prop where
  interval : q.interval = p.interval
  clock : q.clock = p.clock
  names : q.names = p.names

/-- A stop changes nothing of what the poller was made with. -/
theorem sameMake_stop (p : Poller) (caller : Option Nat) : SameMake p (p.stop caller).1 := by
  obtain ⟨flag, task, signal, tasks, stops, hstop⟩ := p.stop_frame caller
  rw [hstop]
  exact ⟨rfl, rfl, rfl⟩

/-- No step changes what the poller was made with. -/
theorem sameMake_step {p q : Poller} {a : Action} (h : p.step? a = some q) : SameMake p q := by
  cases ha : a.task? with
  | none =>
    cases callStep_cases ha h with
    | stops => exact p.sameMake_stop _
    | _ => exact ⟨rfl, rfl, rfl⟩
  | some n =>
    obtain ⟨t, phase, tally, -, -, rfl⟩ := taskStep_cases ha h
    exact ⟨rfl, rfl, rfl⟩

theorem SameMake.trans {p q r : Poller} (hpq : SameMake p q) (hqr : SameMake q r) :
    SameMake p r where
  interval := hqr.interval.trans hpq.interval
  clock := hqr.clock.trans hpq.clock
  names := hqr.names.trans hpq.names

/-- The tally changes by the steps of tasks only. -/
theorem step_tally {p q : Poller} {a : Action} (ha : a.task? = none) (h : p.step? a = some q) :
    q.tally = p.tally := by
  cases callStep_cases ha h with
  | stops =>
    obtain ⟨flag, task, signal, tasks, stops, hstop⟩ := p.stop_frame _
    rw [hstop]
  | _ => rfl

/-- No time passes in a step of a task. -/
theorem now_of_task {p q : Poller} {a : Action} {n : Nat} (ha : a.task? = some n)
    (h : p.step? a = some q) : q.now = p.now := by
  obtain ⟨t, phase, tally, -, -, rfl⟩ := taskStep_cases ha h
  rfl

/-- Time passes in no step but those that let it pass. -/
theorem step_now {p q : Poller} {a : Action} (h : p.step? a = some q) :
    q.now = p.now ∨ ∃ span, a = .pass span ∧ 0 ≤ span ∧ q.now = p.now + span := by
  cases ha : a.task? with
  | some n => exact .inl (now_of_task ha h)
  | none =>
    cases callStep_cases ha h with
    | passes hspan => exact .inr ⟨_, rfl, hspan, rfl⟩
    | stops =>
      obtain ⟨flag, task, signal, tasks, stops, hstop⟩ := p.stop_frame _
      rw [hstop]
      exact .inl rfl
    | _ => exact .inl rfl

/-! ## Runs -/

@[simp] theorem run?_nil (p : Poller) : p.run? [] = some p :=
  rfl

theorem run?_cons (p : Poller) (a : Action) (actions : List Action) :
    p.run? (a :: actions) = (p.step? a).bind fun q => q.run? actions := by
  unfold run?
  rw [List.foldlM_cons]
  rfl

/-- A run of one action and more passes through the state after the first action. -/
theorem run?_cons_eq_some {p r : Poller} {a : Action} {actions : List Action} :
    p.run? (a :: actions) = some r ↔ ∃ q, p.step? a = some q ∧ q.run? actions = some r := by
  rw [run?_cons, Option.bind_eq_some_iff]

/-- What every step keeps, a run keeps. -/
theorem run_invariant {I : Poller → Prop}
    (hstep : ∀ {p q : Poller} {a : Action}, I p → p.step? a = some q → I q)
    {p q : Poller} {actions : List Action} (hp : I p) (h : p.run? actions = some q) : I q :=
  foldlM_invariant I (fun _ _ _ _ hs hnext => hstep hs hnext) h hp

theorem sameMake_run {p q : Poller} {actions : List Action} (h : p.run? actions = some q) :
    SameMake p q :=
  run_invariant (I := SameMake p) (fun hr hstep => hr.trans (sameMake_step hstep))
    ⟨rfl, rfl, rfl⟩ h

end Poller

end HookRegistry
