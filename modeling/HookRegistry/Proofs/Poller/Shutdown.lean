import HookRegistry.Proofs.Poller.Custody
import HookRegistry.Proofs.Poller.Ticks

/-!
# A stopped task starts no further poll

A task that has been given its shutdown signal can still complete the poll that it is in, whatever
the reader and the listener make of the cancellation, and ends at its next wait.  `Phase.stepsLeft`
counts the steps that it can take at most.  `TaskMoves.stepsLeft_lt` says that each of them brings
the count down and that none begins a fetch; it rests on `awaitPhase_next` and `awaitPhase_after`,
since a task that did not have to wait for its next tick would miss the signal.
`Stopping.run` carries the count along a run.
-/

namespace HookRegistry

/-- The number of steps that a task can take at most once it has been signalled. -/
def Phase.stepsLeft : Phase → Nat
  | .fetching _ => 3
  | .updating _ _ => 2
  | .created => 2
  | .waiting _ => 1
  | .finished => 0

/-- The number of polls that a task can complete at most once it has been signalled: the one that
it is in. -/
def Phase.pollsLeft : Phase → Nat
  | .fetching _ | .updating _ _ => 1
  | _ => 0

namespace Poller

/-- Whether an action is a step of a task. -/
def Action.isOf (n : Nat) (a : Action) : Bool :=
  a.task? == some n

/-- An action of a task after which the task is inside the reader. -/
def BeginsFetch (p : Poller) (n : Nat) (a : Action) : Prop :=
  a.task? = some n ∧
    ∃ q t tick, p.step? a = some q ∧ q.tasks[n]? = some t ∧ t.phase = .fetching tick

/-- The moment after a stop, and every later one, for a task: it has its signal, and times are
exact. -/
structure Stopping (p : Poller) (n : Nat) (t : PollTask) : Prop where
  custody : p.Custody
  exact_clock : p.clock = .exact
  task_eq : p.tasks[n]? = some t
  signalled : t.signalled = true

/-! ## One step -/

/-- A step of a signalled task brings it closer to its end and begins no fetch. -/
theorem TaskMoves.stepsLeft_lt {p : Poller} {t : PollTask} {a : Action} {phase : Phase}
    {tally : Tally} (h : TaskMoves p t a phase tally) (hclock : p.clock = .exact)
    (hsignal : t.signalled = true) :
    phase.stepsLeft < t.phase.stepsLeft ∧ ∀ tick, phase ≠ .fetching tick := by
  cases h with
  | neverRuns hphase => simp [hphase, Phase.stepsLeft]
  | begins hphase =>
    obtain ⟨wait, hwait⟩ := awaitPhase_next hclock
    simp [hphase, hwait, Phase.stepsLeft]
  | leaves hphase => simp [hphase, Phase.stepsLeft]
  | polls _ _ hfalse => simp [hsignal] at hfalse
  | updates items hphase => simp [hphase, Phase.stepsLeft]
  | @fails _ tick hphase =>
    obtain ⟨wait, hwait⟩ := awaitPhase_after hclock tick
    simp [hphase, hwait, Phase.stepsLeft]
  | failsUnrecorded hphase | succeedsUnrecorded hphase => simp [hphase, Phase.stepsLeft]
  | fetchCut hphase => simp [hphase, Phase.stepsLeft]
  | @succeeds _ tick _ _ hphase =>
    obtain ⟨wait, hwait⟩ := awaitPhase_after hclock tick
    simp [hphase, hwait, Phase.stepsLeft]
  | updateCut hphase => simp [hphase, Phase.stepsLeft]

/-- A signalled task is inside a poll only when it was before, and not after the end of one. -/
theorem TaskMoves.pollsLeft_le {p : Poller} {t : PollTask} {a : Action} {phase : Phase}
    {tally : Tally} (h : TaskMoves p t a phase tally) (hclock : p.clock = .exact)
    (hsignal : t.signalled = true) (n : Nat) :
    (if a.endsPollOf n then 1 else 0) + phase.pollsLeft ≤ t.phase.pollsLeft := by
  cases h with
  | neverRuns hphase => simp [hphase, Phase.pollsLeft, Action.endsPollOf]
  | begins hphase =>
    obtain ⟨wait, hwait⟩ := awaitPhase_next hclock
    simp [hphase, hwait, Phase.pollsLeft, Action.endsPollOf]
  | leaves hphase => simp [hphase, Phase.pollsLeft, Action.endsPollOf]
  | polls _ _ hfalse => simp [hsignal] at hfalse
  | updates items hphase => simp [hphase, Phase.pollsLeft, Action.endsPollOf]
  | @fails _ tick hphase =>
    obtain ⟨wait, hwait⟩ := awaitPhase_after hclock tick
    simp only [hphase, hwait, Phase.pollsLeft]
    split <;> omega
  | fetchCut hphase => simp [hphase, Phase.pollsLeft, Action.endsPollOf]
  | @succeeds _ tick _ _ hphase =>
    obtain ⟨wait, hwait⟩ := awaitPhase_after hclock tick
    simp only [hphase, hwait, Phase.pollsLeft]
    split <;> omega
  | updateCut hphase | failsUnrecorded hphase | succeedsUnrecorded hphase =>
    simp only [hphase, Phase.pollsLeft]
    split <;> omega

/-- A step of something else leaves a signalled task in its phase. -/
theorem Stopping.other {p q : Poller} {a : Action} {n : Nat} {t : PollTask}
    (hp : p.Stopping n t) (ha : a.task? ≠ some n) (h : p.step? a = some q) :
    ∃ u, q.Stopping n u ∧ u.phase = t.phase := by
  have hclock : q.clock = .exact := by rw [(sameMake_step h).clock, hp.exact_clock]
  have hq : q.Custody := hp.custody.step h
  have hsame : q.tasks[n]? = p.tasks[n]? → ∃ u, q.Stopping n u ∧ u.phase = t.phase :=
    fun htasks => ⟨t, ⟨hq, hclock, by rw [htasks, hp.task_eq], hp.signalled⟩, rfl⟩
  cases hother : a.task? with
  | none =>
    cases callStep_cases hother h with
    | passes | startRefused | startFails | stopReturns | stopCancelled => exact hsame rfl
    | starts =>
      exact hsame (List.getElem?_append_left (List.getElem?_eq_some_iff.1 hp.task_eq).1)
    | @stops caller _ =>
      apply hsame
      by_cases hflag : p.flag = .running
      · -- the task that the stop takes away has no signal yet, so it is another one
        obtain ⟨m, u, htask, hsignal, hu, hpolls, -⟩ := hp.custody.running hflag
        have hm : m ≠ n := by
          rintro rfl
          rw [hp.task_eq] at hu
          cases hu
          have hfalse := hpolls.not_signalled
          rw [hp.signalled] at hfalse
          cases hfalse
        rw [stop_eq_of_running caller hflag htask hsignal]
        by_cases hcaller : caller = some m
        · simp [hcaller, signalTask, hm]
        · simp [hcaller, cancelTask, hm]
      · rw [stop_eq_of_not_running caller hflag]
  | some m =>
    obtain ⟨u, phase, tally, -, -, rfl⟩ := taskStep_cases hother h
    have hm : m ≠ n := by
      rintro rfl
      exact ha hother
    apply hsame
    show (p.tasks.modify m _)[n]? = p.tasks[n]?
    simp [hm]

/-- A step of a signalled task itself. -/
theorem Stopping.own {p q : Poller} {a : Action} {n : Nat} {t : PollTask}
    (hp : p.Stopping n t) (ha : a.task? = some n) (h : p.step? a = some q) :
    ∃ phase tally, TaskMoves p t a phase tally ∧ q.Stopping n { t with phase } := by
  obtain ⟨u, phase, tally, hu, hmoves, rfl⟩ := taskStep_cases ha h
  rw [hp.task_eq] at hu
  cases hu
  exact ⟨phase, tally, hmoves, hp.custody.step h, hp.exact_clock, task_moveTask hp.task_eq phase,
    hp.signalled⟩

/-- A signalled task begins no fetch. -/
theorem Stopping.not_beginsFetch {p : Poller} {n : Nat} {t : PollTask} (hp : p.Stopping n t)
    (a : Action) : ¬ p.BeginsFetch n a := by
  rintro ⟨ha, q, u, tick, h, hu, hphase⟩
  obtain ⟨phase, tally, hmoves, hq⟩ := hp.own ha h
  rw [hq.task_eq] at hu
  cases hu
  exact (hmoves.stepsLeft_lt hp.exact_clock hp.signalled).2 tick hphase

/-- A task that has ended does nothing any more. -/
theorem step?_eq_none_of_finished {p : Poller} {n : Nat} (hp : p.isFinished n = true) {a : Action}
    (ha : a.task? = some n) : p.step? a = none := by
  obtain ⟨t, ht, hphase⟩ := isFinished_iff.1 hp
  cases h : p.step? a with
  | none => rfl
  | some q =>
    obtain ⟨u, phase, tally, hu, hmoves, -⟩ := taskStep_cases ha h
    rw [ht] at hu
    cases hu
    cases hmoves <;> simp_all

/-- A signalled task that has not ended can go on: into its end where it has not run or waits, and
out of the reader or the listener as soon as these return or fail. -/
theorem Stopping.progress {p : Poller} {n : Nat} {t : PollTask} (hp : p.Stopping n t)
    (hphase : t.phase ≠ .finished) : ∃ a q, a.task? = some n ∧ p.step? a = some q := by
  obtain ⟨phase, signalled, cancelled⟩ := t
  cases phase with
  | created =>
    refine ⟨.begin n, ?_⟩
    simp only [step?, begin?, hp.task_eq]
    split <;> exact ⟨_, rfl, rfl⟩
  | waiting wait =>
    refine ⟨.wake n, ?_⟩
    have hsignal : signalled = true := hp.signalled
    simp only [step?, wake?, hp.task_eq, hsignal, Bool.or_true, if_true]
    exact ⟨_, rfl, rfl⟩
  | fetching tick =>
    refine ⟨.fetchEnds n .failed, ?_⟩
    simp only [step?, fetchEnds?, hp.task_eq]
    exact ⟨_, rfl, rfl⟩
  | updating tick items =>
    refine ⟨.updateEnds n .failed, ?_⟩
    simp only [step?, updateEnds?, hp.task_eq]
    exact ⟨_, rfl, rfl⟩
  | finished => exact absurd rfl hphase

/-! ## A run -/

theorem Action.isOf_iff {n : Nat} {a : Action} : a.isOf n = true ↔ a.task? = some n := by
  simp [isOf]

/-- A run after a stop: the steps that the task takes come out of those it had left, and the polls
that it ends likewise. -/
theorem Stopping.run {p r : Poller} {n : Nat} {t : PollTask} {actions : List Action}
    (hp : p.Stopping n t) (h : p.run? actions = some r) :
    ∃ u, r.Stopping n u ∧
      actions.countP (Action.isOf n) + u.phase.stepsLeft ≤ t.phase.stepsLeft ∧
      actions.countP (Action.endsPollOf n) + u.phase.pollsLeft ≤ t.phase.pollsLeft := by
  induction actions generalizing p t with
  | nil =>
    rw [run?_nil] at h
    cases h
    exact ⟨t, hp, by simp, by simp⟩
  | cons a actions ih =>
    obtain ⟨q, hq, hrest⟩ := run?_cons_eq_some.1 h
    rw [List.countP_cons, List.countP_cons]
    by_cases ha : a.task? = some n
    · obtain ⟨phase, tally, hmoves, hnext⟩ := hp.own ha hq
      obtain ⟨u, hu, hsteps, hpolls⟩ := ih hnext hrest
      have hless := (hmoves.stepsLeft_lt hp.exact_clock hp.signalled).1
      have hended := hmoves.pollsLeft_le hp.exact_clock hp.signalled n
      refine ⟨u, hu, ?_, ?_⟩
      · rw [if_pos (Action.isOf_iff.2 ha)]
        simp only at hsteps
        omega
      · simp only at hpolls
        omega
    · obtain ⟨v, hv, hsame⟩ := hp.other ha hq
      obtain ⟨u, hu, hsteps, hpolls⟩ := ih hv hrest
      rw [hsame] at hsteps hpolls
      refine ⟨u, hu, ?_, ?_⟩
      · rw [if_neg (fun hof => ha (Action.isOf_iff.1 hof))]
        omega
      · rw [if_neg (by simp [Action.endsPollOf_eq_false ha])]
        omega

/-- A task that has ended has ended for good. -/
theorem Stopping.isFinished_run {p r : Poller} {n : Nat} {t : PollTask} {actions : List Action}
    (hp : p.Stopping n t) (hphase : t.phase = .finished) (h : p.run? actions = some r) :
    r.isFinished n = true := by
  obtain ⟨u, hu, hsteps, -⟩ := hp.run h
  rw [hphase] at hsteps
  have hnone : u.phase.stepsLeft = 0 := by
    simp only [Phase.stepsLeft] at hsteps ⊢
    omega
  refine isFinished_iff.2 ⟨u, hu.task_eq, ?_⟩
  cases hu' : u.phase with
  | finished => rfl
  | _ => simp [hu', Phase.stepsLeft] at hnone

/-- An accepted stop leaves its task signalled. -/
theorem Custody.stopping {p : Poller} (hp : p.Custody) (hclock : p.clock = .exact)
    (hflag : p.flag = .running) (caller : Option Nat) :
    ∃ n t, p.task = some n ∧ (p.stop caller).1.Stopping n t ∧
      (p.stop caller).2 = if caller = some n then .finished else .waits n := by
  obtain ⟨n, t, htask, hsignal, ht, -, -⟩ := hp.running hflag
  have hexact : (p.stop caller).1.clock = .exact := by rw [(p.sameMake_stop caller).clock, hclock]
  have hcustody := hp.stop caller
  rw [stop_eq_of_running caller hflag htask hsignal] at hcustody hexact ⊢
  by_cases hcaller : caller = some n
  · simp only [if_pos hcaller] at hcustody hexact ⊢
    refine ⟨n, { t with signalled := true }, htask, ⟨hcustody, hexact, ?_, rfl⟩,
      (if_pos hcaller).symm⟩
    simp [signalTask, ht]
  · simp only [if_neg hcaller] at hcustody hexact ⊢
    refine ⟨n, { t with signalled := true, cancelled := true }, htask,
      ⟨hcustody, hexact, ?_, rfl⟩, (if_neg hcaller).symm⟩
    simp [cancelTask, ht]

/-- On exact times, whatever happened before a stop that is accepted and wherever its task stands
then, and whatever happens afterwards: the task begins no fetch; it takes at most three more steps,
ends at most one poll, and until it has ended it can go on; and when the stop was called from
elsewhere, it waits for the task, and once it has returned the task has ended for good and does
nothing any more. -/
theorem stopped_task_ends {interval : Interval} {names : MetricNames} {now : Rat}
    {before : List Action} {p : Poller} {caller : Option Nat}
    (h : (fresh interval .exact names now).run? before = some p)
    (hstop : p.accepted? (.stop caller) = some .stop) :
    ∃ n, p.task = some n ∧
      ∀ after r, (p.stop caller).1.run? after = some r →
        (∀ a, ¬ r.BeginsFetch n a) ∧
        after.countP (Action.isOf n) ≤ 3 ∧
        after.countP (Action.endsPollOf n) ≤ 1 ∧
        (r.isFinished n = true ∨ ∃ a q, a.task? = some n ∧ r.step? a = some q) ∧
        (caller ≠ some n →
          (p.stop caller).2 = .waits n ∧
          ∀ i q, r.stops[i]? = some n → r.stopReturns? i = some q →
            ∀ later s, q.run? later = some s →
              s.isFinished n = true ∧ ∀ a, a.task? = some n → s.step? a = none) := by
  have hp : p.Custody := run_custody h
  have hclock : p.clock = .exact := (sameMake_run h).clock
  have hflag : p.flag = .running := by
    rw [hp.accepted?_stop] at hstop
    simpa using hstop
  obtain ⟨n, t, htask, hstopping, houtcome⟩ := hp.stopping hclock hflag caller
  refine ⟨n, htask, ?_⟩
  intro after r hr
  obtain ⟨u, hu, hsteps, hpolls⟩ := hstopping.run hr
  refine ⟨hu.not_beginsFetch, ?_, ?_, ?_, fun hcaller => ⟨by rw [houtcome, if_neg hcaller], ?_⟩⟩
  · have : t.phase.stepsLeft ≤ 3 := by cases t.phase <;> simp [Phase.stepsLeft]
    omega
  · have : t.phase.pollsLeft ≤ 1 := by cases t.phase <;> simp [Phase.pollsLeft]
    omega
  · by_cases hphase : u.phase = .finished
    · exact Or.inl (isFinished_iff.2 ⟨u, hu.task_eq, hphase⟩)
    · exact Or.inr (hu.progress hphase)
  · intro i q hi hreturn later s hs
    obtain ⟨m, hm, hfinished, rfl⟩ := stopReturns?_eq_some_iff.1 hreturn
    rw [hi] at hm
    cases hm
    obtain ⟨v, hv, hphase⟩ := isFinished_iff.1 hfinished
    rw [hu.task_eq] at hv
    cases hv
    have hq : Stopping { r with flag := .stopped, stops := r.stops.eraseIdx i } n u :=
      ⟨hu.custody.stopEnds hi, hu.exact_clock, hu.task_eq, hu.signalled⟩
    have hend := hq.isFinished_run hphase hs
    exact ⟨hend, fun a => step?_eq_none_of_finished hend⟩

/-- A stop from outside while the reader is at work: the reader swallows the cancellation and gives
items a minute later, the listener fails, and still no other fetch begins. -/
theorem stopped_task_ends_lingering :
    ∃ p r, (fresh .standard .exact {} 0).run? [.start, .begin 0, .pass 5, .wake 0] = some p ∧
      p.accepted? (.stop none) = some .stop ∧
      (p.stop none).1.run?
        [.pass 60, .fetchEnds 0 (.returned [{ id := "a" }]), .updateEnds 0 .failed] = some r ∧
      r.tally = ⟨1, 0⟩ ∧ ∀ a, ¬ r.BeginsFetch 0 a := by
  have hbefore : ((fresh .standard .exact {} 0).run? [.start, .begin 0, .pass 5, .wake 0]).map
      (fun p => (p.accepted? (.stop none), p.task)) = some (some .stop, some 0) := by
    decide +kernel
  obtain ⟨p, hp, hcalls⟩ := Option.map_eq_some_iff.1 hbefore
  have hafter : (((fresh .standard .exact {} 0).run? [.start, .begin 0, .pass 5, .wake 0]).bind
      fun p => (p.stop none).1.run?
        [.pass 60, .fetchEnds 0 (.returned [{ id := "a" }]), .updateEnds 0 .failed]).map
      tally = some ⟨1, 0⟩ := by
    decide +kernel
  rw [hp, Option.bind_some] at hafter
  obtain ⟨r, hr, htally⟩ := Option.map_eq_some_iff.1 hafter
  rw [Prod.mk.injEq] at hcalls
  have haccepted : p.accepted? (.stop none) = some .stop := hcalls.1
  obtain ⟨n, htask, hrun⟩ := stopped_task_ends hp haccepted
  rw [hcalls.2] at htask
  cases htask
  exact ⟨p, r, hp, haccepted, hr, htally, (hrun _ r hr).1⟩

end Poller

end HookRegistry
