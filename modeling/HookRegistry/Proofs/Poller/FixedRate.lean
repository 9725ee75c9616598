import HookRegistry.Proofs.Poller.Grid
import HookRegistry.Proofs.Poller.Interval

/-!
# Polls at a fixed rate

The polls of a poller that is given any span but infinity: they are on the grid of a positive
interval through the moment at which its task begins, `polls_on_grid`.

A poll may begin later than its tick when nobody runs the task in time, and it begins just at its
tick when time never passes a moment for which the task waits: `start_eq_of_punctual`.  Polls of any
durations do take place, `AwaitsTick.exists_legs`.
-/

namespace HookRegistry

namespace Poller

variable {p q : Poller} {n : Nat} {i : Rat} {hi : 0 < i}

/-! ## Punctual runs -/

/-- Time does not pass a moment for which the task waits. -/
def Punctual (p : Poller) (n : Nat) : List Action → Prop
  | [] => True
  | a :: actions =>
    (∀ span w, a = .pass span → p.phase? n = some (.waiting (some w)) → p.now + span ≤ w.due) ∧
      ∀ q, p.step? a = some q → q.Punctual n actions

/-- A task that waits does so until just its tick, which has not passed. -/
def InTime (p : Poller) (n : Nat) : Prop :=
  ∀ w, p.phase? n = some (.waiting (some w)) → w.due = w.tick ∧ p.now ≤ w.due

theorem InTime.step {a : Action} {actions : List Action} (h : p.InTime n)
    (hclock : p.clock = .exact) (hinterval : p.interval = .every i hi)
    (hpunctual : p.Punctual n (a :: actions)) (hstep : p.step? a = some q) : q.InTime n := by
  intro w hw
  by_cases ha : a.task? = some n
  · obtain ⟨before, after, -, hafter, hstrikes⟩ := strikes hclock hinterval ha hstep
    rw [hw] at hafter
    cases hafter
    rw [now_of_task ha hstep]
    generalize p.stepBeats n a q = added at hstrikes
    cases hstrikes with
    | begins => exact ⟨rfl, by show p.now ≤ p.now + i; linarith⟩
    | fails hnext | succeeds hnext => exact ⟨rfl, (Interval.lt_after hnext).le⟩
  · rcases Nat.lt_or_ge n p.tasks.length with hlt | hge
    · rw [step_phase?_other ha hlt hstep] at hw
      obtain ⟨hdue, hle⟩ := h w hw
      rcases step_now hstep with hsame | ⟨span, rfl, hspan, hlater⟩
      · exact ⟨hdue, by rw [hsame]; exact hle⟩
      · exact ⟨hdue, by rw [hlater]; exact hpunctual.1 span w rfl hw⟩
    · rcases phase?_of_new hstep hge with hnew | hnew
      · rw [hnew] at hw
        cases hw
      · rw [hnew] at hw
        cases hw

/-- In a punctual run every poll begins just at its tick. -/
theorem start_eq_of_punctual (h : p.InTime n) (hclock : p.clock = .exact)
    (hinterval : p.interval = .every i hi) {actions : List Action}
    (hpunctual : p.Punctual n actions) {time tick : Rat}
    (hmem : Beat.start time tick ∈ p.beats n actions) : time = tick := by
  induction actions generalizing p with
  | nil => cases hmem
  | cons a actions ih =>
    cases hstep : p.step? a with
    | none => simp [beats, hstep] at hmem
    | some q =>
      rw [beats_cons hstep] at hmem
      obtain ⟨hinterval', hclock', -⟩ := sameMake_step hstep
      rcases List.mem_append.1 hmem with hnow | hlater
      · by_cases ha : a.task? = some n
        · obtain ⟨before, after, hbefore, -, hstrikes⟩ := strikes hclock hinterval ha hstep
          generalize p.stepBeats n a q = added at hstrikes hnow
          cases hstrikes with
          | begins | updates | quits => cases hnow
          | fails | succeeds => simp at hnow
          | polls hdue =>
            obtain ⟨htick, hle⟩ := h _ hbefore
            simp only [List.mem_singleton, Beat.start.injEq] at hnow
            rw [hnow.1, hnow.2, ← htick]
            linarith
        · rw [stepBeats_other ha] at hnow
          cases hnow
      · exact ih (h.step hclock hinterval hpunctual hstep) (hclock'.trans hclock)
          (hinterval'.trans hinterval) (hpunctual.2 q hstep) hlater

/-! ## Polls of given durations -/

/-- How long the polls of a record took that have ended. -/
def durations : List Beat → List Rat
  | .start time _ :: .stop stop :: rest => (stop - time) :: durations rest
  | _ => []

/-- A punctual run from one poller to another, with what is written down in it. -/
structure Leg (n : Nat) (p : Poller) (actions : List Action) (written : List Beat) (q : Poller) :
    Prop where
  run : p.run? actions = some q
  beats : ∀ rest, p.beats n (actions ++ rest) = written ++ q.beats n rest
  punctual : ∀ rest, q.Punctual n rest → p.Punctual n (actions ++ rest)

theorem Leg.trans {r : Poller} {actions others : List Action} {written more : List Beat}
    (h : Leg n p actions written q) (h' : Leg n q others more r) :
    Leg n p (actions ++ others) (written ++ more) r := by
  refine ⟨?_, fun rest => ?_, fun rest hrest => ?_⟩
  · have hfirst := h.run
    unfold run? at hfirst ⊢
    rw [List.foldlM_append, hfirst]
    exact h'.run
  · rw [List.append_assoc, h.beats, h'.beats, List.append_assoc]
  · rw [List.append_assoc]
    exact h.punctual _ (h'.punctual rest hrest)

/-- A step that lets no time pass by a tick. -/
theorem leg_step {a : Action} (h : p.step? a = some q)
    (hspan : ∀ span w, a = .pass span → p.phase? n = some (.waiting (some w)) →
      p.now + span ≤ w.due) : Leg n p [a] (p.stepBeats n a q) q := by
  refine ⟨run?_cons_eq_some.2 ⟨q, h, rfl⟩, fun rest => beats_cons h n rest, fun rest hrest => ?_⟩
  refine ⟨hspan, fun r hr => ?_⟩
  rw [h] at hr
  cases hr
  exact hrest

theorem leg_pass {span : Rat} (hspan : 0 ≤ span)
    (hdue : ∀ w, p.phase? n = some (.waiting (some w)) → p.now + span ≤ w.due) :
    Leg n p [.pass span] [] (p.pass span) := by
  have hbeats : p.stepBeats n (.pass span) (p.pass span) = [] :=
    stepBeats_other fun h => by cases h
  rw [← hbeats]
  refine leg_step (if_pos hspan) fun other w hother hw => ?_
  cases hother
  exact hdue w hw

/-- A poll begins when the tick has come. -/
theorem leg_wake {tick : Rat}
    (ht : p.tasks[n]? = some { phase := .waiting (some { tick, due := tick }) })
    (hclock : p.clock = .exact) (hnow : p.now = tick) :
    Leg n p [.wake n] [.start tick tick] (p.moveTask n (.fetching tick)) := by
  have hreached : p.clock.reached tick p.now = true := by
    rw [hclock, Clock.reached_exact, hnow]
  have hstep : p.step? (.wake n) = some (p.moveTask n (.fetching tick)) := by
    simp only [step?, wake?, ht, Bool.or_false, Bool.false_eq_true, if_false]
    exact if_pos hreached
  have hbeats : p.stepBeats n (.wake n) (p.moveTask n (.fetching tick)) = [.start tick tick] := by
    rw [stepBeats_own rfl (phase?_moveTask ht _)]
    show (moveEvents _ p.tally p.tally _).filterMap _ = _
    simp [moveEvents, Action.heard, Phase.asked, beat?, Phase.tick?, hnow]
  rw [← hbeats]
  exact leg_step hstep fun _ _ ha => by cases ha

theorem leg_fetched {tick : Rat} (ht : p.tasks[n]? = some { phase := .fetching tick }) :
    Leg n p [.fetchEnds n (.returned [])] [] (p.moveTask n (.updating tick [])) := by
  have hstep : p.step? (.fetchEnds n (.returned [])) =
      some (p.moveTask n (.updating tick [])) := by
    simp only [step?, fetchEnds?, ht]
  have hbeats : p.stepBeats n (.fetchEnds n (.returned [])) (p.moveTask n (.updating tick [])) =
      [] := by
    rw [stepBeats_own rfl (phase?_moveTask ht _)]
    show (moveEvents _ p.tally p.tally _).filterMap _ = _
    simp [moveEvents, Action.heard, Phase.asked, beat?]
  rw [← hbeats]
  exact leg_step hstep fun _ _ ha => by cases ha

/-- A task that was not stopped waits until just its tick, which has not passed. -/
structure AwaitsTick (p : Poller) (n : Nat) (tick : Rat) : Prop where
  task : p.tasks[n]? = some { phase := .waiting (some { tick, due := tick }) }
  now_le : p.now ≤ tick

/-- A task whose poll has ended waits again. -/
theorem exists_leg_updated {tick : Rat} {items : List Item}
    (ht : p.tasks[n]? = some { phase := .updating tick items }) (hclock : p.clock = .exact)
    (hinterval : p.interval = .every i hi) (hrecords : Measures.CanRecord p.names) :
    ∃ q next, Leg n p [.updateEnds n .returned] [.stop p.now] q ∧ q.AwaitsTick n next := by
  have hstep : p.step? (.updateEnds n .returned) = some (p.endPoll n tick .success) := by
    simp only [step?, updateEnds?, ht]
  generalize p.endPoll n tick .success = q at hstep
  obtain ⟨t, phase, tally, ht', hmoves, hq⟩ := taskStep_cases (n := n) rfl hstep
  rw [ht] at ht'
  cases ht'
  cases hmoves with
  | @succeeds _ tick _ _ hupdating =>
    cases hupdating
    obtain ⟨next, hnext, hwaits⟩ := exists_awaitPhase_after hclock hinterval tick
    rw [hwaits] at hq
    have htask : q.tasks[n]? = some { phase := .waiting (some { tick := next, due := next }) } :=
      hq ▸ task_moveTask ht _
    have hnow : q.now = p.now := by rw [hq]; rfl
    have htally : q.tally = p.tally.add .success := by rw [hq]; rfl
    have hbeats : p.stepBeats n (.updateEnds n .returned) q = [.stop p.now] := by
      rw [stepBeats_own rfl (phase?_eq_some_iff.2 ⟨_, htask, rfl⟩), htally, moveEvents, counted_add]
      rfl
    refine ⟨q, next, ?_, htask, hnow ▸ (Interval.lt_after hnext).le⟩
    rw [← hbeats]
    exact leg_step hstep fun _ _ ha => by cases ha
  | succeedsUnrecorded _ _ hunrecorded => exact absurd hrecords hunrecorded

/-- Time passes until just the tick. -/
theorem AwaitsTick.leg_until {tick : Rat} (h : p.AwaitsTick n tick) :
    Leg n p [.pass (tick - p.now)] [] (p.pass (tick - p.now)) := by
  have hwaiting : p.phase? n = some (.waiting (some { tick, due := tick })) :=
    phase?_eq_some_iff.2 ⟨_, h.task, rfl⟩
  have hle := h.now_le
  refine leg_pass (by linarith) fun w hw => ?_
  rw [hwaiting] at hw
  cases hw
  linarith

/-- Time passes while the reader is at work. -/
theorem leg_fetching {tick span : Rat} (ht : p.tasks[n]? = some { phase := .fetching tick })
    (hspan : 0 ≤ span) : Leg n p [.pass span] [] (p.pass span) := by
  refine leg_pass hspan fun w hw => ?_
  rw [phase?_eq_some_iff.2 ⟨_, ht, rfl⟩] at hw
  cases hw

/-- A task whose poll is under way can end it after any span, and then waits again. -/
theorem exists_leg_fetching {tick span : Rat} (ht : p.tasks[n]? = some { phase := .fetching tick })
    (hclock : p.clock = .exact) (hinterval : p.interval = .every i hi)
    (hrecords : Measures.CanRecord p.names) (hspan : 0 ≤ span) :
    ∃ actions q next, Leg n p actions [.stop (p.now + span)] q ∧ q.AwaitsTick n next := by
  have hlasts := leg_fetching ht hspan
  have hfetched := leg_fetched (p := p.pass span) ht
  have hupdating := task_moveTask (p := p.pass span) ht (.updating tick [])
  obtain ⟨q, next, hends, hawaits⟩ := exists_leg_updated hupdating hclock hinterval hrecords
  exact ⟨_, q, next, hlasts.trans (hfetched.trans hends), hawaits⟩

/-- A task that waits for its tick can do a poll of any duration, in time, and then waits again. -/
theorem AwaitsTick.exists_leg {tick span : Rat} (h : p.AwaitsTick n tick)
    (hclock : p.clock = .exact) (hinterval : p.interval = .every i hi)
    (hrecords : Measures.CanRecord p.names) (hspan : 0 ≤ span) :
    ∃ actions q next, Leg n p actions [.start tick tick, .stop (tick + span)] q ∧
      q.AwaitsTick n next := by
  have hcomes := h.leg_until
  have hnow : (p.pass (tick - p.now)).now = tick := by
    show p.now + (tick - p.now) = tick
    ring
  have hbegins := leg_wake (p := p.pass (tick - p.now)) h.task hclock hnow
  have hfetching := task_moveTask (p := p.pass (tick - p.now)) h.task (.fetching tick)
  obtain ⟨actions, q, next, hends, hawaits⟩ :=
    exists_leg_fetching hfetching hclock hinterval hrecords hspan
  have hstart : ((p.pass (tick - p.now)).moveTask n (.fetching tick)).now = tick := hnow
  rw [hstart] at hends
  exact ⟨_, q, next, hcomes.trans (hbegins.trans hends), hawaits⟩

/-- So it can do polls of any durations, one after the other. -/
theorem AwaitsTick.exists_legs {tick : Rat} (h : p.AwaitsTick n tick)
    (hclock : p.clock = .exact) (hinterval : p.interval = .every i hi)
    (hrecords : Measures.CanRecord p.names) {spans : List Rat}
    (hspans : ∀ span ∈ spans, 0 ≤ span) :
    ∃ actions written q, Leg n p actions written q ∧ durations written = spans := by
  induction spans generalizing p tick with
  | nil => exact ⟨[], [], p, ⟨rfl, fun _ => rfl, fun _ hrest => hrest⟩, rfl⟩
  | cons span spans ih =>
    obtain ⟨hspan, hrest⟩ := List.forall_mem_cons.1 hspans
    obtain ⟨first, q, next, hleg, hq⟩ := h.exists_leg hclock hinterval hrecords hspan
    obtain ⟨hinterval', hclock', hnames'⟩ := sameMake_run hleg.run
    obtain ⟨others, more, r, hlegs, hdurations⟩ :=
      ih hq (hclock'.trans hclock) (hinterval'.trans hinterval) (hnames' ▸ hrecords) hrest
    refine ⟨_, _, r, hleg.trans hlegs, ?_⟩
    simp only [List.cons_append, List.nil_append, durations, hdurations, add_sub_cancel_left]

/-! ## The polls of a poller -/

/-- A task that begins waits for the tick one interval later, unless it was cancelled before. -/
theorem begin_cases (hclock : p.clock = .exact) (hinterval : p.interval = .every i hi)
    (hbegin : p.step? (.begin n) = some q) :
    ∃ t, p.tasks[n]? = some t ∧
      ((t.cancelled = true ∧ q.phase? n = some .finished) ∨
        q.tasks[n]? = some { t with phase := .waiting (some ⟨p.now + i, p.now + i⟩) }) := by
  obtain ⟨t, phase, tally, ht, hmoves, rfl⟩ := taskStep_cases (a := .begin n) rfl hbegin
  refine ⟨t, ht, ?_⟩
  cases hmoves with
  | neverRuns _ hend =>
    have hfits : p.intervalFits = true := intervalFits_iff.2 (by simp [hinterval])
    rw [hfits] at hend
    exact .inl ⟨hend.resolve_right (by simp), phase?_moveTask ht .finished⟩
  | begins =>
    rw [awaitPhase_first hclock hinterval]
    exact .inr (task_moveTask ht _)

/-- The polls of a task are on the grid through the moment at which it begins. -/
theorem onGrid_of_begin (hclock : p.clock = .exact) (hinterval : p.interval = .every i hi)
    (hbegin : p.step? (.begin n) = some q) (actions : List Action) :
    OnGrid p.now i 1 (q.beats n actions) := by
  obtain ⟨hinterval', hclock', -⟩ := sameMake_step hbegin
  have hrun {phase : Phase} (hphase : q.phase? n = some phase)
      (hstands : Stands p.now i q.now 1 phase []) : OnGrid p.now i 1 (q.beats n actions) :=
    hstands.run (hclock'.trans hclock) (hinterval'.trans hinterval) hphase actions
  have hone : p.now + i = p.now + (1 : Int) * i := by
    push_cast
    ring
  obtain ⟨t, -, ⟨-, hfinished⟩ | hwaits⟩ := begin_cases hclock hinterval hbegin
  · exact hrun hfinished .finished
  · rw [hone] at hwaits
    exact hrun (phase?_eq_some_iff.2 ⟨_, hwaits, rfl⟩) .waiting

theorem inTime_of_begin (hclock : p.clock = .exact) (hinterval : p.interval = .every i hi)
    (hbegin : p.step? (.begin n) = some q) : q.InTime n := by
  intro w hw
  obtain ⟨t, -, ⟨-, hfinished⟩ | hwaits⟩ := begin_cases hclock hinterval hbegin
  · rw [hfinished] at hw
    cases hw
  · rw [phase?_eq_some_iff.2 ⟨_, hwaits, rfl⟩] at hw
    cases hw
    rw [now_of_task (a := .begin n) rfl hbegin]
    exact ⟨rfl, by show p.now ≤ p.now + i; linarith⟩

/-- Unless it was stopped before, a task that has begun can do polls of any durations, in time. -/
theorem exists_durations (hclock : p.clock = .exact) (hinterval : p.interval = .every i hi)
    (hrecords : Measures.CanRecord p.names) (hbegin : p.step? (.begin n) = some q)
    (hfree : ∀ t, p.tasks[n]? = some t → t.signalled = false ∧ t.cancelled = false)
    {spans : List Rat} (hspans : ∀ span ∈ spans, 0 ≤ span) :
    ∃ actions r, q.run? actions = some r ∧ q.Punctual n actions ∧
      durations (q.beats n actions) = spans := by
  obtain ⟨hinterval', hclock', hnames'⟩ := sameMake_step hbegin
  obtain ⟨t, ht, hbegun⟩ := begin_cases hclock hinterval hbegin
  obtain ⟨hsignal, hcancel⟩ := hfree t ht
  rcases hbegun with ⟨hcancelled, -⟩ | hwaits
  · rw [hcancel] at hcancelled
    cases hcancelled
  · rw [hsignal, hcancel] at hwaits
    have hawaits : q.AwaitsTick n (p.now + i) := by
      refine ⟨hwaits, ?_⟩
      rw [now_of_task (a := .begin n) rfl hbegin]
      linarith
    obtain ⟨actions, written, r, hlegs, hdurations⟩ :=
      hawaits.exists_legs (hclock'.trans hclock) (hinterval'.trans hinterval)
        (hnames' ▸ hrecords) hspans
    have hpunctual := hlegs.punctual [] trivial
    have hbeats := hlegs.beats []
    rw [List.append_nil] at hpunctual hbeats
    exact ⟨actions, r, hlegs.run, hpunctual, by rw [hbeats, beats, List.append_nil, hdurations]⟩

/-- Nothing more is written down of a task that has ended. -/
theorem beats_of_finished (h : p.isFinished n = true) (actions : List Action) :
    p.beats n actions = [] := by
  induction actions generalizing p with
  | nil => rfl
  | cons a actions ih =>
    cases hstep : p.step? a with
    | none => rw [beats, hstep]
    | some q =>
      have ha : a.task? ≠ some n := fun ha => by
        rw [step?_eq_none_of_finished h ha] at hstep
        cases hstep
      obtain ⟨t, ht, hphase⟩ := isFinished_iff.1 h
      have hfinished : p.phase? n = some .finished := phase?_eq_some_iff.2 ⟨t, ht, hphase⟩
      have hsame := step_phase?_other ha (lt_length_of_phase? hfinished) hstep
      obtain ⟨u, hu, hended⟩ := phase?_eq_some_iff.1 (hsame.trans hfinished)
      rw [beats_cons hstep, stepBeats_other ha, ih (isFinished_iff.2 ⟨u, hu, hended⟩)]
      rfl

/-- A task ends at once when nothing can be computed with the interval. -/
theorem isFinished_of_oversized (hinterval : p.interval = .oversized)
    (hbegin : p.step? (.begin n) = some q) : q.isFinished n = true := by
  obtain ⟨t, phase, tally, ht, hmoves, rfl⟩ := taskStep_cases (a := .begin n) rfl hbegin
  cases hmoves with
  | neverRuns => exact isFinished_moveTask ht
  | begins _ _ hfits => exact absurd hinterval (intervalFits_iff.1 hfits)

/-- Whatever span a poller other than infinity is given, its polls are on the grid of a positive
interval through the moment at which its task begins.

* The first poll serves the first tick after that moment, and each other one the first tick after
  the end of the poll before, so that the ticks increase.
* Where time passes no moment for which the task waits, every poll begins just at its tick.
* Unless the task was stopped before, there are such runs with polls of any given durations, where
  the outcome of a poll can be recorded.

A whole number beyond every double cannot be added to a time, and then there are no polls. -/
theorem polls_on_grid {s : Seconds} (hs : s ≠ .real (.infinite false)) {names : MetricNames}
    {start : Rat} {before : List Action}
    (hrun : (fresh (Interval.ofSeconds s) .exact names start).run? before = some p)
    (hbegin : p.step? (.begin n) = some q) :
    (s.isPositive = true ∧ s.toDouble = .infinite false ∧ ∀ actions, q.beats n actions = []) ∨
    ∃ i, 0 < i ∧ (s.isPositive = true → s.toDouble.toRat? = some i) ∧
      (s.isPositive = false → i = 5) ∧
      (∀ actions, OnGrid p.now i 1 (q.beats n actions) ∧
        ((q.beats n actions).filterMap Beat.tick?).Pairwise (· < ·) ∧
        (q.Punctual n actions → ∀ time tick, Beat.start time tick ∈ q.beats n actions →
          time = tick)) ∧
      (Measures.CanRecord names →
        (∀ t, p.tasks[n]? = some t → t.signalled = false ∧ t.cancelled = false) →
        ∀ spans, (∀ span ∈ spans, 0 ≤ span) →
          ∃ actions r, q.run? actions = some r ∧ q.Punctual n actions ∧
            durations (q.beats n actions) = spans) := by
  obtain ⟨hsame, hclock, hnames⟩ := sameMake_run hrun
  by_cases hsize : s.isPositive = true ∧ s.toDouble = .infinite false
  · obtain ⟨hpositive, hinfinite⟩ := hsize
    have hp := hsame.trans (Interval.ofSeconds_eq_oversized hs hpositive hinfinite)
    exact .inl ⟨hpositive, hinfinite, beats_of_finished (isFinished_of_oversized hp hbegin)⟩
  · obtain ⟨i, hi, hinterval, hlength, hstandard⟩ :=
      Interval.ofSeconds_eq_every fun hpositive hinfinite => hsize ⟨hpositive, hinfinite⟩
    have hp : p.interval = .every i hi := hsame.trans hinterval
    obtain ⟨hsame', hclock', -⟩ := sameMake_step hbegin
    refine .inr ⟨i, hi, hlength, hstandard, fun actions => ?_,
      fun hrecords hfree spans hspans => ?_⟩
    · have hgrid := onGrid_of_begin hclock hp hbegin actions
      exact ⟨hgrid, hgrid.ticks.2, fun hpunctual _ _ hmem =>
        start_eq_of_punctual (inTime_of_begin hclock hp hbegin) (hclock'.trans hclock)
          (hsame'.trans hp) hpunctual hmem⟩
    · exact exists_durations hclock hp (hnames ▸ hrecords) hbegin hfree hspans

/-- A poll that ends just on a tick, which is not served then, and one over several ticks. -/
theorem polls_on_grid_missed :
    ∃ p q, (fresh (Interval.ofSeconds (.whole 2)) .exact {} 1).run? [.start] = some p ∧
      p.step? (.begin 0) = some q ∧
      q.beats 0 [.pass 2, .wake 0, .pass 2, .fetchEnds 0 .failed, .pass 2, .wake 0,
        .fetchEnds 0 (.returned []), .pass 5, .updateEnds 0 .returned, .pass 1, .wake 0] =
        [.start 3 3, .stop 5, .start 7 7, .stop 12, .start 13 13] ∧
      OnGrid 1 2 1 [.start 3 3, .stop 5, .start 7 7, .stop 12, .start 13 13] ∧
      ∃ actions, durations (q.beats 0 actions) = [2, 0, 5] := by
  have hdone : ((fresh (Interval.ofSeconds (.whole 2)) .exact {} 1).run? [.start]).bind (fun p =>
      (p.step? (.begin 0)).map fun q => (p.now, p.tasks.all fun t => !t.signalled && !t.cancelled,
        q.beats 0 [.pass 2, .wake 0, .pass 2, .fetchEnds 0 .failed, .pass 2, .wake 0,
          .fetchEnds 0 (.returned []), .pass 5, .updateEnds 0 .returned, .pass 1, .wake 0])) =
      some (1, true, [.start 3 3, .stop 5, .start 7 7, .stop 12, .start 13 13]) := by
    decide +kernel
  obtain ⟨p, hrun, hq⟩ := Option.bind_eq_some_iff.1 hdone
  obtain ⟨q, hbegin, hvalues⟩ := Option.map_eq_some_iff.1 hq
  simp only [Prod.mk.injEq] at hvalues
  obtain ⟨hnow, htasks, hbeats⟩ := hvalues
  have hlength : (Seconds.whole 2).toDouble.toRat? = some 2 := by
    decide +kernel
  obtain ⟨-, hinfinite, -⟩ | ⟨i, -, hi, -, hgrid, hdurations⟩ :=
    polls_on_grid (by simp) hrun hbegin
  · rw [hinfinite] at hlength
    cases hlength
  have htwo : i = 2 := by
    have hsame := hi rfl
    rw [hlength, Option.some.injEq] at hsame
    exact hsame.symm
  refine ⟨p, q, hrun, hbegin, hbeats, ?_, ?_⟩
  · rw [hnow, htwo] at hgrid
    rw [← hbeats]
    exact (hgrid _).1
  · have hfree : ∀ t, p.tasks[0]? = some t → t.signalled = false ∧ t.cancelled = false := by
      intro t ht
      have hall := List.all_eq_true.1 htasks t (List.mem_of_getElem? ht)
      simpa using hall
    obtain ⟨actions, r, -, -, hspans⟩ := hdurations (by decide) hfree [2, 0, 5] (by norm_num)
    exact ⟨actions, hspans⟩

end Poller

end HookRegistry
