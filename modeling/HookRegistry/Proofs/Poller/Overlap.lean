import HookRegistry.Proofs.Poller.Phases
import HookRegistry.Proofs.Poller.Shutdown

/-!
# Polls that overlap

A stop that is called from inside the poll task returns while the task is still in its poll, and so
does a stop that is cancelled while it waits.  Both leave the task behind; when the poller is started
again, a poll of the new task can begin before the old one has ended (`overlap_after_restart`).

Nothing else makes polls overlap.  `Attended` is the invariant: a task that has not ended is the one
that the poller holds, the one that a stop waits for, or one that was left behind, and the first two
are the task that was started last.  `earlier_polls_left_behind` is what it comes to.
-/

namespace HookRegistry

namespace Poller

/-- A task is inside a poll: it has asked the reader, and the update of the listener has not
ended. -/
def IsPolling (p : Poller) (n : Nat) : Prop :=
  p.canCall n = true

/-- The task that an action leaves behind: that of a stop which returns at once, or that of a
waiting stop which is cancelled. -/
def leaves? (p : Poller) : Action → Option Nat
  | .stop caller => if (p.stop caller).2 = .finished then p.task else none
  | .stopCancelled i => p.stops[i]?
  | _ => none

/-- The tasks that the stops of a run leave behind. -/
def leftBehind (p : Poller) : List Action → List Nat
  | [] => []
  | a :: actions =>
    (p.leaves? a).toList ++
      match p.step? a with
      | some q => q.leftBehind actions
      | none => []

theorem leftBehind_cons {p q : Poller} {a : Action} (h : p.step? a = some q)
    (actions : List Action) :
    p.leftBehind (a :: actions) = (p.leaves? a).toList ++ q.leftBehind actions := by
  rw [leftBehind, h]

/-- A step of a task leaves no task behind. -/
theorem leaves?_of_task? (p : Poller) {a : Action} {n : Nat} (ha : a.task? = some n) :
    p.leaves? a = none := by
  cases a with
  | begin m | wake m | fetchEnds m outcome | updateEnds m outcome => rfl
  | _ => cases ha

theorem IsPolling.not_finished {p : Poller} {n : Nat} (h : p.IsPolling n) :
    ∃ phase, p.phase? n = some phase ∧ phase ≠ .finished := by
  unfold IsPolling canCall at h
  split at h
  next tick signalled cancelled ht => exact ⟨.fetching tick, by simp [phase?, ht], by simp⟩
  next tick items signalled cancelled ht =>
    exact ⟨.updating tick items, by simp [phase?, ht], by simp⟩
  next => cases h

/-- A task that moves has not ended. -/
theorem TaskMoves.not_finished {p : Poller} {t : PollTask} {a : Action} {phase : Phase}
    {tally : Tally} (h : TaskMoves p t a phase tally) : t.phase ≠ .finished := by
  cases h <;> simp_all

/-- Where the tasks are that have not ended, when the tasks `left` have been left behind. -/
structure Attended (p : Poller) (left : List Nat) : Prop where
  custody : p.Custody
  unfinished : ∀ n phase, p.phase? n = some phase → phase ≠ .finished →
    p.task = some n ∨ n ∈ p.stops ∨ n ∈ left
  /-- The task that is held or waited for was started last. -/
  newest : ∀ n, p.task = some n ∨ n ∈ p.stops → n + 1 = p.tasks.length

theorem attended_fresh (interval : Interval) (clock : Clock) (names : MetricNames) (now : Rat) :
    (fresh interval clock names now).Attended [] where
  custody := custody_fresh interval clock names now
  unfinished := fun n phase h => by simp [phase?, fresh] at h
  newest := fun n h => by simp [fresh] at h

/-- A stop, wherever it is called: it leaves the task behind or waits for it. -/
theorem Attended.stop {p : Poller} {left : List Nat} (hp : p.Attended left)
    (caller : Option Nat) :
    (p.stop caller).1.Attended (left ++ (p.leaves? (.stop caller)).toList) := by
  have hcustody := hp.custody.stop caller
  by_cases hflag : p.flag = .running
  · obtain ⟨n, t, htask, hsignal, -, -, hstops⟩ := hp.custody.running hflag
    have hphase := phase?_stop p caller
    have hlength := length_tasks_stop p caller
    have hnewest := hp.newest n (.inl htask)
    -- the task that is held is the only one that was attended to
    have hunfinished : ∀ m phase, p.phase? m = some phase → phase ≠ .finished →
        m = n ∨ m ∈ left := by
      intro m phase hm hne
      rcases hp.unfinished m phase hm hne with h | h | h
      · rw [htask] at h
        exact .inl (Option.some.inj h).symm
      · rw [hstops] at h
        cases h
      · exact .inr h
    have hstop := stop_eq_of_running caller hflag htask hsignal
    by_cases hcaller : caller = some n
    · have hleaves : p.leaves? (.stop caller) = some n := by
        simp only [leaves?, hstop, if_pos hcaller, htask, if_true]
      rw [hleaves]
      rw [hstop, if_pos hcaller] at hcustody hphase ⊢
      refine ⟨hcustody, ?_, ?_⟩
      · intro m phase hm hne
        rw [hphase] at hm
        rcases hunfinished m phase hm hne with rfl | h
        · exact .inr (.inr (by simp))
        · exact .inr (.inr (List.mem_append_left _ h))
      · rintro m (h | h)
        · cases h
        · rw [hstops] at h
          cases h
    · have hleaves : p.leaves? (.stop caller) = none := by
        simp [leaves?, hstop, hcaller]
      rw [hleaves]
      rw [hstop, if_neg hcaller] at hcustody hphase hlength ⊢
      refine ⟨hcustody, ?_, ?_⟩
      · intro m phase hm hne
        rw [hphase] at hm
        rcases hunfinished m phase hm hne with rfl | h
        · exact .inr (.inl (by simp))
        · exact .inr (.inr (List.mem_append_left _ h))
      · rintro m (h | h)
        · cases h
        · simp only [hstops, List.nil_append, List.mem_singleton] at h
          rw [h, hlength]
          exact hnewest
  · have hrefused : p.stop caller = (p, .refused) := stop_eq_of_not_running caller hflag
    simpa [leaves?, hrefused] using hp

/-- The end of a waiting stop, for a task that has ended or that is left behind. -/
theorem Attended.stopEnds {p : Poller} {left left' : List Nat} (hp : p.Attended left) {i n : Nat}
    (hi : p.stops[i]? = some n) (hleft : ∀ m ∈ left, m ∈ left')
    (hn : ∀ phase, p.phase? n = some phase → phase ≠ .finished → n ∈ left') :
    ({ p with flag := .stopped, stops := p.stops.eraseIdx i } : Poller).Attended left' := by
  have hcustody := hp.custody.stopEnds hi
  obtain ⟨htask, -, hnone⟩ := hcustody.stopped rfl
  obtain ⟨-, -, hstops⟩ := hp.custody.waits hi
  refine ⟨hcustody, ?_, ?_⟩
  · intro m phase hm hne
    rcases hp.unfinished m phase hm hne with h | h | h
    · exact .inl h
    · rw [hstops] at h
      cases List.mem_singleton.1 h
      exact .inr (.inr (hn phase hm hne))
    · exact .inr (.inr (hleft m h))
  · rintro m (h | h)
    · rw [htask] at h
      cases h
    · rw [hnone] at h
      cases h

/-- A start that is accepted: nothing is held or waited for before it. -/
theorem Attended.started {p : Poller} {left : List Nat} (hp : p.Attended left)
    (hflag : p.flag = .stopped) : p.started.Attended left := by
  obtain ⟨htask, -, hstops⟩ := hp.custody.stopped hflag
  refine ⟨hp.custody.started hflag, ?_, ?_⟩
  · intro n phase hn hne
    rcases Nat.lt_or_ge n p.tasks.length with hlt | hge
    · have hold : p.phase? n = some phase := by
        rw [← hn]
        simp only [phase?, Poller.started, List.getElem?_append_left hlt]
      rcases hp.unfinished n phase hold hne with h | h | h
      · rw [htask] at h
        cases h
      · rw [hstops] at h
        cases h
      · exact .inr (.inr h)
    · have hlength : n < p.tasks.length + 1 := by
        simpa [Poller.started] using lt_length_of_phase? hn
      have hlast : n = p.tasks.length := by omega
      rw [hlast]
      exact .inl rfl
  · rintro n (h | h)
    · cases h
      simp [Poller.started]
    · rw [show p.started.stops = p.stops from rfl, hstops] at h
      cases h

/-- A step of a task that has not ended. -/
theorem Attended.moved {p : Poller} {left : List Nat} (hp : p.Attended left) {n : Nat}
    {t : PollTask} {a : Action} {phase : Phase} {tally : Tally} (ha : a.task? = some n)
    (ht : p.tasks[n]? = some t) (hmoves : TaskMoves p t a phase tally)
    (h : p.step? a = some (p.moved n phase tally)) : (p.moved n phase tally).Attended left := by
  have hbefore : p.phase? n = some t.phase := by simp [phase?, ht]
  have hlength : (p.moved n phase tally).tasks.length = p.tasks.length := by
    simp [Poller.moved, moveTask, modifyTask]
  refine ⟨hp.custody.step h, ?_, ?_⟩
  · intro m other hm hne
    by_cases hown : m = n
    · subst hown
      exact hp.unfinished m t.phase hbefore hmoves.not_finished
    · have hlt : m < p.tasks.length := hlength ▸ lt_length_of_phase? hm
      have hother : a.task? ≠ some m := by
        rw [ha, Ne, Option.some.injEq]
        exact Ne.symm hown
      refine hp.unfinished m other ?_ hne
      rw [← hm]
      exact (step_phase?_other hother hlt h).symm
  · intro m hm
    rw [hlength]
    exact hp.newest m hm

/-- Every step keeps it. -/
theorem Attended.step {p q : Poller} {left : List Nat} {a : Action} (hp : p.Attended left)
    (h : p.step? a = some q) : q.Attended (left ++ (p.leaves? a).toList) := by
  cases ha : a.task? with
  | none =>
    cases callStep_cases ha h with
    | passes =>
      simpa [leaves?] using Attended.mk (hp.custody.step h) hp.unfinished hp.newest
    | starts hflag => simpa [leaves?] using hp.started hflag
    | startRefused | startFails => simpa [leaves?] using hp
    | stops => exact hp.stop _
    | @stopReturns i n hi hfinished =>
      simp only [leaves?, Option.toList_none, List.append_nil]
      refine hp.stopEnds hi (fun m hm => hm) ?_
      intro phase hphase hne
      obtain ⟨t, ht, hend⟩ := isFinished_iff.1 hfinished
      simp only [phase?, ht, Option.map_some, Option.some.injEq] at hphase
      exact absurd (hphase.symm.trans hend) hne
    | @stopCancelled i n hi =>
      refine hp.stopEnds hi (fun m hm => List.mem_append_left _ hm) ?_
      intro phase _ _
      simp [leaves?, hi]
  | some n =>
    obtain ⟨t, phase, tally, ht, hmoves, rfl⟩ := taskStep_cases ha h
    rw [leaves?_of_task? p ha, Option.toList_none, List.append_nil]
    exact hp.moved ha ht hmoves h

/-- Every run keeps it, with the tasks that the run leaves behind. -/
theorem Attended.run {p r : Poller} {left : List Nat} {actions : List Action}
    (hp : p.Attended left) (h : p.run? actions = some r) :
    r.Attended (left ++ p.leftBehind actions) := by
  induction actions generalizing p left with
  | nil =>
    rw [run?_nil] at h
    cases h
    simpa [leftBehind] using hp
  | cons a actions ih =>
    obtain ⟨q, hq, hrest⟩ := run?_cons_eq_some.1 h
    rw [leftBehind_cons hq, ← List.append_assoc]
    exact ih (hp.step hq) hrest

/-- Of two tasks that have not ended the one that was started earlier has been left behind. -/
theorem Attended.earlier {p : Poller} {left : List Nat} (hp : p.Attended left) {m n : Nat}
    (hm : p.IsPolling m) (hn : p.IsPolling n) (hlt : m < n) : m ∈ left := by
  obtain ⟨phase, hphase, hunfinished⟩ := hm.not_finished
  obtain ⟨later, hlater, -⟩ := hn.not_finished
  have hlength := lt_length_of_phase? hlater
  rcases hp.unfinished m phase hphase hunfinished with h | h | h
  · have := hp.newest m (.inl h)
    omega
  · have := hp.newest m (.inr h)
    omega
  · exact h

/-! ## What a task does that was left behind -/

/-- A task that is left behind has its signal. -/
theorem Custody.stopping_of_leaves? {p q : Poller} {a : Action} {n : Nat} (hp : p.Custody)
    (hclock : p.clock = .exact) (hleaves : p.leaves? a = some n) (h : p.step? a = some q) :
    ∃ t, q.Stopping n t := by
  have hexact : q.clock = .exact := by rw [(sameMake_step h).clock, hclock]
  have hcustody := hp.step h
  cases a with
  | stop caller =>
    simp only [step?, Option.ite_none_right_eq_some, Option.some.injEq] at h
    obtain ⟨-, rfl⟩ := h
    simp only [leaves?, Option.ite_none_right_eq_some] at hleaves
    by_cases hflag : p.flag = .running
    · obtain ⟨m, t, htask, hstopping, -⟩ := hp.stopping hclock hflag caller
      rw [htask] at hleaves
      cases hleaves.2
      exact ⟨t, hstopping⟩
    · rw [stop_eq_of_not_running caller hflag] at hleaves
      cases hleaves.1
  | stopCancelled i =>
    obtain ⟨m, hi, rfl⟩ := stopCancelled?_eq_some_iff.1 h
    have hm : p.stops[i]? = some n := hleaves
    obtain ⟨-, -, hstops⟩ := hp.waits hm
    have hflag : p.flag = .transitioning := by
      cases hflag : p.flag with
      | transitioning => rfl
      | stopped => simp [(hp.stopped hflag).2.2] at hstops
      | running =>
        obtain ⟨_, _, _, _, _, _, hnil⟩ := hp.running hflag
        simp [hnil] at hstops
    obtain ⟨k, t, -, -, hone, ht, hends⟩ := hp.transitioning hflag
    rw [hstops] at hone
    cases hone
    exact ⟨t, hcustody, hexact, ht, hends.signalled⟩
  | _ => cases hleaves

/-- On exact times every task that a run has left behind has its signal. -/
theorem stopping_of_mem_leftBehind {p r : Poller} {actions : List Action} (hp : p.Custody)
    (hclock : p.clock = .exact) (h : p.run? actions = some r) {n : Nat}
    (hn : n ∈ p.leftBehind actions) : ∃ t, r.Stopping n t := by
  induction actions generalizing p with
  | nil => cases hn
  | cons a actions ih =>
    obtain ⟨q, hq, hrest⟩ := run?_cons_eq_some.1 h
    rw [leftBehind_cons hq, List.mem_append, Option.mem_toList] at hn
    rcases hn with hn | hn
    · obtain ⟨t, hstopping⟩ := hp.stopping_of_leaves? hclock hn hq
      obtain ⟨u, hu, -⟩ := hstopping.run hrest
      exact ⟨u, hu⟩
    · exact ih (hp.step hq) (by rw [(sameMake_step hq).clock, hclock]) hrest hn

/-! ## The polls in progress -/

/-- A poller is started again from inside the listener, which then goes on for longer than the
interval: two polls are in progress.  So they are when the interval vanishes in the rounding of the
clock, where the task that was stopped from inside polls once more instead of waiting. -/
theorem overlap_after_restart :
    (∃ p, (fresh .standard .exact {} 0).run?
        [.start, .begin 0, .pass 5, .wake 0, .fetchEnds 0 (.returned []), .stop (some 0), .start,
          .begin 1, .pass 5, .wake 1] = some p ∧ p.IsPolling 0 ∧ p.IsPolling 1) ∧
      ∃ p, (fresh (.every (1 / 1180591620717411303424) (by decide +kernel)) .machine {} 1).run?
        [.start, .begin 0, .pass (1 / 2), .fetchEnds 0 (.returned [{ id := "a" }]), .pass (1 / 2),
          .stop (some 0), .start, .updateEnds 0 .returned, .begin 1] = some p ∧
        p.IsPolling 0 ∧ p.IsPolling 1 := by
  have hcalls : ∀ q : Option Poller, q.map (fun p => (p.canCall 0, p.canCall 1)) =
      some (true, true) → ∃ p, q = some p ∧ p.IsPolling 0 ∧ p.IsPolling 1 := by
    intro q hq
    obtain ⟨p, rfl, hp⟩ := Option.map_eq_some_iff.1 hq
    rw [Prod.mk.injEq] at hp
    exact ⟨p, rfl, hp⟩
  exact ⟨hcalls _ (by decide +kernel), hcalls _ (by decide +kernel)⟩

/-- Whatever calls are made by whatever tasks, and however long the reader and the listener take: of
two polls that are in progress at the same time the one of the earlier task was left behind by its
stop, which was called from inside it or was cancelled while it waited.  So polls never overlap as
long as every stop comes from outside and waits to its end.  On exact times a task that was left
behind completes the poll that it is in and begins no other. -/
theorem earlier_polls_left_behind {interval : Interval} {clock : Clock} {names : MetricNames}
    {now : Rat} {actions : List Action} {p : Poller}
    (h : (fresh interval clock names now).run? actions = some p) :
    (∀ m n, p.IsPolling m → p.IsPolling n → m < n →
      m ∈ (fresh interval clock names now).leftBehind actions) ∧
    ((fresh interval clock names now).leftBehind actions = [] →
      ∀ m n, p.IsPolling m → p.IsPolling n → m = n) ∧
    (clock = .exact → ∀ n ∈ (fresh interval clock names now).leftBehind actions,
      ∀ a, ¬ p.BeginsFetch n a) := by
  have hp : p.Attended ([] ++ (fresh interval clock names now).leftBehind actions) :=
    (attended_fresh interval clock names now).run h
  rw [List.nil_append] at hp
  refine ⟨fun m n hm hn hlt => hp.earlier hm hn hlt, ?_, ?_⟩
  · intro hnone m n hm hn
    rw [hnone] at hp
    rcases Nat.lt_trichotomy m n with hlt | heq | hgt
    · exact absurd (hp.earlier hm hn hlt) List.not_mem_nil
    · exact heq
    · exact absurd (hp.earlier hn hm hgt) List.not_mem_nil
  · intro hclock n hn a
    obtain ⟨t, ht⟩ :=
      stopping_of_mem_leftBehind (custody_fresh interval clock names now) hclock h hn
    exact ht.not_beginsFetch a

/-- A stop from outside that is cancelled while the reader is at work, and a start after it: the
poll of the new task overlaps that of the old one, which begins no other. -/
theorem earlier_polls_left_behind_cancelled :
    ∃ p, (fresh .standard .exact {} 0).run?
        [.start, .begin 0, .pass 5, .wake 0, .stop none, .stopCancelled 0, .start, .begin 1,
          .pass 5, .wake 1] = some p ∧
      p.IsPolling 0 ∧ p.IsPolling 1 ∧ ∀ a, ¬ p.BeginsFetch 0 a := by
  have hrun : ((fresh .standard .exact {} 0).run?
      [.start, .begin 0, .pass 5, .wake 0, .stop none, .stopCancelled 0, .start, .begin 1,
        .pass 5, .wake 1]).map (fun p => (p.canCall 0, p.canCall 1)) = some (true, true) := by
    decide +kernel
  obtain ⟨p, hp, hcalls⟩ := Option.map_eq_some_iff.1 hrun
  rw [Prod.mk.injEq] at hcalls
  obtain ⟨hearlier, -, hno⟩ := earlier_polls_left_behind hp
  exact ⟨p, hp, hcalls.1, hcalls.2, hno rfl 0 (hearlier 0 1 hcalls.1 hcalls.2 Nat.zero_lt_one)⟩

end Poller

end HookRegistry
