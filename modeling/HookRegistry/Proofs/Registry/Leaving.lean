import HookRegistry.Proofs.Registry.Lifecycle

/-!
# Leaving while others stop the poller

A call of exit stops the poller when it runs, waits for the poll task, and closes the store client.
Other tasks may call stop meanwhile; their stops are refused once the exit has begun.
`leavesWell_iff` says when the exit is sure to leave everything at rest, however the calls and the
poll tasks take turns: the poller is not in the middle of a stop when the exit begins, the call does
not come from inside the poll task, and no task was left behind by a stop before.  None of the three
can be spared.

With a stop under way the exit waits for nothing.  It closes the store client under a poll that is
in progress: `exit_closes_under_poll`.
-/

namespace HookRegistry

namespace Poller

/-! ## What a poller does after a stop -/

/-- Every task that has not ended is held by the poller or waited for by a stop. -/
def Quiet (p : Poller) : Prop :=
  ∀ n phase, p.phase? n = some phase → phase ≠ .finished → p.task = some n ∨ n ∈ p.stops

/-- An action that can come while a registry is left: no start, and no cancellation of a stop. -/
def Action.Undisturbing (a : Action) : Prop :=
  a ≠ .start ∧ ∀ i, a ≠ .stopCancelled i

/-- A poller that has been stopped, where no stop but one for the task `awaited` waits. -/
structure Stopped (p : Poller) (awaited : Option Nat) : Prop where
  attended : p.Attended []
  not_running : p.flag ≠ .running
  waits : ∀ n ∈ p.stops, awaited = some n

/-- A poller that is stopped or being stopped stays so as long as nobody starts it. -/
theorem Stopped.step {p q : Poller} {awaited : Option Nat} {a : Action} (hp : p.Stopped awaited)
    (ha : a.Undisturbing) (h : p.step? a = some q) : q.Stopped awaited := by
  have hattended := hp.attended.step h
  cases htask : a.task? with
  | some n =>
    obtain ⟨t, phase, tally, -, -, rfl⟩ := taskStep_cases htask h
    rw [leaves?_of_task? p htask] at hattended
    exact ⟨hattended, hp.not_running, hp.waits⟩
  | none =>
    cases callStep_cases htask h with
    | passes => exact ⟨hattended, hp.not_running, hp.waits⟩
    | starts | startRefused => exact absurd rfl ha.1
    | startFails => exact hp
    | stops =>
      rw [stop_eq_of_not_running _ hp.not_running]
      exact hp
    | stopReturns =>
      refine ⟨hattended, fun h => (by cases h), ?_⟩
      intro n hn
      exact hp.waits n (List.mem_of_mem_eraseIdx hn)
    | stopCancelled => exact absurd rfl (ha.2 _)

theorem Stopped.run {p q : Poller} {awaited : Option Nat} {actions : List Action}
    (hp : p.Stopped awaited) (hactions : ∀ a ∈ actions, a.Undisturbing)
    (h : p.run? actions = some q) : q.Stopped awaited := by
  induction actions generalizing p with
  | nil =>
    cases h
    exact hp
  | cons a actions ih =>
    obtain ⟨r, hr, hrest⟩ := run?_cons_eq_some.1 h
    have hnext := hp.step (hactions a List.mem_cons_self) hr
    exact ih hnext (fun b hb => hactions b (List.mem_cons_of_mem _ hb)) hrest

/-- When the stop that was waited for has returned, everything is at rest. -/
theorem Stopped.at_rest {p : Poller} {awaited : Option Nat} (hp : p.Stopped awaited)
    (hreturned : ∀ n, awaited = some n → n ∉ p.stops) :
    p.flag = .stopped ∧ ∀ n phase, p.phase? n = some phase → phase = .finished := by
  have hflag : p.flag = .stopped := by
    cases hflag : p.flag with
    | stopped => rfl
    | running => exact absurd hflag hp.not_running
    | transitioning =>
      obtain ⟨n, t, -, -, hstops, -, -⟩ := hp.attended.custody.transitioning hflag
      have hn : n ∈ p.stops := hstops ▸ List.mem_singleton_self n
      exact absurd hn (hreturned n (hp.waits n hn))
  obtain ⟨htask, -, hstops⟩ := hp.attended.custody.stopped hflag
  refine ⟨hflag, fun n phase hphase => ?_⟩
  refine Classical.byContradiction fun hne => ?_
  rcases hp.attended.unfinished n phase hphase hne with h | h | h
  · rw [htask] at h
    cases h
  · rw [hstops] at h
    cases h
  · cases h

/-- A stop whose task has ended returns. -/
theorem step_stopReturns {p : Poller} {n : Nat} (hstops : p.stops = [n])
    (hfinished : p.isFinished n = true) :
    p.step? (.stopReturns 0) = some { p with flag := .stopped, stops := [] } := by
  refine stopReturns?_eq_some_iff.2 ⟨n, ?_, hfinished, ?_⟩
  · rw [hstops]
    rfl
  · rw [hstops]
    rfl

/-- A cancelled task can end in one step, wherever it stands. -/
theorem exists_ending_step {p : Poller} {n : Nat} {t : PollTask} (ht : p.tasks[n]? = some t)
    (hcancel : t.cancelled = true) (hunfinished : t.phase ≠ .finished) :
    ∃ a : Action, a.Undisturbing ∧ p.step? a = some (p.moveTask n .finished) := by
  obtain ⟨phase, signalled, cancelled⟩ := t
  cases hcancel
  cases phase with
  | created => exact ⟨.begin n, ⟨by simp, by simp⟩, by simp [step?, begin?, ht]⟩
  | waiting wait => exact ⟨.wake n, ⟨by simp, by simp⟩, by simp [step?, wake?, ht]⟩
  | fetching tick =>
    exact ⟨.fetchEnds n .cancelled, ⟨by simp, by simp⟩, by simp [step?, fetchEnds?, ht]⟩
  | updating tick items =>
    exact ⟨.updateEnds n .cancelled, ⟨by simp, by simp⟩, by simp [step?, updateEnds?, ht]⟩
  | finished => exact absurd rfl hunfinished

/-- A stop that waits for a cancelled task can return without any other task going on. -/
theorem exists_stopReturns {p : Poller} {n : Nat} {t : PollTask} (ht : p.tasks[n]? = some t)
    (hcancel : t.cancelled = true) (hstops : p.stops = [n]) :
    ∃ after q, (∀ a ∈ after, a.Undisturbing) ∧ p.run? after = some q ∧ q.stops = [] ∧
      ∀ m, m ≠ n → q.phase? m = p.phase? m := by
  have hreturning : Action.Undisturbing (.stopReturns 0) := ⟨by simp, by simp⟩
  by_cases hend : t.phase = .finished
  · have hreturns := step_stopReturns hstops (isFinished_iff.2 ⟨t, ht, hend⟩)
    refine ⟨[.stopReturns 0], _, ?_, run?_cons_eq_some.2 ⟨_, hreturns, run?_nil _⟩, rfl, ?_⟩
    · simpa using hreturning
    · intro m _
      rfl
  · obtain ⟨a, ha, hstep⟩ := exists_ending_step ht hcancel hend
    have hwaits : (p.moveTask n .finished).stops = [n] := hstops
    have hreturns := step_stopReturns hwaits (isFinished_moveTask ht)
    have hrest := run?_cons_eq_some.2 ⟨_, hreturns, run?_nil _⟩
    refine ⟨[a, .stopReturns 0], _, ?_, run?_cons_eq_some.2 ⟨_, hstep, hrest⟩, rfl, ?_⟩
    · simpa using ⟨ha, hreturning⟩
    · intro m hm
      simp [phase?, moveTask, modifyTask, Ne.symm hm]

/-- After a stop that comes from outside and meets no other stop. -/
theorem Attended.stopped {p : Poller} {caller : Option Nat} (hp : p.Attended [])
    (hflag : p.flag ≠ .transitioning) (hcaller : ∀ n, p.task = some n → caller ≠ some n) :
    (p.stop caller).1.Stopped (Lifecycle.awaited (some (p.stop caller).2)) := by
  have hattended := hp.stop caller
  by_cases hrunning : p.flag = .running
  · obtain ⟨n, t, htask, hsignal, -, -, hstops⟩ := hp.custody.running hrunning
    have hstop := stop_eq_of_running caller hrunning htask hsignal
    rw [if_neg (hcaller n htask)] at hstop
    have hleaves : p.leaves? (.stop caller) = none := by
      simp [leaves?, hstop]
    rw [hleaves, hstop] at hattended
    rw [hstop]
    refine ⟨hattended, fun h => (by cases h), ?_⟩
    intro m hm
    have hone : m ∈ p.stops ++ [n] := hm
    rw [hstops, List.nil_append, List.mem_singleton] at hone
    rw [hone]
    rfl
  · rw [stop_eq_of_not_running caller hrunning]
    refine ⟨hp, hrunning, ?_⟩
    intro n hn
    have hstopped : p.flag = .stopped := by
      cases hstate : p.flag with
      | stopped => rfl
      | running => exact absurd hstate hrunning
      | transitioning => exact absurd hstate hflag
    rw [(hp.custody.stopped hstopped).2.2] at hn
    cases hn

end Poller

namespace Lifecycle

/-! ## Leaving -/

/-- A registry that is left and at rest: its poller is stopped, every poll task has ended, and the
store client is closed. -/
structure AtRest (l : Lifecycle) : Prop where
  flag : l.registry.poller.flag = .stopped
  finished : ∀ n phase, l.registry.poller.phase? n = some phase → phase = .finished
  closed : l.registry.store.channel = none

/-- However the poller goes on once a call of exit has begun: the store client and all sessions are
as they were until the exit ends, and when it ends the registry is at rest. -/
def LeavesWell (l : Lifecycle) (caller : Option Nat) : Prop :=
  ∀ (after : List Poller.Action) (q : Lifecycle), (∀ a ∈ after, a.Undisturbing) →
    (l.beginExit caller).run? (after.map .poller) = some q →
      q.registry.store = l.registry.store ∧ q.sessions = l.sessions ∧
        ∀ r, q.step? (.endExit l.exits.length) = some r → r.AtRest

/-- A run of the poller alone. -/
theorem run_poller {l q : Lifecycle} {actions : List Poller.Action} :
    l.run? (actions.map .poller) = some q ↔
      ∃ poller, l.registry.poller.run? actions = some poller ∧
        q = { l with registry := { l.registry with poller } } := by
  induction actions generalizing l with
  | nil =>
    show some l = some q ↔ _
    rw [Poller.run?_nil]
    simp [eq_comm]
  | cons a actions ih =>
    rw [List.map_cons, run?_cons_eq_some]
    constructor
    · rintro ⟨m, hm, hrest⟩
      obtain ⟨poller, hpoller, rfl⟩ := Option.map_eq_some_iff.1 hm
      obtain ⟨last, hlast, rfl⟩ := ih.1 hrest
      exact ⟨last, Poller.run?_cons_eq_some.2 ⟨poller, hpoller, hlast⟩, rfl⟩
    · rintro ⟨last, hlast, rfl⟩
      obtain ⟨poller, hpoller, hrest⟩ := Poller.run?_cons_eq_some.1 hlast
      refine ⟨_, Option.map_eq_some_iff.2 ⟨poller, hpoller, rfl⟩, ?_⟩
      exact ih.2 ⟨last, hrest, rfl⟩

/-- An exit that comes from outside and meets no stop leaves everything at rest, when nothing was
left behind before. -/
theorem leavesWell_of_quiet {l : Lifecycle} {caller : Option Nat} (hl : l.Reachable)
    (hflag : l.registry.poller.flag ≠ .transitioning)
    (hcaller : ∀ n, l.registry.poller.task = some n → caller ≠ some n)
    (hquiet : l.registry.poller.Quiet) : l.LeavesWell caller := by
  obtain ⟨behind, hbehind⟩ := hl.attended
  have hattended : l.registry.poller.Attended [] :=
    ⟨hbehind.custody, fun n phase h hne => (hquiet n phase h hne).imp_right .inl, hbehind.newest⟩
  have hstopped := hattended.stopped hflag hcaller
  intro after q hafter hrun
  obtain ⟨poller, hpoller, rfl⟩ := run_poller.1 hrun
  rw [registry_beginExit] at hpoller ⊢
  refine ⟨rfl, rfl, ?_⟩
  intro r hr
  obtain ⟨task, htask, hreturned, rfl⟩ := endExit?_eq_some_iff.1 hr
  have hsame : task = awaited (some (l.registry.poller.stop caller).2) := by
    have hlast : (l.beginExit caller).exits[l.exits.length]? = some task := htask
    rw [exits_beginExit, List.getElem?_concat_length] at hlast
    exact (Option.some.inj hlast).symm
  have hrest := (hstopped.run hafter hpoller).at_rest (by
    intro n hn
    rw [hsame, hn] at hreturned
    simpa [stopReturned] using hreturned)
  exact ⟨hrest.1, hrest.2, StoreClient.channel_close hl.transportInjected _⟩

/-- Once its stop has returned, the exit can end, and then everything is at rest. -/
theorem LeavesWell.finished {l : Lifecycle} {caller : Option Nat} (h : l.LeavesWell caller)
    {after : List Poller.Action} {poller : Poller} (hafter : ∀ a ∈ after, a.Undisturbing)
    (hrun : (l.registry.poller.stop caller).1.run? after = some poller)
    (hreturned : ∀ n, awaited (some (l.registry.poller.stop caller).2) = some n →
      n ∉ poller.stops) :
    poller.flag = .stopped ∧ ∀ n phase, poller.phase? n = some phase → phase = .finished := by
  have hpoller : (l.beginExit caller).registry.poller.run? after = some poller := by
    rw [registry_beginExit]
    exact hrun
  obtain ⟨-, -, hend⟩ := h after _ hafter (run_poller.2 ⟨poller, hpoller, rfl⟩)
  have hrest := hend _ (endExit?_eq_some_iff.2
    ⟨awaited (some (l.registry.poller.stop caller).2), ?_, ?_, rfl⟩)
  · exact ⟨hrest.flag, hrest.finished⟩
  · show (l.beginExit caller).exits[l.exits.length]? = _
    rw [exits_beginExit, List.getElem?_concat_length]
  · unfold stopReturned
    split
    next n hn => simpa using hreturned n hn
    next => rfl

/-- An exit that waits for nothing can end at once. -/
theorem LeavesWell.at_once {l : Lifecycle} {caller : Option Nat} (h : l.LeavesWell caller)
    (hnone : awaited (some (l.registry.poller.stop caller).2) = none) :
    (l.registry.poller.stop caller).1.flag = .stopped ∧
      ∀ n phase, l.registry.poller.phase? n = some phase → phase = .finished := by
  have hreturned : ∀ n, awaited (some (l.registry.poller.stop caller).2) = some n →
      n ∉ (l.registry.poller.stop caller).1.stops := by
    intro n hn
    rw [hnone] at hn
    cases hn
  have hrest := h.finished (fun _ ha => absurd ha List.not_mem_nil) (Poller.run?_nil _) hreturned
  refine ⟨hrest.1, fun n phase hphase => hrest.2 n phase ?_⟩
  rw [Poller.phase?_stop]
  exact hphase

/-- With a stop under way the exit would end in the middle of it. -/
theorem LeavesWell.flag_ne {l : Lifecycle} {caller : Option Nat} (h : l.LeavesWell caller) :
    l.registry.poller.flag ≠ .transitioning := by
  intro hflag
  have hrunning : l.registry.poller.flag ≠ .running := by
    rw [hflag]
    simp
  have hrest := (h.at_once (awaited_stop_of_not_running hrunning caller)).1
  rw [Poller.stop_eq_of_not_running caller hrunning, hflag] at hrest
  cases hrest

/-- From inside the poll task the exit would end before the task does. -/
theorem LeavesWell.outside {l : Lifecycle} {caller : Option Nat} (h : l.LeavesWell caller)
    (hcustody : l.registry.poller.Custody) (hcaller : caller.all l.registry.poller.canCall = true)
    {n : Nat} (htask : l.registry.poller.task = some n) : caller ≠ some n := by
  intro hinside
  rw [hinside] at hcaller
  obtain ⟨phase, hphase, hunfinished⟩ := Poller.IsPolling.not_finished (n := n) hcaller
  have hrunning := hcustody.running_of_task htask
  obtain ⟨m, t, hheld, hsignal, -⟩ := hcustody.running hrunning
  rw [htask] at hheld
  cases hheld
  have hstop := Poller.stop_eq_of_running caller hrunning htask hsignal
  rw [if_pos hinside] at hstop
  have hnone : awaited (some (l.registry.poller.stop caller).2) = none := by
    rw [hstop]
    rfl
  exact hunfinished ((h.at_once hnone).2 n phase hphase)

/-- A task that was left behind could go on when the exit has ended. -/
theorem LeavesWell.quiet {l : Lifecycle} {caller : Option Nat} (h : l.LeavesWell caller)
    (hcustody : l.registry.poller.Custody) (hcaller : caller.all l.registry.poller.canCall = true) :
    l.registry.poller.Quiet := by
  intro k phase hk hne
  by_cases hrunning : l.registry.poller.flag = .running
  · obtain ⟨n, t, htask, hsignal, ht, -, hstops⟩ := hcustody.running hrunning
    have houtside := h.outside hcustody hcaller htask
    have hstop := Poller.stop_eq_of_running caller hrunning htask hsignal
    rw [if_neg houtside] at hstop
    have htold : (l.registry.poller.stop caller).1.tasks[n]? =
        some { t with signalled := true, cancelled := true } := by
      rw [hstop]
      simp [Poller.cancelTask, ht]
    have hwaits : (l.registry.poller.stop caller).1.stops = [n] := by
      rw [hstop]
      simp [hstops]
    refine .inl ?_
    rw [htask, Option.some.injEq]
    refine Classical.byContradiction fun hother => hne ?_
    -- the exit ends as soon as the task does that it waits for
    obtain ⟨after, poller, hafter, hrun, hnone, hphases⟩ :=
      Poller.exists_stopReturns htold rfl hwaits
    refine (h.finished hafter hrun ?_).2 k phase ?_
    · intro m _
      rw [hnone]
      exact List.not_mem_nil
    · rw [hphases k (Ne.symm hother), Poller.phase?_stop]
      exact hk
  · have hnone := awaited_stop_of_not_running hrunning caller
    exact absurd ((h.at_once hnone).2 k phase hk) hne

/-- Another task stops the poller while the reader is at work, and the registry is left before that
stop returns: the exit ends while the poller is in the middle of the stop and the poll goes on, and
the session of the poll is closed. -/
theorem exit_closes_under_poll :
    ∃ l m : Lifecycle, l.Reachable ∧ l.sessions = [0] ∧
      l.run? [.beginExit none, .endExit 0] = some m ∧ m.registry.poller.flag = .transitioning ∧
      m.registry.poller.IsPolling 0 ∧ m.registry.store.channel = none ∧ m.sessions = [1] ∧
      ¬ l.LeavesWell none := by
  have hrun : ((plain.run? [.enter, .poller (.begin 0), .poller (.pass 5), .poller (.wake 0),
      .poller (.stop none)]).bind fun l =>
        (l.run? [.beginExit none, .endExit 0]).map fun m =>
          ((l.registry.poller.flag, l.sessions),
            (m.registry.poller.flag, m.registry.poller.canCall 0, m.registry.store.channel,
              m.sessions))) =
      some ((.transitioning, [0]), (.transitioning, true, none, [1])) := by decide +kernel
  obtain ⟨l, hl, hleft⟩ := Option.bind_eq_some_iff.1 hrun
  obtain ⟨m, hm, hstate⟩ := Option.map_eq_some_iff.1 hleft
  simp only [Prod.mk.injEq] at hstate
  obtain ⟨⟨hflag, hsessions⟩, hend, hcalls, hchannel, hclosed⟩ := hstate
  exact ⟨l, m, reachable_plain.run hl, hsessions, hm, hend, hcalls, hchannel, hclosed,
    fun h => h.flag_ne hflag⟩

/-- Whatever the other calls do, an exit leaves everything at rest exactly when it meets no stop
under way, does not come from inside the poll task, and every task that has not ended is the one
that the poller holds. -/
theorem leavesWell_iff {l : Lifecycle} {caller : Option Nat} (hl : l.Reachable)
    (hcaller : caller.all l.registry.poller.canCall = true) :
    l.LeavesWell caller ↔
      l.registry.poller.flag ≠ .transitioning ∧
        (∀ n, l.registry.poller.task = some n → caller ≠ some n) ∧ l.registry.poller.Quiet := by
  constructor
  · intro h
    obtain ⟨behind, hbehind⟩ := hl.attended
    exact ⟨h.flag_ne, fun n hn => h.outside hbehind.custody hcaller hn,
      h.quiet hbehind.custody hcaller⟩
  · rintro ⟨hflag, houtside, hquiet⟩
    exact leavesWell_of_quiet hl hflag houtside hquiet

/-- A registry can be left in the middle of a poll. -/
theorem leavesWell_iff_polling :
    ∃ l : Lifecycle, l.Reachable ∧ l.registry.poller.IsPolling 0 ∧ l.LeavesWell none := by
  have hrun : ((plain.run? [.enter, .poller (.begin 0), .poller (.pass 5), .poller (.wake 0)]).map
      fun l => (l.registry.poller.flag, l.registry.poller.canCall 0, l.registry.poller.task,
        l.registry.poller.tasks.length)) = some (.running, true, some 0, 1) := by decide +kernel
  obtain ⟨l, hl, hstate⟩ := Option.map_eq_some_iff.1 hrun
  simp only [Prod.mk.injEq] at hstate
  obtain ⟨hflag, hcalls, htask, hlength⟩ := hstate
  have hquiet : l.registry.poller.Quiet := by
    intro n phase hn _
    have hlt := Poller.lt_length_of_phase? hn
    have hzero : n = 0 := by omega
    rw [hzero]
    exact .inl htask
  refine ⟨l, reachable_plain.run hl, hcalls, ?_⟩
  exact (leavesWell_iff (reachable_plain.run hl) rfl).2
    ⟨by simp [hflag], fun _ _ => by simp, hquiet⟩

end Lifecycle

end HookRegistry
