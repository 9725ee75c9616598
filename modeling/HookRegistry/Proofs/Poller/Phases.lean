import HookRegistry.Proofs.Poller.Step

/-!
# Whose phase a step changes

A step of a task changes the phase of that task, a start adds a task, and nothing else moves any
task to another phase: `step_phase?_other` and `step_phase?_own`.
-/

namespace HookRegistry

namespace Poller

/-- The phase of a task. -/
def phase? (p : Poller) (n : Nat) : Option Phase :=
  p.tasks[n]?.map PollTask.phase

theorem phase?_eq_some_iff {p : Poller} {n : Nat} {phase : Phase} :
    p.phase? n = some phase ↔ ∃ t, p.tasks[n]? = some t ∧ t.phase = phase :=
  Option.map_eq_some_iff

theorem lt_length_of_phase? {p : Poller} {n : Nat} {phase : Phase} (h : p.phase? n = some phase) :
    n < p.tasks.length := by
  obtain ⟨t, ht, -⟩ := phase?_eq_some_iff.1 h
  exact (List.getElem?_eq_some_iff.1 ht).1

theorem phase?_moveTask {p : Poller} {n : Nat} {t : PollTask} (ht : p.tasks[n]? = some t)
    (phase : Phase) : (p.moveTask n phase).phase? n = some phase :=
  phase?_eq_some_iff.2 ⟨_, task_moveTask ht phase, rfl⟩

/-- A change of a task that leaves its phase alone. -/
theorem map_phase_modify {f : PollTask → PollTask} (hf : ∀ t, (f t).phase = t.phase)
    (tasks : List PollTask) (m : Nat) :
    (tasks.modify m f).map PollTask.phase = tasks.map PollTask.phase := by
  apply List.ext_getElem?
  intro n
  rw [List.getElem?_map, List.getElem?_map, List.getElem?_modify]
  cases tasks[n]? with
  | none => rfl
  | some t =>
    by_cases hm : m = n
    · simp [hm, hf]
    · simp [hm]

theorem map_phase_giveSignal (p : Poller) :
    p.giveSignal.tasks.map PollTask.phase = p.tasks.map PollTask.phase := by
  unfold giveSignal
  split
  · exact map_phase_modify (f := fun t => { t with signalled := true }) (fun _ => rfl) _ _
  · rfl

/-- A stop moves no task and creates none. -/
theorem map_phase_stop (p : Poller) (caller : Option Nat) :
    (p.stop caller).1.tasks.map PollTask.phase = p.tasks.map PollTask.phase := by
  unfold stop PollerState.compareAndSwap
  by_cases hflag : p.flag = .running
  · simp only [hflag, if_true]
    cases p.task with
    | none => exact map_phase_giveSignal _
    | some m =>
      by_cases hcaller : caller = some m
      · simp only [if_pos hcaller]
        exact map_phase_giveSignal _
      · simp only [if_neg hcaller]
        exact (map_phase_modify (f := fun t => { t with cancelled := true })
          (fun _ => rfl) _ _).trans (map_phase_giveSignal _)
  · simp [hflag]

theorem phase?_stop (p : Poller) (caller : Option Nat) (n : Nat) :
    (p.stop caller).1.phase? n = p.phase? n := by
  unfold phase?
  rw [← List.getElem?_map, ← List.getElem?_map, map_phase_stop]

theorem length_tasks_stop (p : Poller) (caller : Option Nat) :
    (p.stop caller).1.tasks.length = p.tasks.length := by
  simpa using congrArg List.length (map_phase_stop p caller)

/-- A task that was created moves by its own steps only. -/
theorem step_phase?_other {p q : Poller} {a : Action} {n : Nat} (ha : a.task? ≠ some n)
    (hn : n < p.tasks.length) (h : p.step? a = some q) : q.phase? n = p.phase? n := by
  cases htask : a.task? with
  | none =>
    cases callStep_cases htask h with
    | starts =>
      unfold phase? started
      rw [List.getElem?_append_left hn]
    | stops => exact phase?_stop p _ n
    | _ => rfl
  | some m =>
    obtain ⟨t, phase, tally, -, -, rfl⟩ := taskStep_cases htask h
    have hm : m ≠ n := fun hm => ha (by rw [htask, hm])
    show ((p.tasks.modify m _)[n]?).map PollTask.phase = _
    rw [List.getElem?_modify_ne _ _ hm]
    rfl

/-- A step of a task moves it as `TaskMoves` says. -/
theorem step_phase?_own {p q : Poller} {a : Action} {n : Nat} (ha : a.task? = some n)
    (h : p.step? a = some q) :
    ∃ t phase, p.tasks[n]? = some t ∧ TaskMoves p t a phase q.tally ∧ q.phase? n = some phase := by
  obtain ⟨t, phase, tally, ht, hmoves, rfl⟩ := taskStep_cases ha h
  exact ⟨t, phase, ht, hmoves, phase?_moveTask ht phase⟩

/-- A step adds a task that has not run, or none. -/
theorem step_length {p q : Poller} {a : Action} (h : p.step? a = some q) :
    q.tasks.length = p.tasks.length ∨
      a = .start ∧ q.tasks.length = p.tasks.length + 1 ∧
        q.phase? p.tasks.length = some .created := by
  cases ha : a.task? with
  | none =>
    cases callStep_cases ha h with
    | starts =>
      refine .inr ⟨rfl, by simp [started], ?_⟩
      simp [phase?, started]
    | stops => exact .inl (length_tasks_stop p _)
    | _ => exact .inl rfl
  | some m =>
    obtain ⟨t, phase, tally, -, -, rfl⟩ := taskStep_cases ha h
    exact .inl (List.length_modify ..)

/-- A task that was not there before has not run. -/
theorem phase?_of_new {p q : Poller} {a : Action} {n : Nat} (h : p.step? a = some q)
    (hn : p.tasks.length ≤ n) : q.phase? n = none ∨ q.phase? n = some .created := by
  rcases step_length h with hlength | ⟨-, hlength, hcreated⟩
  · exact .inl (by simp [phase?]; omega)
  · by_cases hfirst : n = p.tasks.length
    · exact .inr (hfirst ▸ hcreated)
    · exact .inl (by simp [phase?]; omega)

end Poller

end HookRegistry
