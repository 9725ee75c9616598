import HookRegistry.Proofs.Config.RequestUrl
import HookRegistry.Proofs.Poller.Overlap
import HookRegistry.Proofs.StoreClient.Ownership
import HookRegistry.Registry.Lifecycle

/-!
# What a step of a lifecycle can do

`step_cases` takes `Lifecycle.step?` apart, once for each action.  From it follows what a step does
to the poller, `step_poller`, and what it keeps of the store client, `owns_step`.

`Reachable` lists the states that a registry can come to by any sequence of calls of enter and exit,
calls on its poller and steps of the poll tasks.  They have the invariants of both parts:
`Reachable.attended` and `Reachable.owns`.
-/

namespace HookRegistry

namespace Registry

/-- A new registry has a new poller, and a new store client without a transport that was handed
in. -/
theorem create_eq_ok {config : Config} {watches : List Watch} {session : Option Nat}
    {decorate : Option Decorator} {names : MetricNames} {s : Registry}
    (h : create config watches session decorate names = .ok s) :
    s.poller = Poller.fresh (Interval.ofSeconds config.pullInterval) Clock.machine names 0 ∧
      StoreClient.create config decorate session false = .ok s.store := by
  unfold create at h
  cases hstore : StoreClient.create config decorate session false with
  | error f =>
    rw [hstore] at h
    cases h
  | ok store =>
    rw [hstore] at h
    cases h
    exact ⟨rfl, rfl⟩

/-- Its watches are those of the caller and the one that keeps the gauge, which is at zero. -/
theorem watches_create {config : Config} {watches : List Watch} {session : Option Nat}
    {decorate : Option Decorator} {names : MetricNames} {s : Registry}
    (h : create config watches session decorate names = .ok s) :
    s.watches = watches ++ [.size] ∧ s.gauge = 0 := by
  unfold create at h
  cases hstore : StoreClient.create config decorate session false with
  | error f =>
    rw [hstore] at h
    cases h
  | ok store =>
    rw [hstore] at h
    cases h
    exact ⟨rfl, rfl⟩

end Registry

namespace Lifecycle

/-! ## Every step -/

/-- After a call of enter that starts the poller with `start`. -/
def entered (l : Lifecycle) (start : Poller → Poller × StartOutcome) : Lifecycle :=
  { l with
    registry := (l.registry.enterWith l.sessions start).1
    sessions := (l.registry.enterWith l.sessions start).2.1 }

/-- After the end of a call of exit. -/
def left (l : Lifecycle) (i : Nat) : Lifecycle where
  registry := { l.registry with store := (l.registry.store.close l.sessions).1 }
  sessions := (l.registry.store.close l.sessions).2
  exits := l.exits.eraseIdx i

/-- What a step does. -/
inductive Does (l : Lifecycle) : Action → Lifecycle → Prop where
  | poller {a : Poller.Action} {poller : Poller} (h : l.registry.poller.step? a = some poller) :
      Does l (.poller a) { l with registry := { l.registry with poller } }
  | enter : Does l .enter (l.entered Poller.start)
  | enterUnscheduled : Does l .enterUnscheduled (l.entered Poller.startUnscheduled)
  | beginExit {caller : Option Nat} (hcaller : caller.all l.registry.poller.canCall = true) :
      Does l (.beginExit caller) (l.beginExit caller)
  | endExit {i : Nat} {awaited : Option Nat} (hi : l.exits[i]? = some awaited)
      (hreturned : l.stopReturned awaited = true) : Does l (.endExit i) (l.left i)

/-- A call of exit ends exactly when its stop has returned. -/
theorem endExit?_eq_some_iff {l m : Lifecycle} {i : Nat} :
    l.endExit? i = some m ↔
      ∃ awaited, l.exits[i]? = some awaited ∧ l.stopReturned awaited = true ∧ m = l.left i := by
  unfold endExit?
  cases h : l.exits[i]? with
  | none => simp
  | some awaited =>
    simp only [Option.bind_eq_bind, Option.bind_some, Option.some.injEq, exists_eq_left']
    split
    next hreturned => simp [hreturned, eq_comm, left, Registry.endExit]
    next hreturned => simp [hreturned]

theorem step_enter (l : Lifecycle) : l.step? .enter = some (l.entered Poller.start) :=
  rfl

theorem step_enterUnscheduled (l : Lifecycle) :
    l.step? .enterUnscheduled = some (l.entered Poller.startUnscheduled) :=
  rfl

theorem step_cases {l m : Lifecycle} {a : Action} (h : l.step? a = some m) : l.Does a m := by
  cases a with
  | poller b =>
    obtain ⟨poller, hpoller, rfl⟩ := Option.map_eq_some_iff.1 h
    exact .poller hpoller
  | enter =>
    rw [step_enter] at h
    exact Option.some.inj h ▸ .enter
  | enterUnscheduled =>
    rw [step_enterUnscheduled] at h
    exact Option.some.inj h ▸ .enterUnscheduled
  | beginExit caller =>
    obtain ⟨hcaller, hm⟩ := Option.ite_none_right_eq_some.1 h
    exact Option.some.inj hm ▸ .beginExit hcaller
  | endExit i =>
    obtain ⟨awaited, hi, hreturned, rfl⟩ := endExit?_eq_some_iff.1 h
    exact .endExit hi hreturned

/-- A run of one action and more passes through the state after the first action. -/
theorem run?_cons_eq_some {l r : Lifecycle} {a : Action} {actions : List Action} :
    l.run? (a :: actions) = some r ↔ ∃ m, l.step? a = some m ∧ m.run? actions = some r := by
  unfold run?
  rw [List.foldlM_cons]
  exact Option.bind_eq_some_iff

/-! ## Entering -/

/-- Entering does to the poller what the start does, whatever its outcome. -/
theorem poller_entered (l : Lifecycle) (start : Poller → Poller × StartOutcome) :
    (l.entered start).registry.poller = (start l.registry.poller).1 := by
  show (l.registry.enterWith l.sessions start).1.poller = _
  unfold Registry.enterWith
  dsimp only
  split <;> rfl

/-- An accepted start leaves the store client open. -/
theorem store_entered_of_accepted {l : Lifecycle} {start : Poller → Poller × StartOutcome}
    (h : (start l.registry.poller).2 = .accepted) :
    (l.entered start).registry.store = (l.registry.store.enter l.sessions).1 ∧
      (l.entered start).sessions = (l.registry.store.enter l.sessions).2 := by
  simp only [entered, Registry.enterWith, h, and_self]

/-- After any other start the store client has been closed. -/
theorem store_entered_of_not_accepted {l : Lifecycle} {start : Poller → Poller × StartOutcome}
    (h : (start l.registry.poller).2 ≠ .accepted) :
    let opened := l.registry.store.enter l.sessions
    (l.entered start).registry.store = (opened.1.close opened.2).1 ∧
      (l.entered start).sessions = (opened.1.close opened.2).2 := by
  cases hstart : (start l.registry.poller).2 with
  | accepted => exact absurd hstart h
  | refused | unrecorded | failed => simp only [entered, Registry.enterWith, hstart, and_self]

/-- The store client and its sessions keep belonging together, however the start ends. -/
theorem owns_entered {l : Lifecycle} (hl : l.registry.store.Owns l.sessions)
    (start : Poller → Poller × StartOutcome) :
    (l.entered start).registry.store.Owns (l.entered start).sessions := by
  by_cases h : (start l.registry.poller).2 = .accepted
  · obtain ⟨hstore, hsessions⟩ := store_entered_of_accepted h
    rw [hstore, hsessions]
    exact hl.enter
  · obtain ⟨hstore, hsessions⟩ := store_entered_of_not_accepted h
    rw [hstore, hsessions]
    exact hl.enter.close

/-- Entering changes the session of the store client and what it talks through, and nothing else of
the client. -/
theorem store_frame_entered (l : Lifecycle) (start : Poller → Poller × StartOutcome) :
    ∃ session channel,
      (l.entered start).registry.store = { l.registry.store with session, channel } := by
  obtain ⟨session, channel, henter⟩ := l.registry.store.enter_frame l.sessions
  by_cases h : (start l.registry.poller).2 = .accepted
  · rw [(store_entered_of_accepted h).1, henter]
    exact ⟨session, channel, rfl⟩
  · rw [(store_entered_of_not_accepted h).1]
    obtain ⟨session', channel', hclose⟩ :=
      (l.registry.store.enter l.sessions).1.close_frame (l.registry.store.enter l.sessions).2
    rw [hclose, henter]
    exact ⟨session', channel', rfl⟩

/-- Entering leaves the watches and the gauge alone. -/
theorem watches_entered (l : Lifecycle) (start : Poller → Poller × StartOutcome) :
    (l.entered start).registry.watches = l.registry.watches ∧
      (l.entered start).registry.gauge = l.registry.gauge := by
  unfold entered Registry.enterWith
  dsimp only
  split <;> exact ⟨rfl, rfl⟩

/-! ## Leaving -/

/-- The beginning of an exit does to the poller what a stop does, and nothing else. -/
theorem registry_beginExit (l : Lifecycle) (caller : Option Nat) :
    (l.beginExit caller).registry =
      { l.registry with poller := (l.registry.poller.stop caller).1 } := by
  show (l.registry.beginExit caller).1 = _
  unfold Registry.beginExit
  by_cases hflag : l.registry.poller.flag = .running
  · rw [if_pos hflag]
  · rw [if_neg hflag, Poller.stop_eq_of_not_running caller hflag]

/-- A stop that is refused waits for nothing. -/
theorem awaited_stop_of_not_running {p : Poller} (hflag : p.flag ≠ .running)
    (caller : Option Nat) : awaited (some (p.stop caller).2) = none := by
  rw [Poller.stop_eq_of_not_running caller hflag]
  rfl

/-- It waits for the task that the stop waits for. -/
theorem exits_beginExit (l : Lifecycle) (caller : Option Nat) :
    (l.beginExit caller).exits =
      l.exits ++ [awaited (some (l.registry.poller.stop caller).2)] := by
  show l.exits ++ [awaited (l.registry.beginExit caller).2] = _
  unfold Registry.beginExit
  by_cases hflag : l.registry.poller.flag = .running
  · rw [if_pos hflag]
  · rw [if_neg hflag, awaited_stop_of_not_running hflag]
    rfl

/-! ## The two parts -/

/-- A step of a lifecycle is at most one step of its poller. -/
theorem step_poller {l m : Lifecycle} {a : Action} (h : l.step? a = some m) :
    m.registry.poller = l.registry.poller ∨
      ∃ b, l.registry.poller.step? b = some m.registry.poller := by
  cases step_cases h with
  | poller hpoller => exact .inr ⟨_, hpoller⟩
  | enter => exact .inr ⟨.start, congrArg some (l.poller_entered _).symm⟩
  | enterUnscheduled => exact .inr ⟨.startUnscheduled, congrArg some (l.poller_entered _).symm⟩
  | @beginExit caller hcaller =>
    refine .inr ⟨.stop caller, ?_⟩
    rw [registry_beginExit, Poller.step?, if_pos hcaller]
  | endExit => exact .inl rfl

/-- A step changes the session of the store client and what it talks through at most. -/
theorem step_store {l m : Lifecycle} {a : Action} (h : l.step? a = some m) :
    ∃ session channel, m.registry.store = { l.registry.store with session, channel } := by
  cases step_cases h with
  | poller => exact ⟨_, _, rfl⟩
  | enter | enterUnscheduled => exact l.store_frame_entered _
  | beginExit =>
    rw [registry_beginExit]
    exact ⟨_, _, rfl⟩
  | endExit => exact l.registry.store.close_frame l.sessions

/-- No step changes the watches or the gauge. -/
theorem step_watches {l m : Lifecycle} {a : Action} (h : l.step? a = some m) :
    m.registry.watches = l.registry.watches ∧ m.registry.gauge = l.registry.gauge := by
  cases step_cases h with
  | poller | endExit => exact ⟨rfl, rfl⟩
  | enter | enterUnscheduled => exact l.watches_entered _
  | beginExit =>
    rw [registry_beginExit]
    exact ⟨rfl, rfl⟩

/-- The store client and its sessions keep belonging together. -/
theorem owns_step {l m : Lifecycle} {a : Action} (hl : l.registry.store.Owns l.sessions)
    (h : l.step? a = some m) : m.registry.store.Owns m.sessions := by
  cases step_cases h with
  | poller => exact hl
  | enter | enterUnscheduled => exact owns_entered hl _
  | beginExit =>
    rw [registry_beginExit]
    exact hl
  | endExit => exact hl.close

/-! ## Reachable states -/

/-- The states that a registry can come to. -/
inductive Reachable : Lifecycle → Prop where
  | created {config : Config} {watches : List Watch} {session : Option Nat}
      {decorate : Option Decorator} {names : MetricNames} {s : Registry} {sessions : Sessions}
      (hcreate : Registry.create config watches session decorate names = .ok s)
      (hsession : ∀ n, session = some n → n < sessions.length) :
      Reachable { registry := s, sessions }
  | step {l m : Lifecycle} {a : Action} (hl : Reachable l) (h : l.step? a = some m) : Reachable m

theorem Reachable.run {l m : Lifecycle} {actions : List Action} (hl : l.Reachable)
    (h : l.run? actions = some m) : m.Reachable :=
  foldlM_invariant Reachable (fun _ _ _ _ hs hnext => hs.step hnext) h hl

theorem Reachable.owns {l : Lifecycle} (hl : l.Reachable) : l.registry.store.Owns l.sessions := by
  induction hl with
  | created hcreate hsession =>
    exact StoreClient.owns_create hsession (Registry.create_eq_ok hcreate).2
  | step _ h ih => exact owns_step ih h

/-- A registry never has a transport that was handed in. -/
theorem Reachable.transportInjected {l : Lifecycle} (hl : l.Reachable) :
    l.registry.store.transportInjected = false := by
  induction hl with
  | created hcreate => rw [StoreClient.create_eq_ok (Registry.create_eq_ok hcreate).2]
  | step _ h ih =>
    obtain ⟨session, channel, hstore⟩ := step_store h
    rw [hstore]
    exact ih

/-- The tasks of a reachable poller are attended to or left behind. -/
theorem Reachable.attended {l : Lifecycle} (hl : l.Reachable) :
    ∃ behind, l.registry.poller.Attended behind := by
  induction hl with
  | created hcreate =>
    rw [(Registry.create_eq_ok hcreate).1]
    exact ⟨[], Poller.attended_fresh _ _ _ _⟩
  | step _ h ih =>
    obtain ⟨behind, hbehind⟩ := ih
    rcases step_poller h with hsame | ⟨b, hb⟩
    · rw [hsame]
      exact ⟨behind, hbehind⟩
    · exact ⟨_, hbehind.step hb⟩

/-- A registry that nothing has happened to yet, with the default interval. -/
def plain : Lifecycle where
  registry :=
    { store := { config := { baseUrl := "http://s", bucket := "b", pullInterval := .whole 0 } }
      poller := Poller.fresh .standard .machine {} 0
      pullInterval := Interval.effective (.whole 0)
      watches := [.size] }

theorem reachable_plain : plain.Reachable := by
  have hproblems : plain.registry.store.config.problems = .ok [] :=
    Config.problems_eq_ok (by decide +kernel)
  have hcreate :
      Registry.create plain.registry.store.config [] none none {} = .ok plain.registry := by
    unfold Registry.create StoreClient.create
    rw [hproblems]
    rfl
  exact .created hcreate (fun n h => by cases h)

end Lifecycle

end HookRegistry
