import HookRegistry.Proofs.Registry.Lifecycle

/-!
# A failed enter

When the start of the poller fails, entering a registry fails, and the store client is closed again.
That takes back what this very call did only when the client was closed before: `restored_iff`.  The
session and the transport of a client that was open are gone then, and a poller that goes on running
cannot reach the store any more: `Disconnected`.
-/

namespace HookRegistry

namespace Registry

/-- The poll of a registry whose client is closed. -/
theorem poll_of_closed {s : Registry} (h : s.store.channel = none) : s.poll = .fail .notOpen := by
  unfold poll StoreClient.getItems StoreClient.ask
  rw [h]

end Registry

namespace Lifecycle

/-- The start that an action makes, if it is a call of enter. -/
def Action.start? : Action → Option (Poller → Poller × StartOutcome)
  | .enter => some Poller.start
  | .enterUnscheduled => some Poller.startUnscheduled
  | _ => none

/-- A call of enter fails. -/
def FailsToEnter (l : Lifecycle) (a : Action) (f : Failure) : Prop :=
  ∃ start, a.start? = some start ∧ Poller.startResult (start l.registry.poller).2 = .error f

/-- A registry is as it was, and so is every session that there was. -/
structure Restored (l m : Lifecycle) : Prop where
  registry : m.registry = l.registry
  sessions : ∀ n count : Nat, l.sessions[n]? = some count → m.sessions[n]? = some count

/-- The store client has been closed, and with it the session that was its own; no poll reaches the
store. -/
structure Disconnected (l m : Lifecycle) : Prop where
  channel : m.registry.store.channel = none
  session : l.registry.store.sessionInjected = false → ∀ n, l.registry.store.session = some n →
    m.sessions = l.sessions.modify n (· + 1)
  poll : m.registry.poll = .fail .notOpen

/-! ## What the start does -/

/-- A start that fails leaves the poller alone, unless only its record failed. -/
theorem poller_of_startResult {p : Poller} {a : Action} {start : Poller → Poller × StartOutcome}
    {f : Failure} (ha : a.start? = some start)
    (hf : Poller.startResult (start p).2 = .error f) :
    (start p).1 = p ↔ f ≠ .oversizedNumber := by
  cases a with
  | enter =>
    cases ha
    rw [Poller.start_eq] at hf ⊢
    by_cases hflag : p.flag = .stopped
    · have hchanged : p.started ≠ p := by
        intro hsame
        have hrunning : p.flag = .running := (congrArg Poller.flag hsame).symm
        rw [hflag] at hrunning
        cases hrunning
      rw [if_pos hflag] at hf ⊢
      have hfits : p.intervalFits = false := by
        cases hfits : p.intervalFits with
        | false => rfl
        | true =>
          rw [hfits] at hf
          cases hf
      rw [hfits] at hf
      cases hf
      exact iff_of_false hchanged (fun h => h rfl)
    · rw [if_neg hflag] at hf ⊢
      cases hf
      exact iff_of_true rfl (by simp)
  | enterUnscheduled =>
    cases ha
    rw [Poller.startUnscheduled_eq] at hf ⊢
    refine iff_of_true rfl ?_
    split at hf
    · cases hf
      simp
    · cases hf
      simp
  | _ => cases ha

/-- A start that fails is not accepted. -/
theorem not_accepted_of_startResult {o : StartOutcome} {f : Failure}
    (h : Poller.startResult o = .error f) : o ≠ .accepted := by
  rintro rfl
  cases h

/-- A failed enter is an enter that makes a start. -/
theorem FailsToEnter.exists_start {l m : Lifecycle} {a : Action} {f : Failure}
    (hf : l.FailsToEnter a f) (h : l.step? a = some m) :
    ∃ start, a.start? = some start ∧ Poller.startResult (start l.registry.poller).2 = .error f ∧
      m = l.entered start := by
  obtain ⟨start, ha, hresult⟩ := hf
  refine ⟨start, ha, hresult, ?_⟩
  cases step_cases h with
  | enter | enterUnscheduled =>
    cases ha
    rfl
  | _ => cases ha

/-! ## What the rollback does -/

/-- The registry after an enter: only the store client and the poller can have changed. -/
theorem registry_entered (l : Lifecycle) (start : Poller → Poller × StartOutcome) :
    (l.entered start).registry =
      { l.registry with
          store := (l.entered start).registry.store
          poller := (l.entered start).registry.poller } := by
  show (l.registry.enterWith l.sessions start).1 = _
  unfold entered Registry.enterWith
  dsimp only
  split <;> rfl

/-- A client that was open is not open any more. -/
theorem disconnected_of_open {l : Lifecycle} {channel : Channel} (hl : l.Reachable)
    (hopen : l.registry.store.channel = some channel) {start : Poller → Poller × StartOutcome}
    (hstart : (start l.registry.poller).2 ≠ .accepted) : Disconnected l (l.entered start) := by
  obtain ⟨hstore, hsessions⟩ := store_entered_of_not_accepted hstart
  rw [StoreClient.enter_of_open hopen] at hstore hsessions
  have hchannel : (l.entered start).registry.store.channel = none := by
    rw [hstore]
    exact StoreClient.channel_close hl.transportInjected _
  refine ⟨hchannel, ?_, Registry.poll_of_closed hchannel⟩
  intro hown n hn
  rw [hsessions]
  exact StoreClient.sessions_close hown hn _

theorem Disconnected.not_restored {l m : Lifecycle} {channel : Channel} (h : Disconnected l m)
    (hopen : l.registry.store.channel = some channel) : ¬ Restored l m := by
  intro hrestored
  have hgone := h.channel
  rw [hrestored.registry, hopen] at hgone
  cases hgone

/-- A client that was closed is as it was. -/
theorem store_of_closed {l : Lifecycle} (hl : l.Reachable)
    (hclosed : l.registry.store.channel = none) {start : Poller → Poller × StartOutcome}
    (hstart : (start l.registry.poller).2 ≠ .accepted) :
    (l.entered start).registry.store = l.registry.store ∧
      ∀ n count : Nat, l.sessions[n]? = some count →
        (l.entered start).sessions[n]? = some count := by
  obtain ⟨hstore, hsessions⟩ := store_entered_of_not_accepted hstart
  obtain ⟨fresh, hclose, -⟩ := hl.owns.close_enter_of_closed hclosed
  rw [hclose] at hstore hsessions
  refine ⟨hstore, fun n count hn => ?_⟩
  rw [hsessions, List.getElem?_append_left (List.getElem?_eq_some_iff.1 hn).1]
  exact hn

/-- A registry that runs is entered once more: the call is refused, the poller goes on running, and
the session that it polls over is closed. -/
theorem refused_enter_disconnects :
    ∃ l m : Lifecycle, l.Reachable ∧ l.registry.poller.flag = .running ∧
      l.registry.store.channel = some (.session 0) ∧ l.sessions = [0] ∧
      l.FailsToEnter .enter .notStopped ∧ l.step? .enter = some m ∧
      m.registry.poller.flag = .running ∧ m.sessions = [1] ∧ Disconnected l m ∧ ¬ Restored l m := by
  have hl : (plain.entered Poller.start).Reachable := reachable_plain.step (step_enter _)
  have hopen : (plain.entered Poller.start).registry.store.channel = some (.session 0) := rfl
  have hresult : Poller.startResult (Poller.start (plain.entered Poller.start).registry.poller).2 =
      .error .notStopped := rfl
  have hgone := disconnected_of_open hl hopen (not_accepted_of_startResult hresult)
  exact ⟨_, _, hl, rfl, hopen, rfl, ⟨_, rfl, hresult⟩, step_enter _, rfl, rfl, hgone,
    hgone.not_restored hopen⟩

/-- A failed enter leaves a reachable registry as it found it exactly when the store client was
closed before, and not just the record of the start failed.  A client that was open has lost its
session and its transport. -/
theorem restored_iff {l m : Lifecycle} {a : Action} {f : Failure} (hl : l.Reachable)
    (hf : l.FailsToEnter a f) (h : l.step? a = some m) :
    (Restored l m ↔ l.registry.store.channel = none ∧ f ≠ .oversizedNumber) ∧
      (l.registry.store.channel ≠ none → Disconnected l m) := by
  obtain ⟨start, ha, hresult, rfl⟩ := hf.exists_start h
  have hstart := not_accepted_of_startResult hresult
  have hpoller := l.poller_entered start
  have hsame := poller_of_startResult ha hresult
  refine ⟨⟨?_, ?_⟩, ?_⟩
  · intro hrestored
    constructor
    · cases hchannel : l.registry.store.channel with
      | none => rfl
      | some channel =>
        exact absurd hrestored ((disconnected_of_open hl hchannel hstart).not_restored hchannel)
    · rw [hrestored.registry] at hpoller
      exact hsame.1 hpoller.symm
  · rintro ⟨hclosed, hrecorded⟩
    obtain ⟨hstore, hsessions⟩ := store_of_closed hl hclosed hstart
    refine ⟨?_, hsessions⟩
    rw [registry_entered, hstore, hpoller, hsame.2 hrecorded]
  · intro hopen
    obtain ⟨channel, hchannel⟩ := Option.ne_none_iff_exists'.1 hopen
    exact disconnected_of_open hl hchannel hstart

/-- Where no task can be created, a registry that is closed is as it was after the failed enter, and
one that is open and has had its poller stopped from inside is not. -/
theorem restored_iff_unscheduled :
    Restored plain (plain.entered Poller.startUnscheduled) ∧
      ∃ l m : Lifecycle, l.Reachable ∧ l.registry.poller.flag = .stopped ∧
        l.step? .enterUnscheduled = some m ∧ Disconnected l m := by
  constructor
  · have hf : plain.FailsToEnter .enterUnscheduled .noScheduler := ⟨_, rfl, rfl⟩
    exact (restored_iff reachable_plain hf (step_enterUnscheduled _)).1.2 ⟨rfl, by simp⟩
  · have hrun : ((plain.run? [.enter, .poller (.begin 0), .poller (.pass 5), .poller (.wake 0),
        .poller (.stop (some 0))]).map fun l =>
          (l.registry.poller.flag, l.registry.store.channel)) =
        some (.stopped, some (.session 0)) := by decide +kernel
    obtain ⟨l, hl, hstate⟩ := Option.map_eq_some_iff.1 hrun
    rw [Prod.mk.injEq] at hstate
    have hf : l.FailsToEnter .enterUnscheduled .noScheduler := by
      refine ⟨_, rfl, ?_⟩
      rw [Poller.startUnscheduled_eq, if_pos hstate.1]
      rfl
    have hopen : l.registry.store.channel ≠ none := by
      rw [hstate.2]
      simp
    exact ⟨l, _, reachable_plain.run hl, hstate.1, step_enterUnscheduled _,
      (restored_iff (reachable_plain.run hl) hf (step_enterUnscheduled _)).2 hopen⟩

end Lifecycle

end HookRegistry
