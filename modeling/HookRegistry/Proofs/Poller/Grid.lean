import Mathlib.Data.Rat.Floor
import Mathlib.Tactic.Linarith
import Mathlib.Tactic.Ring
import HookRegistry.Proofs.Poller.Accounting

/-!
# Polls on the grid

On exact times the ticks of a task lie on the grid of its interval through the moment at which it
began.  `beats` writes down when its polls begin and end.  `OnGrid` says what such a record looks
like: each poll serves one tick, and the next tick is the first one of the grid after its end.
`Stands` is the invariant that carries this over a run, with one lemma for a step of the task,
`strikes`, and `Interval.exists_firstAfter` for the arithmetic of the tick after a poll.
-/

namespace HookRegistry

/-! ## The first tick after a moment -/

/-- The tick with number `m` of the grid through `t0` is the first one after a moment. -/
structure FirstAfter (t0 i stop : Rat) (m : Int) : Prop where
  after : stop < t0 + m * i
  least : ∀ j : Int, stop < t0 + j * i → m ≤ j

/-- Ticks with greater numbers come later. -/
theorem tick_le_tick {t0 i : Rat} (hi : 0 < i) {j m : Int} (h : j ≤ m) :
    t0 + j * i ≤ t0 + m * i := by
  have hcast : (j : Rat) ≤ m := by exact_mod_cast h
  have hmul := mul_le_mul_of_nonneg_right hcast hi.le
  linarith

/-- A tick is the first after a moment when the one before it has passed. -/
theorem firstAfter_of_passed {t0 i stop : Rat} (hi : 0 < i) {m : Int}
    (hpassed : t0 + (m - 1 : Int) * i ≤ stop) (hafter : stop < t0 + m * i) :
    FirstAfter t0 i stop m := by
  refine ⟨hafter, fun j hj => ?_⟩
  refine Int.le_of_not_gt fun hlt => ?_
  have hle : t0 + j * i ≤ t0 + (m - 1 : Int) * i := tick_le_tick hi (by omega)
  linarith

/-- The tick that a poller computes at the end of a poll is the first one of the grid after that. -/
theorem Interval.exists_firstAfter {i : Rat} (hi : 0 < i) {t0 stop next : Rat} {m : Int}
    (hstop : t0 + m * i ≤ stop)
    (h : (every i hi).after .exact (t0 + m * i) stop = some next) :
    ∃ m' : Int, next = t0 + m' * i ∧ FirstAfter t0 i stop m' := by
  have hafter : stop < next := lt_after h
  rw [after_exact hi, Option.some.injEq] at h
  by_cases hmissed : t0 + m * i + i ≤ stop
  · rw [if_pos hmissed] at h
    let skipped := ((stop - (t0 + m * i + i)) / i).floor
    have hnext : next = t0 + (m + 1 + (skipped + 1) : Int) * i := by
      rw [← h]
      push_cast
      ring
    have hfloor : (skipped : Rat) ≤ (stop - (t0 + m * i + i)) / i := Rat.floor_le _
    have hspan : skipped * i ≤ stop - (t0 + m * i + i) := (le_div_iff₀ hi).1 hfloor
    refine ⟨_, hnext, firstAfter_of_passed hi ?_ (hnext ▸ hafter)⟩
    push_cast
    linarith
  · rw [if_neg hmissed] at h
    have hnext : next = t0 + (m + 1 : Int) * i := by
      rw [← h]
      push_cast
      ring
    refine ⟨_, hnext, firstAfter_of_passed hi ?_ (hnext ▸ hafter)⟩
    simpa using hstop

/-! ## What is written down -/

/-- What is written down of the polls of a task. -/
inductive Beat where
  /-- A poll begins at a time, for a tick. -/
  | start (time tick : Rat)
  /-- It ends at a time. -/
  | stop (time : Rat)
  deriving DecidableEq

/-- The tick of a poll that begins. -/
def Beat.tick? : Beat → Option Rat
  | .start _ tick => some tick
  | .stop _ => none

/-- A record of polls on the grid through `t0`, of which the next one is to serve the tick with
number `m`. -/
inductive OnGrid (t0 i : Rat) : Int → List Beat → Prop where
  | none {m : Int} : OnGrid t0 i m []
  | underWay {m : Int} {time : Rat} (hstart : t0 + m * i ≤ time) :
      OnGrid t0 i m [.start time (t0 + m * i)]
  | poll {m m' : Int} {time stop : Rat} {beats : List Beat} (hstart : t0 + m * i ≤ time)
      (hstop : time ≤ stop) (hnext : FirstAfter t0 i stop m') (hrest : OnGrid t0 i m' beats) :
      OnGrid t0 i m (.start time (t0 + m * i) :: .stop stop :: beats)

/-- No tick is served twice, and none that has passed. -/
theorem OnGrid.ticks {t0 i : Rat} {m : Int} {beats : List Beat} (h : OnGrid t0 i m beats) :
    (∀ tick ∈ beats.filterMap Beat.tick?, t0 + m * i ≤ tick) ∧
      (beats.filterMap Beat.tick?).Pairwise (· < ·) := by
  induction h with
  | none => exact ⟨fun _ htick => absurd htick List.not_mem_nil, .nil⟩
  | underWay hstart => simp [Beat.tick?]
  | @poll m m' time stop beats hstart hstop hnext hrest ih =>
    obtain ⟨hlater, hincreasing⟩ := ih
    have hlt : ∀ tick ∈ beats.filterMap Beat.tick?, t0 + m * i < tick := by
      intro tick htick
      have hle := hlater tick htick
      have hafter := hnext.after
      linarith
    refine ⟨?_, List.pairwise_cons.2 ⟨hlt, hincreasing⟩⟩
    intro tick htick
    rcases List.mem_cons.1 htick with rfl | htick
    · exact le_refl _
    · exact (hlt tick htick).le

namespace Poller

/-- What is written down of an event, by the time and the phase that the task has come to. -/
def beat? (now : Rat) (phase : Phase) : PollEvent → Option Beat
  | .fetch _ => phase.tick?.map (Beat.start now)
  | .count _ => some (.stop now)
  | _ => none

/-- What is written down of a task in a step: a poll begins when the reader is asked, and ends when
it is counted. -/
def stepBeats (p : Poller) (n : Nat) (a : Action) (q : Poller) : List Beat :=
  match q.phase? n with
  | some phase => (ofTask n (p.stepEvents a q)).filterMap (beat? p.now phase)
  | none => []

/-- What is written down of a task in a run. -/
def beats (p : Poller) (n : Nat) : List Action → List Beat
  | [] => []
  | a :: actions =>
    match p.step? a with
    | some q => p.stepBeats n a q ++ q.beats n actions
    | none => []

theorem beats_cons {p q : Poller} {a : Action} (h : p.step? a = some q) (n : Nat)
    (actions : List Action) :
    p.beats n (a :: actions) = p.stepBeats n a q ++ q.beats n actions := by
  rw [beats, h]

/-- Nothing is written down of a task in the steps of others. -/
theorem stepBeats_other {p q : Poller} {n : Nat} {a : Action} (ha : a.task? ≠ some n) :
    p.stepBeats n a q = [] := by
  have hevents : ofTask n (p.stepEvents a q) = [] := by
    unfold stepEvents
    cases htask : a.task? with
    | none => rfl
    | some m =>
      have hm : m ≠ n := fun hm => ha (by rw [htask, hm])
      dsimp only
      cases q.phase? m with
      | none => rfl
      | some phase => exact ofTask_map_of_ne hm _
  unfold stepBeats
  split
  · rw [hevents]
    rfl
  · rfl

theorem stepBeats_own {p q : Poller} {n : Nat} {a : Action} {phase : Phase}
    (ha : a.task? = some n) (hphase : q.phase? n = some phase) :
    p.stepBeats n a q = (moveEvents a p.tally q.tally phase).filterMap (beat? p.now phase) := by
  unfold stepBeats stepEvents
  simp only [ha, hphase, ofTask_map_self]

/-! ## One step -/

/-- What a step of a task does on exact times, and what is written down of it. -/
inductive Strikes {i : Rat} (hi : 0 < i) (now : Rat) : Phase → Phase → List Beat → Prop where
  | begins : Strikes hi now .created (.waiting (some ⟨now + i, now + i⟩)) []
  | polls {w : TickWait} (hdue : w.due ≤ now) :
      Strikes hi now (.waiting (some w)) (.fetching w.tick) [.start now w.tick]
  | updates {tick : Rat} {items : List Item} :
      Strikes hi now (.fetching tick) (.updating tick items) []
  | fails {tick next : Rat} (hnext : (Interval.every i hi).after .exact tick now = some next) :
      Strikes hi now (.fetching tick) (.waiting (some ⟨next, next⟩)) [.stop now]
  | succeeds {tick next : Rat} {items : List Item}
      (hnext : (Interval.every i hi).after .exact tick now = some next) :
      Strikes hi now (.updating tick items) (.waiting (some ⟨next, next⟩)) [.stop now]
  | quits {phase : Phase} : Strikes hi now phase .finished []

/-- A task that begins waits for the tick one interval later. -/
theorem awaitPhase_first {p : Poller} {i : Rat} {hi : 0 < i} (hclock : p.clock = .exact)
    (hinterval : p.interval = .every i hi) :
    p.awaitPhase (p.interval.next p.clock p.now) =
      .waiting (some { tick := p.now + i, due := p.now + i }) := by
  have hnext : (Interval.every i hi).next .exact p.now = some (p.now + i) := rfl
  rw [hclock, hinterval, hnext]
  exact awaitPhase_some hclock (Interval.lt_next hnext)

/-- A task whose poll has ended waits for the tick that was computed. -/
theorem exists_awaitPhase_after {p : Poller} {i : Rat} {hi : 0 < i} (hclock : p.clock = .exact)
    (hinterval : p.interval = .every i hi) (tick : Rat) :
    ∃ next, (Interval.every i hi).after .exact tick p.now = some next ∧
      p.awaitPhase (p.interval.after p.clock tick p.now) =
        .waiting (some { tick := next, due := next }) := by
  have hnext := Interval.after_exact hi tick p.now
  refine ⟨_, hnext, ?_⟩
  rw [hclock, hinterval, hnext]
  exact awaitPhase_some hclock (Interval.lt_after hnext)

theorem strikes {p q : Poller} {n : Nat} {a : Action} {i : Rat} {hi : 0 < i}
    (hclock : p.clock = .exact) (hinterval : p.interval = .every i hi) (ha : a.task? = some n)
    (h : p.step? a = some q) :
    ∃ before after, p.phase? n = some before ∧ q.phase? n = some after ∧
      Strikes hi p.now before after (p.stepBeats n a q) := by
  obtain ⟨t, phase, ht, hmoves, hphase⟩ := step_phase?_own ha h
  have hbefore : p.phase? n = some t.phase := phase?_eq_some_iff.2 ⟨t, ht, rfl⟩
  refine ⟨t.phase, phase, hbefore, hphase, ?_⟩
  rw [stepBeats_own ha hphase]
  unfold moveEvents
  generalize q.tally = tally at hmoves
  cases hmoves with
  | neverRuns | leaves | fetchCut | updateCut | failsUnrecorded | succeedsUnrecorded =>
    rw [counted_self]
    exact .quits
  | begins hcreated =>
    rw [counted_self, hcreated, awaitPhase_first hclock hinterval]
    exact .begins
  | polls hwaiting _ _ hdue =>
    rw [counted_self, hwaiting]
    rw [hclock] at hdue
    exact .polls (Clock.reached_exact.1 hdue)
  | updates items hfetching =>
    rw [counted_self, hfetching]
    exact .updates
  | @fails _ tick hfetching =>
    obtain ⟨next, hnext, hwaits⟩ := exists_awaitPhase_after hclock hinterval tick
    rw [counted_add, hfetching, hwaits]
    exact .fails hnext
  | @succeeds _ tick items _ hupdating =>
    obtain ⟨next, hnext, hwaits⟩ := exists_awaitPhase_after hclock hinterval tick
    rw [counted_add, hupdating, hwaits]
    exact .succeeds hnext

/-! ## Every run -/

/-- Where a task stands that is to serve the tick with number `m`, and what is written down of the
poll that it is in. -/
inductive Stands (t0 i now : Rat) (m : Int) : Phase → List Beat → Prop where
  | waiting : Stands t0 i now m (.waiting (some ⟨t0 + m * i, t0 + m * i⟩)) []
  | fetching {time : Rat} (hstart : t0 + m * i ≤ time) (htime : time ≤ now) :
      Stands t0 i now m (.fetching (t0 + m * i)) [.start time (t0 + m * i)]
  | updating {time : Rat} {items : List Item} (hstart : t0 + m * i ≤ time) (htime : time ≤ now) :
      Stands t0 i now m (.updating (t0 + m * i) items) [.start time (t0 + m * i)]
  | finished : Stands t0 i now m .finished []
  | cut {time : Rat} (hstart : t0 + m * i ≤ time) :
      Stands t0 i now m .finished [.start time (t0 + m * i)]

variable {t0 i now : Rat} {hi : 0 < i} {m : Int} {phase : Phase} {begun : List Beat}

theorem Stands.onGrid (h : Stands t0 i now m phase begun) : OnGrid t0 i m begun := by
  cases h with
  | waiting | finished => exact .none
  | fetching hstart | updating hstart | cut hstart => exact .underWay hstart

theorem Stands.later (h : Stands t0 i now m phase begun) {later : Rat} (hle : now ≤ later) :
    Stands t0 i later m phase begun := by
  cases h with
  | waiting => exact .waiting
  | fetching hstart htime => exact .fetching hstart (htime.trans hle)
  | updating hstart htime => exact .updating hstart (htime.trans hle)
  | finished => exact .finished
  | cut hstart => exact .cut hstart

/-- A step adds to the poll that the task is in, or ends it, and then the next tick is the first one
of the grid. -/
theorem Stands.step (h : Stands t0 i now m phase begun) {after : Phase} {added : List Beat}
    (hstep : Strikes hi now phase after added) :
    ∃ m' begun', Stands t0 i now m' after begun' ∧
      ∀ rest, OnGrid t0 i m' (begun' ++ rest) → OnGrid t0 i m (begun ++ (added ++ rest)) := by
  cases hstep with
  | begins => cases h
  | polls hdue =>
    cases h
    exact ⟨m, _, .fetching hdue (le_refl _), fun rest hrest => hrest⟩
  | updates =>
    cases h with
    | fetching hstart htime => exact ⟨m, _, .updating hstart htime, fun rest hrest => hrest⟩
  | fails hnext =>
    cases h with
    | fetching hstart htime =>
      obtain ⟨m', rfl, hfirst⟩ := Interval.exists_firstAfter hi (hstart.trans htime) hnext
      exact ⟨m', [], .waiting, fun rest hrest => .poll hstart htime hfirst hrest⟩
  | succeeds hnext =>
    cases h with
    | updating hstart htime =>
      obtain ⟨m', rfl, hfirst⟩ := Interval.exists_firstAfter hi (hstart.trans htime) hnext
      exact ⟨m', [], .waiting, fun rest hrest => .poll hstart htime hfirst hrest⟩
  | quits =>
    cases h with
    | waiting | finished => exact ⟨m, [], .finished, fun rest hrest => hrest⟩
    | fetching hstart | updating hstart | cut hstart =>
      exact ⟨m, _, .cut hstart, fun rest hrest => hrest⟩

variable {p q : Poller} {n : Nat}

/-- Whatever happens after it, a task that stands on the grid polls on it. -/
theorem Stands.run (hclock : p.clock = .exact) (hinterval : p.interval = .every i hi)
    (hphase : p.phase? n = some phase) (h : Stands t0 i p.now m phase begun)
    (actions : List Action) : OnGrid t0 i m (begun ++ p.beats n actions) := by
  induction actions generalizing p m phase begun with
  | nil => simpa [beats] using h.onGrid
  | cons a actions ih =>
    cases hstep : p.step? a with
    | none => simpa [beats, hstep] using h.onGrid
    | some q =>
      obtain ⟨hinterval', hclock', -⟩ := sameMake_step hstep
      rw [beats_cons hstep]
      by_cases ha : a.task? = some n
      · obtain ⟨before, after, hbefore, hafter, hstrikes⟩ := strikes hclock hinterval ha hstep
        rw [hphase] at hbefore
        cases hbefore
        obtain ⟨m', begun', hstands, hrest⟩ := h.step hstrikes
        rw [← now_of_task ha hstep] at hstands
        exact hrest _ (ih (hclock'.trans hclock) (hinterval'.trans hinterval) hafter hstands)
      · have hle : p.now ≤ q.now := by
          rcases step_now hstep with hsame | ⟨span, -, hspan, hlater⟩ <;> linarith
        have hsame := step_phase?_other ha (lt_length_of_phase? hphase) hstep
        rw [stepBeats_other ha, List.nil_append]
        exact ih (hclock'.trans hclock) (hinterval'.trans hinterval) (hsame.trans hphase)
          (h.later hle)

end Poller

end HookRegistry
