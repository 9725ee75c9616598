import HookRegistry.Proofs.Poller.Step

/-!
# The next tick lies ahead

On the exact clock the tick that a task waits for always lies ahead of the moment at which it
starts to wait.  `lt_next` says so for the first tick and `lt_after` for the tick after a poll,
however long the poll took.  Hence a task that has to wait never polls at once
(`awaitPhase_next`, `awaitPhase_after`).
-/

namespace HookRegistry

namespace Interval

/-- The number of intervals that have to be skipped takes the tick past the present moment. -/
theorem lt_skip {length next now : Rat} (hlength : 0 < length) :
    now < next + (((now - next) / length).floor + 1 : Int) * length := by
  have hfloor : (now - next) / length < (((now - next) / length).floor + 1 : Int) :=
    Rat.lt_floor_add_one _
  have hspan : now - next < (((now - next) / length).floor + 1 : Int) * length :=
    (Rat.div_lt_iff hlength).1 hfloor
  grind

/-- The first tick lies ahead. -/
theorem lt_next {i : Interval} {now t : Rat} (h : i.next .exact now = some t) : now < t := by
  cases i with
  | every length positive =>
    simp only [next, Clock.result?_exact, Option.some.injEq] at h
    grind
  | never | oversized => simp [next] at h

/-- On exact times the tick after a poll is a sum of intervals. -/
theorem after_exact {length : Rat} (positive : 0 < length) (tick now : Rat) :
    (every length positive).after .exact tick now =
      some (if tick + length ≤ now then
        tick + length + (((now - (tick + length)) / length).floor + 1 : Int) * length
      else tick + length) := by
  unfold after
  simp only [Clock.result?_exact, bind, Option.bind]
  by_cases hnext : tick + length ≤ now
  · have hbetween : Clock.exact.between (tick + length) now = now - (tick + length) := rfl
    have hround : ∀ r, Clock.exact.round r = r := fun _ => rfl
    simp only [if_pos hnext, hbetween, Clock.wholes?_exact positive, hround, Rat.intCast_add]
    rfl
  · rw [if_neg hnext, if_neg hnext]

/-- The tick after a poll lies ahead of the end of the poll. -/
theorem lt_after {i : Interval} {tick now t : Rat} (h : i.after .exact tick now = some t) :
    now < t := by
  cases i with
  | every length positive =>
    rw [after_exact positive, Option.some.injEq] at h
    subst h
    by_cases hnext : tick + length ≤ now
    · rw [if_pos hnext]
      exact lt_skip positive
    · rw [if_neg hnext]
      exact Rat.not_le.1 hnext
  | never | oversized => simp [after] at h

end Interval

namespace Poller

/-- On exact times a task that is to wait for a tick ahead waits until just that tick. -/
theorem awaitPhase_some {p : Poller} {t : Rat} (hclock : p.clock = .exact) (ht : p.now < t) :
    p.awaitPhase (some t) = .waiting (some { tick := t, due := t }) := by
  have hbetween : p.clock.between p.now t = t - p.now := by
    rw [hclock]
    rfl
  have hahead : ¬ t - p.now ≤ 0 := by
    grind
  have hdue : p.clock.later p.now (t - p.now) = t := by
    rw [hclock]
    show p.now + (t - p.now) = t
    grind
  simp only [awaitPhase, hbetween, if_neg hahead, hdue]

/-- A task that is to wait for a tick ahead does wait. -/
theorem awaitPhase_of_lt {p : Poller} {tick : Tick} (hclock : p.clock = .exact)
    (htick : ∀ t, tick = some t → p.now < t) : ∃ wait, p.awaitPhase tick = .waiting wait := by
  cases tick with
  | none => exact ⟨none, rfl⟩
  | some t => exact ⟨_, awaitPhase_some hclock (htick t rfl)⟩

/-- A task that runs for the first time waits. -/
theorem awaitPhase_next {p : Poller} (hclock : p.clock = .exact) :
    ∃ wait, p.awaitPhase (p.interval.next p.clock p.now) = .waiting wait := by
  apply awaitPhase_of_lt hclock
  rw [hclock]
  exact fun t => Interval.lt_next

/-- A task whose poll has ended waits. -/
theorem awaitPhase_after {p : Poller} (hclock : p.clock = .exact) (tick : Rat) :
    ∃ wait, p.awaitPhase (p.interval.after p.clock tick p.now) = .waiting wait := by
  apply awaitPhase_of_lt hclock
  rw [hclock]
  exact fun t => Interval.lt_after

end Poller

end HookRegistry
