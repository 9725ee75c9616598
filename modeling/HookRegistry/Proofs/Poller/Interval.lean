import HookRegistry.Poller.Interval
import HookRegistry.Proofs.Double.Rounding

/-!
# The interval of a span

A span that is given to a poller is taken when it is positive, and five seconds stand for any other
one: `Interval.ofSeconds_eq_every`.  The length of the interval is positive in each case, also where
the span is a whole number that has to be rounded to a double: `Double.nearest_pos`.
-/

namespace HookRegistry

/-- A magnitude of one or more is not rounded to zero. -/
theorem Double.nearest_pos {r : Rat} (hr : 1 ≤ r) :
    nearest false r = .infinite false ∨ ∃ m e, nearest false r = .finite false m e ∧ 0 < m := by
  have hpos : 0 < r := by linarith
  obtain ⟨e, he, -, hhigh, hlow⟩ := exists_exponentFor hpos
  have hexponent : 0 < e + 53 := by
    have hone : (2 : Rat) ^ (0 : Int) < 2 ^ (e + 53) := by
      rw [zpow_zero]
      linarith
    exact lt_of_two_zpow_lt hone
  have hleast : leastExponent = -1074 := rfl
  have hquotient : 2 ^ 52 ≤ quotient r e :=
    two_pow_le_quotient hpos.le (hlow.resolve_right (by omega))
  rw [nearest_eq hpos false he]
  split
  · split
    · exact .inl rfl
    · exact .inr ⟨_, _, rfl, by norm_num⟩
  · split
    · exact .inl rfl
    · exact .inr ⟨_, _, rfl, by omega⟩

/-- A positive span below infinity has a positive length on a clock. -/
theorem Seconds.exists_toRat? {s : Seconds} (hs : s.toDouble ≠ .infinite false)
    (hpositive : s.isPositive = true) : ∃ i, 0 < i ∧ s.toDouble.toRat? = some i := by
  cases s with
  | whole n =>
    have hn : 0 < n := by simpa [isPositive] using hpositive
    have hone : (1 : Rat) ≤ n := by exact_mod_cast hn
    have hnearest : Double.ofInt n = Double.nearest false n := by
      have hsign : decide ((n : Rat) < 0) = false := by
        rw [decide_eq_false_iff_not]
        linarith
      rw [Double.ofInt, Double.ofRat, hsign, Rat.abs_of_nonneg (by linarith)]
    rcases Double.nearest_pos hone with hinfinite | ⟨m, e, hfinite, hm⟩
    · exact absurd (hnearest.trans hinfinite) hs
    · refine ⟨Double.scaled m e, Double.scaled_pos hm e, ?_⟩
      show (Double.ofInt n).toRat? = _
      rw [hnearest, hfinite]
      rfl
  | real x =>
    cases x with
    | nan => cases hpositive
    | infinite negative =>
      cases negative with
      | true => cases hpositive
      | false => exact absurd rfl hs
    | finite negative m e =>
      obtain ⟨hsign, hm⟩ : negative = false ∧ m ≠ 0 := by
        simpa [isPositive, Double.isPositive] using hpositive
      subst hsign
      exact ⟨Double.scaled m e, Double.scaled_pos (Nat.pos_of_ne_zero hm) e, rfl⟩

/-- A span below infinity gives an interval: its own length when it is positive, and five seconds
when it is zero, negative or no number. -/
theorem Interval.ofSeconds_eq_every {s : Seconds}
    (hs : s.isPositive = true → s.toDouble ≠ .infinite false) :
    ∃ i, ∃ hi : 0 < i, ofSeconds s = .every i hi ∧
      (s.isPositive = true → s.toDouble.toRat? = some i) ∧ (s.isPositive = false → i = 5) := by
  cases hpositive : s.isPositive with
  | false =>
    refine ⟨5, by norm_num, ?_, fun h => (by cases h), fun _ => rfl⟩
    unfold ofSeconds
    rw [if_neg (by simp [hpositive])]
    rfl
  | true =>
    obtain ⟨i, hi, hlength⟩ := Seconds.exists_toRat? (hs hpositive) hpositive
    have hrat : ofRat i = .every i hi := dif_pos hi
    refine ⟨i, hi, ?_, fun _ => hlength, fun h => (by cases h)⟩
    unfold ofSeconds
    rw [if_pos hpositive]
    cases s with
    | whole n =>
      have hn : (Double.ofInt n).toRat? = some i := hlength
      simp only [hn, Option.map_some, Option.getD_some, hrat]
    | real x =>
      have hx : x.toRat? = some i := hlength
      simp only [hx, Option.map_some, Option.getD_some, hrat]

/-- A whole number that is beyond every double gives an interval that nothing is computed with. -/
theorem Interval.ofSeconds_eq_oversized {s : Seconds} (hs : s ≠ .real (.infinite false))
    (hpositive : s.isPositive = true) (hinfinite : s.toDouble = .infinite false) :
    ofSeconds s = .oversized := by
  cases s with
  | whole n =>
    have hn : Double.ofInt n = .infinite false := hinfinite
    unfold ofSeconds
    rw [if_pos hpositive]
    simp only [hn, Double.toRat?, Option.map_none, Option.getD_none]
  | real x => exact absurd (congrArg Seconds.real hinfinite) hs

end HookRegistry
