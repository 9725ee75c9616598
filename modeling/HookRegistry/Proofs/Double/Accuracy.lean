import Mathlib.Algebra.Order.Group.Abs
import HookRegistry.Proofs.Double.Rounding

/-!
# How far rounding goes

`roundOff r` is what becomes of a magnitude `r` where the range of the doubles does not end:
`toRat?_ofRat`.  It lies within half a unit of the last place (`abs_roundOff_sub_le`), not below a
whole number of 53 bits that `r` has reached (`natCast_le_roundOff`), and in the order of the
magnitudes (`roundOff_mono`).  Such a whole number itself stays what it is (`roundOff_natCast`).
-/

namespace HookRegistry.Double

/-! ## Within a half -/

/-- The rounded quotient is within a half of the quotient. -/
theorem divHalfEven_near {n d : Nat} (hd : 0 < d) :
    2 * (divHalfEven n d * d) ≤ 2 * n + d ∧ 2 * n ≤ 2 * (divHalfEven n d * d) + d := by
  have hn : n / d * d + n % d = n := Nat.div_add_mod' n d
  have hr : n % d < d := Nat.mod_lt n hd
  have hup : (n / d + 1) * d = n / d * d + d := by rw [Nat.add_mul, Nat.one_mul]
  unfold divHalfEven
  simp only
  split
  · omega
  · split
    · omega
    · split <;> omega

/-- The magnitude in units of `2 ^ e` is rounded by at most a half of the unit. -/
theorem abs_quotient_sub_le {r : Rat} (hr : 0 ≤ r) (e : Int) :
    |(quotient r e : Rat) * 2 ^ e - r| ≤ 2 ^ (e - 1) := by
  obtain ⟨n, d, hd, hquotient, hnd⟩ := exists_quotient hr e
  have hd' : (0 : Rat) < d := Nat.cast_pos.2 hd
  obtain ⟨hlow, hhigh⟩ := divHalfEven_near (n := n) hd
  rw [← hquotient] at hlow hhigh
  have hlow' : 2 * ((quotient r e : Rat) * d) ≤ 2 * n + d := by exact_mod_cast hlow
  have hhigh' : 2 * (n : Rat) ≤ 2 * (quotient r e * d) + d := by exact_mod_cast hhigh
  have hhalf := two_zpow_pos (e - 1)
  rw [two_zpow_eq e] at hnd ⊢
  generalize (2 : Rat) ^ (e - 1) = half at *
  rw [abs_le]
  constructor
  · have h : (-half) * d ≤ ((quotient r e : Rat) * (2 * half) - r) * d := by
      nlinarith [mul_le_mul_of_nonneg_right hhigh' hhalf.le]
    exact le_of_mul_le_mul_right h hd'
  · have h : ((quotient r e : Rat) * (2 * half) - r) * d ≤ half * d := by
      nlinarith [mul_le_mul_of_nonneg_right hlow' hhalf.le]
    exact le_of_mul_le_mul_right h hd'

/-- A greater magnitude has no smaller quotient: two magnitudes within half a unit of different
numbers are in the order of these. -/
theorem quotient_mono {r s : Rat} (hr : 0 ≤ r) (h : r ≤ s) (e : Int) :
    quotient r e ≤ quotient s e := by
  by_contra hlt
  have hmore : (quotient s e : Rat) + 1 ≤ quotient r e := by
    exact_mod_cast Nat.succ_le_of_lt (not_le.1 hlt)
  have hbelow := (abs_le.1 (abs_quotient_sub_le hr e)).2
  have habove := (abs_le.1 (abs_quotient_sub_le (hr.trans h) e)).1
  have hunit := two_zpow_pos (e - 1)
  rw [two_zpow_eq e] at hbelow habove
  generalize (2 : Rat) ^ (e - 1) = half at *
  have heq : r = s := by nlinarith
  rw [heq] at hlt
  exact hlt le_rfl

/-! ## The rounded magnitude -/

/-- A magnitude, rounded as the one of a double is, over any range. -/
def roundOff (r : Rat) : Rat :=
  quotient r (exponentFor r.num.natAbs r.den) * 2 ^ exponentFor r.num.natAbs r.den

/-- A magnitude below a power of two has an exponent that is 53 less, unless that is less than the
least. -/
theorem exponent_le_of_lt {r : Rat} {e k : Int} (hk : leastExponent + 53 ≤ k)
    (hbits : (2 : Rat) ^ (e + 52) ≤ r ∨ e = leastExponent) (h : r < 2 ^ k) : e ≤ k - 53 := by
  rcases hbits with hlow | hleast
  · have := lt_of_two_zpow_lt (hlow.trans_lt h)
    omega
  · omega

/-- Rounding moves a magnitude below a power of two by half a unit of the last place at most. -/
theorem abs_roundOff_sub_le {r : Rat} (hr : 0 < r) {k : Int} (hk : leastExponent + 53 ≤ k)
    (h : r < 2 ^ k) : |roundOff r - r| ≤ 2 ^ (k - 54) := by
  obtain ⟨e, he, -, -, hbits⟩ := exists_exponentFor hr
  have hle := exponent_le_of_lt hk hbits h
  rw [roundOff, he]
  exact (abs_quotient_sub_le hr.le e).trans (zpow_le_zpow_right₀ (by norm_num) (by omega))

/-- A whole number is one of units below one. -/
theorem natCast_units (n : Nat) {e : Int} (he : e ≤ 0) :
    ((n * 2 ^ (-e).toNat : Nat) : Rat) * 2 ^ e = n := by
  have hpow : ((2 ^ (-e).toNat : Nat) : Rat) * 2 ^ e = 1 := by
    rw [two_pow_mul_zpow, Int.toNat_of_nonneg (by omega), add_neg_cancel, zpow_zero]
  rw [Nat.cast_mul, mul_assoc, hpow, mul_one]

/-- A whole number of 53 bits stays within reach. -/
theorem natCast_le_roundOff {r : Rat} (hr : 0 < r) {n : Nat} (hn : (n : Rat) ≤ r)
    (h : r < 2 ^ (53 : Int)) : (n : Rat) ≤ roundOff r := by
  obtain ⟨e, he, -, -, hbits⟩ := exists_exponentFor hr
  have hle : e ≤ 53 - 53 := exponent_le_of_lt (by decide) hbits h
  rw [roundOff, he]
  calc (n : Rat) = ((n * 2 ^ (-e).toNat : Nat) : Rat) * 2 ^ e := (natCast_units n hle).symm
    _ ≤ quotient r e * 2 ^ e := by
      refine mul_le_mul_of_nonneg_right (Nat.cast_le.2 (le_quotient hr.le ?_)) (two_zpow_pos e).le
      rw [natCast_units n hle]
      exact hn

/-- A whole number of 53 bits is not moved. -/
theorem roundOff_natCast {n : Nat} (hn : 0 < n) (h : n < 2 ^ 53) : roundOff n = n := by
  have hpos : (0 : Rat) < n := Nat.cast_pos.2 hn
  have hlt : (n : Rat) < 2 ^ (53 : Int) := by exact_mod_cast h
  obtain ⟨e, he, -, -, hbits⟩ := exists_exponentFor hpos
  have hle : e ≤ 53 - 53 := exponent_le_of_lt (by decide) hbits hlt
  have hunits := natCast_units n hle
  have hhalf := two_zpow_pos (e - 1)
  have hquotient : quotient n e = n * 2 ^ (-e).toNat := by
    refine quotient_of_near hpos.le ?_ ?_ (.inr ⟨?_, ?_⟩) <;> rw [hunits] <;> linarith
  rw [roundOff, he, hquotient, hunits]

/-- Rounding keeps the order: within a binade by the quotients, and between two of them since each
magnitude stays in its own, ends included. -/
theorem roundOff_mono {r s : Rat} (hr : 0 < r) (h : r ≤ s) : roundOff r ≤ roundOff s := by
  obtain ⟨e, he, hleast, hhigh, hbits⟩ := exists_exponentFor hr
  obtain ⟨e', he', hleast', hhigh', hbits'⟩ := exists_exponentFor (hr.trans_le h)
  have hle : e ≤ e' := by
    rcases hbits with hlow | hleast
    · have := lt_of_two_zpow_lt (hlow.trans_lt (h.trans_lt hhigh'))
      omega
    · omega
  rw [roundOff, roundOff, he, he']
  rcases hle.eq_or_lt with rfl | hlt
  · exact mul_le_mul_of_nonneg_right (Nat.cast_le.2 (quotient_mono hr.le h e)) (two_zpow_pos e).le
  · have hlow' : (2 : Rat) ^ (e' + 52) ≤ s := hbits'.resolve_right (by omega)
    have hmost : quotient r e ≤ 2 ^ 53 := quotient_le_two_pow hr.le hhigh
    have hfull : 2 ^ 52 ≤ quotient s e' := two_pow_le_quotient (hr.le.trans h) hlow'
    calc (quotient r e : Rat) * 2 ^ e ≤ ((2 ^ 53 : Nat) : Rat) * 2 ^ e :=
          mul_le_mul_of_nonneg_right (Nat.cast_le.2 hmost) (two_zpow_pos e).le
      _ = 2 ^ (e + (53 : Nat)) := two_pow_mul_zpow 53 e
      _ ≤ 2 ^ (e' + (52 : Nat)) := zpow_le_zpow_right₀ (by norm_num) (by push_cast; omega)
      _ = ((2 ^ 52 : Nat) : Rat) * 2 ^ e' := (two_pow_mul_zpow 52 e').symm
      _ ≤ quotient s e' * 2 ^ e' :=
          mul_le_mul_of_nonneg_right (Nat.cast_le.2 hfull) (two_zpow_pos e').le

theorem roundOff_nonneg (r : Rat) : 0 ≤ roundOff r :=
  mul_nonneg (Nat.cast_nonneg _) (two_zpow_pos _).le

/-! ## The nearest double -/

/-- A magnitude far from the end of the range becomes a finite double. -/
theorem toRat?_ofRat {r : Rat} (hr : 0 < r) (h : r < 2 ^ (1023 : Int)) :
    (ofRat r).toRat? = some (roundOff r) := by
  obtain ⟨e, he, -, -, hbits⟩ := exists_exponentFor hr
  have hle := exponent_le_of_lt (by decide) hbits h
  have hrange : ¬ greatestExponent < e + 1 := by
    unfold greatestExponent
    omega
  have hrange' : ¬ greatestExponent < e := by omega
  have hsign : decide (r < 0) = false := decide_eq_false hr.le.not_gt
  rw [ofRat, hsign, Rat.abs_of_nonneg hr.le, nearest_eq hr false he, roundOff, he, if_neg hrange,
    if_neg hrange']
  split
  next hcarry =>
    have hvalue : scaled (2 ^ 52) (e + 1) = (quotient r e : Rat) * 2 ^ e := by
      have hup : e + 1 + (52 : Nat) = e + (53 : Nat) := by push_cast; ring
      rw [hcarry, scaled, two_pow_mul_zpow, two_pow_mul_zpow, hup]
    simp only [toRat?, hvalue, Bool.false_eq_true, if_false]
  next => rfl

/-- A whole number of 53 bits is the value of its double. -/
theorem toRat?_ofInt_natCast {n : Nat} (h : n < 2 ^ 53) : (ofInt n).toRat? = some (n : Rat) := by
  have hcast : ((n : Int) : Rat) = n := Int.cast_natCast n
  rw [ofInt, hcast]
  rcases Nat.eq_zero_or_pos n with rfl | hn
  · simp [ofRat, nearest, toRat?, scaled]
  · have hlt : (n : Rat) < 2 ^ (1023 : Int) := by
      have hbits : (n : Rat) < 2 ^ (53 : Int) := by exact_mod_cast h
      exact hbits.trans_le (zpow_le_zpow_right₀ (by norm_num) (by norm_num))
    rw [toRat?_ofRat (Nat.cast_pos.2 hn) hlt, roundOff_natCast hn h]

/-- Rounding keeps the sign. -/
theorem nearest_sign (negative : Bool) (r : Rat) :
    nearest negative r = .infinite negative ∨ ∃ m e, nearest negative r = .finite negative m e := by
  have hpair : ∀ p : Nat × Int,
      (if greatestExponent < p.2 then infinite negative else finite negative p.1 p.2) =
        infinite negative ∨
      ∃ m e, (if greatestExponent < p.2 then infinite negative else finite negative p.1 p.2) =
        finite negative m e := by
    intro p
    split
    · exact .inl rfl
    · exact .inr ⟨_, _, rfl⟩
  unfold nearest
  simp only
  split
  · exact .inr ⟨_, _, rfl⟩
  · exact hpair _

/-- What is not positive is not rounded to anything positive. -/
theorem toRat?_ofRat_nonpos {r q : Rat} (hr : r ≤ 0) (h : (ofRat r).toRat? = some q) : q ≤ 0 := by
  rcases hr.eq_or_lt with rfl | hneg
  · cases h
    simp [scaled]
  · have hsign : decide (r < 0) = true := decide_eq_true hneg
    rw [ofRat, hsign] at h
    rcases nearest_sign true r.abs with hinfinite | ⟨m, e, hfinite⟩
    · rw [hinfinite] at h
      cases h
    · rw [hfinite] at h
      cases h
      exact neg_nonpos.2 (mul_nonneg (Nat.cast_nonneg m) (two_zpow_pos e).le)

end HookRegistry.Double
