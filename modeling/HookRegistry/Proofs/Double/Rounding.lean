import Mathlib.Algebra.Order.Field.Power
import Mathlib.Data.Int.Log
import Mathlib.Data.Rat.Floor
import Mathlib.Tactic.FieldSimp
import Mathlib.Tactic.Linarith
import Mathlib.Tactic.Positivity
import Mathlib.Tactic.Ring
import HookRegistry.Double.Shortest

/-!
# What rounds to a double

A rounded number has 53 significant bits, fewer only at the least exponent: `nearest_normal`.  So
the finite ones are bounded: `floor_ofRat_le`.  A rational number in the rounding interval of such a
number rounds to it: `nearest_of_holds`.  At the lower end of a binade the interval reaches into the
binade below, where the significand is carried up again.
-/

namespace HookRegistry.Double

/-- Significands and exponents of rounded numbers. -/
structure Normal (m : Nat) (e : Int) : Prop where
  bits : m < 2 ^ 53
  least : leastExponent ≤ e
  greatest : e ≤ greatestExponent
  full : 2 ^ 52 ≤ m ∨ e = leastExponent

/-- A double as rounding gives it. -/
def Rounded : Double → Prop
  | .finite _ m e => Normal m e
  | _ => True

theorem normal_zero : Normal 0 leastExponent :=
  ⟨by decide, Int.le_refl _, by decide, .inr rfl⟩

theorem two_zpow_pos (e : Int) : (0 : Rat) < 2 ^ e := by
  positivity

theorem scaled_pos {m : Nat} (hm : 0 < m) (e : Int) : 0 < scaled m e :=
  mul_pos (Nat.cast_pos.2 hm) (two_zpow_pos e)

/-- A power of two in units of another one. -/
theorem two_pow_mul_zpow (k : Nat) (e : Int) : ((2 ^ k : Nat) : Rat) * 2 ^ e = 2 ^ (e + k) := by
  rw [zpow_add₀ (by norm_num), zpow_natCast, mul_comm, Nat.cast_pow, Nat.cast_ofNat]

/-- Twice a half. -/
theorem two_zpow_eq (e : Int) : (2 : Rat) ^ e = 2 * 2 ^ (e - 1) := by
  have h := two_pow_mul_zpow 1 (e - 1)
  simpa using h.symm

theorem lt_of_two_zpow_lt {a b : Int} (h : (2 : Rat) ^ a < 2 ^ b) : a < b :=
  (zpow_lt_zpow_iff_right₀ (by norm_num)).1 h

/-! ## Halves to even -/

/-- A quotient is rounded down or up by one. -/
theorem divHalfEven_bounds (n d : Nat) :
    n / d ≤ divHalfEven n d ∧ divHalfEven n d ≤ n / d + 1 := by
  unfold divHalfEven
  simp only
  split
  · omega
  · split
    · omega
    · split <;> omega

theorem divHalfEven_le_of_lt_mul {n d k : Nat} (h : n < d * k) : divHalfEven n d ≤ k := by
  have hquotient : n / d < k := Nat.div_lt_of_lt_mul h
  have hbounds := divHalfEven_bounds n d
  omega

theorem le_divHalfEven {n d k : Nat} (hd : 0 < d) (h : k * d ≤ n) : k ≤ divHalfEven n d :=
  ((Nat.le_div_iff_mul_le hd).2 h).trans (divHalfEven_bounds n d).1

/-- The whole number within a half of the quotient, an even one if it is a half away. -/
theorem divHalfEven_eq {n d k : Nat} (hd : 0 < d) (hlow : 2 * (k * d) ≤ 2 * n + d)
    (hhigh : 2 * n ≤ 2 * (k * d) + d)
    (htie : k % 2 = 0 ∨ (2 * (k * d) < 2 * n + d ∧ 2 * n < 2 * (k * d) + d)) :
    divHalfEven n d = k := by
  have hn : n / d * d + n % d = n := Nat.div_add_mod' n d
  have hr : n % d < d := Nat.mod_lt n hd
  unfold divHalfEven
  simp only
  generalize n / d = q at hn ⊢
  generalize n % d = r at hn hr ⊢
  have hqk : q ≤ k := by
    refine Nat.le_of_not_lt fun hlt => ?_
    have hmul : (k + 1) * d ≤ q * d := Nat.mul_le_mul_right d hlt
    rw [Nat.add_mul] at hmul
    omega
  have hkq : k ≤ q + 1 := by
    refine Nat.le_of_not_lt fun hlt => ?_
    have hmul : (q + 2) * d ≤ k * d := Nat.mul_le_mul_right d hlt
    rw [Nat.add_mul] at hmul
    omega
  rcases Nat.lt_or_eq_of_le hqk with hlt | rfl
  · obtain rfl : k = q + 1 := by omega
    rw [Nat.add_mul] at hlow hhigh htie
    split
    · omega
    · split
      · rfl
      · rw [if_neg (by omega)]
  · split
    · rfl
    · split
      · omega
      · rw [if_pos (by omega)]

/-! ## The significand at an exponent -/

/-- The magnitude `r` in units of `2 ^ e`, to the nearest whole number. -/
def quotient (r : Rat) (e : Int) : Nat :=
  if 0 ≤ e then divHalfEven r.num.natAbs (r.den <<< e.toNat)
  else divHalfEven (r.num.natAbs <<< (-e).toNat) r.den

/-- A magnitude times its denominator. -/
theorem mul_den_eq {r : Rat} (hr : 0 ≤ r) : r * r.den = (r.num.natAbs : Rat) := by
  have hnum : ((r.num.natAbs : Int) : Rat) = r.num := by
    rw [Int.natAbs_of_nonneg (Rat.num_nonneg.2 hr)]
  rw [Rat.mul_den_eq_num, ← hnum, Int.cast_natCast]

theorem natAbs_num_ne_zero {r : Rat} (hr : 0 < r) : r.num.natAbs ≠ 0 := by
  rw [Int.natAbs_ne_zero, Ne, Rat.num_eq_zero]
  exact hr.ne'

theorem exists_quotient {r : Rat} (hr : 0 ≤ r) (e : Int) :
    ∃ n d : Nat, 0 < d ∧ quotient r e = divHalfEven n d ∧ (n : Rat) * 2 ^ e = r * d := by
  have hden := mul_den_eq hr
  unfold quotient
  split
  next he =>
    refine ⟨_, _, ?_, rfl, ?_⟩
    · rw [Nat.shiftLeft_eq]
      exact Nat.mul_pos r.den_pos (Nat.two_pow_pos _)
    · have hpow : ((2 ^ e.toNat : Nat) : Rat) = 2 ^ e := by
        rw [Nat.cast_pow, ← zpow_natCast, Int.toNat_of_nonneg he]
        rfl
      rw [Nat.shiftLeft_eq, Nat.cast_mul, hpow, ← hden]
      ring
  next he =>
    refine ⟨_, _, r.den_pos, rfl, ?_⟩
    have hpow : ((2 ^ (-e).toNat : Nat) : Rat) * 2 ^ e = 1 := by
      rw [Nat.cast_pow, ← zpow_natCast, Int.toNat_of_nonneg (by omega), zpow_neg]
      exact inv_mul_cancel₀ (two_zpow_pos e).ne'
    rw [Nat.shiftLeft_eq, Nat.cast_mul, mul_assoc, hpow, ← hden, mul_one]

/-- The whole number within a half of the magnitude, an even one if it is a half away. -/
theorem quotient_of_near {r : Rat} (hr : 0 ≤ r) {k : Nat} {e : Int}
    (hlow : k * (2 : Rat) ^ e - 2 ^ (e - 1) ≤ r) (hhigh : r ≤ k * (2 : Rat) ^ e + 2 ^ (e - 1))
    (htie : k % 2 = 0 ∨
      (k * (2 : Rat) ^ e - 2 ^ (e - 1) < r ∧ r < k * (2 : Rat) ^ e + 2 ^ (e - 1))) :
    quotient r e = k := by
  obtain ⟨n, d, hd, hquotient, hnd⟩ := exists_quotient hr e
  have hd' : (0 : Rat) < d := Nat.cast_pos.2 hd
  have hhalf := two_zpow_pos (e - 1)
  rw [two_zpow_eq e] at hlow hhigh htie hnd
  generalize (2 : Rat) ^ (e - 1) = half at *
  rw [hquotient]
  -- Each bound is the one on `r`, times `d` and over `half`.
  refine divHalfEven_eq hd ?_ ?_ (htie.imp_right fun h => ⟨?_, ?_⟩)
  · have h : (2 * ((k : Rat) * d)) * half ≤ (2 * n + d) * half := by
      nlinarith [mul_le_mul_of_nonneg_right hlow hd'.le]
    exact_mod_cast le_of_mul_le_mul_right h hhalf
  · have h : (2 * (n : Rat)) * half ≤ (2 * (k * d) + d) * half := by
      nlinarith [mul_le_mul_of_nonneg_right hhigh hd'.le]
    exact_mod_cast le_of_mul_le_mul_right h hhalf
  · have h : (2 * ((k : Rat) * d)) * half < (2 * n + d) * half := by
      nlinarith [mul_lt_mul_of_pos_right h.1 hd']
    exact_mod_cast lt_of_mul_lt_mul_right h hhalf.le
  · have h : (2 * (n : Rat)) * half < (2 * (k * d) + d) * half := by
      nlinarith [mul_lt_mul_of_pos_right h.2 hd']
    exact_mod_cast lt_of_mul_lt_mul_right h hhalf.le

theorem quotient_le_of_lt {r : Rat} (hr : 0 ≤ r) {k : Nat} {e : Int} (h : r < k * 2 ^ e) :
    quotient r e ≤ k := by
  obtain ⟨n, d, hd, hquotient, hnd⟩ := exists_quotient hr e
  have hd' : (0 : Rat) < d := Nat.cast_pos.2 hd
  have hlt : (n : Rat) * 2 ^ e < (d * k) * 2 ^ e := by
    rw [hnd]
    nlinarith
  rw [hquotient]
  exact divHalfEven_le_of_lt_mul (by exact_mod_cast lt_of_mul_lt_mul_right hlt (two_zpow_pos e).le)

theorem le_quotient {r : Rat} (hr : 0 ≤ r) {k : Nat} {e : Int} (h : k * 2 ^ e ≤ r) :
    k ≤ quotient r e := by
  obtain ⟨n, d, hd, hquotient, hnd⟩ := exists_quotient hr e
  have hd' : (0 : Rat) < d := Nat.cast_pos.2 hd
  have hle : ((k : Rat) * d) * 2 ^ e ≤ n * 2 ^ e := by
    rw [hnd]
    nlinarith
  rw [hquotient]
  exact le_divHalfEven hd (by exact_mod_cast le_of_mul_le_mul_right hle (two_zpow_pos e))

/-! ## The exponent -/

/-- Every magnitude has 53 bits at some exponent. -/
theorem exists_exponent {r : Rat} (hr : 0 < r) :
    ∃ e : Int, (2 : Rat) ^ (e + 52) ≤ r ∧ r < (2 : Rat) ^ (e + 53) := by
  refine ⟨Int.log 2 r - 52, ?_, ?_⟩
  · have h := Int.zpow_log_le_self (b := 2) (by norm_num) hr
    simpa using h
  · have h := Int.lt_zpow_succ_log_self (b := 2) (by norm_num) r
    have he : Int.log 2 r - 52 + 53 = Int.log 2 r + 1 := by ring
    rw [he]
    simpa using h

/-- The logarithms of numerator and denominator give the exponent up to one. -/
theorem log2_bounds {r : Rat} (hr : 0 < r) :
    (2 : Rat) ^ ((r.num.natAbs.log2 : Int) - r.den.log2 - 1) < r ∧
      r < (2 : Rat) ^ ((r.num.natAbs.log2 : Int) - r.den.log2 + 1) := by
  have hden := mul_den_eq hr.le
  have hd : (0 : Rat) < r.den := Nat.cast_pos.2 r.den_pos
  have hnlow : ((2 ^ r.num.natAbs.log2 : Nat) : Rat) ≤ r.num.natAbs :=
    Nat.cast_le.2 (Nat.log2_self_le (natAbs_num_ne_zero hr))
  have hnhigh : (r.num.natAbs : Rat) < ((2 ^ (r.num.natAbs.log2 + 1) : Nat) : Rat) :=
    Nat.cast_lt.2 Nat.lt_log2_self
  have hdlow : ((2 ^ r.den.log2 : Nat) : Rat) ≤ r.den := Nat.cast_le.2 (Nat.log2_self_le r.den_nz)
  have hdhigh : (r.den : Rat) < ((2 ^ (r.den.log2 + 1) : Nat) : Rat) :=
    Nat.cast_lt.2 Nat.lt_log2_self
  generalize r.num.natAbs.log2 = a at *
  generalize r.den.log2 = b at *
  rw [← hden] at hnlow hnhigh
  push_cast at hnlow hnhigh hdlow hdhigh
  have hb := two_zpow_pos (b : Int)
  constructor
  · have hsplit : (2 : Rat) ^ ((a : Int) - b - 1) * 2 ^ (b + 1) = 2 ^ a := by
      rw [← zpow_natCast, ← zpow_natCast, ← zpow_add₀ (by norm_num)]
      congr 1
      push_cast
      ring
    have hlt : (2 : Rat) ^ ((a : Int) - b - 1) * r.den < r * r.den := by
      have hpos := two_zpow_pos ((a : Int) - b - 1)
      nlinarith
    exact lt_of_mul_lt_mul_right hlt hd.le
  · have hsplit : (2 : Rat) ^ ((a : Int) - b + 1) * 2 ^ b = 2 ^ (a + 1) := by
      rw [← zpow_natCast, ← zpow_natCast, ← zpow_add₀ (by norm_num)]
      congr 1
      push_cast
      ring
    have hlt : r * r.den < (2 : Rat) ^ ((a : Int) - b + 1) * r.den := by
      have hpos := two_zpow_pos ((a : Int) - b + 1)
      nlinarith
    exact lt_of_mul_lt_mul_right hlt hd.le

/-- The exponent at which a magnitude has 53 bits is the one that is picked, unless it is less
than the least. -/
theorem exponentFor_eq {r : Rat} {e : Int} (hlow : (2 : Rat) ^ (e + 52) ≤ r)
    (hhigh : r < (2 : Rat) ^ (e + 53)) :
    exponentFor r.num.natAbs r.den = max e leastExponent := by
  have hr : 0 < r := (two_zpow_pos _).trans_le hlow
  obtain ⟨hbelow, habove⟩ := log2_bounds hr
  have hratio : (r.num.natAbs : Rat) / (r.den : Rat) = r := by
    rw [← mul_den_eq hr.le]
    exact mul_div_cancel_right₀ r (Nat.cast_ne_zero.2 r.den_nz)
  have hmost := lt_of_two_zpow_lt (hlow.trans_lt habove)
  have hleast := lt_of_two_zpow_lt (hbelow.trans hhigh)
  unfold exponentFor
  simp only [hratio]
  congr 1
  split
  next hlt =>
    have := lt_of_two_zpow_lt (hlow.trans_lt hlt)
    omega
  next hle =>
    have := lt_of_two_zpow_lt ((not_lt.1 hle).trans_lt hhigh)
    omega

/-- The exponent of a magnitude is the one at which it has 53 bits, or the least one. -/
theorem exists_exponentFor {r : Rat} (hr : 0 < r) :
    ∃ e, exponentFor r.num.natAbs r.den = e ∧ leastExponent ≤ e ∧ r < (2 : Rat) ^ (e + 53) ∧
      ((2 : Rat) ^ (e + 52) ≤ r ∨ e = leastExponent) := by
  obtain ⟨e, hlow, hhigh⟩ := exists_exponent hr
  refine ⟨_, exponentFor_eq hlow hhigh, le_max_right _ _, ?_, ?_⟩
  · refine hhigh.trans_le (zpow_le_zpow_right₀ (by norm_num) ?_)
    have hle : e ≤ max e leastExponent := le_max_left _ _
    omega
  · refine (max_choice e leastExponent).imp_left fun hmax => ?_
    rw [hmax]
    exact hlow

/-- At that exponent a magnitude has 53 bits, after rounding one more at most. -/
theorem quotient_le_two_pow {r : Rat} (hr : 0 ≤ r) {e : Int} (h : r < (2 : Rat) ^ (e + 53)) :
    quotient r e ≤ 2 ^ 53 := by
  refine quotient_le_of_lt hr ?_
  rw [two_pow_mul_zpow]
  exact h

theorem two_pow_le_quotient {r : Rat} (hr : 0 ≤ r) {e : Int} (h : (2 : Rat) ^ (e + 52) ≤ r) :
    2 ^ 52 ≤ quotient r e := by
  refine le_quotient hr ?_
  rw [two_pow_mul_zpow]
  exact h

/-! ## Rounding -/

/-- Rounding is a quotient, and a carry where that takes one bit more. -/
theorem nearest_eq {r : Rat} (hr : 0 < r) (negative : Bool) {e : Int}
    (he : exponentFor r.num.natAbs r.den = e) :
    nearest negative r =
      if quotient r e = 2 ^ 53 then
        if greatestExponent < e + 1 then .infinite negative else .finite negative (2 ^ 52) (e + 1)
      else if greatestExponent < e then .infinite negative
      else .finite negative (quotient r e) e := by
  have hcarry : (1 <<< 53 : Nat) = 2 ^ 53 := rfl
  have hcarried : (1 <<< 52 : Nat) = 2 ^ 52 := rfl
  unfold nearest
  simp only [if_neg (natAbs_num_ne_zero hr), he, hcarry, hcarried]
  rw [show (if 0 ≤ e then divHalfEven r.num.natAbs (r.den <<< e.toNat)
    else divHalfEven (r.num.natAbs <<< (-e).toNat) r.den) = quotient r e from rfl]
  split <;> rfl

/-- Rounding gives 53 bits, or fewer at the least exponent. -/
theorem nearest_normal {r : Rat} (hr : 0 ≤ r) (negative : Bool) :
    (nearest negative r).Rounded := by
  rcases hr.eq_or_lt with rfl | hr
  · exact normal_zero
  · obtain ⟨e, he, hleast, hhigh, hlow⟩ := exists_exponentFor hr
    rw [nearest_eq hr negative he]
    have hbits : quotient r e ≤ 2 ^ 53 := quotient_le_two_pow hr.le hhigh
    have hfull : 2 ^ 52 ≤ quotient r e ∨ e = leastExponent :=
      hlow.imp_left (two_pow_le_quotient hr.le)
    split
    · split
      · trivial
      next hgreatest =>
        exact ⟨by norm_num, by omega, by omega, .inl (Nat.le_refl _)⟩
    next hcarry =>
      split
      · trivial
      next hgreatest =>
        exact ⟨by omega, hleast, by omega, hfull⟩

/-- A rounded number that is finite is below the end of the range. -/
theorem floor_ofRat_le {r q : Rat} (h : (ofRat r).toRat? = some q) :
    q.floor ≤ ((2 ^ 1024 : Nat) : Int) := by
  have hrounded : (ofRat r).Rounded := nearest_normal Rat.abs_nonneg _
  cases hx : ofRat r with
  | nan | infinite _ =>
    rw [hx] at h
    cases h
  | finite negative m e =>
    rw [hx] at h hrounded
    cases h
    have hm : Normal m e := hrounded
    have hscaled : scaled m e ≤ ((2 ^ 1024 : Nat) : Rat) := by
      have hbits : (m : Rat) ≤ (2 ^ 53 : Nat) := Nat.cast_le.2 hm.bits.le
      have hgreatest : e ≤ 971 := hm.greatest
      calc scaled m e ≤ ((2 ^ 53 : Nat) : Rat) * 2 ^ e :=
            mul_le_mul_of_nonneg_right hbits (two_zpow_pos e).le
        _ = 2 ^ (e + ((53 : Nat) : Int)) := two_pow_mul_zpow 53 e
        _ ≤ 2 ^ ((1024 : Nat) : Int) := zpow_le_zpow_right₀ (by norm_num) (by push_cast; omega)
        _ = ((2 ^ 1024 : Nat) : Rat) := by rw [zpow_natCast, Nat.cast_pow, Nat.cast_ofNat]
    have hpos : 0 ≤ scaled m e := mul_nonneg (Nat.cast_nonneg m) (two_zpow_pos e).le
    have hle : (if negative = true then -scaled m e else scaled m e) ≤
        (((2 ^ 1024 : Nat) : Int) : Rat) := by
      rw [Int.cast_natCast]
      split
      · exact (neg_nonpos.2 hpos).trans (Nat.cast_nonneg _)
      · exact hscaled
    exact (Rat.floor_monotone hle).trans (Rat.floor_intCast _).le

/-! ## Rounding intervals -/

/-- How far below a number its rounding interval reaches. -/
def below (m : Nat) (e : Int) : Rat :=
  if m = 2 ^ 52 ∧ leastExponent < e then 2 ^ (e - 2) else 2 ^ (e - 1)

theorem below_pos (m : Nat) (e : Int) : 0 < below m e := by
  unfold below
  split <;> exact two_zpow_pos _

theorem below_le (m : Nat) (e : Int) : below m e ≤ 2 ^ (e - 1) := by
  unfold below
  split
  · exact zpow_le_zpow_right₀ (by norm_num) (by omega)
  · exact le_refl _

theorem roundingInterval_eq (m : Nat) (e : Int) :
    Significant.roundingInterval m e =
      ⟨m * 2 ^ e - below m e, m * 2 ^ e + 2 ^ (e - 1), m % 2 == 0⟩ := by
  have hone : ∀ k : Int, scaled 1 k = 2 ^ k := fun k => by simp [scaled]
  unfold Significant.roundingInterval
  simp only [hone]
  rfl

/-- A number in the rounding interval, and at an end only if the significand is even. -/
theorem bounds_of_holds {m : Nat} {e : Int} {r : Rat}
    (h : (Significant.roundingInterval m e).holds r = true) :
    m * (2 : Rat) ^ e - below m e ≤ r ∧ r ≤ m * (2 : Rat) ^ e + 2 ^ (e - 1) ∧
      (m % 2 = 0 ∨ (m * (2 : Rat) ^ e - below m e < r ∧ r < m * (2 : Rat) ^ e + 2 ^ (e - 1))) := by
  rw [roundingInterval_eq] at h
  unfold Significant.Interval.holds at h
  simp only at h
  split at h
  next heven =>
    simp only [Bool.and_eq_true, decide_eq_true_eq] at h
    exact ⟨h.1, h.2, .inl (by simpa using heven)⟩
  next =>
    simp only [Bool.and_eq_true, decide_eq_true_eq] at h
    exact ⟨h.1.le, h.2.le, .inr h⟩

/-- The exponent that is picked in the rounding interval of a number is its own, but for the
numbers at the lower end of a binade. -/
theorem exponentFor_of_holds {m : Nat} {e : Int} (hm : Normal m e) {r : Rat} (hpos : 0 < r)
    (hr : (Significant.roundingInterval m e).holds r = true) :
    exponentFor r.num.natAbs r.den = e ∨
      (m = 2 ^ 52 ∧ leastExponent < e ∧ r < (2 : Rat) ^ (e + 52)) := by
  obtain ⟨hlow, hhigh, -⟩ := bounds_of_holds hr
  have hunit := two_zpow_pos (e - 1)
  have hbinade := two_pow_mul_zpow 52 e
  have hnext := two_pow_mul_zpow 53 e
  push_cast at hbinade hnext
  rw [two_zpow_eq e] at hlow hhigh hbinade hnext
  rcases lt_or_ge r (2 ^ (e + 52)) with hless | hfull
  · rcases hm.least.eq_or_lt with hleast | hleast
    · obtain ⟨e', hlow', hhigh'⟩ := exists_exponent hpos
      have hless' := lt_of_two_zpow_lt (hlow'.trans_lt hless)
      left
      rw [exponentFor_eq hlow' hhigh']
      omega
    · refine .inr ⟨?_, hleast, hless⟩
      have hbits : 2 ^ 52 ≤ m := hm.full.resolve_right hleast.ne'
      by_contra hne
      have hmore : (2 : Rat) ^ 52 + 1 ≤ m := by
        have hlt : 2 ^ 52 + 1 ≤ m := by omega
        exact_mod_cast hlt
      have hbelow := below_le m e
      nlinarith
  · left
    have hbits : (m : Rat) + 1 ≤ 2 ^ 53 := by exact_mod_cast hm.bits
    rw [exponentFor_eq hfull (by nlinarith), max_eq_left hm.least]

/-- A magnitude less than a quarter of a unit below a binade is carried up to its lower end. -/
theorem nearest_carried {e : Int} (hleast : leastExponent < e) (hgreatest : e ≤ greatestExponent)
    {r : Rat} (hlow : (2 : Rat) ^ (e + 52) - 2 ^ (e - 2) ≤ r) (hhigh : r < (2 : Rat) ^ (e + 52))
    (negative : Bool) : nearest negative r = .finite negative (2 ^ 52) e := by
  obtain ⟨e, rfl⟩ : ∃ k, e = k + 1 := ⟨e - 1, by omega⟩
  have hunit := two_zpow_pos (e - 1)
  have hhalf := two_zpow_eq e
  have hcarry : ((2 ^ 53 : Nat) : Rat) * 2 ^ e = 2 ^ (e + 53) := two_pow_mul_zpow 53 e
  have hbinade : ((2 ^ 52 : Nat) : Rat) * 2 ^ e = 2 ^ (e + 52) := two_pow_mul_zpow 52 e
  have hup : e + 1 + 52 = e + 53 := by ring
  have hquarter : e + 1 - 2 = e - 1 := by ring
  rw [hup] at hlow hhigh
  rw [hquarter] at hlow
  have hfull : (2 : Rat) ^ (e + 52) ≤ r := by
    push_cast at hbinade hcarry
    nlinarith
  have hpos : 0 < r := (two_zpow_pos _).trans_le hfull
  have he : exponentFor r.num.natAbs r.den = e := by
    rw [exponentFor_eq hfull hhigh]
    omega
  have hquotient : quotient r e = 2 ^ 53 := by
    rw [← hcarry] at hlow hhigh
    refine quotient_of_near hpos.le hlow ?_ (.inl (by norm_num))
    linarith
  rw [nearest_eq hpos negative he, hquotient, if_pos rfl, if_neg (by omega)]

/-- Every magnitude in the rounding interval of a number rounds to it. -/
theorem nearest_of_holds {m : Nat} {e : Int} (hm : Normal m e) {r : Rat} (hpos : 0 < r)
    (hr : (Significant.roundingInterval m e).holds r = true) (negative : Bool) :
    nearest negative r = .finite negative m e := by
  obtain ⟨hlow, hhigh, htie⟩ := bounds_of_holds hr
  rcases exponentFor_of_holds hm hpos hr with he | ⟨rfl, hleast, hless⟩
  · have hbelow := below_le m e
    have hbits := hm.bits
    have hgreatest := hm.greatest
    have hquotient : quotient r e = m :=
      quotient_of_near hpos.le (by linarith) hhigh
        (htie.imp_right fun h => ⟨by linarith [h.1], h.2⟩)
    rw [nearest_eq hpos negative he, hquotient, if_neg (by omega), if_neg (by omega)]
  · have hbinade : ((2 ^ 52 : Nat) : Rat) * 2 ^ e = 2 ^ (e + 52) := two_pow_mul_zpow 52 e
    rw [hbinade, below, if_pos ⟨rfl, hleast⟩] at hlow
    exact nearest_carried hleast hm.greatest hlow hless negative

end HookRegistry.Double
