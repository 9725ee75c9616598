import HookRegistry.Proofs.Double.Rounding
import HookRegistry.Proofs.Text.Decimal
import HookRegistry.Proofs.Text.Split

/-!
# What the shortest digits stand for

`Significant.value` is the number that significant digits stand for.  The shortest digits of a
double are found within seventeen, and stand for a number in its rounding interval:
`holds_shortest`.
-/

namespace HookRegistry.Significant

open Double (Normal below scaled two_zpow_pos two_zpow_eq)

/-- The number that significant digits stand for. -/
def value (s : Significant) : Rat :=
  Numeral.natOfDigits s.digits * tenPow (s.exponent + 1 - s.digits.length)

/-- Digits that begin with one that is not zero. -/
def Leads (s : Significant) : Prop :=
  Numeral.AllDigits s.digits ∧ ∃ d ds, s.digits = d :: ds ∧ d ≠ '0'

theorem tenPow_pos (k : Int) : 0 < tenPow k := by
  unfold tenPow
  positivity

theorem tenPow_add (k l : Int) : tenPow (k + l) = tenPow k * tenPow l :=
  zpow_add₀ (by norm_num) k l

theorem tenPow_natCast (k : Nat) : tenPow k = ((10 ^ k : Nat) : Rat) := by
  unfold tenPow
  rw [zpow_natCast, Nat.cast_pow, Nat.cast_ofNat]

theorem tenPow_le {k l : Int} (h : k ≤ l) : tenPow k ≤ tenPow l :=
  zpow_le_zpow_right₀ (by norm_num) h

/-! ## Digits of a multiple of a power of ten -/

/-- Zeros at the end are dropped, and nothing else. -/
theorem exists_zeros (c : Nat) (k : Int) :
    ∃ n, Nat.toDigits 10 c = (ofScaled c k).digits ++ List.replicate n '0' := by
  obtain ⟨zeros, hzeros, hall⟩ := Text.exists_stripRight_append (· == '0') (Nat.toDigits 10 c)
  have hrepeat : zeros = List.replicate zeros.length '0' :=
    List.eq_replicate_of_mem fun d hd => beq_iff_eq.1 (hall d hd)
  rw [hrepeat] at hzeros
  exact ⟨zeros.length, hzeros⟩

theorem leads_ofScaled {c : Nat} (hc : 0 < c) (k : Int) : (ofScaled c k).Leads := by
  obtain ⟨n, hn⟩ := exists_zeros c k
  have hdigits := Numeral.allDigits_toDigits c
  rw [hn] at hdigits
  refine ⟨fun d hd => hdigits d (List.mem_append_left _ hd), ?_⟩
  have hvalue := Numeral.natOfDigits_toDigits c
  rw [hn, Numeral.natOfDigits_append, Numeral.natOfDigits_replicate_zero] at hvalue
  cases hcs : (ofScaled c k).digits with
  | nil =>
    rw [hcs] at hvalue
    have hzero : Numeral.natOfDigits [] = 0 := rfl
    rw [hzero] at hvalue
    omega
  | cons d ds =>
    refine ⟨d, ds, rfl, ?_⟩
    rintro rfl
    rw [hcs] at hn
    have hlength := Numeral.length_toDigits_of_head_zero (n := c) (by rw [hn]; rfl)
    have hzero : Nat.toDigits 10 c = ['0'] := by
      rw [hn] at hlength ⊢
      have hrest : ds ++ List.replicate n '0' = [] :=
        List.length_eq_zero_iff.1 (by simpa using hlength)
      rw [List.cons_append, hrest]
    have hvalue' := Numeral.natOfDigits_toDigits c
    rw [hzero] at hvalue'
    have : Numeral.natOfDigits ['0'] = 0 := rfl
    omega

/-- The digits of a multiple of a power of ten stand for it. -/
theorem value_ofScaled (c : Nat) (k : Int) : (ofScaled c k).value = c * tenPow k := by
  obtain ⟨n, hn⟩ := exists_zeros c k
  have hvalue := Numeral.natOfDigits_toDigits c
  have hlength := congrArg List.length hn
  have hexponent : (ofScaled c k).exponent = k + (Nat.toDigits 10 c).length - 1 := rfl
  rw [hn, Numeral.natOfDigits_append, Numeral.natOfDigits_replicate_zero, List.length_replicate,
    Nat.add_zero] at hvalue
  rw [List.length_append, List.length_replicate] at hlength
  have hpower : (ofScaled c k).exponent + 1 - (ofScaled c k).digits.length = k + n := by
    rw [hexponent, hlength]
    push_cast
    ring
  rw [value, hpower, tenPow_add, tenPow_natCast]
  conv_rhs => rw [← hvalue]
  push_cast
  ring

/-! ## The grid -/

variable {i : Interval} {v : Rat} {k : Int}

theorem holds_of_lt {r : Rat} (hlow : i.low < r) (hhigh : r < i.high) : i.holds r = true := by
  unfold Interval.holds
  split
  · simp [hlow.le, hhigh.le]
  · simp [hlow, hhigh]

/-- What is found on a grid lies in the interval. -/
theorem holds_of_onGrid? {c : Nat} (h : onGrid? i v k = some c) :
    i.holds (c * tenPow k) = true := by
  unfold onGrid? at h
  simp only at h
  split at h
  next hbelow habove =>
    split at h
    · cases h
      exact hbelow
    · split at h
      · cases h
        exact habove
      · split at h
        · cases h
          exact hbelow
        · cases h
          exact habove
  next hbelow _ =>
    cases h
    exact hbelow
  next _ habove =>
    cases h
    exact habove
  next => cases h

/-- An interval around a number that is wider than the grid has something of the grid in it. -/
theorem onGrid?_ne_none (hv : 0 ≤ v) (hlow : i.low < v) (hhigh : v < i.high)
    (hwide : tenPow k < i.high - i.low) : onGrid? i v k ≠ none := by
  intro hnone
  have hk := tenPow_pos k
  have hfloor : (((v / tenPow k).floor.toNat : Nat) : Rat) = (v / tenPow k).floor := by
    rw [← Int.cast_natCast, Int.toNat_of_nonneg]
    exact Rat.le_floor_iff.2 (div_nonneg hv hk.le)
  have hbelow : ((v / tenPow k).floor.toNat : Rat) * tenPow k ≤ v := by
    rw [hfloor, ← le_div_iff₀ hk]
    exact Rat.floor_le _
  have habove : v < (((v / tenPow k).floor.toNat + 1 : Nat) : Rat) * tenPow k := by
    rw [Nat.cast_succ, hfloor, ← div_lt_iff₀ hk]
    exact_mod_cast Rat.lt_floor_add_one _
  unfold onGrid? at hnone
  simp only at hnone
  generalize (v / tenPow k).floor.toNat = c at hbelow habove hnone
  split at hnone
  · split at hnone
    · cases hnone
    · split at hnone
      · cases hnone
      · split at hnone <;> cases hnone
  · cases hnone
  · cases hnone
  next hout hout' =>
    -- both neighbours on the grid lie outside, so it is no finer than the interval
    have hleft : (c : Rat) * tenPow k ≤ i.low := by
      by_contra hin
      rw [holds_of_lt (not_le.1 hin) (hbelow.trans_lt hhigh)] at hout
      cases hout
    have hright : i.high ≤ ((c + 1 : Nat) : Rat) * tenPow k := by
      by_contra hin
      rw [holds_of_lt (hlow.trans habove) (not_le.1 hin)] at hout'
      cases hout'
    push_cast at hright
    linarith

/-! ## The shortest digits -/

/-- The first digit does not stand above the number. -/
theorem tenPow_leadingExponent_le {r : Rat} (hr : 0 < r) : tenPow (leadingExponent r) ≤ r := by
  have hnum := Numeral.pow_length_toDigits_le (Nat.pos_of_ne_zero (Double.natAbs_num_ne_zero hr))
  have hden := Numeral.lt_pow_length_toDigits r.den
  have hdigits : 0 < (Nat.toDigits 10 r.num.natAbs).length := Nat.length_toDigits_pos
  have hratio := Double.mul_den_eq hr.le
  unfold leadingExponent
  simp only
  generalize (Nat.toDigits 10 r.num.natAbs).length = a at hnum hdigits
  generalize (Nat.toDigits 10 r.den).length = b at hden
  split
  next h => exact h
  next =>
    have hd : (0 : Rat) < r.den := Nat.cast_pos.2 r.den_pos
    have hnum' : ((10 ^ (a - 1) : Nat) : Rat) ≤ r * r.den := by
      rw [hratio]
      exact Nat.cast_le.2 hnum
    have hden' : (r.den : Rat) ≤ ((10 ^ b : Nat) : Rat) := Nat.cast_le.2 hden.le
    have hexponent : (a : Int) - b - 1 + b = ((a - 1 : Nat) : Int) := by omega
    have hsplit := tenPow_add ((a : Int) - b - 1) b
    rw [hexponent, tenPow_natCast, tenPow_natCast] at hsplit
    have hpos := tenPow_pos ((a : Int) - b - 1)
    have hle : tenPow ((a : Int) - b - 1) * r.den ≤ r * r.den := by nlinarith
    exact le_of_mul_le_mul_right hle hd

/-- Sixteen digits behind the first are finer than the rounding interval. -/
theorem tenPow_lt_width {m : Nat} {e : Int} (hm : 0 < m) (hbits : m < 2 ^ 53) :
    tenPow (leadingExponent (scaled m e) - 16) <
      (roundingInterval m e).high - (roundingInterval m e).low := by
  have hpos : 0 < scaled m e := by
    unfold scaled
    have := two_zpow_pos e
    positivity
  have hfirst := tenPow_leadingExponent_le hpos
  have hfiner := tenPow_add (leadingExponent (scaled m e) - 16) 16
  have hten : tenPow 16 = 10 ^ 16 := rfl
  rw [Int.sub_add_cancel, hten] at hfiner
  rw [hfiner] at hfirst
  generalize tenPow (leadingExponent (scaled m e) - 16) = spacing at hfirst ⊢
  rw [Double.roundingInterval_eq]
  unfold scaled at hfirst
  have hunit := two_zpow_pos (e - 1 - 1)
  have hquarter : e - 2 = e - 1 - 1 := by ring
  simp only [below, hquarter]
  rw [two_zpow_eq e, two_zpow_eq (e - 1)] at hfirst
  rw [two_zpow_eq e, two_zpow_eq (e - 1)]
  split
  next hlowest =>
    have hm52 : (m : Rat) = 2 ^ 52 := by exact_mod_cast hlowest.1
    rw [hm52] at hfirst ⊢
    linarith
  next =>
    have hm53 : (m : Rat) < 2 ^ 53 := by exact_mod_cast hbits
    nlinarith

/-- The shortest digits are those of a number in the rounding interval. -/
theorem exists_shortest {m : Nat} {e : Int} (hm : 0 < m) (hbits : m < 2 ^ 53) :
    ∃ c k, shortest m e = ofScaled c k ∧ (roundingInterval m e).holds (c * tenPow k) = true := by
  have hlow : (roundingInterval m e).low < scaled m e := by
    rw [Double.roundingInterval_eq]
    exact sub_lt_self _ (Double.below_pos m e)
  have hhigh : scaled m e < (roundingInterval m e).high := by
    rw [Double.roundingInterval_eq]
    exact lt_add_of_pos_right _ (two_zpow_pos _)
  have hpos : 0 ≤ scaled m e := by
    unfold scaled
    have := two_zpow_pos e
    positivity
  unfold shortest
  simp only
  split
  next s hs =>
    obtain ⟨n, -, hn⟩ := List.exists_of_findSome?_eq_some hs
    obtain ⟨c, hc, rfl⟩ := Option.map_eq_some_iff.1 hn
    exact ⟨c, _, rfl, holds_of_onGrid? hc⟩
  next hs =>
    have hlast := List.findSome?_eq_none_iff.1 hs 16 (by decide)
    rw [Option.map_eq_none_iff] at hlast
    exact absurd hlast (onGrid?_ne_none hpos hlow hhigh (tenPow_lt_width hm hbits))

/-! ## The range -/

/-- Three bits are less than a digit. -/
theorem two_zpow_lt_tenPow : (2 : Rat) ^ (1200 : Int) < tenPow 400 := by
  have hbits : (2 : Rat) ^ (3 * 400) < 10 ^ 400 := by
    rw [pow_mul]
    exact pow_lt_pow_left₀ (by norm_num) (by norm_num) (by decide)
  exact hbits

theorem tenPow_lt_two_zpow : tenPow (-400) < (2 : Rat) ^ (-1200 : Int) := by
  have hten : tenPow (-400) = (tenPow 400)⁻¹ := zpow_neg _ _
  have htwo : (2 : Rat) ^ (-1200 : Int) = ((2 : Rat) ^ (1200 : Int))⁻¹ := zpow_neg _ _
  rw [hten, htwo]
  exact inv_strictAnti₀ (two_zpow_pos _) two_zpow_lt_tenPow

/-- What rounds to a finite number other than zero is neither very large nor very small. -/
theorem bounds_of_normal {m : Nat} {e : Int} (hm : Normal m e) (hpos : 0 < m) {r : Rat}
    (h : (roundingInterval m e).holds r = true) : tenPow (-400) < r ∧ r < tenPow 400 := by
  obtain ⟨hlow, hhigh, -⟩ := Double.bounds_of_holds h
  have hbelow := Double.below_le m e
  have hhalf := two_zpow_eq e
  have hunit := two_zpow_pos (e - 1)
  have hleast : -1074 ≤ e := hm.least
  have hgreatest : e ≤ 971 := hm.greatest
  constructor
  · have hone : (1 : Rat) ≤ m := by exact_mod_cast hpos
    have hsmallest : (2 : Rat) ^ (-1200 : Int) ≤ 2 ^ (e - 1) :=
      zpow_le_zpow_right₀ (by norm_num) (by omega)
    calc tenPow (-400) < (2 : Rat) ^ (-1200 : Int) := tenPow_lt_two_zpow
      _ ≤ 2 ^ (e - 1) := hsmallest
      _ ≤ m * 2 ^ e - below m e := by nlinarith
      _ ≤ r := hlow
  · have hbits : ((m + 1 : Nat) : Rat) ≤ (2 ^ 53 : Nat) := Nat.cast_le.2 hm.bits
    have hlargest : (2 : Rat) ^ (e + ((53 : Nat) : Int)) ≤ 2 ^ (1200 : Int) :=
      zpow_le_zpow_right₀ (by norm_num) (by push_cast; omega)
    calc r ≤ m * 2 ^ e + 2 ^ (e - 1) := hhigh
      _ ≤ ((m + 1 : Nat) : Rat) * 2 ^ e := by
        push_cast
        linarith
      _ ≤ ((2 ^ 53 : Nat) : Rat) * 2 ^ e :=
        mul_le_mul_of_nonneg_right hbits (two_zpow_pos e).le
      _ = 2 ^ (e + ((53 : Nat) : Int)) := Double.two_pow_mul_zpow 53 e
      _ ≤ 2 ^ (1200 : Int) := hlargest
      _ < tenPow 400 := two_zpow_lt_tenPow

end HookRegistry.Significant
