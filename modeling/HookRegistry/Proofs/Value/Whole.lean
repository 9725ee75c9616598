import HookRegistry.Proofs.Value.Parsed
import HookRegistry.Value.Decoder

/-!
# Whole numbers that were read

A whole number has at most as many digits as JSON text may have, whatever it is read from: a
number of the text, a truth value, a double without fraction or a text.
-/

namespace HookRegistry

namespace Value

open Token (digitLimit)

/-- A number below a power of two is small. -/
theorem lt_digitLimit_of_lt_two_pow {n k : Nat} (h : n < 2 ^ k) (hk : k ≤ digitLimit) :
    n < 10 ^ digitLimit := by
  have hbase : 2 ^ k ≤ 10 ^ k := Nat.pow_le_pow_left (by decide) k
  have hexponent : 10 ^ k ≤ 10 ^ digitLimit := Nat.pow_le_pow_right (by decide) hk
  omega

/-- The digits of a whole number in text are limited. -/
theorem natAbs_plainWhole_lt {cs : List Char} {n : Int} (h : plainWhole cs = .ok n) :
    n.natAbs < 10 ^ digitLimit := by
  unfold plainWhole at h
  simp only at h
  split at h
  · cases h
  split at h
  · cases h
  next hlength =>
    split at h
    · cases h
    · have hdigits : Numeral.AllDigits ((Numeral.splitSign cs).2.takeWhile Char.isDigit) :=
        Numeral.all_isDigit_iff.1 List.all_takeWhile
      have hlt := Numeral.natOfDigits_lt hdigits
      have hpow := Nat.pow_le_pow_right (n := 10) (by decide) (Nat.le_of_not_lt hlength)
      cases h
      split <;> omega

theorem natAbs_wholeOfText_lt {cs : List Char} {n : Int} (h : wholeOfText cs = .valid n) :
    n.natAbs < 10 ^ digitLimit := by
  unfold wholeOfText at h
  split at h
  next m hm =>
    cases h
    exact natAbs_plainWhole_lt hm
  next => cases h
  next =>
    split at h
    next m hm =>
      cases h
      obtain ⟨ds, -, hds⟩ := Option.map_eq_some_iff.1 hm
      exact natAbs_plainWhole_lt hds
    next => cases h

theorem natAbs_wholeOfDouble_lt {x : Double} {n : Int} (h : wholeOfDouble x = .valid n) :
    n.natAbs < 10 ^ digitLimit := by
  unfold wholeOfDouble at h
  split at h
  · cases h
  · split at h
    · cases h
    · split at h
      · cases h
      next r _ _ hsize =>
        cases h
        have hlt : r.num.natAbs < 2 ^ 63 := Nat.lt_of_not_le hsize
        exact lt_digitLimit_of_lt_two_pow hlt (by decide)

/-- Whatever a whole number is read from, it can stand in JSON text. -/
theorem natAbs_toWhole_lt {R : Double → Prop} {d : Nat} {v : Value} (hv : OnWire R d v) {n : Int}
    (h : v.toWhole = .valid n) : n.natAbs < 10 ^ digitLimit := by
  cases hv with
  | int hn =>
    cases h
    exact hn
  | bool b =>
    cases h
    have hsmall : (if b = true then (1 : Int) else 0).natAbs < 2 ^ 1 := by cases b <;> decide
    exact lt_digitLimit_of_lt_two_pow hsmall (by decide)
  | real hx => exact natAbs_wholeOfDouble_lt h
  | text s => exact natAbs_wholeOfText_lt h
  | _ => cases h

end Value

end HookRegistry
