import Mathlib.Algebra.Group.Nat.Defs
import HookRegistry.Double.Numeral
import HookRegistry.Double.Text

/-!
# Decimal digits, written and read

Numbers are written by `Nat.toDigits 10` and `Double.zeroPadded`, and read by
`Numeral.natOfDigits`.  The lemmas here say that the two are inverse to each other, which characters
are written and how many, how large a number of so many digits can be, and how a numeral is taken
apart.
-/

namespace HookRegistry

namespace Numeral

/-- A run of decimal digits. -/
def AllDigits (cs : List Char) : Prop :=
  ∀ c ∈ cs, c.isDigit = true

theorem allDigits_append {cs ds : List Char} (hcs : AllDigits cs) (hds : AllDigits ds) :
    AllDigits (cs ++ ds) := by
  intro c hc
  rcases List.mem_append.1 hc with h | h
  · exact hcs c h
  · exact hds c h

theorem all_isDigit_iff {cs : List Char} : cs.all Char.isDigit = true ↔ AllDigits cs :=
  List.all_eq_true

/-- A run of digits is taken as a whole when no digit follows. -/
theorem takeWhile_isDigit_append {ds rest : List Char} (hds : AllDigits ds)
    (hrest : ∀ c ∈ rest.head?, c.isDigit = false) :
    (ds ++ rest).takeWhile Char.isDigit = ds := by
  rw [List.takeWhile_append_of_pos hds]
  cases rest with
  | nil => simp
  | cons c rest => simp [hrest c rfl]

/-- What follows a run of digits is left over. -/
theorem dropWhile_isDigit_append {ds rest : List Char} (hds : AllDigits ds)
    (hrest : ∀ c ∈ rest.head?, c.isDigit = false) :
    (ds ++ rest).dropWhile Char.isDigit = rest := by
  rw [List.dropWhile_append_of_pos hds]
  cases rest with
  | nil => rfl
  | cons c rest => simp [hrest c rfl]

/-! ## The parts of a numeral -/

/-- Digits without a point, and what follows. -/
theorem ofChars?_plain {cs whole tail : List Char} {sign : Option Char} {e : Option Int}
    (hsign : splitSign cs = (sign, whole ++ tail)) (hwhole : AllDigits whole) (hne : whole ≠ [])
    (htail : ∀ c ∈ tail.head?, c.isDigit = false ∧ c ≠ '.') (he : exponentPart? tail = some e) :
    ofChars? cs = some ⟨sign, whole, none, e⟩ := by
  have hend : ∀ c ∈ tail.head?, c.isDigit = false := fun c hc => (htail c hc).1
  unfold ofChars?
  rw [hsign]
  simp only [takeWhile_isDigit_append hwhole hend, dropWhile_isDigit_append hwhole hend]
  split
  next rest =>
    exact absurd rfl (htail '.' rfl).2
  next => simp [hne, he]

/-- Digits with a point among them, and what follows. -/
theorem ofChars?_fraction {cs whole fraction tail : List Char} {sign : Option Char}
    {e : Option Int} (hsign : splitSign cs = (sign, whole ++ '.' :: (fraction ++ tail)))
    (hwhole : AllDigits whole) (hne : whole ≠ []) (hfraction : AllDigits fraction)
    (htail : ∀ c ∈ tail.head?, c.isDigit = false) (he : exponentPart? tail = some e) :
    ofChars? cs = some ⟨sign, whole, some fraction, e⟩ := by
  have hpoint : ∀ c ∈ ('.' :: (fraction ++ tail)).head?, c.isDigit = false := by
    rintro c ⟨⟩
    rfl
  simp [ofChars?, hsign, takeWhile_isDigit_append hwhole hpoint,
    dropWhile_isDigit_append hwhole hpoint, takeWhile_isDigit_append hfraction htail,
    dropWhile_isDigit_append hfraction htail, he, hne]

/-! ## Plain numbers -/

theorem allDigits_toDigits (n : Nat) : AllDigits (Nat.toDigits 10 n) :=
  fun _ hc => Nat.isDigit_of_mem_toDigits (by decide) (by decide) hc

@[simp] theorem natOfDigits_toDigits (n : Nat) : natOfDigits (Nat.toDigits 10 n) = n :=
  Nat.ofDigitChars_ten_toDigits

/-- Only zero is written with a zero in front. -/
theorem length_toDigits_of_head_zero {n : Nat} (h : (Nat.toDigits 10 n).head? = some '0') :
    (Nat.toDigits 10 n).length = 1 := by
  induction n using Nat.base_induction 10 (by decide) with
  | single m hm => simp [Nat.toDigits_of_lt_base hm]
  | digit m k hk hm ih =>
    rw [← Nat.toDigits_append_toDigits (by decide) hm hk] at h
    obtain ⟨c, cs, hcs⟩ := List.exists_cons_of_ne_nil (Nat.toDigits_ne_nil (n := m) (b := 10))
    rw [hcs] at h ih
    have hlength := ih (by simpa using h)
    have hzero : Nat.toDigits 10 m = ['0'] := by
      rw [hcs]
      simp_all
    have hm0 : m = 0 := by
      rw [← natOfDigits_toDigits m, hzero]
      rfl
    omega

/-- A digit stands for a number below ten. -/
theorem toNat_sub_of_isDigit {c : Char} (h : c.isDigit = true) : c.toNat - '0'.toNat < 10 := by
  simp only [Char.isDigit, Bool.and_eq_true, decide_eq_true_eq] at h
  have hle : c.toNat ≤ 57 := UInt32.le_iff_toNat_le.1 h.2
  have hzero : '0'.toNat = 48 := rfl
  omega

/-- A number of `k` digits is less than `10 ^ k`. -/
theorem natOfDigits_lt {ds : List Char} (h : AllDigits ds) : natOfDigits ds < 10 ^ ds.length := by
  induction ds with
  | nil => decide
  | cons d ds ih =>
    have hd : d.toNat - '0'.toNat < 10 := toNat_sub_of_isDigit (h d List.mem_cons_self)
    have hds : natOfDigits ds < 10 ^ ds.length := ih fun c hc => h c (List.mem_cons_of_mem d hc)
    unfold natOfDigits at hds ⊢
    rw [Nat.ofDigitChars_cons, Nat.ofDigitChars_eq_ofDigitChars_zero, List.length_cons,
      Nat.pow_succ]
    generalize d.toNat - '0'.toNat = k at hd
    have hmul : 10 ^ ds.length * (10 * 0 + k) ≤ 10 ^ ds.length * 9 :=
      Nat.mul_le_mul_left _ (by omega)
    omega

/-- Digits behind others count for less by their number. -/
theorem natOfDigits_append (ds es : List Char) :
    natOfDigits (ds ++ es) = 10 ^ es.length * natOfDigits ds + natOfDigits es := by
  unfold natOfDigits
  rw [Nat.ofDigitChars_append, Nat.ofDigitChars_eq_ofDigitChars_zero]

@[simp] theorem natOfDigits_replicate_zero (k : Nat) : natOfDigits (List.replicate k '0') = 0 :=
  Nat.ofDigitChars_replicate_zero

theorem allDigits_replicate_zero (k : Nat) : AllDigits (List.replicate k '0') := by
  intro c hc
  rw [(List.mem_replicate.1 hc).2]
  rfl

/-- A number has as many digits as it takes. -/
theorem lt_pow_length_toDigits (n : Nat) : n < 10 ^ (Nat.toDigits 10 n).length :=
  (Nat.length_toDigits_le_iff (by decide) Nat.length_toDigits_pos).1 (Nat.le_refl _)

theorem pow_length_toDigits_le {n : Nat} (h : 0 < n) :
    10 ^ ((Nat.toDigits 10 n).length - 1) ≤ n := by
  refine Nat.le_of_not_lt fun hlt => ?_
  cases hk : (Nat.toDigits 10 n).length - 1 with
  | zero =>
    rw [hk] at hlt
    omega
  | succ k =>
    rw [hk] at hlt
    have hlength := (Nat.length_toDigits_le_iff (b := 10) (by decide) k.succ_pos).2 hlt
    omega

/-! ## Numbers of a fixed width -/

theorem allDigits_zeroPadded (width n : Nat) : AllDigits (Double.zeroPadded width n) :=
  allDigits_append (allDigits_replicate_zero _) (allDigits_toDigits n)

@[simp] theorem natOfDigits_zeroPadded (width n : Nat) :
    natOfDigits (Double.zeroPadded width n) = n := by
  simp [Double.zeroPadded, natOfDigits_append]

/-- A number that fits the width is written in exactly that width. -/
theorem length_zeroPadded {width n : Nat} (hwidth : 0 < width) (h : n < 10 ^ width) :
    (Double.zeroPadded width n).length = width := by
  have hlength := (Nat.length_toDigits_le_iff (b := 10) (by decide) hwidth).2 h
  simp only [Double.zeroPadded, List.length_append, List.length_replicate]
  omega

end Numeral

end HookRegistry
