import HookRegistry.Proofs.Double.Shortest
import HookRegistry.Proofs.Value.Parsed

/-!
# Doubles, written and read

The text of a double has the parts of a numeral whose magnitude is the number that the digits
stand for, whichever way the digits are laid out: `Spells`.  With the rounding interval that makes
`Normal.readsBack`: the wire text of every finite double reads back as it.
-/

namespace HookRegistry

open Significant (tenPow)

/-! ## The parts of a numeral -/

namespace Numeral

/-- The number that a numeral stands for, without its sign. -/
def magnitude (n : Numeral) : Rat :=
  natOfDigits (n.whole ++ n.fraction.getD []) *
    tenPow (n.exponent.getD 0 - (n.fraction.getD []).length)

/-- A written exponent is read back. -/
theorem exponentPart?_write (width : Nat) (e : Int) :
    exponentPart? ('e' :: (if e < 0 then '-' else '+') :: Double.zeroPadded width e.natAbs) =
      some (some e) := by
  have hall := all_isDigit_iff.2 (allDigits_zeroPadded width e.natAbs)
  have hvalue := natOfDigits_zeroPadded width e.natAbs
  have hne : Double.zeroPadded width e.natAbs ≠ [] := by
    simp [Double.zeroPadded, Nat.toDigits_ne_nil]
  generalize Double.zeroPadded width e.natAbs = ds at hall hvalue hne
  by_cases hneg : e < 0
  · have hsplit : splitSign ('-' :: ds) = (some '-', ds) := rfl
    simp only [if_pos hneg, exponentPart?, signedDigits?, hsplit]
    simp [hall, hvalue, hne, abs_of_neg hneg]
  · have hsplit : splitSign ('+' :: ds) = (some '+', ds) := rfl
    simp only [if_neg hneg, exponentPart?, signedDigits?, hsplit]
    simp [hall, hvalue, hne, abs_of_nonneg (not_lt.1 hneg)]

/-- A numeral is read as the double nearest to its magnitude, unless that is far out of range. -/
theorem toDouble_eq {n : Numeral} (hlow : tenPow (-400) < n.magnitude)
    (hhigh : n.magnitude < tenPow 400) : n.toDouble = Double.nearest n.negative n.magnitude := by
  have hten := Significant.tenPow_pos
  unfold toDouble
  unfold magnitude at hlow hhigh ⊢
  simp only
  generalize natOfDigits (n.whole ++ n.fraction.getD []) = k at hlow hhigh ⊢
  generalize n.exponent.getD 0 - ((n.fraction.getD []).length : Int) = e at hlow hhigh ⊢
  have hk : k ≠ 0 := by
    rintro rfl
    have := hten (-400)
    simp at hlow
    linarith
  have hmost := lt_pow_length_toDigits k
  have hleast := pow_length_toDigits_le (Nat.pos_of_ne_zero hk)
  have hdigits : 0 < (Nat.toDigits 10 k).length := Nat.length_toDigits_pos
  generalize (Nat.toDigits 10 k).length = l at hmost hleast hdigits
  have habove : ¬ 400 < e + l := by
    intro htop
    have hcast : tenPow ((l - 1 : Nat) : Int) ≤ k := by
      rw [Significant.tenPow_natCast]
      exact Nat.cast_le.2 hleast
    have hle : tenPow 400 ≤ tenPow (((l - 1 : Nat) : Int) + e) :=
      Significant.tenPow_le (by omega)
    rw [Significant.tenPow_add] at hle
    nlinarith [hten e]
  have hbelow : ¬ e + l < -400 := by
    intro htop
    have hcast : (k : Rat) < tenPow (l : Int) := by
      rw [Significant.tenPow_natCast]
      exact Nat.cast_lt.2 hmost
    have hle : tenPow ((l : Int) + e) ≤ tenPow (-400) := Significant.tenPow_le (by omega)
    rw [Significant.tenPow_add] at hle
    nlinarith [hten e]
  rw [if_neg hk, if_neg habove, if_neg hbelow]
  rfl

/-- A numeral whose magnitude lies in the rounding interval of a double is read as it. -/
theorem toDouble_of_holds {m : Nat} {e : Int} (hm : Double.Normal m e) (hpos : 0 < m)
    {n : Numeral} (h : (Significant.roundingInterval m e).holds n.magnitude = true) :
    n.toDouble = .finite n.negative m e := by
  obtain ⟨hlow, hhigh⟩ := Significant.bounds_of_normal hm hpos h
  rw [toDouble_eq hlow hhigh]
  exact Double.nearest_of_holds hm ((Significant.tenPow_pos _).trans hlow) h n.negative

end Numeral

/-! ## Layouts -/

/-- A text without sign that is read as a number of magnitude `q`, whatever sign is put in
front. -/
structure Spells (cs : List Char) (q : Rat) : Prop where
  chars : ∀ c ∈ cs, Token.isWordChar c = true
  first : ∃ c rest, cs = c :: rest ∧ c.isDigit = true
  reads : ∀ text sign, Numeral.splitSign text = (sign, cs) → sign ≠ some '+' →
    ∃ n : Numeral, Token.number? text = some (.real n.toDouble) ∧ n.sign = sign ∧ n.magnitude = q

open Numeral (AllDigits natOfDigits)

/-- Digits with a point among them, and what follows. -/
theorem spells_fraction {whole fraction tail : List Char} {e : Option Int}
    (hwhole : AllDigits whole) (hne : whole ≠ []) (hzero : whole.head? = some '0' → whole.length = 1)
    (hlength : whole.length ≤ Token.digitLimit) (hfraction : AllDigits fraction)
    (hdigits : fraction ≠ []) (htail : ∀ c ∈ tail.head?, c.isDigit = false)
    (hchars : ∀ c ∈ tail, Token.isWordChar c = true) (he : Numeral.exponentPart? tail = some e) :
    Spells (whole ++ '.' :: (fraction ++ tail))
      (natOfDigits (whole ++ fraction) * tenPow (e.getD 0 - fraction.length)) where
  chars := by
    intro c hc
    simp only [List.mem_append, List.mem_cons] at hc
    rcases hc with hc | rfl | hc | hc
    · exact Token.isWordChar_of_isDigit (hwhole c hc)
    · rfl
    · exact Token.isWordChar_of_isDigit (hfraction c hc)
    · exact hchars c hc
  first := by
    obtain ⟨d, ds, rfl⟩ := List.exists_cons_of_ne_nil hne
    exact ⟨d, _, rfl, hwhole d List.mem_cons_self⟩
  reads := by
    intro text sign hsign hplus
    have hparts := Numeral.ofChars?_fraction hsign hwhole hne hfraction htail he
    refine ⟨_, Token.number?_of_ofChars? hparts hplus hne hzero hlength ?_, rfl, rfl⟩
    simpa using hdigits

/-- Digits with an exponent and without a point. -/
theorem spells_exponent {whole ds : List Char} {e : Int} (hwhole : AllDigits whole)
    (hne : whole ≠ []) (hzero : whole.head? = some '0' → whole.length = 1)
    (hlength : whole.length ≤ Token.digitLimit) (hchars : ∀ c ∈ ds, Token.isWordChar c = true)
    (he : Numeral.exponentPart? ('e' :: ds) = some (some e)) :
    Spells (whole ++ 'e' :: ds) (natOfDigits whole * tenPow e) where
  chars := by
    intro c hc
    simp only [List.mem_append, List.mem_cons] at hc
    rcases hc with hc | rfl | hc
    · exact Token.isWordChar_of_isDigit (hwhole c hc)
    · rfl
    · exact hchars c hc
  first := by
    obtain ⟨d, ds, rfl⟩ := List.exists_cons_of_ne_nil hne
    exact ⟨d, _, rfl, hwhole d List.mem_cons_self⟩
  reads := by
    intro text sign hsign hplus
    have hmark : ∀ c ∈ ('e' :: ds).head?, c.isDigit = false ∧ c ≠ '.' := by
      rintro c ⟨⟩
      exact ⟨rfl, by decide⟩
    have hparts := Numeral.ofChars?_plain hsign hwhole hne hmark he
    refine ⟨_, Token.number?_of_ofChars? hparts hplus hne hzero hlength (by simp), rfl, ?_⟩
    simp [Numeral.magnitude]

/-- Digits with a point among them. -/
theorem spells_point {whole fraction : List Char} {q : Rat} (hwhole : AllDigits whole)
    (hne : whole ≠ []) (hzero : whole.head? = some '0' → whole.length = 1)
    (hlength : whole.length ≤ Token.digitLimit) (hfraction : AllDigits fraction)
    (hdigits : fraction ≠ [])
    (hq : (natOfDigits (whole ++ fraction) : Rat) * tenPow (-fraction.length) = q) :
    Spells (whole ++ '.' :: fraction) q := by
  have hnothing : Numeral.exponentPart? [] = some none := rfl
  have hspells := spells_fraction hwhole hne hzero hlength hfraction hdigits (by simp) (by simp)
    hnothing
  rw [List.append_nil, Option.getD_none, Int.zero_sub, hq] at hspells
  exact hspells

namespace Significant

variable {s : Significant}

/-- Zeros behind the digits are powers of ten. -/
theorem natOfDigits_zeros_mul (ds : List Char) (n : Nat) (e : Int) :
    (natOfDigits (ds ++ List.replicate n '0') : Rat) * tenPow e =
      natOfDigits ds * tenPow (e + n) := by
  rw [Numeral.natOfDigits_append, Numeral.natOfDigits_replicate_zero, List.length_replicate,
    Nat.add_zero, Nat.cast_mul, tenPow_add, tenPow_natCast]
  ring

theorem Leads.ne_nil (h : s.Leads) : s.digits ≠ [] := by
  obtain ⟨-, d, ds, hds, -⟩ := h
  simp [hds]

theorem Leads.head?_take (h : s.Leads) (k : Nat) (zeros : List Char) :
    (s.digits.take (k + 1) ++ zeros).head? ≠ some '0' := by
  obtain ⟨-, d, ds, hds, hd⟩ := h
  rw [hds, List.take_succ_cons, List.cons_append, List.head?_cons, Ne, Option.some.injEq]
  exact hd

/-- No more digits stand in front of a point on the wire than in front of any. -/
theorem le_digitLimit {k : Nat} (h : k < 16) : k + 1 ≤ Token.digitLimit := by
  have hlimit : 16 ≤ Token.digitLimit := by decide
  omega

/-- The point stands among the digits. -/
theorem spells_positional_among (h : s.Leads) {k : Nat} (hk : s.exponent = k) (hhigh : k < 16)
    (hlong : k + 1 < s.digits.length) : Spells (Double.positional s) s.value := by
  have hfull : (s.digits.take (k + 1)).length = k + 1 := by
    rw [List.length_take]
    omega
  have hrest : s.digits.drop (k + 1) ≠ [] := by
    rw [Ne, List.drop_eq_nil_iff]
    omega
  have hhead := h.head?_take k []
  rw [List.append_nil] at hhead
  have hvalue : (natOfDigits (s.digits.take (k + 1) ++ s.digits.drop (k + 1)) : Rat) *
      tenPow (-(s.digits.drop (k + 1)).length) = s.value := by
    rw [List.take_append_drop, List.length_drop, value, hk]
    congr 2
    omega
  unfold Double.positional
  rw [if_pos (by omega), hk, Int.toNat_natCast]
  simp only [hfull, Nat.sub_self, List.replicate_zero, List.append_nil, List.isEmpty_iff,
    if_neg hrest]
  exact spells_point (fun c hc => h.1 c (List.mem_of_mem_take hc))
    (List.ne_nil_of_length_pos (by omega)) (fun hzero => absurd hzero hhead)
    (hfull.symm ▸ le_digitLimit hhigh) (fun c hc => h.1 c (List.mem_of_mem_drop hc)) hrest hvalue

/-- Zeros stand between the digits and the point. -/
theorem spells_positional_filled (h : s.Leads) {k : Nat} (hk : s.exponent = k) (hhigh : k < 16)
    (hshort : s.digits.length ≤ k + 1) : Spells (Double.positional s) s.value := by
  have htake : s.digits.take (k + 1) = s.digits := List.take_of_length_le hshort
  have hdrop : s.digits.drop (k + 1) = [] := List.drop_eq_nil_iff.2 hshort
  have hhead := h.head?_take k (List.replicate (k + 1 - s.digits.length) '0')
  rw [htake] at hhead
  have hfull : (s.digits ++ List.replicate (k + 1 - s.digits.length) '0').length = k + 1 := by
    rw [List.length_append, List.length_replicate]
    omega
  have hone : ['0'] = List.replicate 1 '0' := rfl
  have hvalue : (natOfDigits (s.digits ++ List.replicate (k + 1 - s.digits.length) '0' ++
      ['0']) : Rat) * tenPow (-(['0'].length : Nat)) = s.value := by
    rw [hone, natOfDigits_zeros_mul, natOfDigits_zeros_mul, List.length_replicate, value, hk]
    congr 2
    omega
  unfold Double.positional
  rw [if_pos (by omega), hk, Int.toNat_natCast]
  simp only [htake, hdrop, List.isEmpty_nil, if_true]
  exact spells_point (Numeral.allDigits_append h.1 (Numeral.allDigits_replicate_zero _))
    (List.ne_nil_of_length_pos (by omega)) (fun hzero => absurd hzero hhead)
    (hfull.symm ▸ le_digitLimit hhigh) (Numeral.allDigits_replicate_zero 1) (by simp) hvalue

/-- Zeros stand between the point and the digits. -/
theorem spells_positional_fraction (h : s.Leads) (hneg : s.exponent < 0) :
    Spells (Double.positional s) s.value := by
  have hzero : natOfDigits ['0'] = 0 := rfl
  have hvalue : (natOfDigits (['0'] ++
      (List.replicate ((-s.exponent).toNat - 1) '0' ++ s.digits)) : Rat) *
        tenPow (-(List.replicate ((-s.exponent).toNat - 1) '0' ++ s.digits).length) = s.value := by
    rw [Numeral.natOfDigits_append, Numeral.natOfDigits_append, hzero,
      Numeral.natOfDigits_replicate_zero, Nat.mul_zero, Nat.mul_zero, Nat.zero_add, Nat.zero_add,
      List.length_append, List.length_replicate, value]
    congr 2
    omega
  unfold Double.positional
  rw [if_neg (by omega)]
  exact spells_point (Numeral.allDigits_replicate_zero 1) (by simp) (fun _ => rfl) (by decide)
    (Numeral.allDigits_append (Numeral.allDigits_replicate_zero _) h.1) (by simp [h.ne_nil]) hvalue

/-- The text of an exponent. -/
theorem isWordChar_exponent (width : Nat) (e : Int) :
    ∀ c ∈ (if e < 0 then '-' else '+') :: Double.zeroPadded width e.natAbs,
      Token.isWordChar c = true := by
  intro c hc
  rcases List.mem_cons.1 hc with rfl | hc
  · split <;> rfl
  · exact Token.isWordChar_of_isDigit (Numeral.allDigits_zeroPadded _ _ c hc)

/-- An exponent stands behind the digits. -/
theorem spells_scientific (h : s.Leads) (width : Nat) :
    Spells (Double.scientific width s) s.value := by
  have hexponent := Numeral.exponentPart?_write width s.exponent
  have hchars := isWordChar_exponent width s.exponent
  obtain ⟨hdigits, d, ds, hds, hd⟩ := h
  rw [hds] at hdigits
  have hfirst : AllDigits [d] := by
    intro c hc
    rw [List.mem_singleton.1 hc]
    exact hdigits d List.mem_cons_self
  have hzero : [d].head? = some '0' → [d].length = 1 := fun _ => rfl
  have hlimit : 1 ≤ Token.digitLimit := by decide
  unfold Double.scientific value
  simp only [hds]
  cases ds with
  | nil =>
    have hspells := spells_exponent hfirst (by simp) hzero hlimit hchars hexponent
    simpa using hspells
  | cons d' ds =>
    have hrest : AllDigits (d' :: ds) := fun c hc => hdigits c (List.mem_cons_of_mem d hc)
    have hmark : ∀ c ∈ ('e' :: (if s.exponent < 0 then '-' else '+') ::
        Double.zeroPadded width s.exponent.natAbs).head?, c.isDigit = false := by
      rintro c ⟨⟩
      rfl
    have hspells := spells_fraction hfirst (by simp) hzero hlimit hrest (by simp) hmark
      (List.forall_mem_cons.2 ⟨rfl, hchars⟩) hexponent
    have hpower : (some s.exponent).getD 0 - ((d' :: ds).length : Int) =
        s.exponent + 1 - (d :: d' :: ds).length := by
      simp
    rw [hpower] at hspells
    simpa using hspells

/-- The shortest digits as a style lays them out. -/
def laidOut (style : Double.Style) (s : Significant) : List Char :=
  if style.positionalFrom ≤ s.exponent ∧ s.exponent < style.positionalBelow then
    Double.positional s
  else Double.scientific style.exponentWidth s

/-- However the digits are laid out on the wire, they are read as the number they stand for. -/
theorem spells_laidOut (h : s.Leads) : Spells (s.laidOut Double.wireStyle) s.value := by
  unfold laidOut
  split
  next hrange =>
    have hbelow : s.exponent < 16 := hrange.2
    rcases lt_or_ge s.exponent 0 with hneg | hneg
    · exact spells_positional_fraction h hneg
    · obtain ⟨k, hk⟩ := Int.eq_ofNat_of_zero_le hneg
      rcases Nat.lt_or_ge (k + 1) s.digits.length with hlong | hshort
      · exact spells_positional_among h hk (by omega) hlong
      · exact spells_positional_filled h hk (by omega) hshort
  next => exact spells_scientific h _

end Significant

/-! ## Finite doubles -/

namespace Double

/-- The significant digits that a finite number is written with. -/
def significant (m : Nat) (e : Int) : Significant :=
  if m = 0 then ⟨['0'], 0⟩ else Significant.shortest m e

theorem text_finite (style : Style) (negative : Bool) (m : Nat) (e : Int) :
    (finite negative m e).text style =
      if negative then '-' :: (significant m e).laidOut style
      else (significant m e).laidOut style :=
  rfl

/-- A number reads back when its digits spell a magnitude that is read as it. -/
theorem readsBack_of_spells {m : Nat} {e : Int} {q : Rat}
    (h : Spells ((significant m e).laidOut wireStyle) q)
    (hq : ∀ n : Numeral, n.magnitude = q → n.toDouble = finite n.negative m e) (negative : Bool) :
    (finite negative m e).ReadsBack := by
  obtain ⟨c, rest, hbody, hc⟩ := h.first
  unfold ReadsBack
  rw [text_finite]
  generalize (significant m e).laidOut wireStyle = body at h hbody ⊢
  cases negative with
  | false =>
    have hsign : Numeral.splitSign body = (none, body) := by
      rw [hbody]
      exact Token.splitSign_of_isDigit hc
    obtain ⟨n, hn, hnsign, hmagnitude⟩ := h.reads body none hsign (by simp)
    have hpositive : n.negative = false := by
      unfold Numeral.negative
      rw [hnsign]
      rfl
    refine ⟨h.chars, ?_⟩
    rw [hq n hmagnitude, hpositive, hbody] at hn
    simp only [Bool.false_eq_true, if_false]
    rw [hbody, Token.wordValue?_of_isDigit hc, hn]
  | true =>
    obtain ⟨n, hn, hnsign, hmagnitude⟩ := h.reads ('-' :: body) (some '-') rfl (by decide)
    have hnegative : n.negative = true := by
      unfold Numeral.negative
      rw [hnsign]
      rfl
    refine ⟨List.forall_mem_cons.2 ⟨rfl, h.chars⟩, ?_⟩
    rw [hq n hmagnitude, hnegative, hbody] at hn
    simp only [if_true]
    rw [hbody, Token.wordValue?_of_minus hc, hn]

/-- The text of a zero. -/
theorem spells_zero (e : Int) : Spells ((significant 0 e).laidOut wireStyle) 0 := by
  have hdigit : AllDigits ['0'] := Numeral.allDigits_replicate_zero 1
  have hzero : natOfDigits (['0'] ++ ['0']) = 0 := rfl
  have hvalue : (natOfDigits (['0'] ++ ['0']) : Rat) * tenPow (-(['0'].length : Nat)) = 0 := by
    rw [hzero, Nat.cast_zero, zero_mul]
  have hspells : Spells (['0'] ++ '.' :: ['0']) 0 :=
    spells_point hdigit (by simp) (fun _ => rfl) (by decide) hdigit (by simp) hvalue
  exact hspells

/-- A numeral of magnitude zero is read as zero. -/
theorem toDouble_of_zero {n : Numeral} (h : n.magnitude = 0) :
    n.toDouble = finite n.negative 0 leastExponent := by
  have hdigits := (mul_eq_zero.1 h).resolve_right (Significant.tenPow_pos _).ne'
  rw [Nat.cast_eq_zero] at hdigits
  unfold Numeral.toDouble
  simp only [hdigits, if_true]
  rfl

/-- The wire text of a rounded number reads back. -/
theorem Normal.readsBack {m : Nat} {e : Int} (hm : Normal m e) (negative : Bool) :
    (finite negative m e).ReadsBack := by
  rcases Nat.eq_zero_or_pos m with rfl | hpos
  · obtain rfl : e = leastExponent := hm.full.resolve_left (by decide)
    exact readsBack_of_spells (spells_zero _) (fun n hn => toDouble_of_zero hn) negative
  · obtain ⟨c, k, hshortest, hholds⟩ := Significant.exists_shortest (e := e) hpos hm.bits
    have hc : 0 < c := by
      refine Nat.pos_of_ne_zero ?_
      rintro rfl
      have hlow := (Significant.bounds_of_normal hm hpos hholds).1
      rw [Nat.cast_zero, zero_mul] at hlow
      exact absurd hlow (Significant.tenPow_pos _).le.not_gt
    have hsignificant : significant m e = Significant.ofScaled c k := by
      rw [significant, if_neg hpos.ne', hshortest]
    have hspells := Significant.spells_laidOut (Significant.leads_ofScaled hc k)
    rw [← hsignificant] at hspells
    rw [← Significant.value_ofScaled, ← hsignificant] at hholds
    refine readsBack_of_spells hspells (fun n hn => ?_) negative
    exact Numeral.toDouble_of_holds hm hpos (hn ▸ hholds)

/-- Reading a numeral rounds. -/
theorem rounded_toDouble (n : Numeral) : n.toDouble.Rounded := by
  unfold Numeral.toDouble
  simp only
  split
  · exact nearest_normal (le_refl _) _
  split
  · trivial
  split
  · exact nearest_normal (le_refl _) _
  · refine nearest_normal ?_ _
    positivity

/-- So does reading a word. -/
theorem Spelled.rounded {x : Double} (h : x.Spelled) : x.Rounded := by
  obtain ⟨cs, hcs⟩ := h
  rcases Token.wordValue?_eq_some hcs with hnull | ⟨b, hbool⟩ | hnan | ⟨s, hinf⟩ | hnumber
  · cases hnull
  · cases hbool
  · cases hnan
    trivial
  · cases hinf
    trivial
  · rcases Token.number?_eq_some hnumber with ⟨n, hn, -⟩ | ⟨n, hn⟩
    · cases hn
    · cases hn
      exact rounded_toDouble n

end Double

end HookRegistry
