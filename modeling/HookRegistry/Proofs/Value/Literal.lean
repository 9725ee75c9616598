import HookRegistry.Proofs.Text.Decimal
import HookRegistry.Value.Token
import HookRegistry.Value.Writer

/-!
# Whole numbers and texts as tokens

`wordValue?_intLiteral` says that a written whole number is the word that reads back as it, as long
as it has no more digits than JSON text may have.  `scanFrom_textLiteral` says that the scanner takes a
written text, with whatever characters in it, as one token.
-/

namespace HookRegistry

/-! ## Whole numbers -/

namespace Token

theorem isWordChar_of_isDigit {c : Char} (h : c.isDigit = true) : isWordChar c = true := by
  simp [isWordChar, Char.isAlphanum, h]

/-- A word that starts like a number is read as one. -/
theorem wordValue?_of_isDigit {c : Char} {cs : List Char} (h : c.isDigit = true) :
    wordValue? (c :: cs) = number? (c :: cs) := by
  unfold wordValue?
  split
  iterate 6
    next heq =>
      cases heq
      cases h
  next => rfl

/-- So is one with a minus sign in front. -/
theorem wordValue?_of_minus {c : Char} {cs : List Char} (h : c.isDigit = true) :
    wordValue? ('-' :: c :: cs) = number? ('-' :: c :: cs) := by
  unfold wordValue?
  split
  iterate 5
    next heq => cases heq
  next heq =>
    cases heq
    cases h
  next => rfl

theorem splitSign_of_isDigit {c : Char} {cs : List Char} (h : c.isDigit = true) :
    Numeral.splitSign (c :: cs) = (none, c :: cs) := by
  unfold Numeral.splitSign
  split
  iterate 2
    next heq =>
      cases heq
      cases h
  next => rfl

/-- A number is whole without point and exponent, and a double otherwise. -/
theorem number?_of_ofChars? {cs : List Char} {n : Numeral} (h : Numeral.ofChars? cs = some n)
    (hplus : n.sign ≠ some '+') (hwhole : n.whole ≠ [])
    (hzero : n.whole.head? = some '0' → n.whole.length = 1) (hlength : n.whole.length ≤ digitLimit)
    (hfraction : n.fraction ≠ some []) :
    number? cs = some (if n.isWhole then .int n.toInt else .real n.toDouble) := by
  unfold number?
  rw [h]
  simp only
  rw [if_neg (by simp [hplus, hwhole, hfraction]), if_neg (by simpa using hzero),
    if_neg (by omega)]
  split <;> rfl

/-- A run of digits without superfluous zeros is a whole number, if it is not too long. -/
theorem number?_digits {ds : List Char} {sign : Option Char} {cs : List Char}
    (hds : Numeral.AllDigits ds) (hne : ds ≠ []) (hsign : Numeral.splitSign cs = (sign, ds))
    (hplus : sign ≠ some '+') (hzero : ds.head? = some '0' → ds.length = 1)
    (hlength : ds.length ≤ digitLimit) :
    number? cs =
      some (.int (if sign = some '-' then -(Numeral.natOfDigits ds : Int)
        else Numeral.natOfDigits ds)) := by
  rw [← List.append_nil ds] at hsign
  have hparts := Numeral.ofChars?_plain hsign hds hne (by simp) rfl
  rw [number?_of_ofChars? hparts hplus hne hzero hlength (by simp)]
  simp [Numeral.isWhole, Numeral.toInt, Numeral.negative]

end Token

namespace Value

open Token

/-- The digits that a number of limited size is written with. -/
theorem length_toDigits_le {n : Nat} (h : n < 10 ^ digitLimit) :
    (Nat.toDigits 10 n).length ≤ digitLimit :=
  (Nat.length_toDigits_le_iff (by decide) (by decide)).2 h

/-- A written whole number reads back. -/
theorem wordValue?_intLiteral {n : Int} (h : n.natAbs < 10 ^ digitLimit) :
    wordValue? (intLiteral n) = some (.int n) := by
  have hds := Numeral.allDigits_toDigits n.natAbs
  have hzero := Numeral.length_toDigits_of_head_zero (n := n.natAbs)
  have hlength := length_toDigits_le h
  have hvalue := Numeral.natOfDigits_toDigits n.natAbs
  obtain ⟨c, cs, hcs⟩ := List.exists_cons_of_ne_nil (Nat.toDigits_ne_nil (n := n.natAbs) (b := 10))
  rw [hcs] at hds hzero hlength hvalue
  have hc : c.isDigit = true := hds c List.mem_cons_self
  unfold intLiteral
  rw [hcs]
  by_cases hneg : n < 0
  · have hsign : Numeral.splitSign ('-' :: c :: cs) = (some '-', c :: cs) := rfl
    rw [if_pos hneg, wordValue?_of_minus hc,
      number?_digits hds (by simp) hsign (by decide) hzero hlength, hvalue]
    simp only [if_true]
    congr
    omega
  · rw [if_neg hneg, wordValue?_of_isDigit hc,
      number?_digits hds (by simp) (splitSign_of_isDigit hc) (by simp) hzero hlength, hvalue]
    simp only [reduceCtorEq, if_false]
    congr
    omega

theorem isWordChar_intLiteral (n : Int) : ∀ c ∈ intLiteral n, isWordChar c = true := by
  have hds : ∀ c ∈ Nat.toDigits 10 n.natAbs, isWordChar c = true :=
    fun c hc => isWordChar_of_isDigit (Numeral.allDigits_toDigits _ c hc)
  unfold intLiteral
  intro c hc
  split at hc
  · rcases List.mem_cons.1 hc with rfl | hc
    · rfl
    · exact hds c hc
  · exact hds c hc

end Value

/-! ## Texts -/

namespace Token

/-- Scanning goes on where it stands. -/
def scanFrom (st : List Token × Scan) (cs : List Char) : Option (List Token × Scan) :=
  cs.foldlM advance? st

@[simp] theorem scanFrom_nil (st : List Token × Scan) : scanFrom st [] = some st :=
  rfl

theorem scanFrom_cons (st : List Token × Scan) (c : Char) (cs : List Char) :
    scanFrom st (c :: cs) = (advance? st c).bind fun st => scanFrom st cs := by
  unfold scanFrom
  rw [List.foldlM_cons]
  rfl

theorem scanFrom_append (st : List Token × Scan) (cs ds : List Char) :
    scanFrom st (cs ++ ds) = (scanFrom st cs).bind fun st => scanFrom st ds := by
  unfold scanFrom
  rw [List.foldlM_append]
  rfl

/-- Two more texts scanned one after the other. -/
theorem scanFrom_append_of_eq {st st' : List Token × Scan} {cs ds : List Char}
    (h : scanFrom st cs = some st') : scanFrom st (cs ++ ds) = scanFrom st' ds := by
  rw [scanFrom_append, h]
  rfl

theorem hexDigit?_digitChar : ∀ d < 16, hexDigit? (Nat.digitChar d) = some d := by
  decide

/-- The four hexadecimal digits of a control character. -/
theorem hexPadded_control :
    ∀ n < 32, Text.hexPadded 4 n = ['0', '0', Nat.digitChar (n / 16), Nat.digitChar (n % 16)] := by
  decide

/-- An escaped control character is read as that character. -/
theorem scanFrom_control {c : Char} (hc : c.toNat < 0x20) (done : List Token) (read : List Char) :
    scanFrom (done, .inText read) ('\\' :: 'u' :: Text.hexPadded 4 c.toNat) =
      some (done, .inText (c :: read)) := by
  have hhigh := hexDigit?_digitChar (c.toNat / 16) (by omega)
  have hlow := hexDigit?_digitChar (c.toNat % 16) (by omega)
  have hzero : hexDigit? '0' = some 0 := rfl
  have hvalue : c.toNat / 16 * 16 + c.toNat % 16 = c.toNat := by omega
  have hunit : codeUnit? read none c.toNat = some (.inText (c :: read)) := by
    have h1 : ¬ 0xD800 ≤ c.toNat := by omega
    have h2 : ¬ 0xDC00 ≤ c.toNat := by omega
    simp [codeUnit?, h1, h2]
  rw [hexPadded_control c.toNat hc]
  simp [scanFrom_cons, advance?, step?, hzero, hhigh, hlow, hvalue, hunit]

/-- A character of a written text is read as that character. -/
theorem scanFrom_escapedChar (c : Char) (done : List Token) (read : List Char) :
    scanFrom (done, .inText read) (Value.escapedChar c) = some (done, .inText (c :: read)) := by
  unfold Value.escapedChar
  split
  next h => subst h; rfl
  split
  next h => subst h; rfl
  split
  next h => subst h; rfl
  split
  next h => subst h; rfl
  split
  next h => subst h; rfl
  split
  next h => subst h; rfl
  split
  next h => subst h; rfl
  split
  next hcontrol => exact scanFrom_control hcontrol done read
  next hquote hslash _ _ _ _ _ hcontrol =>
    simp [scanFrom_cons, advance?, step?, hquote, hslash, hcontrol]

theorem scanFrom_escaped (cs : List Char) (done : List Token) (read : List Char) :
    scanFrom (done, .inText read) (cs.flatMap Value.escapedChar) =
      some (done, .inText (cs.reverse ++ read)) := by
  induction cs generalizing read with
  | nil => rfl
  | cons c cs ih =>
    rw [List.flatMap_cons, scanFrom_append_of_eq (scanFrom_escapedChar c done read), ih]
    simp

/-- A written text is one token. -/
theorem scanFrom_textLiteral (s : String) (done : List Token) :
    scanFrom (done, .between) (Value.textLiteral s) = some (.text s :: done, .between) := by
  have hopen : advance? (done, .between) '"' = some (done, .inText []) := rfl
  have hclose : ∀ read, advance? (done, .inText read) '"' =
      some (.text (String.ofList read.reverse) :: done, .between) := fun _ => rfl
  unfold Value.textLiteral
  rw [List.cons_append, scanFrom_cons, hopen, Option.bind_some,
    scanFrom_append_of_eq (scanFrom_escaped s.toList done []), scanFrom_cons, hclose]
  simp

end Token

end HookRegistry
