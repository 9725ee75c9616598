import HookRegistry.Proofs.Value.Wire

/-!
# Which texts consist of which tokens

`Lexes cs ts` says, apart from the scanner, that a text consists of some tokens with white space
between them: signs, texts in quotes with their escapes, and words that go on as far as they can.
The scanner finds exactly these tokens: `scan?_eq_some_iff`.
-/

namespace HookRegistry.Token

/-! ## The grammar of tokens -/

/-- The token that a character is on its own. -/
def sign? : Char → Option Token
  | '[' => some .openList
  | ']' => some .closeList
  | '{' => some .openRecord
  | '}' => some .closeRecord
  | ',' => some .comma
  | ':' => some .colon
  | _ => none

theorem sign?_ne_word {c : Char} {v : Value} : sign? c ≠ some (.word v) := by
  intro h
  unfold sign? at h
  split at h <;> cases h

/-- The code unit that four hexadecimal digits stand for. -/
def hexUnit? (a b c d : Char) : Option Nat := do
  let a ← hexDigit? a
  let b ← hexDigit? b
  let c ← hexDigit? c
  let d ← hexDigit? d
  some (((a * 16 + b) * 16 + c) * 16 + d)

/-- A surrogate that stands first in a pair. -/
def IsHigh (n : Nat) : Prop := 0xD800 ≤ n ∧ n < 0xDC00

/-- A surrogate that stands second. -/
def IsLow (n : Nat) : Prop := 0xDC00 ≤ n ∧ n < 0xE000

/-- The characters between the quotes of a text, and the characters that the text consists of. -/
inductive SpellsText : List Char → List Char → Prop where
  | nil : SpellsText [] []
  /-- A character stands for itself, but a quote, a backslash and control characters do not. -/
  | plain {c : Char} {cs ds : List Char} (hquote : c ≠ '"') (hslash : c ≠ '\\')
      (hcontrol : 0x20 ≤ c.toNat) (h : SpellsText cs ds) : SpellsText (c :: cs) (c :: ds)
  | escape {c d : Char} {cs ds : List Char} (hd : unescape? c = some d) (h : SpellsText cs ds) :
      SpellsText ('\\' :: c :: cs) (d :: ds)
  /-- A character is given by its code. -/
  | code {a b c d : Char} {n : Nat} {cs ds : List Char} (hn : hexUnit? a b c d = some n)
      (hhigh : ¬ IsHigh n) (hlow : ¬ IsLow n) (h : SpellsText cs ds) :
      SpellsText ('\\' :: 'u' :: a :: b :: c :: d :: cs) (Char.ofNat n :: ds)
  /-- A character is given by a pair of surrogates. -/
  | pair {a b c d a' b' c' d' : Char} {m n : Nat} {cs ds : List Char}
      (hm : hexUnit? a b c d = some m) (hhigh : IsHigh m) (hn : hexUnit? a' b' c' d' = some n)
      (hlow : IsLow n) (h : SpellsText cs ds) :
      SpellsText
        ('\\' :: 'u' :: a :: b :: c :: d :: '\\' :: 'u' :: a' :: b' :: c' :: d' :: cs)
        (Char.ofNat (0x10000 + (m - 0xD800) * 0x400 + (n - 0xDC00)) :: ds)

/-- The tokens that a text consists of. -/
inductive Lexes : List Char → List Token → Prop where
  | nil : Lexes [] []
  | space {c : Char} {cs : List Char} {ts : List Token} (hc : isSpace c = true) (h : Lexes cs ts) :
      Lexes (c :: cs) ts
  | sign {c : Char} {t : Token} {cs : List Char} {ts : List Token} (hc : sign? c = some t)
      (h : Lexes cs ts) : Lexes (c :: cs) (t :: ts)
  | text {body ds cs : List Char} {ts : List Token} (hbody : SpellsText body ds) (h : Lexes cs ts) :
      Lexes ('"' :: body ++ '"' :: cs) (.text (String.ofList ds) :: ts)
  /-- A word goes on as far as it can. -/
  | word {w cs : List Char} {v : Value} {ts : List Token} (hw : ∀ c ∈ w, isWordChar c = true)
      (hv : wordValue? w = some v) (hend : ∀ c ∈ cs.head?, isWordChar c = false) (h : Lexes cs ts) :
      Lexes (w ++ cs) (.word v :: ts)

/-! ## The scanner by what is left of the text -/

/-- The tokens that the scanner finds in what is left of a text. -/
def tokensFrom? : Scan → List Char → Option (List Token)
  | s, [] => finish? s
  | s, c :: cs => (step? s c).bind fun r => (tokensFrom? r.2 cs).map (r.1 ++ ·)

theorem tokensFrom?_cons (s : Scan) (c : Char) (cs : List Char) :
    tokensFrom? s (c :: cs) = (step? s c).bind fun r => (tokensFrom? r.2 cs).map (r.1 ++ ·) :=
  rfl

/-- What the scanner has found already stands in front. -/
theorem scanFrom_bind_finish? (cs : List Char) (done : List Token) (s : Scan) :
    ((scanFrom (done, s) cs).bind fun st => (finish? st.2).map (st.1.reverse ++ ·)) =
      (tokensFrom? s cs).map (done.reverse ++ ·) := by
  induction cs generalizing done s with
  | nil => rfl
  | cons c cs ih =>
    rw [scanFrom_cons, tokensFrom?_cons, advance?]
    cases step? s c with
    | none => rfl
    | some r =>
      rw [Option.map_some, Option.bind_some, ih, Option.bind_some, Option.map_map]
      simp [Function.comp_def]

theorem scan?_eq_tokensFrom? (cs : List Char) : scan? cs = tokensFrom? .between cs := by
  have h := scanFrom_bind_finish? cs [] .between
  simp only [List.reverse_nil, List.nil_append, Option.map_id_fun', id] at h
  rw [← h]
  unfold scan? scanFrom
  refine congrArg _ (funext fun (done, s) => ?_)
  dsimp only
  cases finish? s <;> rfl

/-- A step that completes no token. -/
theorem tokensFrom?_of_step? {s s' : Scan} {c : Char} (h : step? s c = some ([], s'))
    (cs : List Char) : tokensFrom? s (c :: cs) = tokensFrom? s' cs := by
  rw [tokensFrom?_cons, h]
  simp

/-- Between tokens there is white space, or a token begins. -/
theorem start?_eq_some {c : Char} {r : List Token × Scan} (h : start? c = some r) :
    (isSpace c = true ∧ r = ([], .between)) ∨ (∃ t, sign? c = some t ∧ r = ([t], .between)) ∨
      (c = '"' ∧ r = ([], .inText [])) ∨ (isWordChar c = true ∧ r = ([], .inWord [c])) := by
  unfold start? at h
  split at h
  next hspace =>
    cases h
    exact .inl ⟨hspace, rfl⟩
  · split at h
    iterate 6
      · cases h
        exact .inr (.inl ⟨_, rfl, rfl⟩)
    · cases h
      exact .inr (.inr (.inl ⟨rfl, rfl⟩))
    · split at h
      next hword =>
        cases h
        exact .inr (.inr (.inr ⟨hword, rfl⟩))
      next => cases h

theorem start?_of_isSpace {c : Char} (h : isSpace c = true) : start? c = some ([], .between) := by
  unfold start?
  rw [if_pos h]

theorem start?_of_sign? {c : Char} {t : Token} (h : sign? c = some t) :
    start? c = some ([t], .between) := by
  unfold sign? at h
  split at h
  iterate 6
    · cases h
      rfl
  · cases h

/-! ## Words -/

theorem step?_inWord_of_isWordChar {c : Char} (hc : isWordChar c = true) (read : List Char) :
    step? (.inWord read) c = some ([], .inWord (c :: read)) := by
  unfold step?
  exact if_pos hc

/-- A word that the scanner is in goes on up to a character that can be no part of it. -/
theorem exists_of_tokensFrom?_inWord {read cs : List Char} {ts : List Token}
    (h : tokensFrom? (.inWord read) cs = some ts) :
    ∃ w after v more, cs = w ++ after ∧ (∀ c ∈ w, isWordChar c = true) ∧
      (∀ c ∈ after.head?, isWordChar c = false) ∧ wordValue? (read.reverse ++ w) = some v ∧
      ts = .word v :: more ∧ tokensFrom? .between after = some more := by
  induction cs generalizing read with
  | nil =>
    obtain ⟨t, ht, rfl⟩ := Option.map_eq_some_iff.1 h
    obtain ⟨v, hv, rfl⟩ := Option.map_eq_some_iff.1 ht
    exact ⟨[], [], v, [], rfl, by simp, by simp, by simpa using hv, rfl, rfl⟩
  | cons c cs ih =>
    by_cases hc : isWordChar c = true
    · rw [tokensFrom?_of_step? (step?_inWord_of_isWordChar hc read)] at h
      obtain ⟨w, after, v, more, rfl, hw, hend, hv, hts, hmore⟩ := ih h
      refine ⟨c :: w, after, v, more, rfl, List.forall_mem_cons.2 ⟨hc, hw⟩, hend, ?_, hts, hmore⟩
      simpa using hv
    · rw [tokensFrom?_cons] at h
      simp only [step?, if_neg hc] at h
      obtain ⟨r, hr, h⟩ := Option.bind_eq_some_iff.1 h
      obtain ⟨t, ht, hr⟩ := Option.bind_eq_some_iff.1 hr
      obtain ⟨v, hv, rfl⟩ := Option.map_eq_some_iff.1 ht
      obtain ⟨r', hr', hr⟩ := Option.bind_eq_some_iff.1 hr
      cases hr
      obtain ⟨more, hmore, rfl⟩ := Option.map_eq_some_iff.1 h
      refine ⟨[], c :: cs, v, r'.1 ++ more, rfl, by simp, ?_, by simpa using hv, rfl, ?_⟩
      · rintro d ⟨rfl⟩
        exact Bool.eq_false_iff.2 hc
      · have hstart : step? .between c = some r' := hr'
        rw [tokensFrom?_cons, hstart, Option.bind_some, hmore]
        rfl

theorem tokensFrom?_inWord {w : List Char} (hw : ∀ c ∈ w, isWordChar c = true) {read cs : List Char}
    (hend : ∀ c ∈ cs.head?, isWordChar c = false) {v : Value}
    (hv : wordValue? (read.reverse ++ w) = some v) {ts : List Token}
    (hcs : tokensFrom? .between cs = some ts) :
    tokensFrom? (.inWord read) (w ++ cs) = some (.word v :: ts) := by
  induction w generalizing read with
  | nil =>
    rw [List.append_nil] at hv
    have hword : ofWord? read.reverse = some (.word v) := by rw [ofWord?, hv]; rfl
    cases cs with
    | nil =>
      cases hcs
      rw [List.nil_append, tokensFrom?, finish?, hword]
      rfl
    | cons c cs =>
      have hc : isWordChar c = false := hend c rfl
      obtain ⟨r, hr, hmore⟩ := Option.bind_eq_some_iff.1 hcs
      have hstart : start? c = some r := hr
      have hstep : step? (.inWord read) c = some (.word v :: r.1, r.2) := by
        simp [step?, hc, hword, hstart]
      obtain ⟨more, htail, rfl⟩ := Option.map_eq_some_iff.1 hmore
      rw [List.nil_append, tokensFrom?_cons, hstep]
      simp [htail]
  | cons c w ih =>
    rw [List.forall_mem_cons] at hw
    rw [List.cons_append, tokensFrom?_of_step? (step?_inWord_of_isWordChar hw.1 read)]
    exact ih hw.2 (by simpa using hv)

/-! ## Texts in quotes -/

/-- A digit of a code that is not its last one. -/
theorem tokensFrom?_digit {count : Nat} (hcount : count ≠ 3) (read : List Char) (high : Option Nat)
    (code : Nat) (c : Char) (cs : List Char) :
    tokensFrom? (.code read high count code) (c :: cs) =
      (hexDigit? c).bind fun d => tokensFrom? (.code read high (count + 1) (code * 16 + d)) cs := by
  rw [tokensFrom?_cons]
  cases hd : hexDigit? c with
  | none => simp [step?, hd]
  | some d => simp [step?, hd, hcount]

/-- The last digit of a code. -/
theorem tokensFrom?_lastDigit (read : List Char) (high : Option Nat) (code : Nat) (c : Char)
    (cs : List Char) :
    tokensFrom? (.code read high 3 code) (c :: cs) =
      (hexDigit? c).bind fun d => (codeUnit? read high (code * 16 + d)).bind fun s =>
        tokensFrom? s cs := by
  rw [tokensFrom?_cons]
  cases hd : hexDigit? c with
  | none => simp [step?, hd]
  | some d => cases hs : codeUnit? read high (code * 16 + d) <;> simp [step?, hd, hs]

/-- Four digits that the scanner takes for a code unit. -/
theorem tokensFrom?_code (read : List Char) (high : Option Nat) (a b c d : Char) (cs : List Char) :
    tokensFrom? (.code read high 0 0) (a :: b :: c :: d :: cs) =
      (hexUnit? a b c d).bind fun n => (codeUnit? read high n).bind fun s => tokensFrom? s cs := by
  simp only [hexUnit?, Option.bind_eq_bind, Option.bind_assoc, Option.bind_some]
  rw [tokensFrom?_digit (by decide)]
  refine Option.bind_congr fun a _ => ?_
  rw [tokensFrom?_digit (by decide)]
  refine Option.bind_congr fun b _ => ?_
  rw [tokensFrom?_digit (by decide)]
  refine Option.bind_congr fun c _ => ?_
  rw [tokensFrom?_lastDigit, Nat.zero_mul, Nat.zero_add]

theorem exists_of_tokensFrom?_code {read cs : List Char} {high : Option Nat} {ts : List Token}
    (h : tokensFrom? (.code read high 0 0) cs = some ts) :
    ∃ a b c d rest n s, cs = a :: b :: c :: d :: rest ∧ hexUnit? a b c d = some n ∧
      codeUnit? read high n = some s ∧ tokensFrom? s rest = some ts := by
  -- where the text ends among the digits, the scanner fails
  have hshort : ∀ count code, tokensFrom? (.code read high count code) [] = none := fun _ _ => rfl
  match cs with
  | [] => cases h
  | [a] => simp [tokensFrom?_digit, hshort] at h
  | [a, b] => simp [tokensFrom?_digit, hshort] at h
  | [a, b, c] => simp [tokensFrom?_digit, hshort] at h
  | a :: b :: c :: d :: rest =>
    rw [tokensFrom?_code] at h
    obtain ⟨n, hn, h⟩ := Option.bind_eq_some_iff.1 h
    obtain ⟨s, hs, h⟩ := Option.bind_eq_some_iff.1 h
    exact ⟨a, b, c, d, rest, n, s, rfl, hn, hs, h⟩

/-- A code unit is a character, or the first of a pair of surrogates. -/
theorem codeUnit?_none_eq_some_iff {read : List Char} {n : Nat} {s : Scan} :
    codeUnit? read none n = some s ↔ (IsHigh n ∧ s = .lowHalf read n) ∨
      (¬ IsHigh n ∧ ¬ IsLow n ∧ s = .inText (Char.ofNat n :: read)) := by
  unfold codeUnit?
  dsimp only
  by_cases hhigh : IsHigh n
  · rw [if_pos (by simpa [IsHigh] using hhigh), Option.some.injEq]
    exact ⟨fun h => .inl ⟨hhigh, h.symm⟩, fun h => (h.resolve_right fun h => h.1 hhigh).2.symm⟩
  · rw [if_neg (by simpa [IsHigh] using hhigh)]
    by_cases hlow : IsLow n
    · rw [if_pos (by simpa [IsLow] using hlow)]
      exact ⟨fun h => (by cases h), fun h => absurd hlow (h.resolve_left fun h => hhigh h.1).2.1⟩
    · rw [if_neg (by simpa [IsLow] using hlow), Option.some.injEq]
      exact ⟨fun h => .inr ⟨hhigh, hlow, h.symm⟩,
        fun h => (h.resolve_left fun h => hhigh h.1).2.2.symm⟩

/-- Behind the first of a pair of surrogates stands the second. -/
theorem codeUnit?_some_eq_some_iff {read : List Char} {m n : Nat} {s : Scan} :
    codeUnit? read (some m) n = some s ↔ IsLow n ∧
      s = .inText (Char.ofNat (0x10000 + (m - 0xD800) * 0x400 + (n - 0xDC00)) :: read) := by
  unfold codeUnit?
  dsimp only
  by_cases hlow : IsLow n
  · rw [if_pos (by simpa [IsLow] using hlow), Option.some.injEq]
    exact ⟨fun h => ⟨hlow, h.symm⟩, fun h => h.2.symm⟩
  · rw [if_neg (by simpa [IsLow] using hlow)]
    exact ⟨fun h => (by cases h), fun h => absurd h.1 hlow⟩

/-- What stands behind a text that is open: the rest of its body, the quote that closes it, and
what follows. -/
def Closes (read cs : List Char) (ts : List Token) : Prop :=
  ∃ body ds after more, cs = body ++ '"' :: after ∧ SpellsText body ds ∧
    ts = .text (String.ofList (read.reverse ++ ds)) :: more ∧ tokensFrom? .between after = some more

/-- A text that is open behind one more character. -/
theorem Closes.more {c : Char} {read cs : List Char} {ts : List Token}
    (h : Closes (c :: read) cs ts) (front : List Char)
    (hspells : ∀ {body ds}, SpellsText body ds → SpellsText (front ++ body) (c :: ds)) :
    Closes read (front ++ cs) ts := by
  obtain ⟨body, ds, after, more, rfl, hbody, rfl, hmore⟩ := h
  refine ⟨front ++ body, c :: ds, after, more, by simp, hspells hbody, by simp, hmore⟩

/-- The pair of a surrogate. -/
theorem exists_of_tokensFrom?_lowHalf {read cs : List Char} {m : Nat} {ts : List Token}
    (h : tokensFrom? (.lowHalf read m) cs = some ts) :
    ∃ a b c d rest n, cs = '\\' :: 'u' :: a :: b :: c :: d :: rest ∧
      hexUnit? a b c d = some n ∧ IsLow n ∧
      tokensFrom? (.inText (Char.ofNat (0x10000 + (m - 0xD800) * 0x400 + (n - 0xDC00)) :: read))
        rest = some ts := by
  match cs with
  | [] => cases h
  | [c] =>
    by_cases hc : c = '\\'
    · subst hc
      cases h
    · simp [tokensFrom?_cons, step?, hc] at h
  | c :: c' :: cs =>
    by_cases hc : c = '\\'
    · subst hc
      by_cases hc' : c' = 'u'
      · subst hc'
        have hcode : tokensFrom? (.code read (some m) 0 0) cs = some ts := by
          rw [tokensFrom?_of_step? rfl, tokensFrom?_of_step? rfl] at h
          exact h
        obtain ⟨a, b, c, d, rest, n, s, rfl, hn, hs, hrest⟩ := exists_of_tokensFrom?_code hcode
        obtain ⟨hlow, rfl⟩ := codeUnit?_some_eq_some_iff.1 hs
        exact ⟨a, b, c, d, rest, n, rfl, hn, hlow, hrest⟩
      · rw [tokensFrom?_of_step? rfl] at h
        simp [tokensFrom?_cons, step?, hc'] at h
    · simp [tokensFrom?_cons, step?, hc] at h

/-- A text that is open is closed. -/
theorem closes_of_tokensFrom? {read cs : List Char} {ts : List Token}
    (h : tokensFrom? (.inText read) cs = some ts) : Closes read cs ts := by
  induction hlength : cs.length using Nat.strongRecOn generalizing read cs with
  | ind length ih =>
  match cs with
  | [] => cases h
  | c :: cs =>
    by_cases hquote : c = '"'
    · subst hquote
      obtain ⟨more, hmore, rfl⟩ := Option.map_eq_some_iff.1 h
      exact ⟨[], [], cs, more, rfl, .nil, by simp, hmore⟩
    by_cases hslash : c = '\\'
    · subst hslash
      rw [tokensFrom?_of_step? rfl] at h
      match cs with
      | [] => cases h
      | c :: cs =>
        by_cases hcode : c = 'u'
        · subst hcode
          rw [tokensFrom?_of_step? rfl] at h
          obtain ⟨a, b, c, d, rest, n, s, rfl, hn, hs, h⟩ := exists_of_tokensFrom?_code h
          rcases codeUnit?_none_eq_some_iff.1 hs with ⟨hhigh, rfl⟩ | ⟨hhigh, hlow, rfl⟩
          · obtain ⟨a', b', c', d', rest, m, rfl, hm, hlow, h⟩ := exists_of_tokensFrom?_lowHalf h
            exact (ih rest.length (by simp at hlength; omega) h rfl).more
              ['\\', 'u', a, b, c, d, '\\', 'u', a', b', c', d']
              fun hbody => .pair hn hhigh hm hlow hbody
          · exact (ih rest.length (by simp at hlength; omega) h rfl).more ['\\', 'u', a, b, c, d]
              fun hbody => .code hn hhigh hlow hbody
        · rw [tokensFrom?_cons] at h
          simp only [step?, if_neg hcode] at h
          obtain ⟨r, hr, h⟩ := Option.bind_eq_some_iff.1 h
          obtain ⟨d, hd, rfl⟩ := Option.map_eq_some_iff.1 hr
          simp only [List.nil_append, Option.map_id_fun', id] at h
          exact (ih cs.length (by simp at hlength; omega) h rfl).more ['\\', c]
            fun hbody => .escape hd hbody
    · by_cases hcontrol : c.toNat < 0x20
      · simp [tokensFrom?_cons, step?, hquote, hslash, hcontrol] at h
      · have hstep : step? (.inText read) c = some ([], .inText (c :: read)) := by
          simp [step?, hquote, hslash, hcontrol]
        rw [tokensFrom?_of_step? hstep] at h
        exact (ih cs.length (by simp at hlength; omega) h rfl).more [c]
          fun hbody => .plain hquote hslash (by omega) hbody

/-- The body of a text and the quote behind it are one token. -/
theorem tokensFrom?_inText {body ds : List Char} (hbody : SpellsText body ds)
    (read cs : List Char) :
    tokensFrom? (.inText read) (body ++ '"' :: cs) =
      (tokensFrom? .between cs).map (.text (String.ofList (read.reverse ++ ds)) :: ·) := by
  induction hbody generalizing read with
  | nil =>
    rw [List.nil_append, List.append_nil]
    rfl
  | @plain c body ds hquote hslash hcontrol _ ih =>
    have hstep : step? (.inText read) c = some ([], .inText (c :: read)) := by
      simp [step?, hquote, hslash, Nat.not_lt.2 hcontrol]
    rw [List.cons_append, tokensFrom?_of_step? hstep, ih]
    simp
  | @escape c d body ds hd _ ih =>
    have hcode : c ≠ 'u' := by
      rintro rfl
      cases hd
    have hstep : step? (.escape read) c = some ([], .inText (d :: read)) := by
      simp [step?, hcode, hd]
    rw [List.cons_append, tokensFrom?_of_step? rfl, List.cons_append, tokensFrom?_of_step? hstep,
      ih]
    simp
  | @code a b c d n body ds hn hhigh hlow _ ih =>
    have hunit : codeUnit? read none n = some (.inText (Char.ofNat n :: read)) :=
      codeUnit?_none_eq_some_iff.2 (.inr ⟨hhigh, hlow, rfl⟩)
    simp only [List.cons_append]
    rw [tokensFrom?_of_step? rfl, tokensFrom?_of_step? rfl, tokensFrom?_code, hn, Option.bind_some,
      hunit, Option.bind_some, ih]
    simp
  | @pair a b c d a' b' c' d' m n body ds hm hhigh hn hlow _ ih =>
    have hfirst : codeUnit? read none m = some (.lowHalf read m) :=
      codeUnit?_none_eq_some_iff.2 (.inl ⟨hhigh, rfl⟩)
    have hsecond : codeUnit? read (some m) n = some (.inText
        (Char.ofNat (0x10000 + (m - 0xD800) * 0x400 + (n - 0xDC00)) :: read)) :=
      codeUnit?_some_eq_some_iff.2 ⟨hlow, rfl⟩
    simp only [List.cons_append]
    rw [tokensFrom?_of_step? rfl, tokensFrom?_of_step? rfl, tokensFrom?_code, hm, Option.bind_some,
      hfirst, Option.bind_some, tokensFrom?_of_step? rfl, tokensFrom?_of_step? rfl,
      tokensFrom?_code, hn, Option.bind_some, hsecond, Option.bind_some, ih]
    simp

/-! ## Whole texts -/

/-- What the scanner finds is what the text consists of. -/
theorem lexes_of_tokensFrom? {cs : List Char} {ts : List Token}
    (h : tokensFrom? .between cs = some ts) : Lexes cs ts := by
  match cs with
  | [] =>
    cases h
    exact .nil
  | c :: cs =>
    obtain ⟨r, hr, h⟩ := Option.bind_eq_some_iff.1 h
    obtain ⟨more, hmore, rfl⟩ := Option.map_eq_some_iff.1 h
    rcases start?_eq_some hr with ⟨hc, rfl⟩ | ⟨t, hc, rfl⟩ | ⟨rfl, rfl⟩ | ⟨hc, rfl⟩
    · exact .space hc (lexes_of_tokensFrom? hmore)
    · exact .sign hc (lexes_of_tokensFrom? hmore)
    · obtain ⟨body, ds, after, rest, rfl, hbody, rfl, hrest⟩ := closes_of_tokensFrom? hmore
      exact .text hbody (lexes_of_tokensFrom? hrest)
    · obtain ⟨w, after, v, rest, rfl, hw, hend, hv, rfl, hrest⟩ :=
        exists_of_tokensFrom?_inWord hmore
      have hword : ∀ d ∈ c :: w, isWordChar d = true := List.forall_mem_cons.2 ⟨hc, hw⟩
      exact .word hword hv hend (lexes_of_tokensFrom? hrest)
termination_by cs.length

/-- What a text consists of the scanner finds. -/
theorem tokensFrom?_of_lexes {cs : List Char} {ts : List Token} (h : Lexes cs ts) :
    tokensFrom? .between cs = some ts := by
  induction h with
  | nil => rfl
  | @space c cs ts hc _ ih =>
    have hstep : step? .between c = some ([], .between) := start?_of_isSpace hc
    rw [tokensFrom?_of_step? hstep, ih]
  | @sign c t cs ts hc _ ih =>
    have hstep : step? .between c = some ([t], .between) := start?_of_sign? hc
    rw [tokensFrom?_cons, hstep, Option.bind_some, ih]
    rfl
  | @text body ds cs ts hbody _ ih =>
    rw [List.cons_append, tokensFrom?_of_step? rfl, tokensFrom?_inText hbody, ih]
    rfl
  | @word w cs v ts hw hv hend _ ih =>
    cases w with
    | nil => cases hv
    | cons c w =>
      rw [List.forall_mem_cons] at hw
      have hstep : step? .between c = some ([], .inWord [c]) := Value.start?_word hw.1
      have hword : wordValue? ([c].reverse ++ w) = some v := hv
      rw [List.cons_append, tokensFrom?_of_step? hstep]
      exact tokensFrom?_inWord hw.2 hend hword ih

/-- The scanner finds the tokens of a text when the text consists of tokens, and no others. -/
theorem scan?_eq_some_iff {cs : List Char} {ts : List Token} :
    scan? cs = some ts ↔ Lexes cs ts := by
  rw [scan?_eq_tokensFrom?]
  exact ⟨lexes_of_tokensFrom?, tokensFrom?_of_lexes⟩

/-- Outside of texts in quotes there is nothing but white space, signs and words. -/
theorem Lexes.char {cs : List Char} {ts : List Token} (h : Lexes cs ts) (hquote : '"' ∉ cs) :
    ∀ c ∈ cs, isSpace c = true ∨ (∃ t, sign? c = some t) ∨ isWordChar c = true := by
  induction h with
  | nil => exact List.forall_mem_nil _
  | space hc _ ih =>
    exact List.forall_mem_cons.2 ⟨.inl hc, ih fun hmem => hquote (List.mem_cons_of_mem _ hmem)⟩
  | sign hc _ ih =>
    exact List.forall_mem_cons.2
      ⟨.inr (.inl ⟨_, hc⟩), ih fun hmem => hquote (List.mem_cons_of_mem _ hmem)⟩
  | text => exact absurd List.mem_cons_self hquote
  | word hw _ _ _ ih =>
    exact List.forall_mem_append.2 ⟨fun c hc => .inr (.inr (hw c hc)),
      ih fun hmem => hquote (List.mem_append_right _ hmem)⟩

end HookRegistry.Token
