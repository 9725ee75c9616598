import HookRegistry.Proofs.Value.Grammar

/-!
# Values that were read

Whatever bytes are read as JSON, the value has the form that JSON text can hold, with doubles that
some word of the text stands for: `onWire_of_ofBytes?`.  The grammar says so, of the tokens of a
text first and then of the values that they denote.
-/

namespace HookRegistry

/-- A double that a word of JSON text stands for. -/
def Double.Spelled (x : Double) : Prop :=
  ∃ cs, Token.wordValue? cs = some (.real x)

/-! ## Words -/

namespace Numeral

/-- The digits before the point are digits. -/
theorem allDigits_whole {cs : List Char} {n : Numeral} (h : ofChars? cs = some n) :
    AllDigits n.whole := by
  have htake : ∀ ds : List Char, AllDigits (ds.takeWhile Char.isDigit) :=
    fun ds => all_isDigit_iff.1 List.all_takeWhile
  simp only [ofChars?] at h
  split at h
  · split at h
    · cases h
    · obtain ⟨e, -, rfl⟩ := Option.map_eq_some_iff.1 h
      exact htake _
  · split at h
    · cases h
    · obtain ⟨e, -, rfl⟩ := Option.map_eq_some_iff.1 h
      exact htake _

end Numeral

namespace Token

/-- A number without point and exponent is not too large, any other number is rounded. -/
theorem number?_eq_some {cs : List Char} {v : Value} (h : number? cs = some v) :
    (∃ n : Int, v = .int n ∧ n.natAbs < 10 ^ digitLimit) ∨
      ∃ n : Numeral, v = .real n.toDouble := by
  unfold number? at h
  split at h
  · cases h
  next n hn =>
    split at h
    · cases h
    split at h
    · cases h
    split at h
    · cases h
    next hlength =>
      split at h
      · cases h
        refine .inl ⟨n.toInt, rfl, ?_⟩
        have hlt : Numeral.natOfDigits n.whole < 10 ^ n.whole.length :=
          Numeral.natOfDigits_lt (Numeral.allDigits_whole hn)
        have hpow : 10 ^ n.whole.length ≤ 10 ^ digitLimit :=
          Nat.pow_le_pow_right (by decide) (by omega)
        have habs : n.toInt.natAbs = Numeral.natOfDigits n.whole := by
          unfold Numeral.toInt
          split <;> omega
        rw [habs]
        exact Nat.lt_of_lt_of_le hlt hpow
      · cases h
        exact .inr ⟨_, rfl⟩

/-- A word is one of the words that stand for a value, or a number. -/
theorem wordValue?_eq_some {cs : List Char} {v : Value} (h : wordValue? cs = some v) :
    v = .null ∨ (∃ b, v = .bool b) ∨ v = .real .nan ∨ (∃ s, v = .real (.infinite s)) ∨
      number? cs = some v := by
  unfold wordValue? at h
  split at h
  · exact .inl (Option.some.inj h).symm
  · exact .inr (.inl ⟨true, (Option.some.inj h).symm⟩)
  · exact .inr (.inl ⟨false, (Option.some.inj h).symm⟩)
  · exact .inr (.inr (.inl (Option.some.inj h).symm))
  · exact .inr (.inr (.inr (.inl ⟨false, (Option.some.inj h).symm⟩)))
  · exact .inr (.inr (.inr (.inl ⟨true, (Option.some.inj h).symm⟩)))
  · exact .inr (.inr (.inr (.inr h)))

/-- The value of a word can stand in JSON text anywhere. -/
theorem onWire_of_wordValue? {cs : List Char} {v : Value} (h : wordValue? cs = some v) (d : Nat) :
    Value.OnWire Double.Spelled d v := by
  have hspelled : ∀ x, v = .real x → Double.Spelled x := fun x hx => ⟨cs, hx ▸ h⟩
  rcases wordValue?_eq_some h with rfl | ⟨b, rfl⟩ | rfl | ⟨s, rfl⟩ | hnumber
  · exact .null
  · exact .bool b
  · exact .real (hspelled _ rfl)
  · exact .real (hspelled _ rfl)
  · rcases number?_eq_some hnumber with ⟨n, rfl, hn⟩ | ⟨n, rfl⟩
    · exact .int hn
    · exact .real (hspelled _ rfl)

/-! ## Tokens -/

/-- A token whose value, if it is a word, is one that a word can have. -/
def Scanned (t : Token) : Prop :=
  ∀ v, t = .word v → ∃ cs, wordValue? cs = some v

/-- Every token of a text has a value that it can have. -/
theorem Lexes.scanned {cs : List Char} {ts : List Token} (h : Lexes cs ts) :
    ∀ t ∈ ts, Scanned t := by
  induction h with
  | nil => exact List.forall_mem_nil _
  | space _ _ ih => exact ih
  | sign hc _ ih =>
    refine List.forall_mem_cons.2 ⟨?_, ih⟩
    rintro v rfl
    exact absurd hc sign?_ne_word
  | text _ _ ih => exact List.forall_mem_cons.2 ⟨fun v hv => (by cases hv), ih⟩
  | @word w _ v _ _ hv _ _ ih =>
    refine List.forall_mem_cons.2 ⟨?_, ih⟩
    rintro u ⟨rfl⟩
    exact ⟨w, hv⟩

end Token

/-! ## Values -/

namespace Value

variable {R : Double → Prop}

/-- What tokens denote is a value that JSON text can hold, when their words have such values. -/
theorem Reads.onWire {d : Nat} {ts : List Token} {v : Value} (h : Reads d ts v)
    (hwords : ∀ w d, Token.word w ∈ ts → OnWire R d w) : OnWire R d v := by
  induction h with
  | word v => exact hwords v _ (List.mem_singleton_self _)
  | text s => exact .text s
  | emptyList => exact .emptyList
  | emptyRecord => exact .emptyRecord
  | @list d first items _ ih =>
    refine .list fun v hv => ?_
    obtain ⟨item, hitem, rfl⟩ := List.mem_map.1 hv
    refine ih item hitem fun w e hw => hwords w e ?_
    rcases List.mem_cons.1 hitem with rfl | hitem
    · simp [hw]
    · have hmem : Token.word w ∈ items.flatMap (fun item => .comma :: item.1) :=
        List.mem_flatMap.2 ⟨item, hitem, List.mem_cons_of_mem _ hw⟩
      simp [hmem]
  | @record d first members _ ih =>
    refine .record (nodup_collect _) fun m hm => ?_
    obtain ⟨member, hmember, rfl⟩ := List.mem_map.1 (mem_collect hm)
    refine ih member hmember fun w e hw => hwords w e ?_
    rcases List.mem_cons.1 hmember with rfl | hmember
    · simp [nameTokens, hw]
    · have hmem : Token.word w ∈ members.flatMap (fun m => .comma :: nameTokens m.1 m.2.1) :=
        List.mem_flatMap.2 ⟨member, hmember, by simp [nameTokens, hw]⟩
      simp [hmem]

/-- Whatever is read as JSON text is a value that JSON text can hold. -/
theorem onWire_of_ofBytes? {data : ByteArray} {v : Value} (h : ofBytes? data = some v) :
    OnWire Double.Spelled depthLimit v := by
  obtain ⟨s, -, ts, hlexes, hreads⟩ := ofBytes?_eq_some_iff.1 h
  refine hreads.onWire fun w d hw => ?_
  obtain ⟨cs, hcs⟩ := hlexes.scanned _ hw w rfl
  exact Token.onWire_of_wordValue? hcs d

end Value

end HookRegistry
