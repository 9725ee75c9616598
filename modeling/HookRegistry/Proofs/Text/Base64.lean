import HookRegistry.Text.Base64

/-!
# Base64, written and read

`encode` writes letters of the alphabet, and fill-ups behind them, and `decode?` reads nothing but
what `encode` writes: `decode?_eq_some_iff`.  So different bytes have different texts.  `Spells` says
what a text of some bytes looks like.
-/

namespace HookRegistry.Base64

/-- The letters in the order of their numbers. -/
def alphabet : List Char :=
  "ABCDEFGHIJKLMNOPQRSTUVWXYZabcdefghijklmnopqrstuvwxyz0123456789+/".toList

/-! ## Letters -/

theorem letter_spec :
    ∀ n < 64, letter n ∈ alphabet ∧ letter n ≠ '=' ∧ value? (letter n) = some n := by
  decide

theorem value?_letter {n : Nat} (h : n < 64) : value? (letter n) = some n :=
  (letter_spec n h).2.2

theorem letter_ne_fill {n : Nat} (h : n < 64) : letter n ≠ '=' :=
  (letter_spec n h).2.1

theorem letter_mem {n : Nat} (h : n < 64) : letter n ∈ alphabet :=
  (letter_spec n h).1

/-- A character is found from its distance to an earlier one. -/
theorem ofNat_distance {first c : Char} (h : first ≤ c) :
    Char.ofNat (first.toNat + (c.toNat - first.toNat)) = c := by
  have hle : first.toNat ≤ c.toNat := UInt32.le_iff_toNat_le.1 h
  rw [Nat.add_sub_cancel' hle, Char.ofNat_toNat]

/-- A character with a number is the letter of that number. -/
theorem value?_eq_some {c : Char} {n : Nat} (h : value? c = some n) : n < 64 ∧ letter n = c := by
  have hle : ∀ last : Char, c ≤ last → c.toNat ≤ last.toNat := fun _ => UInt32.le_iff_toNat_le.1
  have hA : 'A'.toNat = 65 := rfl
  have hZ : 'Z'.toNat = 90 := rfl
  have ha : 'a'.toNat = 97 := rfl
  have hz : 'z'.toNat = 122 := rfl
  have h0 : '0'.toNat = 48 := rfl
  have h9 : '9'.toNat = 57 := rfl
  unfold value? at h
  split at h
  next hc =>
    cases h
    have hlast := hle 'Z' hc.2
    have hn : c.toNat - 'A'.toNat < 26 := by omega
    exact ⟨by omega, by rw [letter, if_pos hn, ofNat_distance hc.1]⟩
  split at h
  next hc =>
    cases h
    have hlast := hle 'z' hc.2
    have hn : c.toNat - 'a'.toNat < 26 := by omega
    refine ⟨by omega, ?_⟩
    rw [letter, if_neg (by omega), if_pos (by omega), Nat.add_sub_cancel, ofNat_distance hc.1]
  split at h
  next hc =>
    cases h
    have hlast := hle '9' hc.2
    have hn : c.toNat - '0'.toNat < 10 := by omega
    refine ⟨by omega, ?_⟩
    rw [letter, if_neg (by omega), if_neg (by omega), if_pos (by omega), Nat.add_sub_cancel,
      ofNat_distance hc.1]
  split at h
  next hc =>
    cases h
    exact ⟨by decide, hc.symm⟩
  split at h
  next hc =>
    cases h
    exact ⟨by decide, hc.symm⟩
  · cases h

/-! ## Groups -/

theorem ofNat_eq_of_mod_eq {n : Nat} {b : UInt8} (h : n % 256 = b.toNat) : UInt8.ofNat n = b := by
  rw [← UInt8.toNat_inj, UInt8.toNat_ofNat']
  exact h

/-- What was written is read back. -/
theorem decode?_encode (bytes : List UInt8) : decode? (encode bytes) = some bytes := by
  fun_induction encode bytes with
  | case1 => rfl
  | case2 a n =>
    have ha : a.toNat < 256 := a.toNat_lt
    rw [decode?, value?_letter (by omega), value?_letter (by omega)]
    have hn : n / 64 * 64 + n % 64 = n := by omega
    have hbyte : UInt8.ofNat (n / 16) = a := ofNat_eq_of_mod_eq (by omega)
    simp only [bind, Option.bind, hn, hbyte]
    exact if_pos (by omega)
  | case3 a b n =>
    have ha : a.toNat < 256 := a.toNat_lt
    have hb : b.toNat < 256 := b.toNat_lt
    rw [decode?, value?_letter (by omega), value?_letter (by omega), value?_letter (by omega)]
    · have hn : (n / 4096 * 64 + n / 64 % 64) * 64 + n % 64 = n := by omega
      have hfirst : UInt8.ofNat (n / 1024) = a := ofNat_eq_of_mod_eq (by omega)
      have hsecond : UInt8.ofNat (n / 4) = b := ofNat_eq_of_mod_eq (by omega)
      simp only [bind, Option.bind, hn, hfirst, hsecond]
      exact if_pos (by omega)
    · exact letter_ne_fill (by omega)
  | case4 a b c rest n ih =>
    have ha : a.toNat < 256 := a.toNat_lt
    have hb : b.toNat < 256 := b.toNat_lt
    have hc : c.toNat < 256 := c.toNat_lt
    have hlast : letter (n % 64) ≠ '=' := letter_ne_fill (by omega)
    rw [decode?, value?_letter (by omega), value?_letter (by omega), value?_letter (by omega),
      value?_letter (by omega), ih]
    · have hn : ((n / 262144 * 64 + n / 4096 % 64) * 64 + n / 64 % 64) * 64 + n % 64 = n := by omega
      have hfirst : UInt8.ofNat (n / 65536) = a := ofNat_eq_of_mod_eq (by omega)
      have hsecond : UInt8.ofNat (n / 256) = b := ofNat_eq_of_mod_eq (by omega)
      have hthird : UInt8.ofNat n = c := ofNat_eq_of_mod_eq (by omega)
      simp only [bind, Option.bind, hn, hfirst, hsecond, hthird]
    · exact fun _ hfill _ => hlast hfill
    · exact fun hfill _ => hlast hfill

/-- Nothing else is read. -/
theorem encode_of_decode? {text : List Char} {bytes : List UInt8}
    (h : decode? text = some bytes) : encode bytes = text := by
  fun_induction decode? text generalizing bytes with
  | case1 =>
    cases h
    rfl
  | case2 a b =>
    simp only [bind, Option.bind_eq_some_iff] at h
    obtain ⟨i, hi, j, hj, h⟩ := h
    obtain ⟨hilt, rfl⟩ := value?_eq_some hi
    obtain ⟨hjlt, rfl⟩ := value?_eq_some hj
    obtain ⟨hfull, h⟩ := Option.ite_none_right_eq_some.1 h
    cases h
    have hbyte : (UInt8.ofNat ((i * 64 + j) / 16)).toNat * 16 = i * 64 + j := by
      rw [UInt8.toNat_ofNat']
      omega
    have hfirst : (i * 64 + j) / 64 = i := by omega
    have hsecond : (i * 64 + j) % 64 = j := by omega
    simp only [encode, hbyte, hfirst, hsecond]
  | case3 a b c hfill =>
    simp only [bind, Option.bind_eq_some_iff] at h
    obtain ⟨i, hi, j, hj, k, hk, h⟩ := h
    obtain ⟨hilt, rfl⟩ := value?_eq_some hi
    obtain ⟨hjlt, rfl⟩ := value?_eq_some hj
    obtain ⟨hklt, rfl⟩ := value?_eq_some hk
    obtain ⟨hfull, h⟩ := Option.ite_none_right_eq_some.1 h
    cases h
    generalize hn : (i * 64 + j) * 64 + k = n at hfull ⊢
    have hbytes : ((UInt8.ofNat (n / 1024)).toNat * 256 + (UInt8.ofNat (n / 4)).toNat) * 4 = n := by
      rw [UInt8.toNat_ofNat', UInt8.toNat_ofNat']
      omega
    have hfirst : n / 4096 = i := by omega
    have hsecond : n / 64 % 64 = j := by omega
    have hthird : n % 64 = k := by omega
    simp only [encode, hbytes, hfirst, hsecond, hthird]
  | case4 a b c d rest hmore hfill ih =>
    simp only [bind, Option.bind_eq_some_iff] at h
    obtain ⟨i, hi, j, hj, k, hk, l, hl, others, hothers, h⟩ := h
    obtain ⟨hilt, rfl⟩ := value?_eq_some hi
    obtain ⟨hjlt, rfl⟩ := value?_eq_some hj
    obtain ⟨hklt, rfl⟩ := value?_eq_some hk
    obtain ⟨hllt, rfl⟩ := value?_eq_some hl
    cases h
    generalize hn : ((i * 64 + j) * 64 + k) * 64 + l = n
    have hbytes : ((UInt8.ofNat (n / 65536)).toNat * 256 + (UInt8.ofNat (n / 256)).toNat) * 256 +
        (UInt8.ofNat n).toNat = n := by
      rw [UInt8.toNat_ofNat', UInt8.toNat_ofNat', UInt8.toNat_ofNat']
      omega
    have hfirst : n / 262144 = i := by omega
    have hsecond : n / 4096 % 64 = j := by omega
    have hthird : n / 64 % 64 = k := by omega
    have hlast : n % 64 = l := by omega
    simp only [encode, hbytes, hfirst, hsecond, hthird, hlast, ih hothers]
  | case5 => cases h

/-- Reading is the inverse of writing, and accepts nothing else. -/
theorem decode?_eq_some_iff {text : List Char} {bytes : List UInt8} :
    decode? text = some bytes ↔ text = encode bytes := by
  refine ⟨fun h => (encode_of_decode? h).symm, fun h => ?_⟩
  rw [h, decode?_encode]

example : encode [77, 97, 110, 33] = ['T', 'W', 'F', 'u', 'I', 'Q', '=', '='] ∧
    decode? ['T', 'W', 'F', 'u', 'I', 'Q', '=', '='] = some [77, 97, 110, 33] := by
  decide

/-! ## What a text looks like -/

/-- A text of some bytes: letters of the alphabet and fill-ups, four for three bytes and for what is
left of them at the end, that are read as these bytes. -/
structure Spells (text : List Char) (bytes : List UInt8) : Prop where
  letters : ∀ c ∈ text, c ∈ alphabet ∨ c = '='
  length_eq : text.length = 4 * ((bytes.length + 2) / 3)
  decode?_eq : decode? text = some bytes

theorem mem_encode (bytes : List UInt8) : ∀ c ∈ encode bytes, c ∈ alphabet ∨ c = '=' := by
  fun_induction encode bytes with
  | case1 => exact List.forall_mem_nil _
  | case2 a n =>
    have ha : a.toNat < 256 := a.toNat_lt
    simp only [List.forall_mem_cons]
    exact ⟨.inl (letter_mem (by omega)), .inl (letter_mem (by omega)), .inr trivial, .inr trivial,
      List.forall_mem_nil _⟩
  | case3 a b n =>
    have ha : a.toNat < 256 := a.toNat_lt
    have hb : b.toNat < 256 := b.toNat_lt
    simp only [List.forall_mem_cons]
    exact ⟨.inl (letter_mem (by omega)), .inl (letter_mem (by omega)), .inl (letter_mem (by omega)),
      .inr trivial, List.forall_mem_nil _⟩
  | case4 a b c rest n ih =>
    have ha : a.toNat < 256 := a.toNat_lt
    have hb : b.toNat < 256 := b.toNat_lt
    have hc : c.toNat < 256 := c.toNat_lt
    simp only [List.forall_mem_cons]
    exact ⟨.inl (letter_mem (by omega)), .inl (letter_mem (by omega)),
      .inl (letter_mem (by omega)), .inl (letter_mem (by omega)), ih⟩

theorem length_encode (bytes : List UInt8) :
    (encode bytes).length = 4 * ((bytes.length + 2) / 3) := by
  fun_induction encode bytes with
  | case1 | case2 | case3 => simp only [List.length_cons, List.length_nil]
  | case4 a b c rest n ih =>
    simp only [List.length_cons, ih]
    omega

theorem spells_encode (bytes : List UInt8) : Spells (encode bytes) bytes where
  letters := mem_encode bytes
  length_eq := length_encode bytes
  decode?_eq := decode?_encode bytes

/-- Such a text is ASCII and has no line breaks. -/
theorem Spells.plain {text : List Char} {bytes : List UInt8} (h : Spells text bytes) {c : Char}
    (hc : c ∈ text) : c.toNat < 128 ∧ c ≠ '\n' ∧ c ≠ '\r' := by
  have hletters : (alphabet.all fun c => decide (c.toNat < 128 ∧ c ≠ '\n' ∧ c ≠ '\r')) = true := rfl
  rcases h.letters c hc with hletter | rfl
  · exact of_decide_eq_true (List.all_eq_true.1 hletters c hletter)
  · decide

end HookRegistry.Base64
