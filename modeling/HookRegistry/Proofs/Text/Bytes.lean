/-!
# The bytes of a text

A byte array is read as a list of bytes in a loop that counts up.  Here the list is given by the
array, the bytes of a text by those of its parts, and a text by its bytes.
-/

namespace HookRegistry.Text

/-- The loop puts the bytes that are left behind those that it has. -/
theorem toList_loop (bytes : ByteArray) (i : Nat) (done : List UInt8) :
    ByteArray.toList.loop bytes i done = done.reverse ++ bytes.data.toList.drop i := by
  fun_induction ByteArray.toList.loop bytes i done with
  | case1 i done hi ih =>
    have hlength : i < bytes.data.toList.length := hi
    have hbyte : bytes.get! i = bytes.data.toList[i] := by
      have hget : bytes.get! i = bytes.data[i]! := rfl
      rw [hget, getElem!_pos bytes.data i hi, Array.getElem_toList]
    rw [ih, List.drop_eq_getElem_cons hlength, hbyte, List.reverse_cons, List.append_assoc,
      List.singleton_append]
  | case2 i done hi =>
    have hlength : bytes.data.toList.length ≤ i := Nat.le_of_not_lt hi
    rw [List.drop_eq_nil_of_le hlength, List.append_nil]

/-- The bytes of a byte array. -/
theorem toList_eq (bytes : ByteArray) : bytes.toList = bytes.data.toList := by
  rw [ByteArray.toList, toList_loop]
  rfl

/-- The bytes of a text are those of its parts. -/
theorem toList_toUTF8_append (s t : String) :
    (s ++ t).toUTF8.toList = s.toUTF8.toList ++ t.toUTF8.toList := by
  simp only [toList_eq, String.toUTF8_eq_toByteArray, String.toByteArray_append,
    ByteArray.toList_data_append]

/-- A text is read back from its bytes. -/
theorem fromUTF8?_toUTF8 (s : String) : String.fromUTF8? s.toUTF8 = some s := by
  have hvalid : s.toUTF8.IsValidUTF8 := s.isValidUTF8
  unfold String.fromUTF8?
  rw [dif_pos hvalid]
  rfl

theorem fromUTF8?_eq_some_iff {data : ByteArray} {s : String} :
    String.fromUTF8? data = some s ↔ data = s.toUTF8 := by
  constructor
  · intro h
    unfold String.fromUTF8? at h
    split at h
    next hvalid =>
      cases h
      rfl
    next => cases h
  · rintro rfl
    exact fromUTF8?_toUTF8 s

/-- The character of the same number as a byte. -/
def charOfByte (b : UInt8) : Char :=
  Char.ofNat b.toNat

theorem charOfByte_injective {b b' : UInt8} (h : charOfByte b = charOfByte b') : b = b' := by
  have hnumber : ∀ b : UInt8, (charOfByte b).toNat = b.toNat := by
    intro b
    have hlt : b.toNat < 256 := b.toNat_lt
    have hchar : b.toNat.isValidChar := .inl (by omega)
    have heq : charOfByte b = Char.ofNatAux b.toNat hchar := dif_pos hchar
    rw [heq]
    rfl
  rw [← UInt8.toNat_inj, ← hnumber, h, hnumber]

/-- The bytes of a text of ASCII characters are the numbers of the characters. -/
theorem map_charOfByte_toUTF8 {cs : List Char} (h : ∀ c ∈ cs, c.toNat < 128) :
    (String.ofList cs).toUTF8.toList.map charOfByte = cs := by
  rw [toList_eq, String.toUTF8_eq_toByteArray, String.toByteArray_ofList, List.utf8Encode,
    List.data_toByteArray]
  induction cs with
  | nil => rfl
  | cons c cs ih =>
    rw [List.forall_mem_cons] at h
    have hsmall : c.toNat ≤ 127 := Nat.le_of_lt_succ h.1
    have hchar : charOfByte (UInt8.ofNat c.toNat) = c := by
      have hmod : c.toNat % 256 = c.toNat := by omega
      rw [charOfByte, UInt8.toNat_ofNat', hmod]
      exact Char.ofNat_toNat c
    have hbytes : String.utf8EncodeChar c = [UInt8.ofNat c.toNat] := if_pos hsmall
    simpa [hbytes, hchar] using ih h.2

/-- A body is the text whose characters have the numbers of its bytes, when these are ASCII. -/
theorem eq_toUTF8_iff {bytes : ByteArray} {cs : List Char} (h : ∀ c ∈ cs, c.toNat < 128) :
    bytes = (String.ofList cs).toUTF8 ↔ bytes.toList.map charOfByte = cs := by
  refine ⟨fun heq => heq ▸ map_charOfByte_toUTF8 h, fun heq => ?_⟩
  rw [← map_charOfByte_toUTF8 h, toList_eq, toList_eq] at heq
  have hdata := (List.map_inj_right fun _ _ => charOfByte_injective).1 heq
  exact ByteArray.ext (Array.toList_inj.1 hdata)

end HookRegistry.Text
