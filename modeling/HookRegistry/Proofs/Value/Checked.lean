import HookRegistry.Value.Decoder

/-!
# Readings that succeed

A reading of a record succeeds exactly when the reading of every field does.  The lemmas here take
such a reading apart, one for each way of putting readings together, and say that texts and lists
of texts are read as what they are.
-/

namespace HookRegistry

namespace Checked

variable {α β : Type}

theorem seq_eq_valid {f : Checked (α → β)} {x : Checked α} {b : β} :
    (f <*> x) = .valid b ↔ ∃ g a, f = .valid g ∧ x = .valid a ∧ g a = b := by
  have hseq : (f <*> x) = f.seq fun _ => x := rfl
  rw [hseq]
  cases f <;> cases x <;> simp [seq]

theorem fmap_eq_valid {f : α → β} {x : Checked α} {b : β} :
    (f <$> x) = .valid b ↔ ∃ a, x = .valid a ∧ f a = b := by
  have hmap : (f <$> x) = (Checked.valid f <*> x) := rfl
  rw [hmap, seq_eq_valid]
  simp

theorem under_eq_valid {x : Checked α} {s : Step} {a : α} :
    x.under s = .valid a ↔ x = .valid a := by
  cases x <;> simp [under]

theorem bind_eq_valid {x : Checked α} {f : α → Checked β} {b : β} :
    x.bind f = .valid b ↔ ∃ a, x = .valid a ∧ f a = .valid b := by
  cases x <;> simp [bind]

theorem map_eq_valid {f : α → β} {x : Checked α} {b : β} :
    x.map f = .valid b ↔ ∃ a, x = .valid a ∧ f a = b := by
  cases x <;> simp [map]

theorem traverseFrom_eq_valid {read : α → Checked β} {i : Nat} {as : List α} {bs : List β} :
    traverseFrom read i as = .valid bs ↔ as.map read = bs.map .valid := by
  induction as generalizing i bs with
  | nil => cases bs <;> simp [traverseFrom]
  | cons a as ih =>
    rw [traverseFrom, seq_eq_valid]
    simp only [fmap_eq_valid, under_eq_valid, ih]
    cases bs with
    | nil => simp
    | cons b bs =>
      rw [List.map_cons, List.map_cons, List.cons.injEq]
      constructor
      · rintro ⟨_, rest, ⟨first, hfirst, rfl⟩, hrest, heq⟩
        cases heq
        exact ⟨hfirst, hrest⟩
      · rintro ⟨hfirst, hrest⟩
        exact ⟨_, bs, ⟨b, hfirst, rfl⟩, hrest, rfl⟩

/-- A list is read when all its elements are: as many, in the same order. -/
theorem traverse_eq_valid {read : α → Checked β} {as : List α} {bs : List β} :
    traverse read as = .valid bs ↔ as.map read = bs.map .valid :=
  traverseFrom_eq_valid

/-- Every element of a list that is read is read from an element. -/
theorem exists_of_mem_traverse {read : α → Checked β} {as : List α} {bs : List β}
    (h : traverse read as = .valid bs) : ∀ b ∈ bs, ∃ a ∈ as, read a = .valid b := by
  intro b hb
  have hmem : Checked.valid b ∈ as.map read := by
    rw [traverse_eq_valid.1 h]
    exact List.mem_map_of_mem hb
  exact List.mem_map.1 hmem

/-- A list of which every element reads back reads back. -/
theorem traverse_map {read : α → Checked β} {write : β → α} (h : ∀ b, read (write b) = .valid b)
    (bs : List β) : traverse read (bs.map write) = .valid bs := by
  rw [traverse_eq_valid, List.map_map]
  exact List.map_congr_left fun b _ => h b

end Checked

namespace Value

variable {α : Type}

/-- What is read from bytes is read from the value that they hold. -/
theorem decodeBytes_eq_valid {read : Value → Checked α} {data : ByteArray} {a : α} :
    decodeBytes read data = .valid a ↔ ∃ v, ofBytes? data = some v ∧ read v = .valid a := by
  unfold decodeBytes
  cases ofBytes? data with
  | none => simp [Checked.fail]
  | some v => simp

/-- A field that is read is there and readable, or missing and the default. -/
theorem field_eq_valid {members : List (String × Value)} {name : String} {default a : α}
    {read : Value → Checked α} :
    field members name default read = .valid a ↔
      (∃ v, Assoc.get? name members = some v ∧ read v = .valid a) ∨
        (Assoc.get? name members = none ∧ default = a) := by
  unfold field
  cases Assoc.get? name members with
  | none => simp
  | some v => simp [Checked.under_eq_valid]

/-- A field that is there and reads back. -/
theorem field_of_get? {members : List (String × Value)} {name : String} {default a : α}
    {read : Value → Checked α} {v : Value} (h : Assoc.get? name members = some v)
    (hread : read v = .valid a) : field members name default read = .valid a :=
  field_eq_valid.2 (.inl ⟨v, h, hread⟩)

/-- A field that is missing. -/
theorem field_of_get?_none {members : List (String × Value)} {name : String} {default : α}
    {read : Value → Checked α} (h : Assoc.get? name members = none) :
    field members name default read = .valid default :=
  field_eq_valid.2 (.inr ⟨h, rfl⟩)

/-- A field that is left out when its value is the default. -/
theorem field_of_omitted {members : List (String × Value)} {name : String} {default a : α}
    {read : Value → Checked α} {v : Value} {isOmitted : Bool}
    (h : Assoc.get? name members = if isOmitted then none else some v)
    (hdefault : isOmitted = true → default = a) (hread : read v = .valid a) :
    field members name default read = .valid a := by
  cases isOmitted with
  | true => exact field_eq_valid.2 (.inr ⟨h, hdefault rfl⟩)
  | false => exact field_of_get? h hread

/-- A list of texts reads back. -/
theorem toTexts_list (ss : List String) : toTexts (.list (ss.map .text)) = .valid ss := by
  have htext : ∀ s, toText (.text s) = .valid s := fun _ => rfl
  unfold toTexts
  exact Checked.bind_eq_valid.2 ⟨_, rfl, Checked.traverse_map htext ss⟩

end Value

end HookRegistry
