import HookRegistry.Proofs.Double.Text
import HookRegistry.Proofs.Value.RoundTrip

/-!
# Reading what was read, written again

JSON text has no word for a double that is not finite, so such a double is written as null.
`asWritten v` is what that leaves of `v`: the two have the same text, and if `v` was read from JSON
text, then `asWritten v` can stand in JSON text within the same containers and reads back.
-/

namespace HookRegistry.Value

mutual

/-- A value with null for every double in it that is not finite. -/
def asWritten : Value → Value
  | .real .nan | .real (.infinite _) => .null
  | .list vs => .list (itemsAsWritten vs)
  | .record ms => .record (membersAsWritten ms)
  | v => v

/-- The items of a list as they are written. -/
def itemsAsWritten : List Value → List Value
  | [] => []
  | v :: vs => asWritten v :: itemsAsWritten vs

/-- The members of a record as they are written, under their names. -/
def membersAsWritten : List (String × Value) → List (String × Value)
  | [] => []
  | (name, v) :: ms => (name, asWritten v) :: membersAsWritten ms

end

theorem itemsAsWritten_eq_map (vs : List Value) : itemsAsWritten vs = vs.map asWritten := by
  induction vs with
  | nil => simp only [itemsAsWritten, List.map_nil]
  | cons v vs ih => simp only [itemsAsWritten, List.map_cons, ih]

theorem membersAsWritten_eq_map (ms : List (String × Value)) :
    membersAsWritten ms = ms.map fun m => (m.1, m.2.asWritten) := by
  induction ms with
  | nil => simp only [membersAsWritten, List.map_nil]
  | cons m ms ih => simp only [membersAsWritten, List.map_cons, ih]

/-! ## The text -/

mutual

/-- Writing makes no difference between a value and what writing leaves of it. -/
theorem write?_asWritten (v : Value) : v.asWritten.write? = v.write? := by
  cases v with
  | real x => cases x <;> simp [asWritten, write?, Double.text, Double.wireStyle]
  | list vs =>
    cases vs with
    | nil => simp only [asWritten, itemsAsWritten]
    | cons v vs =>
      simp only [asWritten, itemsAsWritten, write?, write?_asWritten v, writeItems?_asWritten vs]
  | record ms =>
    cases ms with
    | nil => simp only [asWritten, membersAsWritten]
    | cons m ms =>
      obtain ⟨name, v⟩ := m
      simp only [asWritten, membersAsWritten, write?, write?_asWritten v,
        writeMembers?_asWritten ms]
  | null | bool | int | text | bytes | foreign => simp only [asWritten]

theorem writeItems?_asWritten (vs : List Value) :
    writeItems? (itemsAsWritten vs) = writeItems? vs := by
  cases vs with
  | nil => simp only [itemsAsWritten]
  | cons v vs =>
    simp only [itemsAsWritten, writeItems?, write?_asWritten v, writeItems?_asWritten vs]

theorem writeMembers?_asWritten (ms : List (String × Value)) :
    writeMembers? (membersAsWritten ms) = writeMembers? ms := by
  cases ms with
  | nil => simp only [membersAsWritten]
  | cons m ms =>
    obtain ⟨name, v⟩ := m
    simp only [membersAsWritten, writeMembers?, write?_asWritten v, writeMembers?_asWritten ms]

end

/-! ## The value -/

/-- What was read from JSON text can stand there again, but for the doubles that are not finite. -/
theorem OnWire.asWritten {d : Nat} {v : Value} (h : OnWire Double.Spelled d v) :
    OnWire Double.ReadsBack d v.asWritten := by
  induction h with
  | null =>
    simp only [Value.asWritten]
    exact .null
  | bool b =>
    simp only [Value.asWritten]
    exact .bool b
  | int hn =>
    simp only [Value.asWritten]
    exact .int hn
  | @real d x hx =>
    cases x with
    | nan | infinite =>
      simp only [Value.asWritten]
      exact .null
    | finite negative m e =>
      have hnormal : Double.Normal m e := hx.rounded
      simp only [Value.asWritten]
      exact .real (hnormal.readsBack negative)
  | text s =>
    simp only [Value.asWritten]
    exact .text s
  | emptyList =>
    simp only [Value.asWritten, itemsAsWritten]
    exact .emptyList
  | list _ ih =>
    simp only [Value.asWritten, itemsAsWritten_eq_map]
    refine .list ?_
    intro w hw
    obtain ⟨v, hv, rfl⟩ := List.mem_map.1 hw
    exact ih v hv
  | emptyRecord =>
    simp only [Value.asWritten, membersAsWritten]
    exact .emptyRecord
  | record hnames _ ih =>
    simp only [Value.asWritten, membersAsWritten_eq_map]
    refine .record ?_ ?_
    · rw [List.map_map]
      exact hnames
    · intro n hn
      obtain ⟨m, hm, rfl⟩ := List.mem_map.1 hn
      exact ih m hm

end HookRegistry.Value
