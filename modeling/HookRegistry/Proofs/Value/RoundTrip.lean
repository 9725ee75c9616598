import HookRegistry.Proofs.Value.Grammar

/-!
# Reading JSON text that was written

The tokens of a value that JSON text can hold denote it: `OnWire.reads`.  With the scanner's half
that makes `ofBytes?_toUTF8`: the text of such a value reads back as it.
-/

namespace HookRegistry

namespace Value

/-! ## The tokens of a value -/

theorem itemTokens_eq (vs : List Value) :
    itemTokens vs = (vs.map fun v => (tokens v, v)).flatMap fun item => .comma :: item.1 := by
  induction vs with
  | nil => rw [itemTokens, List.map_nil, List.flatMap_nil]
  | cons v vs ih => rw [itemTokens, ih, List.map_cons, List.flatMap_cons]

theorem memberTokens_eq (ms : List (String × Value)) :
    memberTokens ms = (ms.map fun m => (m.1, tokens m.2, m.2)).flatMap fun m =>
      .comma :: nameTokens m.1 m.2.1 := by
  induction ms with
  | nil => rw [memberTokens, List.map_nil, List.flatMap_nil]
  | cons m ms ih =>
    rw [memberTokens, ih, List.map_cons, List.flatMap_cons]
    rfl

/-- The tokens of a value that JSON text can hold denote it. -/
theorem OnWire.reads {R : Double → Prop} {d : Nat} {v : Value} (h : OnWire R d v) :
    Reads d (tokens v) v := by
  induction h with
  | null | bool | int | real =>
    simp only [tokens]
    exact .word _
  | text s =>
    rw [tokens]
    exact .text s
  | emptyList =>
    rw [tokens]
    exact .emptyList
  | emptyRecord =>
    rw [tokens]
    exact .emptyRecord
  | @list d vs _ ih =>
    cases vs with
    | nil =>
      rw [tokens]
      exact .emptyList
    | cons v vs =>
      rw [List.forall_mem_cons] at ih
      have hitems : ∀ item ∈ (tokens v, v) :: vs.map (fun v => (tokens v, v)),
          Reads d item.1 item.2 :=
        List.forall_mem_cons.2 ⟨ih.1, List.forall_mem_map.2 ih.2⟩
      have hlist := Reads.list hitems
      simp only [List.map_cons, List.map_map, Function.comp_def, List.map_id'] at hlist
      rw [tokens, itemTokens_eq]
      exact hlist
  | @record d ms hnames _ ih =>
    cases ms with
    | nil =>
      rw [tokens]
      exact .emptyRecord
    | cons m ms =>
      rw [List.forall_mem_cons] at ih
      have hmembers : ∀ member ∈ (m.1, tokens m.2, m.2) :: ms.map (fun m => (m.1, tokens m.2, m.2)),
          Reads d member.2.1 member.2.2 :=
        List.forall_mem_cons.2 ⟨ih.1, List.forall_mem_map.2 ih.2⟩
      have hrecord := Reads.record hmembers
      simp only [List.map_cons, List.map_map, Function.comp_def, List.map_id'] at hrecord
      rw [collect_of_nodup hnames] at hrecord
      obtain ⟨name, v⟩ := m
      rw [tokens, memberTokens_eq]
      exact hrecord

/-! ## Texts -/

/-- Reading the bytes of a text is reading the text. -/
theorem ofBytes?_of_ofText? {s : String} {v : Value} (h : ofText? s = some v) :
    ofBytes? s.toUTF8 = some v := by
  rw [ofBytes?, Text.fromUTF8?_toUTF8]
  exact h

/-- The text of a value that JSON text can hold reads back as the value. -/
theorem ofBytes?_toUTF8 {v : Value} (h : OnWire Double.ReadsBack depthLimit v) :
    ∃ text, v.toText? = some text ∧ ofBytes? text.toUTF8 = some v := by
  obtain ⟨cs, hwrite, hscan⟩ := h.scan?_write?
  have htokens : ofTokens? (tokens v) = some v := ofTokens?_eq_some_iff.2 h.reads
  refine ⟨String.ofList cs, by rw [toText?, hwrite]; rfl, ofBytes?_of_ofText? ?_⟩
  rw [ofText?, String.toList_ofList, hscan, Option.bind_some, htokens]

/-! ## Lists of texts -/

/-- The text of a list whose items have the given texts. -/
def listText (texts : List String) : String :=
  "[" ++ ",".intercalate texts ++ "]"

theorem toList_intercalate_comma (text : String) (texts : List String) :
    (",".intercalate (text :: texts)).toList =
      text.toList ++ texts.flatMap fun t => ',' :: t.toList := by
  induction texts generalizing text with
  | nil => simp
  | cons t texts ih =>
    rw [String.intercalate_cons_cons, String.toList_append, String.toList_append, ih]
    simp

/-- The items of a list after the first are written after a comma each. -/
theorem writeItems?_of_texts {vs : List Value} {texts : List String}
    (h : vs.map toText? = texts.map some) :
    writeItems? vs = some (texts.flatMap fun t => ',' :: t.toList) := by
  induction vs generalizing texts with
  | nil =>
    cases texts with
    | nil => simp [writeItems?]
    | cons t texts => cases h
  | cons v vs ih =>
    cases texts with
    | nil => cases h
    | cons t texts =>
      rw [List.map_cons, List.map_cons, List.cons.injEq] at h
      obtain ⟨cs, hcs, rfl⟩ := Option.map_eq_some_iff.1 h.1
      simp [writeItems?, hcs, ih h.2]

/-- A list is written as the texts of its items, in order. -/
theorem toText?_list {vs : List Value} {texts : List String}
    (h : vs.map toText? = texts.map some) : (Value.list vs).toText? = some (listText texts) := by
  cases vs with
  | nil =>
    cases texts with
    | nil => rfl
    | cons t texts => cases h
  | cons v vs =>
    cases texts with
    | nil => cases h
    | cons t texts =>
      rw [List.map_cons, List.map_cons, List.cons.injEq] at h
      obtain ⟨cs, hcs, rfl⟩ := Option.map_eq_some_iff.1 h.1
      have hrest := writeItems?_of_texts h.2
      have htext : (listText (String.ofList cs :: texts)).toList =
          '[' :: cs ++ texts.flatMap (fun t => ',' :: t.toList) ++ [']'] := by
        unfold listText
        rw [String.toList_append, String.toList_append, toList_intercalate_comma]
        simp
      rw [toText?, write?, hcs, hrest]
      simp only [Option.bind_eq_bind, Option.bind_some, Option.map_some, ← htext,
        String.ofList_toList]

end Value

end HookRegistry
