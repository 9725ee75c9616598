import HookRegistry.Item
import HookRegistry.Proofs.Value.Checked
import HookRegistry.Proofs.Value.RoundTrip

/-!
# Items, written and read

An item is read back from its dynamic value whatever it holds: `ofValue_toValue`.  An item whose
payload can stand in JSON text, with a time to live of limited size, is read back from its text:
`decode_toUTF8`.  So is a list of such items: `decodeList_listText`.
-/

namespace HookRegistry.Item

open Value (OnWire)

theorem ttlOfValue_int (n : Int) : ttlOfValue (.int n) = .valid (some n) :=
  rfl

/-- An item is read back from its dynamic value. -/
theorem ofValue_toValue (item : Item) : ofValue item.toValue = .valid item := by
  obtain ⟨id, data, ttl⟩ := item
  have hid : Value.toText (.text id) = .valid id := rfl
  have hdata : Value.toMembers (.record data) = .valid data := rfl
  cases ttl with
  | none =>
    simp only [toValue, ofValue, Checked.seq_eq_valid, Checked.fmap_eq_valid]
    exact ⟨_, _, ⟨_, _, ⟨_, Value.field_of_get? rfl hid, rfl⟩, Value.field_of_get? rfl hdata, rfl⟩,
      Value.field_of_get?_none rfl, rfl⟩
  | some n =>
    simp only [toValue, ofValue, Checked.seq_eq_valid, Checked.fmap_eq_valid]
    exact ⟨_, _, ⟨_, _, ⟨_, Value.field_of_get? rfl hid, rfl⟩, Value.field_of_get? rfl hdata, rfl⟩,
      Value.field_of_get? rfl (ttlOfValue_int n), rfl⟩

/-- An item can stand in JSON text when its payload and its time to live can. -/
theorem onWire_toValue {R : Double → Prop} {d : Nat} {item : Item}
    (hdata : OnWire R d (.record item.data))
    (httl : ∀ n ∈ item.ttl, n.natAbs < 10 ^ Token.digitLimit) : OnWire R (d + 1) item.toValue := by
  obtain ⟨id, data, ttl⟩ := item
  cases ttl with
  | none =>
    refine .record (by simp) ?_
    intro m hm
    simp only [List.append_nil, List.mem_cons, List.not_mem_nil, or_false] at hm
    rcases hm with rfl | rfl
    · exact .text id
    · exact hdata
  | some n =>
    refine .record (by simp) ?_
    intro m hm
    simp only [List.cons_append, List.nil_append, List.mem_cons, List.not_mem_nil, or_false] at hm
    rcases hm with rfl | rfl | rfl
    · exact .text id
    · exact hdata
    · exact .int (httl n rfl)

/-- An item that can stand in JSON text has a text, and is read back from it. -/
theorem decode_toUTF8 {item : Item} (h : OnWire Double.ReadsBack Value.depthLimit item.toValue) :
    ∃ text, item.toText? = some text ∧ decode text.toUTF8 = .valid item := by
  obtain ⟨text, htext, hread⟩ := Value.ofBytes?_toUTF8 h
  exact ⟨text, htext, Value.decodeBytes_eq_valid.2 ⟨_, hread, ofValue_toValue item⟩⟩

/-- Items that can stand in a list in JSON text are read back from the list of their texts. -/
theorem decodeList_listText {items : List Item} {texts : List String}
    (htexts : items.map toText? = texts.map some)
    (hwire : ∀ item ∈ items, OnWire Double.ReadsBack (Value.depthLimit - 1) item.toValue) :
    decodeList (Value.listText texts).toUTF8 = .valid items := by
  have hmap : (items.map toValue).map Value.toText? = texts.map some := by
    rw [List.map_map]
    exact htexts
  have hlist : OnWire Double.ReadsBack Value.depthLimit (.list (items.map toValue)) := by
    refine .list (d := Value.depthLimit - 1) ?_
    intro v hv
    obtain ⟨item, hitem, rfl⟩ := List.mem_map.1 hv
    exact hwire item hitem
  obtain ⟨text, htext, hread⟩ := Value.ofBytes?_toUTF8 hlist
  rw [Value.toText?_list hmap, Option.some.injEq] at htext
  rw [htext]
  have hitems := Checked.traverse_map ofValue_toValue items
  exact Value.decodeBytes_eq_valid.2 ⟨_, hread, Checked.bind_eq_valid.2 ⟨_, rfl, hitems⟩⟩

end HookRegistry.Item
