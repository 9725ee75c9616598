import HookRegistry.Proofs.Item
import HookRegistry.Proofs.Value.Whole
import HookRegistry.Proofs.Value.Written

/-!
# Items that were read, written and read again

An item that was read from JSON text has a text, and that text is read as the item again, with its
id, its time to live and its payload in order; only a double in the payload that is not finite has
become null.  So is a list of items that were read: `read_written_again`.
-/

namespace HookRegistry.Item

open Value (OnWire)
open Checked (seq_eq_valid fmap_eq_valid)

/-- An item with null for every double in its payload that is not finite. -/
def asWritten (item : Item) : Item :=
  { item with data := Value.membersAsWritten item.data }

/-- An item that was read from JSON text, by itself or in a list. -/
def WasRead (item : Item) : Prop :=
  (∃ data, decode data = .valid item) ∨ ∃ data items, decodeList data = .valid items ∧ item ∈ items

theorem toValue_asWritten (item : Item) : item.asWritten.toValue = item.toValue.asWritten := by
  obtain ⟨id, data, ttl⟩ := item
  cases ttl <;> simp [asWritten, toValue, Value.asWritten, Value.membersAsWritten]

theorem toText?_asWritten (item : Item) : item.asWritten.toText? = item.toText? := by
  unfold toText? write?
  rw [toValue_asWritten, Value.write?_asWritten]

/-! ## What is read -/

/-- The members of a field that holds a record can stand in JSON text. -/
theorem onWire_data {R : Double → Prop} {d : Nat} {ms data : List (String × Value)}
    (hms : OnWire R (d + 1) (.record ms))
    (h : Value.field ms "data" [] Value.toMembers = .valid data) : OnWire R d (.record data) := by
  rcases Value.field_eq_valid.1 h with ⟨v, hv, hread⟩ | ⟨-, rfl⟩
  · have hwire := hms.member hv
    cases v with
    | record ms =>
      cases hread
      exact hwire
    | _ => cases hread
  · exact .emptyRecord

/-- A time to live that is read is of limited size. -/
theorem natAbs_ttl_lt {R : Double → Prop} {d : Nat} {ms : List (String × Value)} {ttl : Option Int}
    (hms : OnWire R (d + 1) (.record ms))
    (h : Value.field ms "ttl" none ttlOfValue = .valid ttl) :
    ∀ n ∈ ttl, n.natAbs < 10 ^ Token.digitLimit := by
  rintro n rfl
  rcases Value.field_eq_valid.1 h with ⟨v, hv, hread⟩ | ⟨-, hnone⟩
  · have hwhole : v.toWhole = .valid n := by
      unfold ttlOfValue at hread
      split at hread
      · cases hread
      · obtain ⟨m, hm, heq⟩ := Checked.map_eq_valid.1 hread
        cases heq
        exact hm
    exact Value.natAbs_toWhole_lt (hms.member hv) hwhole
  · cases hnone

/-- An item that is read can stand where it was read. -/
theorem onWire_of_ofValue {R : Double → Prop} {d : Nat} {v : Value} (hv : OnWire R (d + 1) v)
    {item : Item} (h : ofValue v = .valid item) : OnWire R (d + 1) item.toValue := by
  cases v with
  | record ms =>
    simp only [ofValue] at h
    obtain ⟨_, ttl, h₁, httl, rfl⟩ := seq_eq_valid.1 h
    obtain ⟨_, data, h₂, hdata, rfl⟩ := seq_eq_valid.1 h₁
    obtain ⟨id, -, rfl⟩ := fmap_eq_valid.1 h₂
    exact onWire_toValue (onWire_data hv hdata) (natAbs_ttl_lt hv httl)
  | _ => cases h

/-- The items of a list that is read can stand in a list. -/
theorem onWire_of_decodeList {data : ByteArray} {items : List Item}
    (h : decodeList data = .valid items) :
    ∀ item ∈ items, OnWire Double.Spelled (Value.depthLimit - 1) item.toValue := by
  intro item hitem
  obtain ⟨v, hv, hread⟩ := Value.decodeBytes_eq_valid.1 h
  obtain ⟨vs, hvs, hitems⟩ := Checked.bind_eq_valid.1 hread
  obtain ⟨u, hu, hitem⟩ := Checked.exists_of_mem_traverse hitems item hitem
  have hlist : v = .list vs := by
    cases v with
    | list vs =>
      cases hvs
      rfl
    | _ => cases hvs
  have hwire : OnWire Double.Spelled Value.depthLimit (.list vs) :=
    hlist ▸ Value.onWire_of_ofBytes? hv
  exact onWire_of_ofValue (hwire.item hu) hitem

/-- An item that was read can stand in JSON text by itself. -/
theorem WasRead.onWire {item : Item} (h : item.WasRead) :
    OnWire Double.Spelled Value.depthLimit item.toValue := by
  rcases h with ⟨data, h⟩ | ⟨data, items, h, hitem⟩
  · obtain ⟨v, hv, hread⟩ := Value.decodeBytes_eq_valid.1 h
    exact onWire_of_ofValue (Value.onWire_of_ofBytes? hv) hread
  · exact (onWire_of_decodeList h item hitem).succ

/-! ## Reading again -/

/-- What writing leaves of an item that can stand somewhere can stand there. -/
theorem onWire_asWritten {d : Nat} {item : Item} (h : OnWire Double.Spelled d item.toValue) :
    OnWire Double.ReadsBack d item.asWritten.toValue := by
  rw [toValue_asWritten]
  exact h.asWritten

/-- The text of an item that was read is read as what writing left of the item. -/
theorem WasRead.decode_text {item : Item} (h : item.WasRead) :
    ∃ text, item.toText? = some text ∧ decode text.toUTF8 = .valid item.asWritten := by
  rw [← toText?_asWritten]
  exact decode_toUTF8 (onWire_asWritten h.onWire)

/-- Items that each have a text have texts. -/
theorem exists_texts {items : List Item} (h : ∀ item ∈ items, ∃ text, item.toText? = some text) :
    ∃ texts : List String, items.map toText? = texts.map some := by
  induction items with
  | nil => exact ⟨[], rfl⟩
  | cons item items ih =>
    obtain ⟨text, htext⟩ := h item List.mem_cons_self
    obtain ⟨texts, htexts⟩ := ih fun i hi => h i (List.mem_cons_of_mem item hi)
    exact ⟨text :: texts, by rw [List.map_cons, List.map_cons, htext, htexts]⟩

/-- The text of an item that was read is read as the item with null for every double that is not
finite, and that item has the same text.  The list of the texts of items that were read in a list
is read as those items, each with null for every double that is not finite. -/
theorem read_written_again :
    (∀ item : Item, item.WasRead →
      ∃ text, item.toText? = some text ∧ decode text.toUTF8 = .valid item.asWritten ∧
        item.asWritten.toText? = some text) ∧
    ∀ data items, decodeList data = .valid items →
      ∃ texts : List String, items.map toText? = texts.map some ∧
        decodeList (Value.listText texts).toUTF8 = .valid (items.map asWritten) ∧
        (items.map asWritten).map toText? = texts.map some := by
  refine ⟨fun item h => ?_, fun data items h => ?_⟩
  · obtain ⟨text, htext, hdecode⟩ := h.decode_text
    exact ⟨text, htext, hdecode, by rw [toText?_asWritten, htext]⟩
  · have hread : ∀ item ∈ items, item.WasRead := fun item hitem => .inr ⟨data, items, h, hitem⟩
    obtain ⟨texts, htexts⟩ := exists_texts fun item hitem =>
      (hread item hitem).decode_text.imp fun _ htext => htext.1
    have hsame : (items.map asWritten).map toText? = texts.map some := by
      rw [List.map_map, ← htexts]
      exact List.map_congr_left fun item _ => toText?_asWritten item
    have hwire : ∀ item ∈ items.map asWritten,
        OnWire Double.ReadsBack (Value.depthLimit - 1) item.toValue := by
      intro w hw
      obtain ⟨item, hitem, rfl⟩ := List.mem_map.1 hw
      exact onWire_asWritten (onWire_of_decodeList h item hitem)
    exact ⟨texts, htexts, decodeList_listText hsame hwire, hsame⟩

/-- An item with doubles that are not finite and a null beside them, by itself and in a list. -/
theorem read_written_again_infinite :
    ∃ data list item, decode data = .valid item ∧ decodeList list = .valid [item, {}] ∧
      item = ⟨"a", [("x", .real .nan), ("y", .list [.null, .real (.infinite true)])], some 7⟩ ∧
      item.asWritten = ⟨"a", [("x", .null), ("y", .list [.null, .null])], some 7⟩ ∧
      (∃ text, item.toText? = some text ∧ decode text.toUTF8 = .valid item.asWritten ∧
        item.asWritten.toText? = some text) ∧
      ∃ texts : List String, [item, {}].map toText? = texts.map some ∧
        decodeList (Value.listText texts).toUTF8 = .valid ([item, {}].map asWritten) ∧
        ([item, {}].map asWritten).map toText? = texts.map some := by
  have hitem : decode (String.toUTF8
      "\x7b\"data\": \x7b\"x\": NaN, \"y\": [null, -Infinity]\x7d, \"ttl\": 7, \"id\": \"a\"\x7d") =
        .valid ⟨"a", [("x", .real .nan), ("y", .list [.null, .real (.infinite true)])], some 7⟩ :=
    Value.decodeBytes_eq_valid.2 ⟨_, Value.ofBytes?_of_ofText? rfl, rfl⟩
  have hitems : decodeList (String.toUTF8
      ("[\x7b\"id\": \"a\", \"data\": \x7b\"x\": NaN, \"y\": [null, -Infinity]\x7d, \"ttl\": 7\x7d, " ++
        "\x7b\x7d]")) =
        .valid [⟨"a", [("x", .real .nan), ("y", .list [.null, .real (.infinite true)])], some 7⟩,
          {}] :=
    Value.decodeBytes_eq_valid.2 ⟨_, Value.ofBytes?_of_ofText? rfl, rfl⟩
  refine ⟨_, _, _, hitem, hitems, rfl, ?_, read_written_again.1 _ (.inl ⟨_, hitem⟩),
    read_written_again.2 _ _ hitems⟩
  simp [asWritten, Value.asWritten, Value.membersAsWritten, Value.itemsAsWritten]

end HookRegistry.Item
