import HookRegistry.Bench.EchoStore
import HookRegistry.Proofs.Item
import HookRegistry.Proofs.Text.Bytes
import HookRegistry.Proofs.Text.Split

/-!
# What an echoing store keeps and answers

The store finds the id of an item in the address of its request, keeps the text of the body and
answers a fetch with a text that is read back as the items that it keeps: `itemsOfBody_listBody`.
-/

namespace HookRegistry.Bench.EchoStore

/-- The id in the address of an item. -/
theorem idOfUrl_itemUrl (c : Config) {id : String} (h : '/' ∉ id.toList) :
    idOfUrl (c.itemUrl id) = id := by
  have hurl : (c.itemUrl id).toList = c.bucketUrl.toList ++ '/' :: id.toList := by
    simp [Config.itemUrl]
  rw [idOfUrl, hurl, Text.afterLast_append h, String.ofList_toList]

/-- The text of a body that is a text. -/
theorem bodyText_toUTF8 (text : String) : bodyText (some text.toUTF8) = text := by
  rw [bodyText, Option.bind_some, Text.fromUTF8?_toUTF8]
  rfl

/-! ## The body of a fetch -/

/-- The body of a fetch is not the word that stands for no items. -/
theorem isNullBody_listBody (items : List (String × String)) :
    StoreClient.isNullBody (listBody items).toUTF8 = false := by
  have hbytes : ∃ rest, (listBody items).toUTF8.toList = 0x5B :: rest := by
    have hopen : "[".toUTF8.toList = [0x5B] := by
      rw [Text.toList_eq]
      rfl
    unfold listBody
    rw [String.append_assoc, Text.toList_toUTF8_append, hopen]
    exact ⟨_, rfl⟩
  obtain ⟨rest, hrest⟩ := hbytes
  unfold StoreClient.isNullBody
  rw [hrest, List.map_cons]
  have hbracket : Char.ofNat (0x5B : UInt8).toNat = '[' := rfl
  rw [hbracket]
  generalize rest.map (fun b => Char.ofNat b.toNat) = cs
  have hblank : ('[' :: cs).dropWhile Text.isAsciiBlank = '[' :: cs := rfl
  obtain ⟨tail, htail, -⟩ := Text.exists_stripRight_append Text.isAsciiBlank ('[' :: cs)
  rw [Text.strip, hblank, beq_eq_false_iff_ne]
  intro hnull
  rw [hnull] at htail
  cases htail

/-- The body of a fetch is read back as the items that are kept. -/
theorem itemsOfBody_listBody {kept : List Item} {items : List (String × String)}
    (htexts : kept.map Item.toText? = items.map fun e => some e.2)
    (hwire : ∀ item ∈ kept, Value.OnWire Double.ReadsBack (Value.depthLimit - 1) item.toValue) :
    StoreClient.itemsOfBody (listBody items).toUTF8 = .ok kept := by
  have hmap : kept.map Item.toText? = (items.map (·.2)).map some := by
    rw [List.map_map]
    exact htexts
  have hdecode : Item.decodeList (listBody items).toUTF8 = .valid kept :=
    Item.decodeList_listText hmap hwire
  rw [StoreClient.itemsOfBody, isNullBody_listBody, hdecode]
  rfl

end HookRegistry.Bench.EchoStore
