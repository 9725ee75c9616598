import HookRegistry.Proofs.Bench.EchoStore
import HookRegistry.Proofs.StoreClient.Serving
import HookRegistry.Proofs.Webhook.RoundTrip
import HookRegistry.Registry.Basic

/-!
# The requests of a registry to an echoing store

`Holds store entries` says that the store keeps the webhooks `entries`, each as the text of an item
under its id.  For each operation of a registry one lemma says what the store keeps after it has
handled the request, and how the operation ends: `add_reaches`, `remove_reaches`, `all_reaches` and
`poll_reaches`.
-/

namespace HookRegistry

open Bench (EchoStore)
open Value (OnWire)

namespace Webhook

/-! ## Ids -/

theorem mem_hexDigest {message : List UInt8} {c : Char} (h : c ∈ Sha256.hexDigest message) :
    ∃ d < 16, c = Nat.digitChar d := by
  obtain ⟨w, -, hc⟩ := List.mem_flatMap.1 h
  obtain ⟨i, -, rfl⟩ := List.mem_map.1 hc
  exact ⟨_, Nat.mod_lt _ (by decide), rfl⟩

/-- An id is made of hexadecimal digits in lower case. -/
theorem mem_idOfUrl {url : String} {c : Char} (h : c ∈ (idOfUrl url).toList) :
    c ∈ "0123456789abcdef".toList := by
  rw [idOfUrl, String.toList_ofList] at h
  obtain ⟨d, hd, rfl⟩ := mem_hexDigest h
  have hdigits : ∀ d < 16, Nat.digitChar d ∈ "0123456789abcdef".toList := by decide
  exact hdigits d hd

/-- An id is one part of an address. -/
theorem slash_not_mem_idOfUrl (url : String) : '/' ∉ (idOfUrl url).toList := by
  intro h
  exact absurd (mem_idOfUrl h) (by decide)

theorem length_idOfUrl (url : String) : (idOfUrl url).length = 64 := by
  rw [idOfUrl, String.length_ofList, Sha256.length_hexDigest]

theorem isEmpty_idOfUrl (url : String) : (idOfUrl url).isEmpty = false := by
  have hlength := length_idOfUrl url
  cases hempty : (idOfUrl url).isEmpty with
  | false => rfl
  | true =>
    rw [String.isEmpty_iff.1 hempty] at hlength
    cases hlength

theorem id_of_toItem {now : Timestamp.Open} {w : Webhook} {item : Item}
    (h : w.toItem now = .ok item) : item.id = idOfUrl w.delivery.url := by
  obtain ⟨civil, offset⟩ := now
  cases offset with
  | none => cases h
  | some offset =>
    cases h
    rfl

/-- The item of a webhook can be pushed. -/
theorem checkItem_of_toItem {now : Timestamp.Open} {w : Webhook} {item : Item}
    (h : w.toItem now = .ok item) : StoreClient.checkItem item = .ok () := by
  obtain ⟨civil, offset⟩ := now
  cases offset with
  | none => cases h
  | some offset =>
    cases h
    simp [StoreClient.checkItem, isEmpty_idOfUrl, members]

/-! ## What the store keeps -/

/-- A text of an item that holds a webhook. -/
def StoredAs (text : String) (w : Webhook) : Prop :=
  ∃ item : Item, item.toText? = some text ∧
    OnWire Double.ReadsBack (Value.depthLimit - 1) item.toValue ∧ ofItem item = .ok w

/-- The webhook is read from the text. -/
theorem StoredAs.decode {text : String} {w : Webhook} (h : StoredAs text w) :
    ∃ item, Item.decode text.toUTF8 = .valid item ∧ ofItem item = .ok w := by
  obtain ⟨item, htext, hwire, hitem⟩ := h
  obtain ⟨text', htext', hdecode⟩ := Item.decode_toUTF8 hwire.succ
  rw [htext, Option.some.injEq] at htext'
  exact ⟨item, htext' ▸ hdecode, hitem⟩

/-- Texts of items under the ids of the webhooks that they hold. -/
inductive Mirrors : List (String × String) → List (String × Webhook) → Prop where
  | nil : Mirrors [] []
  | cons {id text : String} {w : Webhook} {items : List (String × String)}
      {entries : List (String × Webhook)} (hstored : StoredAs text w)
      (hrest : Mirrors items entries) : Mirrors ((id, text) :: items) ((id, w) :: entries)

variable {items : List (String × String)} {entries : List (String × Webhook)}

/-- Under an id there is a webhook and its text, or neither. -/
theorem Mirrors.get? (h : Mirrors items entries) (id : String) :
    (Assoc.get? id items = none ∧ Assoc.get? id entries = none) ∨
      ∃ text w, Assoc.get? id items = some text ∧ Assoc.get? id entries = some w ∧
        StoredAs text w := by
  induction h with
  | nil => exact .inl ⟨rfl, rfl⟩
  | @cons name text w items entries hstored _ ih =>
    by_cases hname : name = id
    · exact .inr ⟨text, w, by simp [Assoc.get?, hname], by simp [Assoc.get?, hname], hstored⟩
    · simpa [Assoc.get?, hname] using ih

theorem Mirrors.put (h : Mirrors items entries) (id : String) {text : String} {w : Webhook}
    (hstored : StoredAs text w) : Mirrors (Assoc.put id text items) (Assoc.put id w entries) := by
  induction h with
  | nil => exact .cons hstored .nil
  | @cons name _ _ _ _ hfirst hrest ih =>
    unfold Assoc.put
    by_cases hname : name = id
    · rw [if_pos hname, if_pos hname]
      exact .cons hstored hrest
    · rw [if_neg hname, if_neg hname]
      exact .cons hfirst ih

theorem Mirrors.erase (h : Mirrors items entries) (id : String) :
    Mirrors (Assoc.erase id items) (Assoc.erase id entries) := by
  induction h with
  | nil => exact .nil
  | @cons name _ _ _ _ hfirst hrest ih =>
    unfold Assoc.erase
    by_cases hname : name = id
    · rw [if_pos hname, if_pos hname]
      exact hrest
    · rw [if_neg hname, if_neg hname]
      exact .cons hfirst ih

/-- The texts are those of items that hold the webhooks, in the same order. -/
theorem Mirrors.exists_items (h : Mirrors items entries) :
    ∃ kept : List Item, kept.map Item.toText? = (items.map fun e => some e.2) ∧
      (∀ item ∈ kept, OnWire Double.ReadsBack (Value.depthLimit - 1) item.toValue) ∧
      ofItems kept = .ok (entries.map Prod.snd) := by
  induction h with
  | nil => exact ⟨[], rfl, nofun, rfl⟩
  | cons hstored _ ih =>
    obtain ⟨item, htext, hwire, hitem⟩ := hstored
    obtain ⟨kept, htexts, hwires, hitems⟩ := ih
    refine ⟨item :: kept, by rw [List.map_cons, List.map_cons, htext, htexts], ?_, ?_⟩
    · intro other hother
      rcases List.mem_cons.1 hother with rfl | hother
      · exact hwire
      · exact hwires other hother
    · unfold ofItems at hitems ⊢
      rw [List.mapM_cons, hitem, hitems]
      rfl

/-- The store answers, and keeps the webhooks. -/
structure Holds (store : EchoStore) (entries : List (String × Webhook)) : Prop where
  answers : store.failing = none
  honest : store.raw = none
  mirrors : Mirrors store.items entries

/-- The store finds the id of an item in its address. -/
theorem idOfUrl_itemUrl (c : Config) (url : String) :
    EchoStore.idOfUrl (c.itemUrl (idOfUrl url)) = idOfUrl url :=
  EchoStore.idOfUrl_itemUrl c (slash_not_mem_idOfUrl url)

end Webhook

namespace Registry

open Webhook (Holds Mirrors StoredAs)

/-- An operation puts one request to the store.  When the store handles it, it keeps `update` of
the webhooks that it kept, and the operation ends with a result that is `expected` of them. -/
def Reaches {α : Type} (op : Exchange SessionRequest Reply α)
    (update : List (String × Webhook) → List (String × Webhook))
    (expected : List (String × Webhook) → Except Failure α → Prop) : Prop :=
  ∃ q log finish, op = .asks q log finish ∧
    ∀ store entries, Holds store entries →
      Holds (store.handle q).2 (update entries) ∧
        expected entries (finish (store.handle q).1).result

/-- A question that the store answers. -/
theorem reaches_ask {α β : Type} {c : StoreClient} (hc : c.Serves) {r : StoreRequest}
    (hcheck : Transport.check r.method r.url = .ok ()) {finish : StoreResponse → Outcome β}
    {f : Outcome β → Outcome α} {update : List (String × Webhook) → List (String × Webhook)}
    {expected : List (String × Webhook) → Except Failure α → Prop}
    (h : ∀ store entries, Holds store entries →
      ∃ status headers body kept,
        store.reply r.method r.url r.body = (.answered status headers (.ok body), kept) ∧
          Holds kept (update entries) ∧
          expected entries (f (finish
            { status, errorHeader := Transport.headerValue Transport.errorHeader headers
              body })).result) :
    Reaches (((c.ask r finish).mapOutcome f).through c.transport.send) update expected := by
  rw [StoreClient.ask_eq hc, Exchange.mapOutcome]
  obtain ⟨q, log, after, hop, hmethod, hurl, hbody, hafter⟩ := StoreClient.through_asks hc hcheck _
  refine ⟨q, log, after, hop, ?_⟩
  intro store entries hstore
  obtain ⟨status, headers, body, kept, hreply, hkept, hexpected⟩ := h store entries hstore
  have hhandle : store.handle q = (.answered status headers (.ok body), kept) := by
    rw [EchoStore.handle, hstore.answers, hmethod, hurl, hbody, ← hreply]
  rw [hhandle, hafter]
  exact ⟨hkept, hexpected⟩

variable {s : Registry}

/-! ## Adding and removing -/

/-- An addition puts the webhook under the id of its address. -/
theorem add_reaches (hs : s.store.Serves) {w : Webhook} (hw : w.Proper) (now : Civil)
    (offset : Int) (owner : String) :
    Reaches ((s.add (now, some offset) owner w).through s.store.transport.send)
      (Assoc.put (Webhook.idOfUrl w.delivery.url) w) fun _ result => result = .ok () := by
  obtain ⟨item, hitem⟩ : ∃ item, w.toItem (now, some offset) = .ok item := ⟨_, rfl⟩
  have hid := Webhook.id_of_toItem hitem
  obtain ⟨text, htext, -⟩ := Item.decode_toUTF8 (Webhook.onWire_toItem 196 hw hitem)
  have hstored : StoredAs text w :=
    ⟨item, htext, Webhook.onWire_toItem 195 hw hitem, Webhook.ofItem_toItem hw.expires hitem⟩
  unfold add
  rw [hitem]
  simp only [StoreClient.pushItem, Webhook.checkItem_of_toItem hitem, htext]
  have hmethod : Transport.isMethod "PUT" = true := by decide
  refine reaches_ask hs ?_ ?_
  · exact Config.check_itemUrl hs.validated hmethod item.id
  intro store entries hstore
  have hput : Holds { store with items := Assoc.put item.id text store.items }
      (Assoc.put (Webhook.idOfUrl w.delivery.url) w entries) :=
    ⟨hstore.answers, hstore.honest, hid ▸ hstore.mirrors.put item.id hstored⟩
  have hreply : store.reply "PUT" (s.store.config.itemUrl item.id) (some text.toUTF8) =
      (.answered (if Assoc.contains item.id store.items then 200 else 201) []
        (.ok ByteArray.empty), { store with items := Assoc.put item.id text store.items }) := by
    rw [EchoStore.reply, hid, Webhook.idOfUrl_itemUrl, EchoStore.bodyText_toUTF8]
    rfl
  refine ⟨_, _, _, _, hreply, hput, ?_⟩
  by_cases hnew : Assoc.contains item.id store.items = true
  · simp [hnew, pushed]
  · simp [hnew, pushed]

/-- A removal gives back the webhook under the id of the address, when there is one. -/
theorem remove_reaches (hs : s.store.Serves) (owner url : String) :
    Reaches ((s.remove owner url).through s.store.transport.send)
      (Assoc.erase (Webhook.idOfUrl url)) fun entries result =>
        result = match Assoc.get? (Webhook.idOfUrl url) entries with
          | some w => .ok w
          | none => .error (.remove (.status 404 "item not found")) := by
  unfold remove StoreClient.removeItem
  simp only [Webhook.isEmpty_idOfUrl, Bool.false_eq_true, if_false]
  have hmethod : Transport.isMethod "DELETE" = true := by decide
  refine reaches_ask hs ?_ ?_
  · exact Config.check_itemUrl hs.validated hmethod (Webhook.idOfUrl url)
  intro store entries hstore
  rcases hstore.mirrors.get? (Webhook.idOfUrl url) with
    ⟨htext, hentry⟩ | ⟨text, w, htext, hentry, hstored⟩
  · have hreply : store.reply "DELETE" (s.store.config.itemUrl (Webhook.idOfUrl url)) none =
        (.answered 404 [(Transport.errorHeader, "item not found")] (.ok ByteArray.empty),
          store) := by
      simp [EchoStore.reply, Webhook.idOfUrl_itemUrl, htext]
    refine ⟨_, _, _, _, hreply, ?_, ?_⟩
    · rw [Assoc.erase_of_get?_eq_none hentry]
      exact hstore
    · have hheader : Transport.headerValue Transport.errorHeader
          [(Transport.errorHeader, "item not found")] = "item not found" := by
        simp [Transport.headerValue]
      have hown : (Failure.status 404 "item not found").isOwn = true := rfl
      simp [StoreClient.refused, hheader, hown, hentry]
  · have hreply : store.reply "DELETE" (s.store.config.itemUrl (Webhook.idOfUrl url)) none =
        (.answered 200 [] (.ok text.toUTF8),
          { store with items := Assoc.erase (Webhook.idOfUrl url) store.items }) := by
      simp [EchoStore.reply, Webhook.idOfUrl_itemUrl, htext]
    obtain ⟨item, hdecode, hitem⟩ := hstored.decode
    refine ⟨_, _, _, _, hreply, ⟨hstore.answers, hstore.honest, hstore.mirrors.erase _⟩, ?_⟩
    simp only [if_true, hdecode, hitem, hentry]

/-! ## Fetching -/

theorem mapOutcome_id {ρ σ α : Type} (x : Exchange ρ σ α) : x.mapOutcome id = x := by
  cases x <;> rfl

/-- The reply to a fetch. -/
theorem reply_get {store : EchoStore} {entries : List (String × Webhook)}
    (h : Holds store entries) (url : String) :
    store.reply "GET" url none =
      (.answered 200 [] (.ok (EchoStore.listBody store.items).toUTF8), store) := by
  simp only [EchoStore.reply, if_true, h.honest, Option.getD_none]

/-- The store is asked for all webhooks and gives them in the order in which it keeps them. -/
theorem all_reaches (hs : s.store.Serves) :
    Reaches (s.all.through s.store.transport.send) id fun entries result =>
      result = .ok (entries.map Prod.snd) := by
  have hmethod : Transport.isMethod "GET" = true := by decide
  unfold all StoreClient.getItems
  refine reaches_ask hs ?_ ?_
  · exact Config.check_bucketUrl hs.validated hmethod
  intro store entries hstore
  obtain ⟨kept, htexts, hwire, hitems⟩ := hstore.mirrors.exists_items
  refine ⟨_, _, _, _, reply_get hstore _, hstore, ?_⟩
  simp only [if_true, EchoStore.itemsOfBody_listBody htexts hwire, hitems]

/-- A poll is given the items of all webhooks. -/
theorem poll_reaches (hs : s.store.Serves) :
    Reaches (s.poll.through s.store.transport.send) id fun entries result =>
      ∃ items, result = .ok items ∧ Webhook.ofItems items = .ok (entries.map Prod.snd) := by
  have hmethod : Transport.isMethod "GET" = true := by decide
  rw [← mapOutcome_id s.poll]
  unfold poll StoreClient.getItems
  refine reaches_ask hs ?_ ?_
  · exact Config.check_bucketUrl hs.validated hmethod
  intro store entries hstore
  obtain ⟨kept, htexts, hwire, hitems⟩ := hstore.mirrors.exists_items
  refine ⟨_, _, _, _, reply_get hstore _, hstore, kept, ?_, hitems⟩
  simp only [if_true, EchoStore.itemsOfBody_listBody htexts hwire, id]

end Registry

end HookRegistry
