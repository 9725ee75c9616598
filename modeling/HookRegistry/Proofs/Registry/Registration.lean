import HookRegistry.Proofs.Registry.Requests
import HookRegistry.Proofs.StoreClient.Conversation
import HookRegistry.Proofs.Time.Spelling

/-!
# A webhook that was read can be registered

A webhook that was read from a value has an expiry at an offset, and whatever is in its fields, it
has an item at any time, which the store client accepts and which has a text.  So whether the
session is asked to register it is up to the client, the decorator and the owner:
`registration_goes_out`.
-/

namespace HookRegistry

/-! ## Values with a text -/

namespace Value

theorem isSome_writeItems? (vs : List Value) :
    (writeItems? vs).isSome = vs.all fun v => v.write?.isSome := by
  induction vs with
  | nil => rfl
  | cons v vs ih =>
    rw [List.all_cons, ← ih, writeItems?]
    cases v.write? <;> cases writeItems? vs <;> rfl

theorem isSome_writeMembers? (ms : List (String × Value)) :
    (writeMembers? ms).isSome = ms.all fun m => m.2.write?.isSome := by
  induction ms with
  | nil => rfl
  | cons m ms ih =>
    obtain ⟨name, v⟩ := m
    rw [List.all_cons, ← ih, writeMembers?]
    cases v.write? <;> cases writeMembers? ms <;> rfl

/-- A list has a text when its items have. -/
theorem isSome_write?_list (vs : List Value) :
    (write? (.list vs)).isSome = vs.all fun v => v.write?.isSome := by
  cases vs with
  | nil => rfl
  | cons v vs =>
    rw [List.all_cons, ← isSome_writeItems?, write?]
    cases v.write? <;> cases writeItems? vs <;> rfl

/-- A record has a text when its members have. -/
theorem isSome_write?_record (ms : List (String × Value)) :
    (write? (.record ms)).isSome = ms.all fun m => m.2.write?.isSome := by
  cases ms with
  | nil => rfl
  | cons m ms =>
    obtain ⟨name, v⟩ := m
    rw [List.all_cons, ← isSome_writeMembers?, write?]
    cases v.write? <;> cases writeMembers? ms <;> rfl

theorem isSome_write?_int (n : Int) : (write? (.int n)).isSome = true := by
  rw [write?]
  rfl

theorem isSome_write?_text (s : String) : (write? (.text s)).isSome = true := by
  rw [write?]
  rfl

end Value

/-! ## Items of webhooks -/

/-- An item under a digest, with a payload and a text. -/
structure Item.Registrable (item : Item) (text : String) : Prop where
  id_length : item.id.length = 64
  id_digits : ∀ c ∈ item.id.toList, c ∈ "0123456789abcdef".toList
  payload : item.data ≠ []
  accepted : StoreClient.checkItem item = .ok ()
  text : item.toText? = some text

namespace Webhook

open Value (isSome_write?_list isSome_write?_record isSome_write?_int isSome_write?_text)

theorem isSome_write?_texts (ss : List String) : (texts ss).write?.isSome = true := by
  rw [texts, isSome_write?_list, List.all_map, List.all_eq_true]
  intro s _
  exact isSome_write?_text s

theorem isSome_write?_deliveryValue (d : Delivery) : (deliveryValue d).write?.isSome = true := by
  rw [deliveryValue, isSome_write?_record]
  split <;> split <;> simp [isSome_write?_text, isSome_write?_texts]

/-- The members of a webhook are made of texts and whole numbers. -/
theorem isSome_write?_members (name : String) (w : Webhook) :
    (Value.record (w.members name)).write?.isSome = true := by
  have hdevices : (Value.record [("device_id", texts w.devices)]).write?.isSome = true := by
    simp [isSome_write?_record, isSome_write?_texts]
  rw [members, isSome_write?_record]
  split <;> simp [isSome_write?_text, isSome_write?_int, isSome_write?_texts,
    isSome_write?_deliveryValue, hdevices]

/-- Every webhook has an item at a time with an offset. -/
theorem exists_registrable (w : Webhook) (now : Civil) (offset : Int) :
    ∃ item text, w.toItem (now, some offset) = .ok item ∧ item.Registrable text := by
  obtain ⟨item, hitem⟩ : ∃ item, w.toItem (now, some offset) = .ok item := ⟨_, rfl⟩
  have hid := id_of_toItem hitem
  have hpayload : item.data = w.members wireAddress := by
    cases hitem
    rfl
  have hsome : item.write?.isSome = true := by
    rw [Item.write?, Item.toValue, isSome_write?_record, hpayload]
    split <;> simp [isSome_write?_text, isSome_write?_int, isSome_write?_members]
  obtain ⟨cs, hcs⟩ := Option.isSome_iff_exists.1 hsome
  refine ⟨item, String.ofList cs, hitem, ?_⟩
  constructor
  case id_length => rw [hid, length_idOfUrl]
  case id_digits =>
    rw [hid]
    exact fun c => mem_idOfUrl
  case payload => simp [hpayload, members]
  case accepted => exact checkItem_of_toItem hitem
  case text => rw [Item.toText?, hcs, Option.map_some]

end Webhook

/-! ## Requests -/

/-- The headers of a registration, before credentials are added. -/
def Transport.registrationHeaders (owner : String) : Headers :=
  [("user-agent", userAgent), ("content-type", "application/json")] ++
    if owner.isEmpty then [] else [(ownerHeader, owner)]

namespace Registry

/-- The request that registers an item. -/
def registration (s : Registry) (owner : String) (item : Item) (text : String) : StoreRequest where
  method := "PUT"
  url := s.store.config.itemUrl item.id
  owner := owner
  body := some text.toUTF8

variable {s : Registry} {owner : String} {w : Webhook} {now : Timestamp.Open} {item : Item}
  {text : String}

/-- An addition asks the transport to register the item, when the client is open. -/
theorem question?_add (hitem : w.toItem now = .ok item) (h : item.Registrable text) :
    (s.add now owner w).question? =
      if s.store.channel.isSome then some (s.registration owner item text) else none := by
  unfold add
  rw [hitem]
  simp only [Exchange.question?_mapOutcome, StoreClient.pushItem, h.accepted, h.text]
  exact StoreClient.question?_ask s.store _ _

/-- With a configuration that breaks no rule the session is asked for it, with the headers as the
decorator leaves them, unless the decorator fails. -/
theorem question?_send_registration (hconfig : s.store.config.problems = .ok []) (t : Transport) :
    (t.send (s.registration owner item text)).question? =
      match t.decoration (Transport.registrationHeaders owner) with
      | (headers, .ok ()) =>
        some
          { method := "PUT", url := s.store.config.itemUrl item.id, body := some text.toUTF8
            headers, timeout := t.requestTimeout }
      | (_, .error _) => none := by
  have hmethod : Transport.isMethod "PUT" = true := by decide
  have hcheck : Transport.check (s.registration owner item text).method
      (s.registration owner item text).url = .ok () := Config.check_itemUrl hconfig hmethod item.id
  have hheaders : Transport.plainHeaders (s.registration owner item text) =
      Transport.registrationHeaders owner := rfl
  unfold Transport.send
  rw [Transport.prepare_eq, hcheck]
  unfold Transport.sessionRequest Transport.decorated
  rw [hheaders]
  rcases t.decoration (Transport.registrationHeaders owner) with ⟨headers, _ | _⟩
  · rfl
  · rfl

end Registry

/-- A webhook that is read expires at the start of 1970, if the value says nothing about that, or at
the time that is given, in UTC where no offset is.  At any time with an offset it has an item, which
can be pushed.  An addition of it asks for that item to be registered, and nothing but a client that
is closed and a decorator that fails on the headers of the owner keeps the request from the
session. -/
theorem Webhook.registration_goes_out {source : Timestamp.Source} {v : Value} {w : Webhook}
    (h : ofValue source v = .valid w) :
    (∃ ms, v = .record ms ∧
      ((Assoc.get? "until" ms = none ∧ w.expires = Timestamp.epoch) ∨
        ∃ u, Assoc.get? "until" ms = some u ∧ Timestamp.Given source u w.expires)) ∧
    ∀ (now : Civil) (offset : Int), ∃ item text, w.toItem (now, some offset) = .ok item ∧
      item.Registrable text ∧ ∀ (s : Registry) (owner : String),
        ((s.add (now, some offset) owner w).question? =
          if s.store.channel.isSome then some (s.registration owner item text) else none) ∧
        (s.store.config.problems = .ok [] → ∀ t : Transport,
          ((s.add (now, some offset) owner w).through t.send).question? =
            match s.store.channel, t.decoration (Transport.registrationHeaders owner) with
            | some _, (headers, .ok ()) =>
              some
                { method := "PUT", url := s.store.config.itemUrl item.id
                  body := some text.toUTF8, headers, timeout := t.requestTimeout }
            | _, _ => none) := by
  refine ⟨?_, fun now offset => ?_⟩
  · cases v with
    | record ms =>
      refine ⟨ms, rfl, ?_⟩
      rcases Value.field_eq_valid.1 (fields_of_ofValue h).2 with ⟨u, hu, hread⟩ | ⟨hnone, hepoch⟩
      · exact .inr ⟨u, hu, Timestamp.given_of_ofValue hread⟩
      · exact .inl ⟨hnone, hepoch.symm⟩
    | _ => cases h
  · obtain ⟨item, text, hitem, hregistrable⟩ := exists_registrable w now offset
    refine ⟨item, text, hitem, hregistrable, fun s owner => ?_⟩
    have hadd : (s.add (now, some offset) owner w).question? = _ :=
      Registry.question?_add hitem hregistrable
    refine ⟨hadd, fun hconfig t => ?_⟩
    rw [Exchange.question?_through, hadd]
    cases s.store.channel with
    | none => rfl
    | some channel =>
      simp only [Option.isSome_some, if_true, Option.bind_some,
        Registry.question?_send_registration hconfig]
      rcases t.decoration (Transport.registrationHeaders owner) with ⟨headers, _ | _⟩ <;> rfl

/-- A registry whose client is open. -/
def Registry.ready : Registry where
  store := { config := { baseUrl := "http://s", bucket := "b" }, channel := some (.session 0) }
  poller := { interval := .standard }
  pullInterval := .real (Double.ofInt 5)
  watches := [.size]

/-- It asks for a webhook to be registered that expires with the beginning of a day, of which no
more than the date is given. -/
theorem Webhook.registration_goes_out_bare :
    ∃ text v w, Value.ofText? text = some v ∧ ofValue .written v = .valid w ∧
      w.expires = ⟨{ year := 2030, month := 1, day := 2 }, 0⟩ ∧
      (∃ u, v.member? "until" = some u ∧ Timestamp.Given .written u w.expires) ∧
      ∃ item body, w.toItem ({ year := 2029, month := 12, day := 31 }, some (-210)) = .ok item ∧
        item.Registrable body ∧
        ∃ q, Exchange.question? ((Registry.ready.add
            ({ year := 2029, month := 12, day := 31 }, some (-210)) "x" w).through
              Registry.ready.store.transport.send) = some q ∧
          q.url = Registry.ready.store.config.itemUrl item.id ∧ q.body = some body.toUTF8 := by
  obtain ⟨text, v, w, htext, hv, hw, hexpires⟩ : ∃ text v w, Value.ofText? text = some v ∧
      (v.member? "until").isSome = true ∧ ofValue .written v = .valid w ∧
      w.expires = ⟨{ year := 2030, month := 1, day := 2 }, 0⟩ :=
    ⟨"\x7b\"until\": \"2030-01-02\"\x7d", _, _, rfl, rfl, rfl, rfl⟩
  have hproblems : Registry.ready.store.config.problems = .ok [] :=
    Config.problems_eq_ok (by decide +kernel)
  obtain ⟨⟨ms, rfl, huntil⟩, hitems⟩ := registration_goes_out hw
  obtain ⟨item, body, hitem, hregistrable, hadd⟩ :=
    hitems { year := 2029, month := 12, day := 31 } (-210)
  have hsent := (hadd Registry.ready "x").2 hproblems Registry.ready.store.transport
  refine ⟨text, _, w, htext, hw, hexpires, ?_, item, body, hitem, hregistrable, _, hsent, rfl, rfl⟩
  rcases huntil with ⟨hnone, -⟩ | hgiven
  · have hthere : (Assoc.get? "until" ms).isSome = true := hv
    rw [hnone] at hthere
    cases hthere
  · exact hgiven

end HookRegistry
