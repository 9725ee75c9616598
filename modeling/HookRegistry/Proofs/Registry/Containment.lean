import HookRegistry.Proofs.Registry.Requests
import HookRegistry.Proofs.StoreClient.Reported

/-!
# The failures of a registry

Whatever comes back for a request, an operation of the registry ends in one of five ways, listed in
`Ends`: there was no answer, the answer has no success, its body cannot be decoded, an item in it
holds no webhook, or the operation returns.  One lemma for each operation says that it ends so:
`add_ends`, `all_ends`, `remove_ends`.  What a caller can rely on, `Contained`, follows from the
list alone.

A text is a sequence of Unicode scalar values.  An address with a lone surrogate, whose digest
cannot be taken since it has no UTF-8 form, is not among the addresses of the operations here.
-/

namespace HookRegistry.Registry

open StoreClient (Operation conclude)

/-- How an operation of the registry reads an answer of the store. -/
structure Reading (α : Type) where
  /-- The kind of failure that stands for a failure of the store client. -/
  layer : ErrorKind
  /-- Puts that failure around the one of the store client. -/
  wrap : Failure → Failure
  /-- The statuses of success. -/
  succeeds : Int → Prop
  /-- The items in a body. -/
  decodes : ByteArray → List Item → Prop
  /-- The webhooks that are handed to the caller. -/
  webhooks : α → List Webhook

namespace Reading

/-- An addition does not look at the body. -/
def addition : Reading Unit where
  layer := .push
  wrap := .push
  succeeds := fun status => status = 200 ∨ status = 201
  decodes := fun _ items => items = []
  webhooks := fun _ => []

/-- A listing reads the items of the bucket. -/
def listing : Reading (List Webhook) where
  layer := .fetch
  wrap := .fetch
  succeeds := fun status => status = 200
  decodes := fun body items => StoreClient.itemsOfBody body = .ok items
  webhooks := id

/-- A removal reads the item that was removed. -/
def removal : Reading Webhook where
  layer := .remove
  wrap := .remove
  succeeds := fun status => status = 200
  decodes := fun body items => ∃ item, Item.decode body = .valid item ∧ items = [item]
  webhooks := fun w => [w]

/-- A failure of the store client stays the cause of its own, a body holds at most one list of items,
and what is returned is known from its webhooks. -/
structure Lawful {α : Type} (p : Reading α) : Prop where
  isWebhook : p.layer.isA .webhook = true
  kind : ∀ f, (p.wrap f).kind? = some p.layer
  cause : ∀ f, (p.wrap f).cause? = some f
  unique : ∀ body items others, p.decodes body items → p.decodes body others → items = others
  injective : ∀ a b, p.webhooks a = p.webhooks b → a = b

theorem lawful_addition : addition.Lawful where
  isWebhook := rfl
  kind := fun _ => rfl
  cause := fun _ => rfl
  unique := fun _ _ _ h h' => h.trans h'.symm
  injective := fun _ _ _ => rfl

theorem lawful_listing : listing.Lawful where
  isWebhook := rfl
  kind := fun _ => rfl
  cause := fun _ => rfl
  unique := fun _ _ _ h h' => Except.ok.inj (h.symm.trans h')
  injective := fun _ _ h => h

theorem lawful_removal : removal.Lawful where
  isWebhook := rfl
  kind := fun _ => rfl
  cause := fun _ => rfl
  unique := by
    rintro body _ _ ⟨item, hitem, rfl⟩ ⟨other, hother, rfl⟩
    rw [hitem] at hother
    cases hother
    rfl
  injective := fun _ _ h => List.singleton_inj.1 h

end Reading

variable {α : Type} {p : Reading α} {back : Except Failure StoreResponse}
  {result : Except Failure α}

/-! ## The ends of an operation -/

/-- How an operation ends, by what came back for its request. -/
inductive Ends (p : Reading α) : Except Failure StoreResponse → Except Failure α → Prop where
  | unanswered (cause : Failure) : Ends p (.error cause) (.error (p.wrap cause))
  | refused {answer : StoreResponse} (hstatus : ¬ p.succeeds answer.status) :
      Ends p (.ok answer) (.error (p.wrap (.status answer.status answer.errorHeader)))
  | undecodable {answer : StoreResponse} (hstatus : p.succeeds answer.status)
      (hbody : ∀ items, ¬ p.decodes answer.body items) (call : ReadCall)
      (problems : List Problem) :
      Ends p (.ok answer) (.error (p.wrap (.responseDecode call problems)))
  | unconvertible {answer : StoreResponse} {items : List Item} {item : Item}
      {problems : List Problem} (hstatus : p.succeeds answer.status)
      (hbody : p.decodes answer.body items) (hmem : item ∈ items)
      (hitem : Webhook.ofItem item = .error (.itemConversion item.id problems)) :
      Ends p (.ok answer) (.error (.itemConversion item.id problems))
  | returned {answer : StoreResponse} {items : List Item} {a : α}
      (hstatus : p.succeeds answer.status) (hbody : p.decodes answer.body items)
      (hitems : items.map Webhook.ofItem = (p.webhooks a).map .ok) : Ends p (.ok answer) (.ok a)

/-- An item that holds no webhook is named in the failure. -/
theorem ofItem_eq_error {item : Item} {f : Failure} (h : Webhook.ofItem item = .error f) :
    ∃ problems, f = .itemConversion item.id problems := by
  unfold Webhook.ofItem at h
  split at h
  · cases h
  next problems _ =>
    cases h
    exact ⟨problems, rfl⟩

/-- Items are converted one by one, and the first that holds no webhook ends the conversion. -/
theorem ofItems_cases (items : List Item) :
    (∃ ws, Webhook.ofItems items = .ok ws ∧ items.map Webhook.ofItem = ws.map .ok) ∨
      ∃ item ∈ items, ∃ problems, Webhook.ofItem item = .error (.itemConversion item.id problems) ∧
        Webhook.ofItems items = .error (.itemConversion item.id problems) := by
  induction items with
  | nil => exact .inl ⟨[], rfl, rfl⟩
  | cons item items ih =>
    unfold Webhook.ofItems at ih ⊢
    rw [List.mapM_cons]
    cases hitem : Webhook.ofItem item with
    | error f =>
      obtain ⟨problems, rfl⟩ := ofItem_eq_error hitem
      exact .inr ⟨item, List.mem_cons_self, problems, hitem, rfl⟩
    | ok w =>
      rcases ih with ⟨ws, hws, hmap⟩ | ⟨other, hmem, problems, hother, herror⟩
      · rw [hws]
        exact .inl ⟨w :: ws, rfl, by rw [List.map_cons, List.map_cons, hitem, hmap]⟩
      · rw [herror]
        exact .inr ⟨other, List.mem_cons_of_mem _ hmem, problems, hother, rfl⟩

/-- A body that holds no items fails the call that reads it. -/
theorem itemsOfBody_eq_error {body : ByteArray} {f : Failure}
    (h : StoreClient.itemsOfBody body = .error f) :
    ∃ problems, f = .responseDecode .getItems problems := by
  unfold StoreClient.itemsOfBody at h
  split at h
  · cases h
  · split at h
    · cases h
    next problems _ =>
      cases h
      exact ⟨problems, rfl⟩

/-- A question to the store and what the registry makes of the answer. -/
theorem asks_ask {β : Type} {c : StoreClient} {reply : Reply} (hreply : reply.Foreseen)
    {r : StoreRequest} (hcheck : Transport.check r.method r.url = .ok ())
    {finish : StoreResponse → Outcome β} {f : Outcome β → Outcome α}
    (hcause : ∀ cause : Failure, cause.isOwn = true →
      (f { result := .error cause }).result = .error (p.wrap cause))
    (hanswer : ∀ answer, Ends p (.ok answer) (f (finish answer)).result) :
    c.Asks reply r fun back =>
      Ends p back (c.resultOf reply ((c.ask r finish).mapOutcome f)) := by
  have hreports := c.reports hreply hcheck
  refine ⟨_, hreports, ?_⟩
  rw [StoreClient.resultOf_mapOutcome_ask]
  cases hback : c.reported reply r with
  | error cause =>
    rw [hback] at hreports
    rw [conclude, hcause cause hreports.isOwn]
    exact .unanswered cause
  | ok answer => exact hanswer answer

section
variable {s : Registry} {reply : Reply} (hconfig : s.store.config.problems = .ok [])
  (hreply : reply.Foreseen)
include hconfig hreply

/-- An addition puts the item of the webhook. -/
theorem add_ends {w : Webhook} (hw : w.Proper) (now : Civil) (offset : Int) (owner : String) :
    ∃ item text, w.toItem (now, some offset) = .ok item ∧ item.toText? = some text ∧
      s.store.Asks reply
        { method := "PUT", url := s.store.config.itemUrl (Webhook.idOfUrl w.delivery.url), owner
          body := some text.toUTF8 } fun back =>
          Ends .addition back (s.store.resultOf reply (s.add (now, some offset) owner w)) := by
  obtain ⟨item, hitem⟩ : ∃ item, w.toItem (now, some offset) = .ok item := ⟨_, rfl⟩
  obtain ⟨text, htext, -⟩ := Item.decode_toUTF8 (Webhook.onWire_toItem 196 hw hitem)
  refine ⟨item, text, hitem, htext, ?_⟩
  have hmethod : Transport.isMethod "PUT" = true := by decide
  have hcheck := Config.check_itemUrl hconfig hmethod item.id
  unfold add
  rw [hitem, ← Webhook.id_of_toItem hitem]
  simp only [StoreClient.pushItem, Webhook.checkItem_of_toItem hitem, htext]
  refine asks_ask (r := ⟨"PUT", _, owner, some text.toUTF8, none⟩) hreply hcheck ?_ ?_
  · intro cause hown
    simp only [pushed, hown, if_true, Reading.addition]
  intro answer
  by_cases hcreated : answer.status = 201
  · rw [if_pos hcreated]
    exact .returned (.inr hcreated) rfl rfl
  rw [if_neg hcreated]
  by_cases hreplaced : answer.status = 200
  · rw [if_pos hreplaced]
    exact .returned (.inl hreplaced) rfl rfl
  rw [if_neg hreplaced]
  exact .refused fun hstatus => hstatus.elim hreplaced hcreated

/-- A listing asks for the items of every owner. -/
theorem all_ends :
    s.store.Asks reply { method := "GET", url := s.store.config.bucketUrl } fun back =>
      Ends .listing back (s.store.resultOf reply s.all) := by
  have hmethod : Transport.isMethod "GET" = true := by decide
  have hcheck := Config.check_bucketUrl hconfig hmethod
  unfold all StoreClient.getItems
  refine asks_ask (r := ⟨"GET", _, "", none, none⟩) hreply hcheck ?_ ?_
  · intro cause hown
    simp only [hown, if_true, Reading.listing]
  intro answer
  by_cases hstatus : answer.status = 200
  · rw [if_pos hstatus]
    cases hbody : StoreClient.itemsOfBody answer.body with
    | error f =>
      obtain ⟨problems, rfl⟩ := itemsOfBody_eq_error hbody
      refine .undecodable hstatus ?_ .getItems problems
      intro items hitems
      cases hbody.symm.trans hitems
    | ok items =>
      rcases ofItems_cases items with ⟨ws, hws, hmap⟩ | ⟨item, hmem, problems, hitem, hitems⟩
      · simp only [hws]
        exact .returned hstatus hbody hmap
      · simp only [hitems]
        exact .unconvertible hstatus hbody hmem hitem
  · rw [if_neg hstatus]
    exact .refused hstatus

/-- A removal asks for the item of the address. -/
theorem remove_ends (owner url : String) :
    s.store.Asks reply
      { method := "DELETE", url := s.store.config.itemUrl (Webhook.idOfUrl url), owner } fun back =>
        Ends .removal back (s.store.resultOf reply (s.remove owner url)) := by
  have hmethod : Transport.isMethod "DELETE" = true := by decide
  have hcheck := Config.check_itemUrl hconfig hmethod (Webhook.idOfUrl url)
  unfold remove StoreClient.removeItem
  simp only [Webhook.isEmpty_idOfUrl, Bool.false_eq_true, if_false]
  refine asks_ask (r := ⟨"DELETE", _, owner, none, none⟩) hreply hcheck ?_ ?_
  · intro cause hown
    simp only [hown, if_true, Reading.removal]
  intro answer
  by_cases hstatus : answer.status = 200
  · rw [if_pos hstatus]
    cases hbody : Item.decode answer.body with
    | invalid problems =>
      refine .undecodable hstatus ?_ .removeItem problems
      rintro items ⟨item, hitem, -⟩
      cases hbody.symm.trans hitem
    | valid item =>
      have hdecodes : Reading.removal.decodes answer.body [item] := ⟨item, hbody, rfl⟩
      cases hitem : Webhook.ofItem item with
      | error f =>
        obtain ⟨problems, rfl⟩ := ofItem_eq_error hitem
        simp only [hitem]
        exact .unconvertible hstatus hdecodes List.mem_cons_self hitem
      | ok w =>
        simp only [hitem]
        exact .returned hstatus hdecodes (by rw [List.map_singleton, hitem]; rfl)
  · rw [if_neg hstatus]
    exact .refused hstatus

end

/-! ## What a caller can rely on -/

/-- The failure for an answer without success: its kind by the status, with what the answer said. -/
structure StatusFailure (answer : StoreResponse) (cause : Failure) : Prop where
  badRequest : answer.status = 400 → cause.kind? = some .badRequest
  authentication : answer.status = 401 ∨ answer.status = 403 → cause.kind? = some .authentication
  other : answer.status ≠ 400 → answer.status ≠ 401 → answer.status ≠ 403 →
    cause.kind? = some .otherStatus
  status : cause.details.status = some answer.status
  header : cause.details.header = answer.errorHeader

theorem statusFailure (answer : StoreResponse) :
    StatusFailure answer (.status answer.status answer.errorHeader) where
  badRequest := by
    intro h
    simp [Failure.kind?, ErrorKind.ofStatus, h]
  authentication := by
    intro h
    rcases h with h | h <;> simp [Failure.kind?, ErrorKind.ofStatus, h]
  other := by
    intro h h' h''
    simp [Failure.kind?, ErrorKind.ofStatus, h, h', h'']
  status := rfl
  header := rfl

/-- A failure of the kind of an operation, with its cause. -/
def FailsFrom (p : Reading α) (cause : Failure) (result : Except Failure α) : Prop :=
  ∃ f, result = .error f ∧ f.kind? = some p.layer ∧ f.cause? = some cause

/-- An operation fails with nothing but errors of the registry, and each of them says why. -/
structure Contained (p : Reading α) (back : Except Failure StoreResponse)
    (result : Except Failure α) : Prop where
  returns_iff : ∀ a, result = .ok a ↔ ∃ answer items, back = .ok answer ∧
    p.succeeds answer.status ∧ p.decodes answer.body items ∧
    items.map Webhook.ofItem = (p.webhooks a).map .ok
  webhook : ∀ f, result = .error f → ∃ kind, f.kind? = some kind ∧ kind.isA .webhook = true
  conversion : ∀ answer items, back = .ok answer → p.succeeds answer.status →
    p.decodes answer.body items → (∃ item ∈ items, ∀ w, Webhook.ofItem item ≠ .ok w) →
    ∃ f, result = .error f ∧ f.kind? = some .itemConversion
  undecodable : ∀ answer, back = .ok answer → p.succeeds answer.status →
    (∀ items, ¬ p.decodes answer.body items) →
    ∃ cause, FailsFrom p cause result ∧ cause.kind? = some .responseDecode
  status : ∀ answer, back = .ok answer → ¬ p.succeeds answer.status →
    ∃ cause, FailsFrom p cause result ∧ StatusFailure answer cause
  unanswered : ∀ cause, back = .error cause → FailsFrom p cause result

/-- Items of which one holds no webhook are not those of a list of webhooks. -/
theorem not_all_hold {items : List Item} {item : Item} {ws : List Webhook} (hmem : item ∈ items)
    (hitem : ∀ w, Webhook.ofItem item ≠ .ok w) : items.map Webhook.ofItem ≠ ws.map .ok := by
  intro hmap
  have hconverted := List.mem_map_of_mem (f := Webhook.ofItem) hmem
  rw [hmap] at hconverted
  obtain ⟨w, -, hw⟩ := List.mem_map.1 hconverted
  exact hitem w hw.symm

/-- The failures of the registry have its own kinds. -/
theorem Ends.isA_webhook (hp : p.Lawful) {f : Failure} (h : Ends p back (.error f)) :
    ∃ kind, f.kind? = some kind ∧ kind.isA .webhook = true := by
  cases h with
  | unanswered => exact ⟨_, hp.kind _, hp.isWebhook⟩
  | refused => exact ⟨_, hp.kind _, hp.isWebhook⟩
  | undecodable => exact ⟨_, hp.kind _, hp.isWebhook⟩
  | unconvertible => exact ⟨_, rfl, rfl⟩

/-- The values that are returned. -/
theorem Ends.returns_iff (hp : p.Lawful) (h : Ends p back result) (a : α) :
    result = .ok a ↔ ∃ answer items, back = .ok answer ∧ p.succeeds answer.status ∧
      p.decodes answer.body items ∧ items.map Webhook.ofItem = (p.webhooks a).map .ok := by
  constructor
  · rintro rfl
    cases h with
    | returned hstatus hbody hitems => exact ⟨_, _, rfl, hstatus, hbody, hitems⟩
  · rintro ⟨answer, items, rfl, hstatus, hbody, hitems⟩
    cases h with
    | refused hrefused => exact absurd hstatus hrefused
    | undecodable _ hundecodable => exact absurd hbody (hundecodable items)
    | unconvertible _ hother hmem hitem =>
      cases hp.unique _ _ _ hbody hother
      refine absurd hitems (not_all_hold hmem fun w hw => ?_)
      cases hitem.symm.trans hw
    | @returned _ others b _ hother hothers =>
      cases hp.unique _ _ _ hbody hother
      have hmap : (p.webhooks b).map Except.ok = (p.webhooks a).map Except.ok :=
        hothers.symm.trans hitems
      have hsame := (List.map_inj_right (f := @Except.ok Failure Webhook)
        fun _ _ h => Except.ok.inj h).1 hmap
      rw [hp.injective b a hsame]

/-- Whatever comes back, an operation that ends in one of the five ways is contained. -/
theorem Ends.contained (hp : p.Lawful) (h : Ends p back result) : Contained p back result where
  returns_iff := h.returns_iff hp
  webhook := by
    rintro f rfl
    exact h.isA_webhook hp
  conversion := by
    rintro answer items rfl hstatus hbody ⟨item, hmem, hitem⟩
    cases h with
    | refused hrefused => exact absurd hstatus hrefused
    | undecodable _ hundecodable => exact absurd hbody (hundecodable items)
    | unconvertible => exact ⟨_, rfl, rfl⟩
    | returned _ hother hothers =>
      cases hp.unique _ _ _ hbody hother
      exact absurd hothers (not_all_hold hmem hitem)
  undecodable := by
    rintro answer rfl hstatus hbody
    cases h with
    | refused hrefused => exact absurd hstatus hrefused
    | undecodable => exact ⟨_, ⟨_, rfl, hp.kind _, hp.cause _⟩, rfl⟩
    | unconvertible _ hother => exact absurd hother (hbody _)
    | returned _ hother => exact absurd hother (hbody _)
  status := by
    rintro answer rfl hrefused
    cases h with
    | refused => exact ⟨_, ⟨_, rfl, hp.kind _, hp.cause _⟩, statusFailure answer⟩
    | undecodable hstatus => exact absurd hstatus hrefused
    | unconvertible hstatus => exact absurd hstatus hrefused
    | returned hstatus => exact absurd hstatus hrefused
  unanswered := by
    rintro cause rfl
    cases h with
    | unanswered => exact ⟨_, rfl, hp.kind _, hp.cause _⟩

/-- Whatever the store or the session replies, whatever the decorator does, and whether the client is
open or not: an addition of a webhook that was read from JSON, a listing and a removal are
contained. -/
theorem failures_contained {s : Registry} (hconfig : s.store.config.problems = .ok [])
    {reply : Reply} (hreply : reply.Foreseen) {data : ByteArray} {w : Webhook}
    (hw : Webhook.decode data = .valid w) (now : Civil) (offset : Int) (owner url : String) :
    (∃ item text, w.toItem (now, some offset) = .ok item ∧ item.toText? = some text ∧
      s.store.Asks reply
        { method := "PUT", url := s.store.config.itemUrl (Webhook.idOfUrl w.delivery.url), owner
          body := some text.toUTF8 } fun back =>
          Contained .addition back (s.store.resultOf reply (s.add (now, some offset) owner w))) ∧
      (s.store.Asks reply { method := "GET", url := s.store.config.bucketUrl } fun back =>
        Contained .listing back (s.store.resultOf reply s.all)) ∧
      (s.store.Asks reply
        { method := "DELETE", url := s.store.config.itemUrl (Webhook.idOfUrl url), owner }
        fun back => Contained .removal back (s.store.resultOf reply (s.remove owner url))) := by
  have hproper := Webhook.proper_of_decode hw
  refine ⟨?_, ?_, ?_⟩
  · obtain ⟨item, text, hitem, htext, hasks⟩ := add_ends hconfig hreply hproper now offset owner
    refine ⟨item, text, hitem, htext, ?_⟩
    apply hasks.imp
    intro back hends
    exact hends.contained Reading.lawful_addition
  · apply (all_ends hconfig hreply).imp
    intro back hends
    exact hends.contained Reading.lawful_listing
  · apply (remove_ends hconfig hreply owner url).imp
    intro back hends
    exact hends.contained Reading.lawful_removal

/-- A store that answers with status 403 to a registry that is open: the addition fails, and the
cause says what the store said. -/
theorem failures_contained_forbidden :
    ∃ (s : Registry) (reply : Reply) (data : ByteArray) (w : Webhook) (now : Civil)
      (cause : Failure),
      s.store.config.problems = .ok [] ∧ reply.Foreseen ∧ Webhook.decode data = .valid w ∧
      FailsFrom .addition cause (s.store.resultOf reply (s.add (now, some 60) "x" w)) ∧
      cause.kind? = some .authentication ∧ cause.details.status = some 403 ∧
      cause.details.header = "no" := by
  obtain ⟨s, hproblems, hopen, hplain⟩ : ∃ s : Registry, s.store.config.problems = .ok [] ∧
      s.store.channel = some (.session 0) ∧ s.store.decorate = none := by
    let config : Config := { baseUrl := "http://s", bucket := "b" }
    have hproblems : config.problems = .ok [] := Config.problems_eq_ok (by decide +kernel)
    exact ⟨{ store := { config, session := some 0, channel := some (.session 0) }
             poller := { interval := .standard }
             pullInterval := config.pullInterval
             watches := [.size] }, hproblems, rfl, rfl⟩
  obtain ⟨text, v, w, htext, hread⟩ :
      ∃ text v w, Value.ofText? text = some v ∧ Webhook.ofValue .written v = .valid w :=
    ⟨"\x7b\"config\": \x7b\"url\": \"http://a\"\x7d\x7d", _, _, rfl, rfl⟩
  have hw : Webhook.decode text.toUTF8 = .valid w :=
    Value.decodeBytes_eq_valid.2 ⟨v, Value.ofBytes?_of_ofText? htext, hread⟩
  obtain ⟨reply, hforbids⟩ :
      ∃ reply, reply = Reply.answered 403 [(Transport.errorHeader, "no")] (.ok ByteArray.empty) :=
    ⟨_, rfl⟩
  have hforeseen : reply.Foreseen := by
    rw [hforbids]
    trivial
  have hheader : Transport.headerValue Transport.errorHeader [(Transport.errorHeader, "no")] =
      "no" := by
    simp [Transport.headerValue]
  obtain ⟨⟨item, body, -, -, back, hreports, hcontained⟩, -, -⟩ :=
    failures_contained hproblems hforeseen hw { year := 2029, month := 12, day := 31 } 60 "x" ""
  have hback : back = .ok { status := 403, errorHeader := "no" } := by
    cases hreports with
    | closed hclosed => cases hclosed.symm.trans hopen
    | undecorated _ hdecorate => cases hdecorate.symm.trans hplain
    | rejected _ _ hreply => cases hforbids.symm.trans hreply
    | unsent _ _ hreply => cases hforbids.symm.trans hreply
    | unread _ _ hreply => cases hforbids.symm.trans hreply
    | unaccepted _ _ hreply => cases hforbids.symm.trans hreply
    | answered _ _ hreply =>
      cases hforbids.symm.trans hreply
      rw [hheader]
  obtain ⟨cause, hfails, hcause⟩ := hcontained.status _ hback (by simp [Reading.addition])
  exact ⟨s, reply, _, w, _, cause, hproblems, hforeseen, hw, hfails, hcause.authentication (.inr rfl),
    hcause.status, hcause.header⟩

end HookRegistry.Registry
