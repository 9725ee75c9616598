import HookRegistry.Proofs.StoreClient.Reported
import HookRegistry.Proofs.Text.Bytes
import HookRegistry.Proofs.Text.Split
import HookRegistry.Proofs.Value.Checked
import HookRegistry.Proofs.Value.Grammar

/-!
# What a fetch makes of a body

`Stands body items` says, by the grammar of JSON, which items a body stands for: none for `null`,
and those of its elements for a list.  A fetch looks for `null` before it reads, and takes more
blanks for white space than JSON does.  So it gives the items that the body stands for, and a
failure when it stands for none, except for the bodies of `DisguisedNull`.
-/

namespace HookRegistry

/-! ## Null amid blanks -/

/-- The body that is the word `null` between some characters. -/
def nullBetween (before after : List Char) : ByteArray :=
  (String.ofList (before ++ ['n', 'u', 'l', 'l'] ++ after)).toUTF8

/-- A body that is the word `null` amid characters of some kind. -/
def NullAmid (space : Char → Bool) (body : ByteArray) : Prop :=
  ∃ before after : List Char, (∀ c ∈ before ++ after, space c = true) ∧
    body = nullBetween before after

/-- A body that is the word `null` amid blanks, of which one is a vertical tab or a form feed. -/
def DisguisedNull (body : ByteArray) : Prop :=
  ∃ before after : List Char, (∀ c ∈ before ++ after, Text.isAsciiBlank c = true) ∧
    (∃ c ∈ before ++ after, c = '\x0b' ∨ c = '\x0c') ∧ body = nullBetween before after

/-- The blanks of the ASCII range that are no white space of JSON. -/
theorem isAsciiBlank_iff {c : Char} :
    Text.isAsciiBlank c = true ↔ Token.isSpace c = true ∨ c = '\x0b' ∨ c = '\x0c' := by
  constructor
  · intro h
    simp only [Text.isAsciiBlank, Bool.or_eq_true, beq_iff_eq, Bool.and_eq_true,
      decide_eq_true_eq] at h
    rcases h with rfl | ⟨hlow, hhigh⟩
    · exact .inl rfl
    · have hchar : c = Char.ofNat c.toNat := (Char.ofNat_toNat c).symm
      have hnumber : c.toNat = 9 ∨ c.toNat = 10 ∨ c.toNat = 11 ∨ c.toNat = 12 ∨ c.toNat = 13 := by
        omega
      rcases hnumber with h | h | h | h | h <;> rw [h] at hchar <;> subst hchar <;> decide
  · rintro (h | rfl | rfl)
    · simp only [Token.isSpace, Bool.or_eq_true, beq_iff_eq] at h
      rcases h with ((rfl | rfl) | rfl) | rfl <;> rfl
    · rfl
    · rfl

theorem ascii_nullBetween {before after : List Char}
    (h : ∀ c ∈ before ++ after, Text.isAsciiBlank c = true) :
    ∀ c ∈ before ++ ['n', 'u', 'l', 'l'] ++ after, c.toNat < 128 := by
  have hblank : ∀ c, Text.isAsciiBlank c = true → c.toNat < 128 := by
    intro c hc
    simp only [Text.isAsciiBlank, Bool.or_eq_true, beq_iff_eq, Bool.and_eq_true,
      decide_eq_true_eq] at hc
    rcases hc with rfl | ⟨-, hhigh⟩
    · decide
    · omega
  have hnull : ['n', 'u', 'l', 'l'].all (fun c => decide (c.toNat < 128)) = true := rfl
  rw [List.forall_mem_append] at h
  refine List.forall_mem_append.2 ⟨List.forall_mem_append.2 ⟨fun c hc => hblank c (h.1 c hc), ?_⟩,
    fun c hc => hblank c (h.2 c hc)⟩
  exact fun c hc => of_decide_eq_true (List.all_eq_true.1 hnull c hc)

/-- The look for `null` finds it amid the blanks of the ASCII range. -/
theorem StoreClient.isNullBody_iff {body : ByteArray} :
    isNullBody body = true ↔ NullAmid Text.isAsciiBlank body := by
  have hbody : ∀ before after, (∀ c ∈ before ++ after, Text.isAsciiBlank c = true) →
      (body = nullBetween before after ↔
        body.toList.map Text.charOfByte = before ++ ['n', 'u', 'l', 'l'] ++ after) :=
    fun before after h => Text.eq_toUTF8_iff (ascii_nullBetween h)
  unfold isNullBody
  rw [beq_iff_eq]
  have hchars : body.toList.map (fun b => Char.ofNat b.toNat) = body.toList.map Text.charOfByte :=
    rfl
  rw [hchars, Text.strip_eq_iff rfl rfl rfl rfl]
  constructor
  · rintro ⟨before, after, heq, hbefore, hafter⟩
    have hblank := List.forall_mem_append.2 ⟨hbefore, hafter⟩
    exact ⟨before, after, hblank, (hbody before after hblank).2 heq⟩
  · rintro ⟨before, after, hblank, heq⟩
    exact ⟨before, after, (hbody before after hblank).1 heq, List.forall_mem_append.1 hblank⟩

/-- A body encodes null when it is the word amid the white space of JSON. -/
theorem encodes_null_iff {body : ByteArray} :
    Value.Encodes body .null ↔ NullAmid Token.isSpace body := by
  unfold Value.Encodes NullAmid nullBetween
  simp only [Value.denotes_null_iff]
  constructor
  · rintro ⟨s, rfl, before, after, hs, hbefore, hafter⟩
    refine ⟨before, after, List.forall_mem_append.2 ⟨hbefore, hafter⟩, ?_⟩
    rw [← hs, String.ofList_toList]
  · rintro ⟨before, after, hspace, rfl⟩
    rw [List.forall_mem_append] at hspace
    exact ⟨_, rfl, before, after, String.toList_ofList, hspace⟩

/-- The look for `null` finds more than the null of JSON. -/
theorem isNullBody_iff_encodes_or {body : ByteArray} :
    StoreClient.isNullBody body = true ↔ Value.Encodes body .null ∨ DisguisedNull body := by
  rw [StoreClient.isNullBody_iff, encodes_null_iff]
  constructor
  · rintro ⟨before, after, hblank, rfl⟩
    by_cases hodd : ∃ c ∈ before ++ after, c = '\x0b' ∨ c = '\x0c'
    · exact .inr ⟨before, after, hblank, hodd, rfl⟩
    · refine .inl ⟨before, after, fun c hc => ?_, rfl⟩
      exact (isAsciiBlank_iff.1 (hblank c hc)).resolve_right fun h => hodd ⟨c, hc, h⟩
  · rintro (⟨before, after, hspace, rfl⟩ | ⟨before, after, hblank, -, rfl⟩)
    · exact ⟨before, after, fun c hc => isAsciiBlank_iff.2 (.inl (hspace c hc)), rfl⟩
    · exact ⟨before, after, hblank, rfl⟩

/-- A null in disguise is no JSON text. -/
theorem DisguisedNull.not_encodes {body : ByteArray} (h : DisguisedNull body) (v : Value) :
    ¬ Value.Encodes body v := by
  rintro ⟨s, hs, ts, hlexes, -⟩
  obtain ⟨before, after, hblank, ⟨c, hc, hodd⟩, rfl⟩ := h
  have hchars : s.toList = before ++ ['n', 'u', 'l', 'l'] ++ after := by
    rw [← String.toByteArray_inj.1 hs, String.toList_ofList]
  rw [hchars] at hlexes
  have hquote : '"' ∉ before ++ ['n', 'u', 'l', 'l'] ++ after := by
    intro hmem
    rw [List.append_assoc, List.mem_append, List.mem_append] at hmem
    rcases hmem with hmem | hmem | hmem
    · have hbefore := hblank _ (List.mem_append_left _ hmem)
      revert hbefore
      decide
    · revert hmem
      decide
    · have hafter := hblank _ (List.mem_append_right _ hmem)
      revert hafter
      decide
  have hmem : c ∈ before ++ ['n', 'u', 'l', 'l'] ++ after := by
    rcases List.mem_append.1 hc with h | h <;> simp [h]
  have hchar := hlexes.char hquote c hmem
  rcases hodd with rfl | rfl
  · rcases hchar with h | ⟨t, h⟩ | h <;> cases h
  · rcases hchar with h | ⟨t, h⟩ | h <;> cases h

/-! ## The items of a body -/

namespace StoreClient

/-- The items that a body stands for. -/
inductive Stands (body : ByteArray) : List Item → Prop where
  | null (h : Value.Encodes body .null) : Stands body []
  /-- Every element of a list is an item; there are as many, in the same order. -/
  | list {vs : List Value} {items : List Item} (h : Value.Encodes body (.list vs))
      (hitems : vs.map Item.ofValue = items.map .valid) : Stands body items

/-- The result of a fetch is the items that its body stands for, and a failure to read it when it
stands for none. -/
def Answers (body : ByteArray) (result : Except Failure (List Item)) : Prop :=
  (∀ items, result = .ok items ↔ Stands body items) ∧
    ((∀ items, ¬ Stands body items) →
      ∃ problems, result = .error (.responseDecode .getItems problems))

/-- A list of items is read when a body that is not null stands for it. -/
theorem decodeList_eq_valid_iff {body : ByteArray} (hnull : ¬ Value.Encodes body .null)
    {items : List Item} : Item.decodeList body = .valid items ↔ Stands body items := by
  unfold Item.decodeList
  rw [Value.decodeBytes_eq_valid]
  constructor
  · rintro ⟨v, hv, hread⟩
    obtain ⟨vs, hvs, hitems⟩ := Checked.bind_eq_valid.1 hread
    have hlist : v = .list vs := by
      cases v <;> cases hvs
      rfl
    subst hlist
    exact .list (Value.ofBytes?_eq_some_iff.1 hv) (Checked.traverse_eq_valid.1 hitems)
  · rintro (h | ⟨h, hitems⟩)
    · exact absurd h hnull
    · exact ⟨_, Value.ofBytes?_eq_some_iff.2 h,
        Checked.bind_eq_valid.2 ⟨_, rfl, Checked.traverse_eq_valid.2 hitems⟩⟩

/-- A body that is null stands for no items but none. -/
theorem stands_of_encodes_null {body : ByteArray} (h : Value.Encodes body .null)
    {items : List Item} : Stands body items ↔ items = [] := by
  refine ⟨?_, fun heq => heq ▸ .null h⟩
  rintro (_ | ⟨hlist, -⟩)
  · rfl
  · rw [← Value.ofBytes?_eq_some_iff] at h hlist
    rw [h] at hlist
    cases hlist

/-- Null in disguise stands for nothing. -/
theorem not_stands_of_disguisedNull {body : ByteArray} (h : DisguisedNull body)
    {items : List Item} : ¬ Stands body items := by
  rintro (hnull | ⟨hlist, -⟩)
  · exact h.not_encodes _ hnull
  · exact h.not_encodes _ hlist

/-- What a fetch makes of a body that is not null in disguise. -/
theorem answers_itemsOfBody {body : ByteArray} (h : ¬ DisguisedNull body) :
    Answers body (itemsOfBody body) := by
  unfold itemsOfBody
  by_cases hnull : Value.Encodes body .null
  · rw [if_pos (isNullBody_iff_encodes_or.2 (.inl hnull))]
    refine ⟨fun items => ?_, fun hnone => absurd (.null hnull) (hnone [])⟩
    rw [stands_of_encodes_null hnull, Except.ok.injEq, eq_comm]
  · have hbody : ¬ isNullBody body = true :=
      fun hbody => (isNullBody_iff_encodes_or.1 hbody).elim hnull h
    rw [if_neg hbody]
    have hlist := fun items => @decodeList_eq_valid_iff body hnull items
    unfold Answers
    simp only [← hlist]
    cases Item.decodeList body with
    | valid items => exact ⟨fun _ => by simp, fun hnone => absurd rfl (hnone items)⟩
    | invalid problems => exact ⟨fun _ => by simp, fun _ => ⟨problems, rfl⟩⟩

/-- The request of a fetch. -/
def itemsRequest (c : StoreClient) (owner : String) (timeout : Option Seconds) : StoreRequest where
  method := "GET"
  url := c.config.bucketUrl
  owner
  timeout

/-- The result of a fetch for which there is an answer: from a transport that was handed in, which
may do as it likes, or from a session by the transport of the client. -/
inductive Fetches (c : StoreClient) (owner : String) (timeout : Option Seconds)
    (answer : StoreResponse) : Except Failure (List Item) → Prop where
  | injected {σ : Type} {respond : StoreRequest → σ → Except Failure StoreResponse × σ} {state : σ}
      (hopen : c.channel.isSome = true)
      (hanswer : (respond (c.itemsRequest owner timeout) state).1 = .ok answer) :
      Fetches c owner timeout answer ((c.getItems owner timeout).run respond state).1.result
  | session {reply : Reply}
      (hanswer : c.reported reply (c.itemsRequest owner timeout) = .ok answer) :
      Fetches c owner timeout answer (c.resultOf reply (c.getItems owner timeout))

/-- When the answer is a success, its body decides. -/
theorem Fetches.eq_itemsOfBody {c : StoreClient} {owner : String} {timeout : Option Seconds}
    {answer : StoreResponse} {result : Except Failure (List Item)}
    (h : c.Fetches owner timeout answer result) (hstatus : answer.status = 200) :
    result = itemsOfBody answer.body := by
  cases h with
  | @injected _ respond state hopen hanswer =>
    obtain ⟨channel, hchannel⟩ := Option.isSome_iff_exists.1 hopen
    unfold itemsRequest at hanswer
    simp only [getItems, ask, hchannel, Exchange.run, hanswer, if_pos hstatus]
  | session hanswer =>
    unfold itemsRequest at hanswer
    rw [getItems, resultOf_ask, hanswer, conclude, if_pos hstatus]

/-- A fetch gives the items that the body of its answer stands for, or fails to read it, exactly
when the body is not null in disguise.  Such a body is no JSON text, and is taken for no items. -/
theorem getItems_answers_iff {c : StoreClient} {owner : String} {timeout : Option Seconds}
    {answer : StoreResponse} {result : Except Failure (List Item)}
    (hfetches : c.Fetches owner timeout answer result) (hstatus : answer.status = 200) :
    (Answers answer.body result ↔ ¬ DisguisedNull answer.body) ∧
      (DisguisedNull answer.body → result = .ok [] ∧ ∀ v, ¬ Value.Encodes answer.body v) := by
  rw [hfetches.eq_itemsOfBody hstatus]
  have hempty : DisguisedNull answer.body → itemsOfBody answer.body = .ok [] := by
    intro h
    unfold itemsOfBody
    rw [if_pos (isNullBody_iff_encodes_or.2 (.inr h))]
  refine ⟨⟨fun hanswers h => ?_, answers_itemsOfBody⟩, fun h => ⟨hempty h, h.not_encodes⟩⟩
  exact not_stands_of_disguisedNull h ((hanswers.1 []).1 (hempty h))

/-- A client that is open. -/
def opened : StoreClient where
  config := { baseUrl := "http://s", bucket := "b" }
  channel := some .injected

/-- What comes back to it. -/
theorem reported_opened (body : ByteArray) :
    opened.reported (.answered 200 [] (.ok body)) (opened.itemsRequest "" none) =
      .ok { status := 200, body } := by
  have hproblems : opened.config.problems = .ok [] := Config.problems_eq_ok (by decide +kernel)
  have hcheck : Transport.check "GET" opened.config.bucketUrl = .ok () :=
    Config.check_bucketUrl hproblems (by decide +kernel)
  have hauth : opened.Authorizes (opened.itemsRequest "" none) :=
    fun _ hdecorate => by cases hdecorate
  rw [reported_of_authorizes _ hcheck rfl hauth]
  rfl

/-- Two items with white space around them. -/
theorem getItems_answers_two :
    ∃ (body : ByteArray) (items : List Item),
      opened.resultOf (.answered 200 [] (.ok body)) (opened.getItems "" none) = .ok items ∧
        items.map (fun item => (item.id, item.ttl)) = [("a", none), ("b", some 5)] := by
  obtain ⟨text, vs, items, hread, hitems, hfields⟩ : ∃ text vs items,
      Value.ofText? text = some (.list vs) ∧ vs.map Item.ofValue = items.map .valid ∧
        items.map (fun item => (item.id, item.ttl)) = [("a", none), ("b", some 5)] :=
    ⟨"\n[\x7b\"id\":\"a\"\x7d,\t\x7b\"ttl\":5,\"id\":\"b\"\x7d ]\r",
      [.record [("id", .text "a")], .record [("ttl", .int 5), ("id", .text "b")]],
      [{ id := "a" }, { id := "b", ttl := some 5 }], by rfl, by rfl, rfl⟩
  have hencodes : Value.Encodes text.toUTF8 (.list vs) :=
    ⟨text, rfl, Value.ofText?_eq_some_iff.1 hread⟩
  have hplain : ¬ DisguisedNull text.toUTF8 := fun h => h.not_encodes _ hencodes
  have hfetches := Fetches.session (reported_opened text.toUTF8)
  have hanswers := (getItems_answers_iff hfetches rfl).1.2 hplain
  exact ⟨_, items, (hanswers.1 items).2 (.list hencodes hitems), hfields⟩

/-- A body with a vertical tab in front of `null` is no JSON text, but no failure either. -/
theorem getItems_reads_disguised_null :
    ¬ ∀ (c : StoreClient) (owner : String) (timeout : Option Seconds) (answer : StoreResponse)
      (result : Except Failure (List Item)), c.Fetches owner timeout answer result →
        answer.status = 200 → Answers answer.body result := by
  intro hall
  have hbody : DisguisedNull (nullBetween ['\x0b'] []) :=
    ⟨['\x0b'], [], List.all_eq_true.1 rfl, ⟨'\x0b', List.mem_singleton_self _, .inl rfl⟩, rfl⟩
  have hfetches := Fetches.session (reported_opened (nullBetween ['\x0b'] []))
  have hanswers := hall _ _ _ _ _ hfetches rfl
  rw [hfetches.eq_itemsOfBody rfl, itemsOfBody,
    if_pos (isNullBody_iff_encodes_or.2 (.inr hbody))] at hanswers
  exact not_stands_of_disguisedNull hbody ((hanswers.1 []).1 rfl)

end StoreClient

end HookRegistry
