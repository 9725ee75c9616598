import HookRegistry.Proofs.StoreClient.Destination
import HookRegistry.Proofs.Url.Target

/-!
# Which ids lead to which resources

The id of an item is put behind the address of the bucket as it is.  Two ids lead to the same
resource exactly when the same of them reaches the server: `item_requests_same_target_iff`.  Ids of
plain characters are told apart, as long as the bucket has no number sign in its address; but what
stands behind a number sign, a question mark with nothing behind it, tabs and line ends make no
difference.
-/

namespace HookRegistry

namespace Config

/-- What of an id reaches the server, in the path and in the query of the address of its item. -/
def seenOf (c : Config) (id : String) : List Char × List Char :=
  Url.seenBehind c.bucketUrl.toList id.toList

theorem toList_itemUrl (c : Config) (id : String) :
    (c.itemUrl id).toList = c.bucketUrl.toList ++ '/' :: id.toList := by
  simp [itemUrl]

/-- Two items have the same target when the same of their ids reaches the server. -/
theorem sameTarget_itemUrl_iff {c : Config} (h : c.problems = .ok []) (a b : String) :
    Url.SameTarget (c.itemUrl a) (c.itemUrl b) ↔ c.seenOf a = c.seenOf b := by
  obtain ⟨base, hbase, habsolute⟩ := split_baseUrl h
  obtain ⟨u, hu, huscheme, hunetloc⟩ := hosts_itemUrl h hbase a
  obtain ⟨v, hv, hvscheme, hvnetloc⟩ := hosts_itemUrl h hbase b
  obtain ⟨w, hw, hwscheme, hwnetloc⟩ := hosts_itemUrl h hbase ""
  have hauthority : (w.scheme, w.netloc) = Url.authority (c.bucketUrl.toList ++ ['/']) := by
    rw [(Url.checks_of_split hw).1, toList_itemUrl]
    rfl
  rw [Url.isAbsoluteHttp_iff] at habsolute
  have hscheme : (Url.authority (c.bucketUrl.toList ++ ['/'])).1 ≠ [] := by
    rw [← hauthority, hwscheme]
    rcases habsolute.1 with hs | hs <;> simp [hs]
  have hnetloc : (Url.authority (c.bucketUrl.toList ++ ['/'])).2 ≠ [] := by
    rw [← hauthority, hwnetloc]
    exact habsolute.2
  rw [seenOf, seenOf, ← Url.route_remainder_eq_iff hscheme hnetloc, ← toList_itemUrl,
    ← toList_itemUrl, ← Url.route_of_split hu, ← Url.route_of_split hv]
  constructor
  · rintro ⟨u', v', hu', hv', htarget⟩
    rw [hu, Except.ok.injEq] at hu'
    rw [hv, Except.ok.injEq] at hv'
    subst hu' hv'
    exact congrArg (fun parts => parts.2.2) htarget
  · intro hroute
    refine ⟨u, v, hu, hv, ?_⟩
    unfold Url.target
    rw [huscheme, hunetloc, hvscheme, hvnetloc, hroute]

end Config

/-- An id of characters that an address keeps, none of which ends its path. -/
def PlainId (id : String) : Prop :=
  ∀ c ∈ id.toList, c ≠ '#' ∧ c ≠ '?' ∧ Url.isDropped c = false

instance : DecidablePred PlainId := fun id =>
  decidable_of_iff
    (id.toList.all (fun c => c != '#' && c != '?' && !Url.isDropped c) = true)
    (by simp [PlainId, and_assoc])

/-- Different plain ids are seen as different, unless the address of the bucket hides them. -/
theorem Config.seenOf_injective {c : Config} (hbucket : '#' ∉ c.bucketUrl.toList) {a b : String}
    (ha : PlainId a) (hb : PlainId b) (h : c.seenOf a = c.seenOf b) : a = b := by
  have hkept : ∀ id : String, PlainId id →
      (id.toList.filter fun c => !Url.isDropped c) = id.toList := by
    intro id hid
    refine List.filter_eq_self.2 fun c hc => ?_
    rw [(hid c hc).2.2]
    rfl
  have hshown : ∀ id : String, PlainId id → id.toList.takeWhile (· ≠ '#') = id.toList := by
    intro id hid
    have htake : (id.toList ++ []).takeWhile (· ≠ '#') = id.toList ++ [].takeWhile (· ≠ '#') :=
      List.takeWhile_append_of_pos fun c hc => decide_eq_true (hid c hc).1
    simpa using htake
  have hroute : ∀ id : String, PlainId id → Url.route id.toList = (id.toList, []) := by
    intro id hid
    have happend := Url.route_append (fun h => (hid _ h).1 rfl) (fun h => (hid _ h).2.1 rfl) []
    simpa [Url.route, Text.cut] using happend
  unfold seenOf Url.seenBehind at h
  rw [hkept a ha, hkept b hb, if_neg hbucket, if_neg hbucket] at h
  by_cases hmark : '?' ∈ c.bucketUrl.toList
  · rw [if_pos hmark, if_pos hmark, hshown a ha, hshown b hb] at h
    exact String.toList_injective (Prod.mk.inj h).2
  · rw [if_neg hmark, if_neg hmark, hroute a ha, hroute b hb] at h
    exact String.toList_injective (Prod.mk.inj h).1

namespace StoreClient

/-- The id that a call is about. -/
def Call.itemId? : Call → Option String
  | .getItems _ _ => none
  | .pushItem _ item _ => some item.id
  | .removeItem id _ _ => some id

/-- A push and a removal go to the address of their item. -/
theorem Call.url_of_question? {c : StoreClient} {call : Call} {id : String}
    (hid : call.itemId? = some id) {r : StoreRequest} (hr : (call.operation c).question? = some r) :
    r.url = c.config.itemUrl id := by
  rcases call.question?_operation c with ⟨-, hnone⟩ | ⟨other, hputs, hasks⟩
  · rw [hnone] at hr
    cases hr
  · rw [hasks] at hr
    split at hr
    · cases hr
      cases hputs with
      | getItems => cases hid
      | pushItem | removeItem =>
        cases hid
        rfl
    · cases hr

/-- Of two pushes or removals, by any clients of a configuration that breaks no rule, the requests
lead to the same resource exactly when the same of the ids reaches the server.  Different plain ids
lead to different resources, when the address of the bucket has no number sign. -/
theorem item_requests_same_target_iff {config : Config} (h : config.problems = .ok [])
    {c c' : StoreClient} (hc : c.config = config) (hc' : c'.config = config) {call call' : Call}
    {a b : String} (ha : call.itemId? = some a) (hb : call'.itemId? = some b) {r q : StoreRequest}
    (hr : (call.operation c).question? = some r) (hq : (call'.operation c').question? = some q) :
    (Url.SameTarget r.url q.url ↔ config.seenOf a = config.seenOf b) ∧
      ('#' ∉ config.bucketUrl.toList → PlainId a → PlainId b → a ≠ b →
        ¬ Url.SameTarget r.url q.url) := by
  rw [call.url_of_question? ha hr, call'.url_of_question? hb hq, hc, hc',
    Config.sameTarget_itemUrl_iff h]
  exact ⟨Iff.rfl, fun hbucket hplain hplain' hne hsame =>
    hne (Config.seenOf_injective hbucket hplain hplain' hsame)⟩

/-- A configuration with nothing special about its addresses. -/
def plainConfig : Config where
  baseUrl := "http://s"
  bucket := "b"

theorem problems_plainConfig : plainConfig.problems = .ok [] :=
  Config.problems_eq_ok (by decide +kernel)

/-- A push of an item and a removal whose id has a tab in it lead to the same resource, a removal of
another item does not. -/
theorem item_requests_same_target_tab :
    ∃ r q p : StoreRequest, r.method = "PUT" ∧ q.method = "DELETE" ∧ p.method = "DELETE" ∧
      Url.SameTarget r.url q.url ∧ ¬ Url.SameTarget r.url p.url := by
  let client : StoreClient := { config := plainConfig, channel := some .injected }
  let push : Call := .pushItem "" { id := "ab", data := [("k", .null)] } none
  have hr : (push.operation client).question? = some
      { method := "PUT", url := plainConfig.itemUrl "ab", body := some _ } := rfl
  have hq : ((Call.removeItem "a\tb" "" none).operation client).question? = some
      { method := "DELETE", url := plainConfig.itemUrl "a\tb" } := rfl
  have hp : ((Call.removeItem "b" "" none).operation client).question? = some
      { method := "DELETE", url := plainConfig.itemUrl "b" } := rfl
  have hsame := (item_requests_same_target_iff problems_plainConfig rfl rfl rfl rfl hr hq).1
  have hapart := (item_requests_same_target_iff problems_plainConfig rfl rfl rfl rfl hr hp).2
  exact ⟨_, _, _, rfl, rfl, rfl, hsame.2 (by decide +kernel),
    hapart (by decide +kernel) (by decide +kernel) (by decide +kernel) (by decide)⟩

/-- An item whose id goes on with a number sign has the resource of the item without. -/
theorem item_ids_share_target :
    ¬ ∀ (config : Config) (a b : String), config.problems = .ok [] → a ≠ "" → b ≠ "" → a ≠ b →
      ¬ Url.SameTarget (config.itemUrl a) (config.itemUrl b) := by
  intro hapart
  have hsame : Url.SameTarget (plainConfig.itemUrl "a") (plainConfig.itemUrl "a#b") :=
    (Config.sameTarget_itemUrl_iff problems_plainConfig _ _).2 (by decide +kernel)
  exact hapart plainConfig "a" "a#b" problems_plainConfig (by decide) (by decide) (by decide) hsame

end StoreClient

end HookRegistry
