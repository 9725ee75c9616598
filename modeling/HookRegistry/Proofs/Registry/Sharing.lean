import HookRegistry.Proofs.Poller.Step
import HookRegistry.Proofs.Registry.Directory
import HookRegistry.Proofs.Registry.Requests
import HookRegistry.Proofs.Webhook.FanOut

/-!
# Registries that share a store

Several registries send their requests to one store, which handles them one at a time.
`Sharing.step?` lets a request begin, be handled by the store and end, with anything that happens to
other requests in between.

In every run from an empty store each request is answered from the directory of the requests that
the store handled before it, and a poll hands just that to its watches: `Sharing.Sound` is what every
step keeps, with digests for keys, and `Request.Answers.of_key` puts the addresses in their place.
-/

namespace HookRegistry

open Bench (EchoStore)

/-- How a request ended, before a poll tells its watches. -/
inductive Answer where
  | added (r : Except Failure Unit)
  | removed (r : Except Failure Webhook)
  | listed (r : Except Failure (List Webhook))
  | fetched (r : Except Failure (List Item))

/-- How far a request has come. -/
inductive Stage where
  /-- The store has yet to handle it. -/
  | waiting (q : SessionRequest) (finish : Reply → Answer)
  /-- The store has handled it, after so many others, or it was never put to the store. -/
  | answered (position : Option Nat) (a : Answer)

/-- How an operation begins. -/
def Stage.ofOperation {α : Type} (wrap : Except Failure α → Answer)
    (op : Exchange SessionRequest Reply α) : Stage :=
  match op with
  | .ended o => .answered none (wrap o.result)
  | .asks q _ finish => .waiting q fun reply => wrap (finish reply).result

/-- How a request of a registry begins. -/
def Registry.begin (s : Registry) : Request → Stage
  | .add now offset owner w =>
    .ofOperation .added ((s.add (now, some offset) owner w).through s.store.transport.send)
  | .remove owner url => .ofOperation .removed ((s.remove owner url).through s.store.transport.send)
  | .all => .ofOperation .listed (s.all.through s.store.transport.send)
  | .poll => .ofOperation .fetched (s.poll.through s.store.transport.send)

/-- How a request of a registry ends; a poll tells the watches. -/
def Registry.conclude (s : Registry) : Answer → Registry × Option Registry.PollRound
  | .fetched r => ((s.finishPoll r).1, some (s.finishPoll r).2)
  | _ => (s, none)

/-- A request that is under way, and the registry that it was made of. -/
structure Call where
  registry : Nat
  request : Request
  stage : Stage

/-- A request that has ended. -/
structure Ending where
  registry : Nat
  request : Request
  position : Option Nat
  answer : Answer
  round : Option Registry.PollRound

/-- Registries that share a store. -/
structure Sharing where
  registries : List Registry
  store : EchoStore := {}
  calls : List Call := []
  /-- The requests that the store has handled, in order. -/
  handled : List Request := []
  /-- The requests that have ended, in order. -/
  endings : List Ending := []

namespace Sharing

/-- What may happen next. -/
inductive Action where
  | begin (registry : Nat) (r : Request)
  | handle (i : Nat)
  | conclude (i : Nat)

/-- A request of a registry begins. -/
def begin? (w : Sharing) (n : Nat) (r : Request) : Option Sharing :=
  w.registries[n]?.map fun s => { w with calls := w.calls ++ [⟨n, r, s.begin r⟩] }

/-- The store handles a request. -/
def handle? (w : Sharing) (i : Nat) : Option Sharing :=
  match w.calls[i]? with
  | some ⟨n, r, .waiting q finish⟩ =>
    let (reply, store) := w.store.handle q
    some
      { w with
        store
        calls := w.calls.set i ⟨n, r, .answered (some w.handled.length) (finish reply)⟩
        handled := w.handled ++ [r] }
  | _ => none

/-- A request ends. -/
def conclude? (w : Sharing) (i : Nat) : Option Sharing :=
  match w.calls[i]? with
  | some ⟨n, r, .answered position a⟩ =>
    w.registries[n]?.map fun s =>
      { w with
        registries := w.registries.set n (s.conclude a).1
        calls := w.calls.eraseIdx i
        endings := w.endings ++ [⟨n, r, position, a, (s.conclude a).2⟩] }
  | _ => none

/-- The state after an action, when the action can happen. -/
def step? (w : Sharing) : Action → Option Sharing
  | .begin n r => w.begin? n r
  | .handle i => w.handle? i
  | .conclude i => w.conclude? i

/-- The state after a run of actions, when each of them can happen in turn. -/
def run? (w : Sharing) (actions : List Action) : Option Sharing :=
  actions.foldlM step? w

/-- The requests that begin in a run. -/
def begun (actions : List Action) : List Request :=
  actions.filterMap fun
    | .begin _ r => some r
    | _ => none

end Sharing

/-! ## What is expected -/

/-- A request that adds nothing but what was read from JSON text. -/
def Request.Decoded : Request → Prop
  | .add _ _ _ w => ∃ data, Webhook.decode data = .valid w
  | _ => True

/-- The answer to a request when the store kept some webhooks under keys of their addresses. -/
def Request.Answers (key : String → String) (entries : List (String × Webhook)) (a : Answer) :
    Request → Prop
  | .add _ _ _ _ => a = .added (.ok ())
  | .remove _ url =>
    a = .removed (match Assoc.get? (key url) entries with
      | some w => .ok w
      | none => .error (.remove (.status 404 "item not found")))
  | .all => a = .listed (.ok (entries.map Prod.snd))
  | .poll => ∃ items, a = .fetched (.ok items) ∧ Webhook.ofItems items = .ok (entries.map Prod.snd)

/-- At the end of a poll the watches are handed the webhooks that the store kept. -/
def Ending.Tells (registries : List Registry) (entries : List (String × Webhook)) (e : Ending) :
    Prop :=
  e.request = .poll →
    ∃ s round, registries[e.registry]? = some s ∧ e.round = some round ∧
      round.outcome = .success ∧ round.update.webhooks = entries.map Prod.snd ∧
      Watch.Hands (entries.map Prod.snd) s.watches round.update.round

/-! ## One request -/

/-- A request was answered from what the store kept at its place in the order in which the store
handled the requests. -/
def Request.SettledAt (handled : List Request) (position : Option Nat) (a : Answer) (r : Request) :
    Prop :=
  ∃ k, position = some k ∧ handled[k]? = some r ∧
    r.Answers Webhook.idOfUrl (keptBy Webhook.idOfUrl (handled.take k)) a

/-- A request that waits will be answered as expected, whatever the store keeps by then; one that
was answered was answered so. -/
def Stage.Sound (handled : List Request) (r : Request) : Stage → Prop
  | .waiting q finish =>
    ∀ store entries, Webhook.Holds store entries →
      Webhook.Holds (store.handle q).2 (r.apply Webhook.idOfUrl entries) ∧
        r.Answers Webhook.idOfUrl entries (finish (store.handle q).1)
  | .answered position a => r.SettledAt handled position a

theorem Stage.sound_ofOperation {α : Type} {wrap : Except Failure α → Answer}
    {op : Exchange SessionRequest Reply α} {r : Request}
    {expected : List (String × Webhook) → Except Failure α → Prop}
    (h : Registry.Reaches op (fun entries => r.apply Webhook.idOfUrl entries) expected)
    (hanswers : ∀ entries result, expected entries result →
      r.Answers Webhook.idOfUrl entries (wrap result)) (handled : List Request) :
    (Stage.ofOperation wrap op).Sound handled r := by
  obtain ⟨q, log, finish, rfl, hstore⟩ := h
  intro store entries hholds
  obtain ⟨hkept, hexpected⟩ := hstore store entries hholds
  exact ⟨hkept, hanswers entries _ hexpected⟩

/-- Every request of a registry that can reach the store is sound from its beginning. -/
theorem Registry.sound_begin {s : Registry} (hs : s.store.Serves) {r : Request} (hr : r.Decoded)
    (handled : List Request) : (s.begin r).Sound handled r := by
  cases r with
  | add now offset owner w =>
    obtain ⟨data, hdata⟩ := hr
    refine Stage.sound_ofOperation
      (add_reaches hs (Webhook.proper_of_decode hdata) now offset owner) ?_ handled
    intro entries result hresult
    rw [hresult]
    rfl
  | remove owner url =>
    refine Stage.sound_ofOperation (remove_reaches hs owner url) ?_ handled
    intro entries result hresult
    rw [hresult]
    rfl
  | all =>
    refine Stage.sound_ofOperation (all_reaches hs) ?_ handled
    intro entries result hresult
    rw [hresult]
    rfl
  | poll =>
    refine Stage.sound_ofOperation (poll_reaches hs) ?_ handled
    rintro entries result ⟨items, rfl, hitems⟩
    exact ⟨items, rfl, hitems⟩

/-- A request keeps its place, and the requests before it, when the store handles more. -/
theorem Request.place_append {handled : List Request} {r : Request} {k : Nat}
    (h : handled[k]? = some r) (rs : List Request) :
    (handled ++ rs)[k]? = some r ∧ (handled ++ rs).take k = handled.take k := by
  have hlt : k < handled.length := (List.getElem?_eq_some_iff.1 h).1
  constructor
  · rw [List.getElem?_append_left hlt]
    exact h
  · exact List.take_append_of_le_length (Nat.le_of_lt hlt)

theorem Request.SettledAt.append {handled : List Request} {position : Option Nat} {a : Answer}
    {r : Request} (h : r.SettledAt handled position a) (rs : List Request) :
    r.SettledAt (handled ++ rs) position a := by
  obtain ⟨k, hposition, hk, hanswers⟩ := h
  obtain ⟨hplace, hbefore⟩ := place_append hk rs
  exact ⟨k, hposition, hplace, hbefore ▸ hanswers⟩

theorem Stage.Sound.append {handled : List Request} {r : Request} {stage : Stage}
    (h : stage.Sound handled r) (rs : List Request) : stage.Sound (handled ++ rs) r := by
  cases stage with
  | waiting q finish => exact h
  | answered position a => exact Request.SettledAt.append h rs

/-- A request that has ended was answered from what the store kept at its place, and a poll told the
watches just that. -/
def Ending.Sound (registries : List Registry) (handled : List Request) (e : Ending) : Prop :=
  ∃ k, e.position = some k ∧ handled[k]? = some e.request ∧
    e.request.Answers Webhook.idOfUrl (Request.keptBy Webhook.idOfUrl (handled.take k)) e.answer ∧
    e.Tells registries (Request.keptBy Webhook.idOfUrl (handled.take k))

theorem Ending.Sound.append {registries : List Registry} {handled : List Request} {e : Ending}
    (h : e.Sound registries handled) (rs : List Request) : e.Sound registries (handled ++ rs) := by
  obtain ⟨k, hposition, hk, hanswers, htells⟩ := h
  obtain ⟨hplace, hbefore⟩ := Request.place_append hk rs
  exact ⟨k, hposition, hplace, hbefore ▸ hanswers, hbefore ▸ htells⟩

namespace Registry

theorem conclude_store (s : Registry) (a : Answer) : (s.conclude a).1.store = s.store := by
  cases a with
  | fetched r => cases r <;> rfl
  | _ => rfl

theorem conclude_watches (s : Registry) (a : Answer) : (s.conclude a).1.watches = s.watches := by
  cases a with
  | fetched r => cases r <;> rfl
  | _ => rfl

/-- A poll that was answered hands to the watches what the items hold. -/
theorem conclude_fetched (s : Registry) {items : List Item} {webhooks : List Webhook}
    (h : Webhook.ofItems items = .ok webhooks) :
    ∃ round, (s.conclude (.fetched (.ok items))).2 = some round ∧ round.outcome = .success ∧
      round.update.webhooks = webhooks ∧ Watch.Hands webhooks s.watches round.update.round := by
  have hupdate : Watch.update s.watches items =
      { webhooks, round := Watch.fanOut webhooks s.watches } := by
    simp only [Watch.update, h]
  refine ⟨_, rfl, rfl, ?_⟩
  simp only [finishPoll, hupdate, true_and]
  exact Watch.hands_fanOut webhooks s.watches

end Registry

/-! ## The invariant -/

namespace Sharing

/-- What holds after every step of a run from an empty store, when no other requests than `rs`
begin in it. -/
structure Sound (registries : List Registry) (rs : List Request) (w : Sharing) : Prop where
  serves : ∀ s ∈ w.registries, s.store.Serves
  /-- The registries keep their watches. -/
  watches : w.registries.map Registry.watches = registries.map Registry.watches
  holds : Webhook.Holds w.store (Request.keptBy Webhook.idOfUrl w.handled)
  calls : ∀ c ∈ w.calls, c.registry < w.registries.length ∧ c.request ∈ rs ∧
    c.stage.Sound w.handled c.request
  handled : ∀ r ∈ w.handled, r ∈ rs
  endings : ∀ e ∈ w.endings, e.Sound registries w.handled

variable {registries : List Registry} {rs : List Request} {w w' : Sharing}

theorem sound_start (h : ∀ s ∈ registries, s.store.Serves) (rs : List Request) :
    Sound registries rs { registries } where
  serves := h
  watches := rfl
  holds := ⟨rfl, rfl, .nil⟩
  calls := fun _ h => absurd h List.not_mem_nil
  handled := fun _ h => absurd h List.not_mem_nil
  endings := fun _ h => absurd h List.not_mem_nil

theorem Sound.begin (hw : w.Sound registries rs) {n : Nat} {r : Request} (hmem : r ∈ rs)
    (hr : r.Decoded) (h : w.begin? n r = some w') : w'.Sound registries rs := by
  obtain ⟨s, hs, rfl⟩ := Option.map_eq_some_iff.1 h
  refine { hw with calls := ?_ }
  intro c hc
  rcases List.mem_append.1 hc with hc | hc
  · exact hw.calls c hc
  · rw [List.mem_singleton.1 hc]
    obtain ⟨hlt, -⟩ := List.getElem?_eq_some_iff.1 hs
    exact ⟨hlt, hmem, Registry.sound_begin (hw.serves s (List.mem_of_getElem? hs)) hr w.handled⟩

theorem Sound.handle (hw : w.Sound registries rs) {i : Nat} (h : w.handle? i = some w') :
    w'.Sound registries rs := by
  unfold handle? at h
  split at h
  next n r q finish hcall =>
    cases h
    obtain ⟨hlt, hmem, hwaits⟩ := hw.calls _ (List.mem_of_getElem? hcall)
    obtain ⟨hholds, hanswers⟩ := hwaits w.store _ hw.holds
    refine
      { serves := hw.serves
        watches := hw.watches
        holds := ?_
        calls := ?_
        handled := ?_
        endings := fun e he => (hw.endings e he).append [r] }
    · show Webhook.Holds _ (Request.keptBy Webhook.idOfUrl (w.handled ++ [r]))
      rw [Request.keptBy_append_singleton]
      exact hholds
    · intro c hc
      rcases List.mem_or_eq_of_mem_set hc with hc | rfl
      · obtain ⟨hlt', hmem', hsound⟩ := hw.calls c hc
        exact ⟨hlt', hmem', hsound.append [r]⟩
      · refine ⟨hlt, hmem, w.handled.length, rfl, List.getElem?_concat_length, ?_⟩
        rw [List.take_left]
        exact hanswers
    · intro r' hr'
      rcases List.mem_append.1 hr' with hr' | hr'
      · exact hw.handled r' hr'
      · exact List.mem_singleton.1 hr' ▸ hmem
  next => cases h

/-- The end of a poll tells the watches that the registry had from the start. -/
theorem Sound.tells (hw : w.Sound registries rs) {n : Nat} {s : Registry} {r : Request}
    {position : Option Nat} {a : Answer} {entries : List (String × Webhook)}
    (hs : w.registries[n]? = some s) (hanswers : r.Answers Webhook.idOfUrl entries a) :
    Ending.Tells registries entries ⟨n, r, position, a, (s.conclude a).2⟩ := by
  rintro rfl
  obtain ⟨items, rfl, hitems⟩ := hanswers
  obtain ⟨round, hround, houtcome, hwebhooks, hhands⟩ := s.conclude_fetched hitems
  have hwatches : (registries.map Registry.watches)[n]? = some s.watches := by
    rw [← hw.watches, List.getElem?_map, hs]
    rfl
  rw [List.getElem?_map] at hwatches
  obtain ⟨first, hfirst, hsame⟩ := Option.map_eq_some_iff.1 hwatches
  exact ⟨first, round, hfirst, hround, houtcome, hwebhooks, hsame ▸ hhands⟩

theorem Sound.conclude (hw : w.Sound registries rs) {i : Nat} (h : w.conclude? i = some w') :
    w'.Sound registries rs := by
  unfold conclude? at h
  split at h
  next n r position a hcall =>
    obtain ⟨s, hs, rfl⟩ := Option.map_eq_some_iff.1 h
    obtain ⟨hlt, hmem, hsettled⟩ := hw.calls _ (List.mem_of_getElem? hcall)
    refine
      { serves := ?_
        watches := ?_
        holds := hw.holds
        calls := ?_
        handled := hw.handled
        endings := ?_ }
    · intro s' hs'
      rcases List.mem_or_eq_of_mem_set hs' with hs' | rfl
      · exact hw.serves s' hs'
      · rw [Registry.conclude_store]
        exact hw.serves s (List.mem_of_getElem? hs)
    · obtain ⟨hn, hat⟩ := List.getElem?_eq_some_iff.1 hs
      rw [List.map_set, Registry.conclude_watches, ← hat, ← List.getElem_map Registry.watches,
        List.set_getElem_self]
      · exact hw.watches
      · rw [List.length_map]
        exact hn
    · intro c hc
      obtain ⟨hlt', hrest⟩ := hw.calls c (List.mem_of_mem_eraseIdx hc)
      exact ⟨by rw [List.length_set]; exact hlt', hrest⟩
    · intro e he
      rcases List.mem_append.1 he with he | he
      · exact hw.endings e he
      · rw [List.mem_singleton.1 he]
        obtain ⟨k, hposition, hk, hanswers⟩ := hsettled
        exact ⟨k, hposition, hk, hanswers, hw.tells hs hanswers⟩
  next => cases h

theorem Sound.step (hw : w.Sound registries rs) {a : Action}
    (ha : ∀ n r, a = .begin n r → r ∈ rs ∧ r.Decoded) (h : w.step? a = some w') :
    w'.Sound registries rs := by
  cases a with
  | begin n r =>
    obtain ⟨hmem, hr⟩ := ha n r rfl
    exact hw.begin hmem hr h
  | handle i => exact hw.handle h
  | conclude i => exact hw.conclude h

theorem mem_begun {actions : List Action} {n : Nat} {r : Request}
    (h : Action.begin n r ∈ actions) : r ∈ begun actions :=
  List.mem_filterMap.2 ⟨_, h, rfl⟩

theorem Sound.run {actions : List Action} (hw : w.Sound registries rs)
    (hmem : ∀ r ∈ begun actions, r ∈ rs) (hdecoded : ∀ r ∈ begun actions, r.Decoded)
    (h : w.run? actions = some w') : w'.Sound registries rs := by
  refine foldlM_invariant (Sound registries rs) ?_ h hw
  intro v a ha v' hv hstep
  refine hv.step (fun n r hbegin => ?_) hstep
  have hr : r ∈ begun actions := mem_begun (hbegin ▸ ha)
  exact ⟨hmem r hr, hdecoded r hr⟩

/-! ## Requests end -/

/-- A request that was answered can end. -/
theorem Sound.exists_conclude (hw : w.Sound registries rs) {i n : Nat} {r : Request}
    {position : Option Nat} {a : Answer} (hcall : w.calls[i]? = some ⟨n, r, .answered position a⟩) :
    ∃ w' e, w.conclude? i = some w' ∧ w'.endings = w.endings ++ [e] ∧ e.registry = n ∧
      e.request = r := by
  obtain ⟨hlt, -⟩ := hw.calls _ (List.mem_of_getElem? hcall)
  have hs : w.registries[n]? = some w.registries[n] := List.getElem?_eq_getElem hlt
  unfold conclude?
  rw [hcall]
  simp only [hs, Option.map_some]
  exact ⟨_, _, rfl, rfl, rfl, rfl⟩

/-- Any request that is under way can be brought to its end by what the store and the registry do
with it. -/
theorem Sound.exists_ending (hw : w.Sound registries rs) {i : Nat} {c : Call}
    (hcall : w.calls[i]? = some c) :
    ∃ rest w' e, (∀ a ∈ rest, a = .handle i ∨ a = .conclude i) ∧ w.run? rest = some w' ∧
      w'.endings = w.endings ++ [e] ∧ e.registry = c.registry ∧ e.request = c.request := by
  obtain ⟨n, r, stage⟩ := c
  cases stage with
  | answered position a =>
    obtain ⟨w', e, hconclude, hend⟩ := hw.exists_conclude hcall
    refine ⟨[.conclude i], w', e, by simp, ?_, hend⟩
    simp [run?, step?, hconclude]
  | waiting q finish =>
    obtain ⟨v, hhandle, hv, hendings⟩ : ∃ v, w.handle? i = some v ∧
        v.calls[i]? = some ⟨n, r, .answered (some w.handled.length) (finish (w.store.handle q).1)⟩ ∧
        v.endings = w.endings := by
      unfold handle?
      rw [hcall]
      exact ⟨_, rfl, List.getElem?_set_self (List.getElem?_eq_some_iff.1 hcall).1, rfl⟩
    obtain ⟨w', e, hconclude, hend, hcaller⟩ := (hw.handle hhandle).exists_conclude hv
    refine ⟨[.handle i, .conclude i], w', e, by simp, ?_, hendings ▸ hend, hcaller⟩
    simp [run?, step?, hhandle, hconclude]

end Sharing

/-! ## Addresses for keys -/

/-- What a request is answered under another key than the address is what it is answered under the
address. -/
theorem Request.Answers.of_key {key : String → String} {rs handled : List Request}
    (hkey : TellsApart key rs) (hhandled : ∀ r ∈ handled, r ∈ rs) {r : Request} (hr : r ∈ rs)
    {a : Answer} (h : r.Answers key (keptBy key handled) a) : r.Answers id (directory handled) a := by
  obtain ⟨hkept, hkeys⟩ := keptBy_eq_rename
    fun r hr s hs => hkey r (hhandled r hr) s (hhandled s hs)
  rw [hkept] at h
  cases r with
  | add now offset owner w => exact h
  | remove owner url =>
    have hget : Assoc.get? (key url) (Assoc.rename key (directory handled)) =
        Assoc.get? url (directory handled) := by
      refine Assoc.get?_rename fun e he heq => ?_
      obtain ⟨s, hs, hu⟩ := hkeys e he
      exact hkey s (hhandled s hs) _ hr e.1 hu url rfl heq
    rw [Answers, hget] at h
    exact h
  | all =>
    rw [Answers, Assoc.map_snd_rename] at h
    exact h
  | poll =>
    rw [Answers, Assoc.map_snd_rename] at h
    exact h

namespace Sharing

/-- In every run of registries over a store that is empty at first, each request that has ended has
its place among the requests that the store handled.  It was answered from the webhooks that were
added last for their address before that and not removed since, once for each address and in the
order in which the addresses were entered; a poll handed the watches just these.  A request that is
under way can always be brought to such an end. -/
theorem run_refines_directory {registries : List Registry}
    (hserves : ∀ s ∈ registries, s.store.Serves) {actions : List Action}
    (hdecoded : ∀ r ∈ begun actions, r.Decoded)
    (hids : Request.TellsApart Webhook.idOfUrl (begun actions)) {w : Sharing}
    (h : run? { registries } actions = some w) :
    (∀ e ∈ w.endings, ∃ k entries, e.position = some k ∧ w.handled[k]? = some e.request ∧
      Request.Registers (w.handled.take k) entries ∧ e.request.Answers id entries e.answer ∧
      e.Tells registries entries) ∧
    ∀ i c, w.calls[i]? = some c →
      ∃ rest w' e, (∀ a ∈ rest, a = .handle i ∨ a = .conclude i) ∧ w.run? rest = some w' ∧
        w'.endings = w.endings ++ [e] ∧ e.registry = c.registry ∧ e.request = c.request := by
  have hw : w.Sound registries (begun actions) :=
    (sound_start hserves _).run (fun r hr => hr) hdecoded h
  refine ⟨?_, fun i c hcall => hw.exists_ending hcall⟩
  intro e he
  obtain ⟨k, hposition, hk, hanswers, htells⟩ := hw.endings e he
  have hmem : ∀ r ∈ w.handled.take k, r ∈ begun actions :=
    fun r hr => hw.handled r (List.mem_of_mem_take hr)
  have hrequest : e.request ∈ begun actions := hw.handled _ (List.mem_of_getElem? hk)
  refine ⟨k, Request.directory (w.handled.take k), hposition, hk,
    Request.registers_directory _, hanswers.of_key hids hmem hrequest, ?_⟩
  obtain ⟨hkept, -⟩ := Request.keptBy_eq_rename
    fun r hr s hs => hids r (hmem r hr) s (hmem s hs)
  rw [hkept] at htells
  unfold Ending.Tells at htells ⊢
  rw [Assoc.map_snd_rename] at htells
  exact htells

/-- Two registries on one store.  A webhook is added through one of them, and while that addition is
under way the other polls, lists and is asked to remove another address.  The poll hands the webhook
to the watch of the caller and to the one that keeps the gauge, and the listing returns it. -/
theorem run_refines_directory_two_addresses :
    ∃ (s : Registry) (hook : Webhook) (w : Sharing), s.store.Serves ∧
      s.watches = [.reading fun _ => none, .size] ∧ hook.delivery.url = "http://a" ∧
      run? { registries := [s, s] }
        [.begin 0 (.add { year := 2029, month := 12, day := 31 } 60 "x" hook), .begin 1 .poll,
          .begin 1 .all, .begin 1 (.remove "y" "http://b"), .handle 0, .handle 1, .handle 2,
          .handle 3, .conclude 1, .conclude 1, .conclude 1, .conclude 0] = some w ∧
      w.endings.map Ending.position = [some 1, some 2, some 3, some 0] ∧
      (∃ e ∈ w.endings, e.request = .poll ∧ ∃ round, e.round = some round ∧
        Watch.Hands [hook] s.watches round.update.round) ∧
      ∃ e ∈ w.endings, e.request = .all ∧ e.answer = .listed (.ok [hook]) := by
  let config : Config := { baseUrl := "http://s", bucket := "b" }
  let s : Registry :=
    { store := { config, channel := some .injected }
      poller := { interval := .standard, clock := .exact }
      pullInterval := config.pullInterval
      watches := [.reading fun _ => none, .size] }
  let hook : Webhook := { delivery := { url := "http://a" } }
  let addition : Request := .add { year := 2029, month := 12, day := 31 } 60 "x" hook
  let actions : List Action :=
    [.begin 0 addition, .begin 1 .poll, .begin 1 .all, .begin 1 (.remove "y" "http://b"),
      .handle 0, .handle 1, .handle 2, .handle 3, .conclude 1, .conclude 1, .conclude 1,
      .conclude 0]
  have hproblems : config.problems.toOption = some [] := by decide +kernel
  have hs : s.store.Serves := by
    refine ⟨?_, rfl, nofun⟩
    show config.problems = .ok []
    cases hconfig : config.problems with
    | error e =>
      rw [hconfig] at hproblems
      cases hproblems
    | ok problems =>
      rw [hconfig] at hproblems
      cases hproblems
      rfl
  have hhook : ∃ data, Webhook.decode data = .valid hook := by
    obtain ⟨text, v, htext, hread⟩ :
        ∃ text v, Value.ofText? text = some v ∧ Webhook.ofValue .written v = .valid hook :=
      ⟨"\x7b\"config\": \x7b\"url\": \"http://a\"\x7d\x7d", _, rfl, rfl⟩
    have hbytes := Value.ofBytes?_of_ofText? htext
    exact ⟨text.toUTF8, Value.decodeBytes_eq_valid.2 ⟨v, hbytes, hread⟩⟩
  have hids : Webhook.idOfUrl "http://a" ≠ Webhook.idOfUrl "http://b" := by decide +kernel
  have hrun : (run? { registries := [s, s] } actions).any (fun w =>
      w.endings.map Ending.position = [some 1, some 2, some 3, some 0] ∧
        w.handled = [addition, .poll, .all, .remove "y" "http://b"]) = true := by
    decide +kernel
  obtain ⟨w, hw, hstate⟩ := (Option.any_eq_true _ _).1 hrun
  obtain ⟨hpositions, hhandled⟩ := of_decide_eq_true hstate
  have hends : ∀ e ∈ w.endings, ∃ k entries, e.position = some k ∧
      w.handled[k]? = some e.request ∧ Request.Registers (w.handled.take k) entries ∧
      e.request.Answers id entries e.answer ∧ e.Tells [s, s] entries := by
    refine (run_refines_directory ?_ ?_ ?_ hw).1
    · simp [hs]
    · simp [actions, addition, begun, Request.Decoded, hhook]
    · simp [actions, addition, begun, Request.TellsApart, Request.address?, hids, hids.symm, hook]
  have hat : ∀ k, some k ∈ w.endings.map Ending.position → ∃ e ∈ w.endings,
      w.handled[k]? = some e.request ∧
        e.request.Answers id (Request.directory (w.handled.take k)) e.answer ∧
        e.Tells [s, s] (Request.directory (w.handled.take k)) := by
    intro k hk
    obtain ⟨e, he, hposition⟩ := List.mem_map.1 hk
    obtain ⟨k', entries, hposition', hrequest, hregisters, hanswers, htells⟩ := hends e he
    have hsame : k' = k := Option.some.inj (hposition'.symm.trans hposition)
    rw [hregisters.eq_directory, hsame] at hanswers htells
    exact ⟨e, he, hsame ▸ hrequest, hanswers, htells⟩
  rw [hpositions, hhandled] at hat
  refine ⟨s, hook, w, hs, rfl, rfl, hw, hpositions, ?_, ?_⟩
  · obtain ⟨e, he, hrequest, -, htells⟩ := hat 1 (by simp)
    have hpoll : e.request = .poll := (Option.some.inj hrequest).symm
    obtain ⟨first, round, hfirst, hround, -, -, hhands⟩ := htells hpoll
    have hsame : first.watches = s.watches := by
      rcases List.mem_cons.1 (List.mem_of_getElem? hfirst) with rfl | hmem
      · rfl
      · rw [List.mem_singleton.1 hmem]
    exact ⟨e, he, hpoll, round, hround, hsame ▸ hhands⟩
  · obtain ⟨e, he, hrequest, hanswers, -⟩ := hat 2 (by simp)
    have hall : e.request = .all := (Option.some.inj hrequest).symm
    rw [hall] at hanswers
    exact ⟨e, he, hall, hanswers⟩

end Sharing

end HookRegistry
