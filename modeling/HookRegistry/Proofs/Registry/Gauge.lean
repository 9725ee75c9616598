import HookRegistry.Proofs.Registry.Polls

/-!
# What the gauge shows

The watch that keeps the gauge is the last one, so a poll sets the gauge when no watch of the caller
fails before it, and to the length of what these have left of the list: `gauge_finishPoll`.  Over a
run the gauge shows the length of the last list that came so far, which is the length of the last
list that was polled unless that one is `Stale`: `gauge_iff_not_stale`.  A watch that fails on the
first list leaves the gauge at zero, `gauge_behind_failing_watch`, and so does one that empties it.
-/

namespace HookRegistry

namespace EndedPoll

/-- The webhooks of a poll that fetched items, when each of these holds one. -/
def webhooks? (e : EndedPoll) : Option (List Webhook) :=
  match e.fetched with
  | .error _ => none
  | .ok items => (Webhook.ofItems items).toOption

/-- The list that the poll left to the watch that keeps the gauge, when it came so far. -/
def measured? (e : EndedPoll) : Option (List Webhook) :=
  e.webhooks?.bind fun ws => Watch.measured? ws e.registry.watches

theorem webhooks?_eq_some_iff {e : EndedPoll} (hconfig : e.registry.store.config.problems = .ok [])
    {ws : List Webhook} :
    e.webhooks? = some ws ↔
      ∃ items, e.Fetches items ∧ items.map Webhook.ofItem = ws.map .ok := by
  unfold webhooks?
  constructor
  · intro h
    cases hfetched : e.fetched with
    | error f =>
      rw [hfetched] at h
      cases h
    | ok items =>
      rw [hfetched] at h
      rcases Registry.ofItems_cases items with ⟨vs, hvs, hmap⟩ | ⟨_, _, problems, _, herror⟩
      · simp only [hvs, Except.toOption, Option.some.injEq] at h
        subst h
        exact ⟨items, (fetched_eq_ok_iff hconfig).1 hfetched, hmap⟩
      · simp [herror, Except.toOption] at h
  · rintro ⟨items, hitems, hmap⟩
    rw [(fetched_eq_ok_iff hconfig).2 hitems]
    rcases Registry.ofItems_cases items with ⟨vs, hvs, hmap'⟩ | ⟨item, hmem, problems, hitem, _⟩
    · have hsame : vs.map (Except.ok (ε := Failure)) = ws.map .ok := hmap'.symm.trans hmap
      rw [(List.map_inj_right fun _ _ h => Except.ok.inj h).1 hsame] at hvs
      simp only [hvs, Except.toOption]
    · refine absurd hmap (Registry.not_all_hold hmem fun w hw => ?_)
      rw [hw] at hitem
      cases hitem

/-- A poll sets the gauge to the length of the list that it left to it, and leaves the gauge alone
when it does not come so far. -/
theorem gauge_finishPoll (e : EndedPoll) :
    (e.registry.finishPoll e.fetched).1.gauge =
      (e.measured?.map List.length).getD e.registry.gauge := by
  unfold measured? webhooks?
  cases e.fetched with
  | error f => rfl
  | ok items =>
    cases hws : Webhook.ofItems items with
    | error f =>
      simp only [Registry.finishPoll, Watch.update, hws, Except.toOption]
      rfl
    | ok ws =>
      simp only [Registry.finishPoll, Watch.update, hws, Except.toOption, Option.bind_some,
        Watch.gauge_fanOut]

theorem measured?_eq_some_iff {e : EndedPoll} {list : List Webhook} :
    e.measured? = some list ↔
      ∃ ws, e.webhooks? = some ws ∧ Watch.LeftToGauge ws e.registry.watches list := by
  simp only [measured?, Option.bind_eq_some_iff, Watch.measured?_eq_some_iff_leftToGauge]

/-- A poll without a complete list leaves nothing to the gauge. -/
theorem measured?_of_none {e : EndedPoll} (he : e.webhooks? = none) : e.measured? = none := by
  rw [measured?, he, Option.bind_none]

end EndedPoll

namespace Polling

/-- The length of the last list that some polls had, zero before the first. -/
def lastLength (list? : EndedPoll → Option (List Webhook)) (polls : List EndedPoll) : Nat :=
  ((polls.filterMap list?).getLast?.map List.length).getD 0

/-- The length of the last complete list of webhooks in some polls. -/
def latestSize (polls : List EndedPoll) : Nat :=
  lastLength EndedPoll.webhooks? polls

/-- What polls leave in the gauge. -/
def measuredSize (polls : List EndedPoll) : Nat :=
  lastLength EndedPoll.measured? polls

theorem lastLength_snoc (list? : EndedPoll → Option (List Webhook)) (polls : List EndedPoll)
    (e : EndedPoll) :
    lastLength list? (polls ++ [e]) =
      ((list? e).map List.length).getD (lastLength list? polls) := by
  unfold lastLength
  rw [List.filterMap_append]
  cases h : list? e with
  | none => simp [h]
  | some ws => simp [h]

/-- The last poll with a complete list did not leave just its length in the gauge: the gauge was set
to something else, or was not set and had shown something else before. -/
def Stale (polls : List EndedPoll) : Prop :=
  ∃ before e after ws, polls = before ++ e :: after ∧ e.webhooks? = some ws ∧
    (∀ x ∈ after, x.webhooks? = none) ∧
    (e.measured?.map List.length).getD (measuredSize before) ≠ ws.length

/-- A poll without a complete list makes no difference. -/
theorem stale_snoc_of_none {polls : List EndedPoll} {e : EndedPoll} (he : e.webhooks? = none) :
    Stale (polls ++ [e]) ↔ Stale polls := by
  constructor
  · rintro ⟨before, x, after, ws, hsplit, hws, hafter, hsize⟩
    rcases after.eq_nil_or_concat' with rfl | ⟨after, last, rfl⟩
    · obtain ⟨-, hlast⟩ := List.append_inj' hsplit rfl
      cases hlast
      rw [he] at hws
      cases hws
    · rw [← List.cons_append, ← List.append_assoc] at hsplit
      obtain ⟨hinit, -⟩ := List.append_inj' hsplit rfl
      exact ⟨before, x, after, ws, hinit, hws, fun y hy => hafter y (List.mem_append_left _ hy),
        hsize⟩
  · rintro ⟨before, x, after, ws, rfl, hws, hafter, hsize⟩
    refine ⟨before, x, after ++ [e], ws, by simp, hws, ?_, hsize⟩
    intro y hy
    rcases List.mem_append.1 hy with hold | hnew
    · exact hafter y hold
    · rw [List.mem_singleton.1 hnew]
      exact he

/-- A poll with a complete list decides alone. -/
theorem stale_snoc_of_some {polls : List EndedPoll} {e : EndedPoll} {ws : List Webhook}
    (he : e.webhooks? = some ws) :
    Stale (polls ++ [e]) ↔
      (e.measured?.map List.length).getD (measuredSize polls) ≠ ws.length := by
  constructor
  · rintro ⟨before, x, after, vs, hsplit, hvs, hafter, hsize⟩
    rcases after.eq_nil_or_concat' with rfl | ⟨after, last, rfl⟩
    · obtain ⟨hinit, hlast⟩ := List.append_inj' hsplit rfl
      cases hinit
      cases hlast
      rw [he] at hvs
      cases hvs
      exact hsize
    · rw [← List.cons_append, ← List.append_assoc] at hsplit
      obtain ⟨-, hlast⟩ := List.append_inj' hsplit rfl
      cases hlast
      rw [hafter e (List.mem_append_right _ (List.mem_singleton_self e))] at he
      cases he
  · intro hsize
    exact ⟨polls, e, [], ws, rfl, he, fun x hx => absurd hx List.not_mem_nil, hsize⟩

/-- What polls leave in the gauge is the length of the last list unless that is stale. -/
theorem measuredSize_eq_iff (polls : List EndedPoll) :
    measuredSize polls = latestSize polls ↔ ¬ Stale polls := by
  induction polls using List.reverseRecOn with
  | nil =>
    refine ⟨fun _ => ?_, fun _ => rfl⟩
    rintro ⟨before, e, after, ws, hsplit, -⟩
    cases before <;> cases hsplit
  | append_singleton polls e ih =>
    rw [measuredSize, lastLength_snoc, latestSize, lastLength_snoc]
    cases he : e.webhooks? with
    | none =>
      rw [stale_snoc_of_none he, EndedPoll.measured?_of_none he]
      exact ih
    | some ws =>
      rw [stale_snoc_of_some he, ne_eq, Classical.not_not]
      rfl

variable {config : Config} {watches : List Watch} {names : MetricNames} {s s' : Polling}

/-- A step leaves in the gauge what the polls do. -/
theorem gauge_step {a : Action} (h : s.step? a = some s')
    (hs : s.lifecycle.registry.gauge = measuredSize s.polls) :
    s'.lifecycle.registry.gauge = measuredSize s'.polls := by
  cases step_cases h with
  | other hends hstep => exact (Lifecycle.step_watches hstep).2.trans hs
  | @pollEnds n m poller hpoller =>
    show ((s.pollOf n m).registry.finishPoll (s.pollOf n m).fetched).1.gauge =
      measuredSize (s.polls ++ [s.pollOf n m])
    have hgauge : (s.pollOf n m).registry.gauge = measuredSize s.polls := hs
    rw [EndedPoll.gauge_finishPoll, hgauge]
    exact (lastLength_snoc EndedPoll.measured? s.polls (s.pollOf n m)).symm

/-- A list that no watch changes or fails on is left to the gauge, which the last watch keeps. -/
theorem measured?_of_quiet {e : EndedPoll}
    {reacts : Nat → List Webhook → List Webhook × Option Failure}
    (hwatches : e.registry.watches =
      (watches ++ [Watch.size]).mapIdx fun i w => w.taking (reacts i))
    {ws : List Webhook} (hws : e.webhooks? = some ws)
    (hquiet : ∀ w ∈ e.registry.watches, w.react ws = (ws, none)) : e.measured? = some ws := by
  rw [List.mapIdx_append] at hwatches
  generalize watches.mapIdx (fun i w => w.taking (reacts i)) = before at hwatches
  replace hwatches : e.registry.watches = before ++ [Watch.size] := hwatches
  have hbefore : ∀ w ∈ before, w.react ws = (ws, none) := fun w hw => by
    refine hquiet w ?_
    rw [hwatches]
    exact List.mem_append_left _ hw
  have hsame : Watch.leftBy ws before = ws :=
    Watch.leftBy_of_unchanged fun w hw => by rw [hbefore w hw]
  rw [EndedPoll.measured?, hws, Option.bind_some, hwatches]
  exact Watch.measured?_eq_some_iff.2 ⟨before, [], rfl, Watch.pass_of_quiet hbefore, hsame, rfl⟩

/-- After every run, with any watches and any replies, the gauge shows the length of the last list
of which every item held a webhook and that came to the gauge before a watch failed, as the watches
before had left it, and zero before the first.  That is the length of the last list of which every
item held a webhook exactly when this one is not stale; so it is whenever no watch changes such a
list or fails on it. -/
theorem gauge_iff_not_stale {session : Option Nat} {decorate : Option Decorator} {r : Registry}
    (hcreate : Registry.create config watches session decorate names = .ok r) (sessions : Sessions)
    {actions : List Action} (hrun : (fresh r sessions).run? actions = some s) :
    s.lifecycle.registry.gauge = measuredSize s.polls ∧
      (s.lifecycle.registry.gauge = latestSize s.polls ↔ ¬ Stale s.polls) ∧
      (∀ e ∈ s.polls, ∀ ws, e.webhooks? = some ws ↔
        ∃ items, e.Fetches items ∧ items.map Webhook.ofItem = ws.map .ok) ∧
      (∀ e ∈ s.polls, ∀ list, e.measured? = some list ↔
        ∃ ws, e.webhooks? = some ws ∧ Watch.LeftToGauge ws e.registry.watches list) ∧
      ((∀ e ∈ s.polls, ∀ ws, e.webhooks? = some ws →
          ∀ w ∈ e.registry.watches, w.react ws = (ws, none)) →
        s.lifecycle.registry.gauge = latestSize s.polls) := by
  have hs := (sound_fresh hcreate sessions).run hrun
  have hproblems : config.problems = .ok [] :=
    StoreClient.problems_create (Registry.create_eq_ok hcreate).2
  have hgauge : s.lifecycle.registry.gauge = measuredSize s.polls :=
    foldlM_invariant (fun s : Polling => s.lifecycle.registry.gauge = measuredSize s.polls)
      (fun _ _ _ _ hs hnext => gauge_step hnext hs) hrun (Registry.watches_create hcreate).2
  have hiff : s.lifecycle.registry.gauge = latestSize s.polls ↔ ¬ Stale s.polls := by
    rw [hgauge]
    exact measuredSize_eq_iff s.polls
  refine ⟨hgauge, hiff, ?_, fun _ _ _ => EndedPoll.measured?_eq_some_iff, ?_⟩
  · intro e he ws
    obtain ⟨hconfig, -⟩ := hs.polls e he
    exact EndedPoll.webhooks?_eq_some_iff (hconfig ▸ hproblems)
  · intro hquiet
    refine hiff.2 ?_
    rintro ⟨before, e, after, ws, hsplit, hws, -, hsize⟩
    have he : e ∈ s.polls := hsplit ▸ List.mem_append_right _ List.mem_cons_self
    obtain ⟨-, reacts, hwatches⟩ := hs.polls e he
    rw [measured?_of_quiet hwatches hws (hquiet e he ws hws)] at hsize
    exact hsize rfl

/-- A watch that fails on the first list, which holds one webhook, leaves the gauge at zero. -/
theorem gauge_behind_failing_watch :
    ∃ s, (fresh (watched {}) []).run? (firstPoll (·, some .emptyToken)) = some s ∧
      s.lifecycle.registry.gauge = 0 ∧ latestSize s.polls = 1 := by
  have hrun : ((fresh (watched {}) []).run? (firstPoll (·, some .emptyToken))).map (fun s =>
      (s.lifecycle.registry.gauge, latestSize s.polls)) = some (0, 1) := by
    decide +kernel
  obtain ⟨s, hs, hstate⟩ := Option.map_eq_some_iff.1 hrun
  obtain ⟨hgauge, hlatest⟩ := Prod.mk.inj hstate
  exact ⟨s, hs, hgauge, hlatest⟩

/-- After a first list that nobody changes or fails on, it shows its length; a second one that is
emptied before it comes so far is stale. -/
theorem gauge_iff_not_stale_emptied :
    (∃ s, (fresh (watched {}) []).run? (firstPoll (·, none)) = some s ∧ latestSize s.polls = 1 ∧
      s.lifecycle.registry.gauge = 1 ∧ ¬ Stale s.polls) ∧
    ∃ s, (fresh (watched {}) []).run? (firstPoll fun _ => ([], none)) = some s ∧
      latestSize s.polls = 1 ∧ s.lifecycle.registry.gauge = 0 ∧ Stale s.polls := by
  have hrun (react : List Webhook → List Webhook × Option Failure) (size gauge : Nat)
      (h : ((fresh (watched {}) []).run? (firstPoll react)).map (fun s =>
        (latestSize s.polls, s.lifecycle.registry.gauge)) = some (size, gauge)) :
      ∃ s, (fresh (watched {}) []).run? (firstPoll react) = some s ∧ latestSize s.polls = size ∧
        s.lifecycle.registry.gauge = gauge ∧ (gauge = size ↔ ¬ Stale s.polls) := by
    obtain ⟨s, hs, hstate⟩ := Option.map_eq_some_iff.1 h
    obtain ⟨hlatest, hgauge⟩ := Prod.mk.inj hstate
    obtain ⟨-, hiff, -⟩ := gauge_iff_not_stale (create_watched {}) [] hs
    rw [hlatest, hgauge] at hiff
    exact ⟨s, hs, hlatest, hgauge, hiff⟩
  obtain ⟨s, hs, hlatest, hgauge, hiff⟩ := hrun (·, none) 1 1 (by decide +kernel)
  obtain ⟨s', hs', hlatest', hgauge', hiff'⟩ := hrun (fun _ => ([], none)) 1 0 (by decide +kernel)
  refine ⟨⟨s, hs, hlatest, hgauge, hiff.1 rfl⟩, s', hs', hlatest', hgauge', ?_⟩
  refine Classical.byContradiction fun hfresh => ?_
  cases hiff'.2 hfresh

end Polling

end HookRegistry
