import HookRegistry.Webhook.Watch

/-!
# A round of calls

A round tells the watches one list, each of them once and in order, up to and including the first
that fails.  The list is shared, so a watch is told what those before it have left of it: `leftBy`.
`Told` says all this apart from the calls themselves.  A watch that is called before any other has
changed the list is told the complete one, `Told.complete`; `Hands` is both, and `hands_fanOut`
proves it.

A watch that keeps the gauge sets it to the length of the list that it is told, and the last one
that the round comes to decides: `measured?`, `gauge_fanOut`.  `LeftToGauge` says which list that is
apart from the walk over the watches.
-/

namespace HookRegistry.Watch

/-- How a watch leaves a list that it is told, and its failure.  The watch that keeps the gauge does
nothing to the list. -/
def react (webhooks : List Webhook) : Watch → List Webhook × Option Failure
  | .observer react => react webhooks
  | .size => (webhooks, none)

/-- What watches leave of a list that they are told one after the other. -/
def leftBy (webhooks : List Webhook) (watches : List Watch) : List Webhook :=
  watches.foldl (fun webhooks w => (w.react webhooks).1) webhooks

@[simp]
theorem leftBy_nil (webhooks : List Webhook) : leftBy webhooks [] = webhooks :=
  rfl

@[simp]
theorem leftBy_cons (webhooks : List Webhook) (w : Watch) (watches : List Watch) :
    leftBy webhooks (w :: watches) = leftBy (w.react webhooks).1 watches :=
  rfl

/-- Watches that do not change a list leave it as it is. -/
theorem leftBy_of_unchanged {webhooks : List Webhook} {watches : List Watch}
    (h : ∀ w ∈ watches, (w.react webhooks).1 = webhooks) : leftBy webhooks watches = webhooks := by
  induction watches with
  | nil => rfl
  | cons w watches ih =>
    obtain ⟨hw, hrest⟩ := List.forall_mem_cons.1 h
    rw [leftBy_cons, hw]
    exact ih hrest

/-- No watch fails on what those before it have left of a list. -/
def Pass (webhooks : List Webhook) (watches : List Watch) : Prop :=
  ∀ before w after, watches = before ++ w :: after → (w.react (leftBy webhooks before)).2 = none

theorem pass_nil (webhooks : List Webhook) : Pass webhooks [] := by
  intro before w after h
  cases before <;> cases h

theorem pass_cons {webhooks : List Webhook} {w : Watch} {watches : List Watch} :
    Pass webhooks (w :: watches) ↔
      (w.react webhooks).2 = none ∧ Pass (w.react webhooks).1 watches := by
  constructor
  · intro h
    refine ⟨h [] w watches rfl, fun before v after hsplit => ?_⟩
    exact h (w :: before) v after (congrArg (w :: ·) hsplit)
  · rintro ⟨hw, hrest⟩ before v after hsplit
    cases before with
    | nil =>
      cases hsplit
      exact hw
    | cons first before =>
      cases hsplit
      exact hrest before v after rfl

/-- Watches pass that neither change a list nor fail on it. -/
theorem pass_of_quiet {webhooks : List Webhook} {watches : List Watch}
    (h : ∀ w ∈ watches, w.react webhooks = (webhooks, none)) : Pass webhooks watches := by
  rintro before w after rfl
  have hbefore : ∀ v ∈ before, (v.react webhooks).1 = webhooks := fun v hv => by
    rw [h v (List.mem_append_left _ hv)]
  rw [leftBy_of_unchanged hbefore, h w (List.mem_append_right _ List.mem_cons_self)]

/-! ## The calls -/

/-- Calls of watches of which the first has the position `i`, each with what those before it have
left of a list. -/
def callsOf (i : Nat) (webhooks : List Webhook) (watches : List Watch) :
    List (Nat × List Webhook) :=
  watches.mapIdx fun k _ => (i + k, leftBy webhooks (watches.take k))

theorem callsOf_cons (i : Nat) (webhooks : List Webhook) (w : Watch) (watches : List Watch) :
    callsOf i webhooks (w :: watches) =
      (i, webhooks) :: callsOf (i + 1) (w.react webhooks).1 watches := by
  simp [callsOf, List.mapIdx_cons, Nat.add_comm, Nat.add_left_comm]

/-- The calls of a round over watches of which the first has the position `i`, when they are told a
list, and the failure that ends the round. -/
inductive Told (i : Nat) (webhooks : List Webhook) (watches : List Watch) :
    List (Nat × List Webhook) → Option Failure → Prop where
  /-- All are called when none fails. -/
  | all (hpass : Pass webhooks watches) :
      Told i webhooks watches (callsOf i webhooks watches) none
  /-- Otherwise those up to the first that fails are. -/
  | upTo {before after : List Watch} {w : Watch} {f : Failure}
      (hwatches : watches = before ++ w :: after) (hpass : Pass webhooks before)
      (hw : (w.react (leftBy webhooks before)).2 = some f) :
      Told i webhooks watches (callsOf i webhooks (before ++ [w])) (some f)

section

variable {i : Nat} {webhooks : List Webhook} {w : Watch} {watches : List Watch}
  {calls : List (Nat × List Webhook)} {failure : Option Failure}

/-- A watch that does not fail is called before the others. -/
theorem Told.cons (hw : (w.react webhooks).2 = none)
    (h : Told (i + 1) (w.react webhooks).1 watches calls failure) :
    Told i webhooks (w :: watches) ((i, webhooks) :: calls) failure := by
  cases h with
  | all hpass =>
    rw [← callsOf_cons]
    exact .all (pass_cons.2 ⟨hw, hpass⟩)
  | @upTo before after v _ hwatches hpass hfails =>
    rw [← callsOf_cons]
    exact .upTo (congrArg (w :: ·) hwatches) (pass_cons.2 ⟨hw, hpass⟩) hfails

/-- A watch that fails is the last one called. -/
theorem Told.stop {f : Failure} (hw : (w.react webhooks).2 = some f) :
    Told i webhooks (w :: watches) [(i, webhooks)] (some f) := by
  have hsplit : w :: watches = [] ++ w :: watches := rfl
  exact .upTo hsplit (pass_nil webhooks) hw

theorem told_fanOutFrom (i : Nat) (webhooks : List Webhook) (watches : List Watch) :
    Told i webhooks watches (fanOutFrom i webhooks watches).calls
      (fanOutFrom i webhooks watches).failure := by
  induction watches generalizing i webhooks with
  | nil => exact .all (pass_nil webhooks)
  | cons w rest ih =>
    cases w with
    | size => exact .cons rfl (ih (i + 1) webhooks)
    | observer react =>
      rcases hreact : react webhooks with ⟨left, failure⟩
      cases failure with
      | none =>
        simp only [fanOutFrom, hreact]
        have hleft : (Watch.react webhooks (.observer react)).1 = left := congrArg Prod.fst hreact
        exact .cons (congrArg Prod.snd hreact) (hleft ▸ ih (i + 1) left)
      | some f =>
        simp only [fanOutFrom, hreact]
        exact .stop (congrArg Prod.snd hreact)

/-- Every call is one of a watch, with what those before it have left of the list. -/
theorem Told.eq_leftBy (h : Told i webhooks watches calls failure) {k : Nat}
    {list : List Webhook} (hcall : (i + k, list) ∈ calls) :
    list = leftBy webhooks (watches.take k) := by
  cases h with
  | all =>
    obtain ⟨j, hj, hcall⟩ := List.mem_mapIdx.1 hcall
    simp only [Prod.mk.injEq, Nat.add_left_cancel_iff] at hcall
    rw [← hcall.2, hcall.1]
  | @upTo before after v _ hwatches =>
    obtain ⟨j, hj, hcall⟩ := List.mem_mapIdx.1 hcall
    simp only [Prod.mk.injEq, Nat.add_left_cancel_iff] at hcall
    rw [List.length_append, List.length_singleton] at hj
    have hle : j ≤ before.length := Nat.le_of_lt_succ hj
    rw [← hcall.2, ← hcall.1, hwatches, List.take_append_of_le_length hle,
      List.take_append_of_le_length hle]

/-- A watch is told the complete list when none before it changes that. -/
theorem Told.complete (h : Told i webhooks watches calls failure) {k : Nat}
    {list : List Webhook} (hcall : (i + k, list) ∈ calls)
    (hsame : ∀ w ∈ watches.take k, (w.react webhooks).1 = webhooks) : list = webhooks :=
  (h.eq_leftBy hcall).trans (leftBy_of_unchanged hsame)

end

/-- A round hands a list to watches: it tells each of them, in order and until one fails, what those
before it have left of the list, and that is the complete list where these have not changed it. -/
structure Hands (webhooks : List Webhook) (watches : List Watch) (r : FanOut) : Prop where
  told : Told 0 webhooks watches r.calls r.failure
  complete : ∀ k list, (k, list) ∈ r.calls →
    (∀ w ∈ watches.take k, (w.react webhooks).1 = webhooks) → list = webhooks

theorem hands_fanOut (webhooks : List Webhook) (watches : List Watch) :
    Hands webhooks watches (fanOut webhooks watches) where
  told := told_fanOutFrom 0 webhooks watches
  complete := by
    intro k list hcall
    rw [← Nat.zero_add k] at hcall
    exact fun hsame => (told_fanOutFrom 0 webhooks watches).complete hcall (by simpa using hsame)

/-! ## The gauge -/

/-- The list that is told to the last watch that keeps the gauge, among those a round comes to. -/
def measured? (webhooks : List Webhook) : List Watch → Option (List Webhook)
  | [] => none
  | .size :: rest => (measured? webhooks rest).or (some webhooks)
  | .observer react :: rest =>
    match react webhooks with
    | (_, some _) => none
    | (left, none) => measured? left rest

theorem measured?_observer_of_none {react : List Webhook → List Webhook × Option Failure}
    {webhooks : List Webhook} (h : (react webhooks).2 = none) (rest : List Watch) :
    measured? webhooks (.observer react :: rest) = measured? (react webhooks).1 rest := by
  rw [measured?]
  split
  next hreact => rw [hreact] at h; cases h
  next hreact => rw [hreact]

theorem measured?_observer_of_some {react : List Webhook → List Webhook × Option Failure}
    {webhooks : List Webhook} {f : Failure} (h : (react webhooks).2 = some f) (rest : List Watch) :
    measured? webhooks (.observer react :: rest) = none := by
  rw [measured?]
  split
  next => rfl
  next hreact => rw [hreact] at h; cases h

/-- A watch that keeps the gauge is the first of some watches, or one of the others. -/
theorem exists_split_cons {w : Watch} {rest : List Watch} {P : List Watch → List Watch → Prop} :
    (∃ before after, w :: rest = before ++ .size :: after ∧ P before after) ↔
      (w = .size ∧ P [] rest) ∨
        ∃ before after, rest = before ++ .size :: after ∧ P (w :: before) after := by
  constructor
  · rintro ⟨before, after, hsplit, hP⟩
    cases before with
    | nil =>
      cases hsplit
      exact .inl ⟨rfl, hP⟩
    | cons first before =>
      cases hsplit
      exact .inr ⟨before, after, rfl, hP⟩
  · rintro (⟨rfl, hP⟩ | ⟨before, after, rfl, hP⟩)
    · exact ⟨[], rest, rfl, hP⟩
    · exact ⟨w :: before, after, rfl, hP⟩

/-- Nothing is measured when a watch fails before each of those that keep the gauge. -/
theorem measured?_eq_none_iff {webhooks : List Webhook} {watches : List Watch} :
    measured? webhooks watches = none ↔
      ¬ ∃ before after, watches = before ++ .size :: after ∧ Pass webhooks before := by
  induction watches generalizing webhooks with
  | nil => simp [measured?]
  | cons w rest ih =>
    rw [exists_split_cons]
    cases w with
    | size => simp [measured?, pass_nil]
    | observer r =>
      cases hfails : (r webhooks).2 with
      | none =>
        rw [measured?_observer_of_none hfails, ih]
        simp [pass_cons, react, hfails]
      | some f =>
        rw [measured?_observer_of_some hfails]
        simp [pass_cons, react, hfails]

/-- What is measured is what was left to the last watch that keeps the gauge, of those that the
round comes to. -/
theorem measured?_eq_some_iff {webhooks list : List Webhook} {watches : List Watch} :
    measured? webhooks watches = some list ↔
      ∃ before after, watches = before ++ .size :: after ∧ Pass webhooks before ∧
        leftBy webhooks before = list ∧ measured? list after = none := by
  induction watches generalizing webhooks with
  | nil => simp [measured?]
  | cons w rest ih =>
    rw [exists_split_cons]
    cases w with
    | size =>
      have hrest : (∃ before after, rest = before ++ .size :: after ∧
          Pass webhooks (.size :: before) ∧ leftBy webhooks (.size :: before) = list ∧
            measured? list after = none) ↔ measured? webhooks rest = some list := by
        rw [ih]
        simp [pass_cons, react]
      rw [hrest, measured?]
      cases hlater : measured? webhooks rest with
      | none =>
        simp only [pass_nil, leftBy_nil, Option.none_or, Option.some.injEq, true_and, reduceCtorEq,
          or_false]
        exact ⟨fun h => ⟨h, h ▸ hlater⟩, And.left⟩
      | some later =>
        simp only [pass_nil, leftBy_nil, Option.some_or, Option.some.injEq, true_and]
        refine ⟨.inr, fun h => h.resolve_left ?_⟩
        rintro ⟨rfl, hnone⟩
        cases hnone.symm.trans hlater
    | observer r =>
      cases hfails : (r webhooks).2 with
      | none =>
        rw [measured?_observer_of_none hfails, ih]
        simp [pass_cons, react, hfails]
      | some f =>
        rw [measured?_observer_of_some hfails]
        simp [pass_cons, react, hfails]

/-- A round that tells a list leaves another one to the last watch that keeps the gauge: no watch
fails before this one, and one does before each later one that keeps the gauge. -/
def LeftToGauge (webhooks : List Webhook) (watches : List Watch) (list : List Webhook) : Prop :=
  ∃ before after, watches = before ++ .size :: after ∧ Pass webhooks before ∧
    leftBy webhooks before = list ∧
      ¬ ∃ between rest, after = between ++ .size :: rest ∧ Pass list between

theorem measured?_eq_some_iff_leftToGauge {webhooks list : List Webhook} {watches : List Watch} :
    measured? webhooks watches = some list ↔ LeftToGauge webhooks watches list := by
  unfold LeftToGauge
  simp only [measured?_eq_some_iff, measured?_eq_none_iff]

theorem gauge_fanOutFrom (i : Nat) (webhooks : List Webhook) (watches : List Watch) :
    (fanOutFrom i webhooks watches).gauge = (measured? webhooks watches).map List.length := by
  induction watches generalizing i webhooks with
  | nil => rfl
  | cons w rest ih =>
    cases w with
    | size =>
      simp only [fanOutFrom, measured?, ih]
      cases measured? webhooks rest <;> rfl
    | observer react =>
      rcases hreact : react webhooks with ⟨left, failure⟩
      cases failure with
      | none => simp only [fanOutFrom, measured?, hreact, ih]
      | some f => simp only [fanOutFrom, measured?, hreact, Option.map_none]

/-- A round leaves in the gauge the length of the list that was measured last. -/
theorem gauge_fanOut (webhooks : List Webhook) (watches : List Watch) :
    (fanOut webhooks watches).gauge = (measured? webhooks watches).map List.length :=
  gauge_fanOutFrom 0 webhooks watches

end HookRegistry.Watch
