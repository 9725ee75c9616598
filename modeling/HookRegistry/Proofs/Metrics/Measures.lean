import HookRegistry.Metrics.Measures
import HookRegistry.Proofs.Assoc

/-!
# What the counter of polls counts

`Counts r names counts` says where the counter of polls stands in a registry, and that no other
metric answers to its name.  It holds once the measures were created, recording an outcome counts one
more under its label, and looking an outcome up reads what stands there: `counts_create`,
`Counts.recordPoll`, `Counts.pollCount_eq`.  A count is a double, so it stands still at
`greatestCount`: `oneMore_min`.
-/

namespace HookRegistry

namespace Metric

/-- The name under which a counter is exposed. -/
def exposed (names : MetricNames) : String :=
  familyName names.pollsTotal ++ totalSuffix

/-- A metric that answers neither to the family of the counter nor to the name of its values. -/
def Apart (names : MetricNames) (m : Metric) : Prop :=
  m.name ≠ familyName names.pollsTotal ∧ ∀ s ∈ m.samples, s.name ≠ exposed names

/-- A metric claims its own name. -/
theorem name_mem_claims (m : Metric) : m.name ∈ m.claims := by
  cases m <;> simp [name, claims]

/-- A metric claims the names of its values. -/
theorem sample_name_mem_claims {m : Metric} {s : Sample} (h : s ∈ m.samples) :
    s.name ∈ m.claims := by
  cases m with
  | counter family help label counts =>
    obtain ⟨c, -, rfl⟩ := List.mem_map.1 h
    simp [claims]
  | gauge name help value =>
    rw [List.mem_singleton.1 h]
    simp [claims]

/-- A metric that claims no name of the counter is apart from it. -/
theorem apart_of_claims {names : MetricNames} {m : Metric}
    (hfamily : familyName names.pollsTotal ∉ m.claims) (hexposed : exposed names ∉ m.claims) :
    m.Apart names := by
  refine ⟨fun hname => hfamily (hname ▸ m.name_mem_claims), fun s hs hname => ?_⟩
  exact hexposed (hname ▸ sample_name_mem_claims hs)

/-- The family name is the given name without the suffix, when that is there. -/
theorem exposed_eq_sampleName (names : MetricNames) :
    exposed names = Measures.sampleName names := by
  unfold exposed Measures.sampleName familyName
  by_cases hsuffix : totalSuffix.toList.isSuffixOf names.pollsTotal.toList = true
  · simp only [hsuffix, if_true]
    obtain ⟨front, hfront⟩ := List.isSuffixOf_iff_suffix.1 hsuffix
    apply String.toList_injective
    rw [String.toList_append, String.toList_ofList, ← hfront]
    simp
  · simp only [hsuffix]
    rfl

end Metric

namespace Measures

open HookRegistry.Metric (Apart familyName exposed)

/-- The registry holds the counter of polls with these counts, and no other metric answers to its
names. -/
def Counts (r : MetricRegistry) (names : MetricNames) (counts : List (String × Nat)) : Prop :=
  ∃ before help after,
    r = before ++ .counter (familyName names.pollsTotal) help names.outcomeLabel counts :: after ∧
      (∀ m ∈ before, m.Apart names) ∧ ∀ m ∈ after, m.Apart names

/-! ## Creating the measures -/

/-- A metric is added when none of its names is taken. -/
theorem add_eq_ok_iff {r q : MetricRegistry} {m : Metric} :
    r.add m = .ok q ↔ (∀ name ∈ m.claims, name ∉ r.claims) ∧ q = r ++ [m] := by
  unfold MetricRegistry.add
  split
  next htaken =>
    obtain ⟨name, hname, hcontains⟩ := List.any_eq_true.1 htaken
    refine ⟨fun h => (by cases h), fun h => ?_⟩
    exact absurd (List.contains_iff_mem.1 hcontains) (h.1 name hname)
  next hfree =>
    rw [Except.ok.injEq, eq_comm]
    refine ⟨fun h => ⟨fun name hname hmem => ?_, h⟩, fun h => h.2⟩
    exact hfree (List.any_eq_true.2 ⟨name, hname, List.contains_iff_mem.2 hmem⟩)

/-- A metric that could be added has claimed no name of another. -/
theorem add_eq_ok {r q : MetricRegistry} {m : Metric} (h : r.add m = .ok q) :
    q = r ++ [m] ∧ ∀ other ∈ r, ∀ name ∈ m.claims, name ∉ other.claims := by
  obtain ⟨hfree, hq⟩ := add_eq_ok_iff.1 h
  exact ⟨hq, fun other hother name hname hclaimed =>
    hfree name hname (List.mem_flatMap.2 ⟨other, hother, hclaimed⟩)⟩

theorem newCounter_eq_ok {name help label : String} {m : Metric}
    (h : Metric.newCounter name help label = .ok m) : m = .counter (familyName name) help label [] := by
  unfold Metric.newCounter at h
  split at h
  · cases h
  split at h
  · cases h
  split at h
  · cases h
  exact (Except.ok.inj h).symm

/-- A metric that was built and added. -/
theorem bind_add_eq_ok {r q : MetricRegistry} {built : Except MetricError Metric}
    (h : built.bind r.add = .ok q) : ∃ m, built = .ok m ∧ r.add m = .ok q := by
  cases built with
  | error e => cases h
  | ok m => exact ⟨m, rfl, h⟩

/-- Once the measures were created, the counter is there and has counted nothing. -/
theorem counts_create {r q : MetricRegistry} {names : MetricNames}
    (h : create r names = (q, .ok ())) : Counts q names [] := by
  unfold create at h
  split at h
  · cases h
  next r' hcounter =>
    split at h
    · cases h
    next r'' hgauge =>
      cases h
      obtain ⟨counter, hbuilt, hadded⟩ := bind_add_eq_ok hcounter
      obtain ⟨gauge, -, hgauge⟩ := bind_add_eq_ok hgauge
      cases newCounter_eq_ok hbuilt
      obtain ⟨rfl, hfree⟩ := add_eq_ok hadded
      obtain ⟨rfl, hapart⟩ := add_eq_ok hgauge
      have hclaims : familyName names.pollsTotal ∈ (Metric.counter (familyName names.pollsTotal)
          names.pollsTotalHelp names.outcomeLabel []).claims ∧
          exposed names ∈ (Metric.counter (familyName names.pollsTotal)
            names.pollsTotalHelp names.outcomeLabel []).claims := by
        simp [Metric.claims, exposed]
      refine ⟨r, names.pollsTotalHelp, [gauge], by simp, ?_, ?_⟩
      · intro m hm
        exact Metric.apart_of_claims (hfree m hm _ hclaims.1) (hfree m hm _ hclaims.2)
      · intro m hm
        cases List.mem_singleton.1 hm
        have hother : ∀ name ∈ gauge.claims, name ∉ _ :=
          hapart _ (List.mem_append_right _ (List.mem_singleton_self _))
        exact Metric.apart_of_claims (fun hmem => hother _ hmem hclaims.1)
          (fun hmem => hother _ hmem hclaims.2)

/-! ## Recording and looking up -/

theorem label_injective {o o' : PollOutcome} (h : o.label = o'.label) : o = o' := by
  cases o <;> cases o' <;> first | rfl | (simp [PollOutcome.label] at h)

variable {r : MetricRegistry} {names : MetricNames} {counts : List (String × Nat)}

/-- A change of the counter leaves the metrics that are apart from it alone. -/
theorem map_apart {ms : List Metric} (h : ∀ m ∈ ms, m.Apart names) (f : Metric → Metric) :
    (ms.map fun m => if m.name = familyName names.pollsTotal then f m else m) = ms := by
  refine (List.map_congr_left fun m hm => ?_).trans (List.map_id ms)
  rw [if_neg (h m hm).1]
  rfl

/-- No outcome can be recorded under the one name that the counter calls itself by. -/
theorem not_canRecord_iff {names : MetricNames} :
    ¬ CanRecord names ↔ names.outcomeLabel = ownName :=
  Classical.not_not

/-- What is recorded changes the counter, under names with which it can be. -/
theorem recordPoll_eq_ok_iff {r q : MetricRegistry} {names : MetricNames} {o : PollOutcome} :
    recordPoll r names o = .ok q ↔ CanRecord names ∧
      q = r.modify (familyName names.pollsTotal) (increment o.label) := by
  unfold recordPoll
  by_cases h : CanRecord names
  · simp [h, eq_comm]
  · simp [h]

/-- An outcome is recorded, on every registry, exactly under names with which it can be. -/
theorem canRecord_iff (r : MetricRegistry) (names : MetricNames) (o : PollOutcome) :
    CanRecord names ↔ ∃ q, recordPoll r names o = .ok q := by
  simp only [recordPoll_eq_ok_iff, exists_and_left, exists_eq, and_true]

/-- One more adds one up to the count where the counter stands still. -/
theorem oneMore_min (n : Nat) : oneMore (min n greatestCount) = min (n + 1) greatestCount := by
  unfold oneMore
  split <;> omega

/-- Recording an outcome counts one more under its label. -/
theorem Counts.recordPoll (h : Counts r names counts) (hrecords : CanRecord names)
    (o : PollOutcome) :
    ∃ q, Measures.recordPoll r names o = .ok q ∧
      Counts q names (Assoc.put o.label (oneMore ((Assoc.get? o.label counts).getD 0)) counts) := by
  obtain ⟨before, help, after, rfl, hbefore, hafter⟩ := h
  refine ⟨_, recordPoll_eq_ok_iff.2 ⟨hrecords, rfl⟩, before, help, after, ?_, hbefore, hafter⟩
  rw [MetricRegistry.modify, List.map_append, List.map_cons, map_apart hbefore, map_apart hafter]
  simp [Metric.name, increment]

/-- No value is found among metrics that are apart from the counter. -/
theorem find?_apart {ms : List Metric} (h : ∀ m ∈ ms, m.Apart names)
    (labels : List (String × String)) :
    ((ms.flatMap Metric.samples).find? fun s =>
      s.name == sampleName names && s.labels == labels) = none := by
  rw [List.find?_eq_none]
  intro s hs
  obtain ⟨m, hm, hsample⟩ := List.mem_flatMap.1 hs
  have hname := (h m hm).2 s hsample
  rw [Metric.exposed_eq_sampleName] at hname
  simp [hname]

/-- A value of the counter is found under its label. -/
theorem find?_counter (names : MetricNames) (help : String) (counts : List (String × Nat))
    (value : String) :
    (((Metric.counter (familyName names.pollsTotal) help names.outcomeLabel counts).samples.find?
      fun s => s.name == sampleName names && s.labels == [(names.outcomeLabel, value)]).map
        Sample.value) = (Assoc.get? value counts).map fun n : Nat => Double.ofInt n := by
  have hexposed : familyName names.pollsTotal ++ Metric.totalSuffix = sampleName names :=
    Metric.exposed_eq_sampleName names
  induction counts with
  | nil => rfl
  | cons c counts ih =>
    simp only [Metric.samples] at ih ⊢
    rw [List.map_cons, List.find?_cons]
    by_cases hvalue : c.1 = value
    · simp [hexposed, hvalue, Assoc.get?]
    · have hmiss : ([(names.outcomeLabel, c.1)] == [(names.outcomeLabel, value)]) = false := by
        simpa using hvalue
      simp only [hmiss, Bool.and_false, Assoc.get?, if_neg hvalue]
      exact ih

/-- Looking an outcome up reads the count under its label. -/
theorem Counts.pollCount_eq (h : Counts r names counts) (o : PollOutcome) :
    pollCount r names o = Double.ofInt ((Assoc.get? o.label counts).getD 0 : Nat) := by
  obtain ⟨before, help, after, rfl, hbefore, hafter⟩ := h
  have hzero : Double.ofInt (0 : Nat) = Double.zero := by decide
  have hfound := find?_counter names help counts o.label
  unfold pollCount MetricRegistry.sample?
  rw [List.flatMap_append, List.flatMap_cons, List.find?_append, List.find?_append,
    find?_apart hbefore, find?_apart hafter, Option.none_or, Option.or_none, hfound]
  cases Assoc.get? o.label counts with
  | none => exact hzero.symm
  | some n => rfl

/-- Records outcomes one after the other. -/
def recordAll (r : MetricRegistry) (names : MetricNames) (outcomes : List PollOutcome) :
    Except MetricError MetricRegistry :=
  outcomes.foldlM (fun r o => recordPoll r names o) r

/-- The counts after outcomes were recorded one after the other, on counts that stand for the numbers
`told`. -/
theorem Counts.recordAll (h : Counts r names counts) (hrecords : CanRecord names)
    {told : PollOutcome → Nat}
    (htold : ∀ o : PollOutcome,
      (Assoc.get? o.label counts).getD 0 = min (told o) greatestCount)
    (outcomes : List PollOutcome) :
    ∃ q counts', Measures.recordAll r names outcomes = .ok q ∧ Counts q names counts' ∧
      ∀ o : PollOutcome, (Assoc.get? o.label counts').getD 0 =
        min (told o + outcomes.count o) greatestCount := by
  induction outcomes generalizing r counts told with
  | nil => exact ⟨r, counts, rfl, h, fun o => by simpa using htold o⟩
  | cons first outcomes ih =>
    obtain ⟨q, hq, hcounts⟩ := h.recordPoll hrecords first
    have hnext : ∀ o : PollOutcome,
        (Assoc.get? o.label (Assoc.put first.label
          (oneMore ((Assoc.get? first.label counts).getD 0)) counts)).getD 0 =
        min (told o + if first = o then 1 else 0) greatestCount := by
      intro o
      by_cases ho : first = o
      · subst ho
        rw [Assoc.get?_put_self, Option.getD_some, htold, oneMore_min, if_pos rfl]
      · have hne : o.label ≠ first.label := fun hsame => ho (label_injective hsame).symm
        rw [Assoc.get?_put_of_ne hne, htold, if_neg ho, Nat.add_zero]
    obtain ⟨q', counts', hq', hcounts', hall⟩ := ih hcounts hnext
    refine ⟨q', counts', ?_, hcounts', ?_⟩
    · unfold Measures.recordAll at hq' ⊢
      rw [List.foldlM_cons, hq]
      exact hq'
    · intro o
      rw [hall o, List.count_cons, Nat.add_assoc, Nat.add_comm (outcomes.count o)]
      simp only [beq_iff_eq]

/-- Measures that were created on a registry count the outcomes that are recorded, whatever else is
on the registry. -/
theorem pollCount_recordAll {q : MetricRegistry} (h : create r names = (q, .ok ()))
    (hrecords : CanRecord names) (outcomes : List PollOutcome) :
    ∃ q', recordAll q names outcomes = .ok q' ∧
      ∀ o, pollCount q' names o = Double.ofInt (min (outcomes.count o) greatestCount : Nat) := by
  have hnone : ∀ o : PollOutcome,
      (Assoc.get? o.label ([] : List (String × Nat))).getD 0 = min 0 greatestCount :=
    fun o => (Nat.zero_min _).symm
  obtain ⟨q', counts, hq', hcounts, hall⟩ := (counts_create h).recordAll hrecords hnone outcomes
  refine ⟨q', hq', ?_⟩
  intro o
  rw [hcounts.pollCount_eq, hall o, Nat.zero_add]

end Measures

end HookRegistry
