import HookRegistry.Proofs.Double.Accuracy
import HookRegistry.Proofs.Metrics.Refusal

/-!
# What measures on a shared registry read back

A registry may hold metrics before the measures are created, and gets more of them afterwards: other
measures, and metrics of any kind.  Of these nothing is known but that each claimed its names when
they were free, and that it shows its values under them.  `Shared` is such a registry with the
measures on it, and `Use` is what happens on it.

`Sound` is the invariant: the counter of each measures has counted the calls through these measures,
and no other metric answers to its name.  One lemma for each use carries it along a run.
`reads_back_iff` says when the counts that are read are the numbers of the calls: unless the label has
the one name under which no value can be given.
-/

namespace HookRegistry.Measures

open HookRegistry.Metric (Apart familyName exposed totalSuffix)

/-! ## Readings -/

/-- The value under the name and the label of an outcome, among the values of a reading. -/
def lookUp (samples : List Sample) (names : MetricNames) (outcome : PollOutcome) : Double :=
  ((samples.find? fun s =>
    s.name == sampleName names && s.labels == [(names.outcomeLabel, outcome.label)]).map
      Sample.value).getD Double.zero

/-- A count is looked up among the values of the metrics of a registry. -/
theorem pollCount_eq_lookUp (r : MetricRegistry) (names : MetricNames) (o : PollOutcome) :
    pollCount r names o = lookUp (r.flatMap Metric.samples) names o :=
  rfl

/-- Values under other names do not matter. -/
theorem lookUp_congr {samples samples' : List Sample} {names : MetricNames} {keep : Sample → Bool}
    (hkeep : ∀ s, s.name = sampleName names → keep s = true)
    (h : samples.filter keep = samples'.filter keep) (o : PollOutcome) :
    lookUp samples names o = lookUp samples' names o := by
  have hkept : ∀ samples : List Sample, lookUp (samples.filter keep) names o =
      lookUp samples names o := by
    intro samples
    unfold lookUp
    rw [List.find?_filter]
    congr 3
    funext s
    by_cases hname : s.name = sampleName names
    · simp only [hkeep s hname, true_and, Bool.decide_eq_true]
    · simp [hname]
  rw [← hkept samples, h, hkept samples']

/-! ## A shared registry -/

/-- What happens on a registry that measures share. -/
inductive Use where
  /-- Measures are created; where that fails there are none. -/
  | create (names : MetricNames)
  /-- A listener records an outcome through measures. -/
  | record (names : MetricNames) (listener : Nat) (outcome : PollOutcome)
  | setListSize (names : MetricNames) (value : Double)
  /-- A metric of another kind is added, with the names that it claims. -/
  | claim (names : List String)

/-- A registry and the measures on it. -/
structure Shared where
  metrics : MetricRegistry
  /-- The names of metrics of which nothing else is known.  Such a metric is there by a gauge for
  each of its names, since a registry refuses a metric for names only. -/
  foreign : List String := []
  /-- The names of the measures. -/
  created : List MetricNames := []
  /-- The outcomes that any listener has recorded through measures, the latest first. -/
  calls : List (MetricNames × PollOutcome) := []

namespace Shared

/-- A registry before there are measures; nothing is known of its metrics. -/
def start (r : MetricRegistry) : Shared where
  metrics := r
  foreign := r.claims

/-- Creates measures; where that fails it may leave a counter behind. -/
def create (s : Shared) (names : MetricNames) : Shared :=
  match Measures.create s.metrics names with
  | (r, .ok ()) => { s with metrics := r, created := names :: s.created }
  | (r, .error _) => { s with metrics := r }

/-- Records an outcome through measures that are there; what raises leaves the metrics as they
are. -/
def record (s : Shared) (names : MetricNames) (outcome : PollOutcome) : Shared :=
  if names ∈ s.created then
    { s with
      metrics := (recordPoll s.metrics names outcome).toOption.getD s.metrics
      calls := (names, outcome) :: s.calls }
  else s

/-- Sets the gauge of measures that are there. -/
def setListSize (s : Shared) (names : MetricNames) (value : Double) : Shared :=
  if names ∈ s.created then { s with metrics := Measures.setListSize s.metrics names value } else s

/-- Adds a metric of another kind, unless one of its names is taken. -/
def claim (s : Shared) (names : List String) : Shared :=
  if names.any s.metrics.claims.contains then s
  else
    { s with
      metrics := s.metrics ++ names.map fun name => .gauge name "" Double.zero
      foreign := s.foreign ++ names }

/-- What a use does. -/
def step (s : Shared) : Use → Shared
  | .create names => s.create names
  | .record names _ outcome => s.record names outcome
  | .setListSize names value => s.setListSize names value
  | .claim names => s.claim names

/-- Uses one after the other. -/
def run (s : Shared) (uses : List Use) : Shared :=
  uses.foldl step s

/-- A value that stands neither under a name of a foreign metric nor under one for the time at which
a counter was created. -/
def isPlain (s : Shared) (x : Sample) : Bool :=
  !s.foreign.contains x.name && !"_created".toList.isSuffixOf x.name.toList

/-- What a reading of the registry may show: the values of the metrics in their order, and amid them
any values that are not plain. -/
def Shows (s : Shared) (samples : List Sample) : Prop :=
  samples.filter s.isPlain = (s.metrics.flatMap Metric.samples).filter s.isPlain

/-- Where a counter stands: at zero under a label that no value can be given for, and else at the
number of the calls up to the one where a counter stands still. -/
def counted (s : Shared) (names : MetricNames) (outcome : PollOutcome) : Nat :=
  if CanRecord names then min (s.calls.count (names, outcome)) greatestCount else 0

/-- Each measures on the registry have a counter of their own that has counted their calls, whatever
else has been added. -/
structure Sound (s : Shared) : Prop where
  counts : ∀ names ∈ s.created, ∃ counts, Counts s.metrics names counts ∧
    ∀ o : PollOutcome, (Assoc.get? o.label counts).getD 0 = s.counted names o
  apart : ∀ names ∈ s.created, exposed names ∉ s.foreign
  families : ∀ names ∈ s.created, ∀ names' ∈ s.created,
    familyName names.pollsTotal = familyName names'.pollsTotal → names = names'
  calls : ∀ call ∈ s.calls, call.1 ∈ s.created
  taken : ∀ name ∈ s.foreign, name ∈ s.metrics.claims

end Shared

/-! ## What leaves a counter alone -/

variable {r q : MetricRegistry} {names other : MetricNames} {counts : List (String × Nat)}

/-- The names of the counter are taken. -/
theorem Counts.claims (h : Counts r names counts) :
    familyName names.pollsTotal ∈ r.claims ∧ exposed names ∈ r.claims := by
  obtain ⟨before, help, after, rfl, -, -⟩ := h
  simp [MetricRegistry.claims, Metric.claims, exposed]

/-- Metrics whose names were free are apart from the counter. -/
theorem Counts.append (h : Counts r names counts) {added : List Metric}
    (hfree : ∀ m ∈ added, ∀ name ∈ m.claims, name ∉ r.claims) :
    Counts (r ++ added) names counts := by
  obtain ⟨hfamily, hexposed⟩ := h.claims
  have hapart : ∀ m ∈ added, m.Apart names := fun m hm =>
    Metric.apart_of_claims (fun hname => hfree m hm _ hname hfamily)
      (fun hname => hfree m hm _ hname hexposed)
  obtain ⟨before, help, after, rfl, hbefore, hafter⟩ := h
  refine ⟨before, help, after ++ added, by simp, hbefore, fun m hm => ?_⟩
  exact (List.mem_append.1 hm).elim (hafter m) (hapart m)

/-- A change that does not touch the counter and keeps the others apart. -/
theorem Counts.map (h : Counts r names counts) {f : Metric → Metric}
    (hcounter : ∀ help, f (.counter (familyName names.pollsTotal) help names.outcomeLabel counts) =
      .counter (familyName names.pollsTotal) help names.outcomeLabel counts)
    (hapart : ∀ m : Metric, m.Apart names → (f m).Apart names) :
    Counts (r.map f) names counts := by
  obtain ⟨before, help, after, rfl, hbefore, hafter⟩ := h
  refine ⟨before.map f, help, after.map f, by simp [hcounter], fun m hm => ?_, fun m hm => ?_⟩
  · obtain ⟨m, hmem, rfl⟩ := List.mem_map.1 hm
    exact hapart m (hbefore m hmem)
  · obtain ⟨m, hmem, rfl⟩ := List.mem_map.1 hm
    exact hapart m (hafter m hmem)

/-- A counter of another family stays apart when it counts. -/
theorem apart_increment {m : Metric} (h : m.Apart names) (value : String) :
    (increment value m).Apart names := by
  cases m with
  | gauge => exact h
  | counter family help label counts =>
    refine ⟨h.1, fun s hs hname => h.1 ?_⟩
    obtain ⟨c, -, rfl⟩ := List.mem_map.1 hs
    have hchars := congrArg String.toList hname
    simp only [exposed, String.toList_append] at hchars
    exact String.toList_injective (List.append_cancel_right hchars)

/-- Measures with a counter of another family leave the counter alone when they record. -/
theorem Counts.recordPoll_other (h : Counts r names counts)
    (hfamily : familyName other.pollsTotal ≠ familyName names.pollsTotal) {o : PollOutcome}
    (hrecord : Measures.recordPoll r other o = .ok q) : Counts q names counts := by
  obtain ⟨-, rfl⟩ := recordPoll_eq_ok_iff.1 hrecord
  refine h.map (fun help => if_neg (Ne.symm hfamily)) fun m hm => ?_
  split
  · exact apart_increment hm _
  · exact hm

/-- So does setting a gauge. -/
theorem Counts.setListSize (h : Counts r names counts) (other : MetricNames) (value : Double) :
    Counts (Measures.setListSize r other value) names counts := by
  refine h.map (fun help => by simp) fun m hm => ?_
  split
  · cases m with
    | counter => exact hm
    | gauge name help old =>
      refine ⟨hm.1, fun s hs => ?_⟩
      rw [List.mem_singleton.1 hs]
      exact hm.2 { name, labels := [], value := old } (List.mem_singleton_self _)
  · exact hm

/-- The names of a counter that is not refused are free. -/
theorem free_of_not_refused {taken : List String} (h : ¬ CounterRefused taken names) :
    ∀ name ∈ (pollCounter names).claims, name ∉ taken :=
  fun name hname htaken => h (.inr (.inr (.inr ⟨name, hname, htaken⟩)))

theorem claims_append (r added : MetricRegistry) :
    MetricRegistry.claims (r ++ added) = r.claims ++ added.claims :=
  List.flatMap_append

/-- A creation adds metrics with names that are free, whether it fails or not. -/
theorem create_appends (r : MetricRegistry) (names : MetricNames) :
    ∃ added, (create r names).1 = r ++ added ∧
      ∀ m ∈ added, ∀ name ∈ m.claims, name ∉ r.claims := by
  rcases create_cases r names with ⟨-, e, h⟩ | ⟨haccepted, -, e, h⟩ | ⟨haccepted, hgauge, h⟩
  · exact ⟨[], by simp [h], by simp⟩
  · refine ⟨[pollCounter names], by rw [h], fun m hm => ?_⟩
    rw [List.mem_singleton.1 hm]
    exact free_of_not_refused haccepted
  · have hfree : ∀ name ∈ (sizeGauge names).claims, name ∉ r.claims := by
      intro name hname htaken
      obtain rfl : name = names.webhookListSize := List.mem_singleton.1 hname
      rw [claims_append] at hgauge
      exact hgauge (.inr (List.mem_append_left _ htaken))
    refine ⟨[pollCounter names, sizeGauge names], by simp [h], ?_⟩
    exact List.forall_mem_cons.2 ⟨free_of_not_refused haccepted, List.forall_mem_singleton.2 hfree⟩

/-- A creation that succeeds has found the names of the counter free. -/
theorem free_of_create (h : create r names = (q, .ok ())) :
    familyName names.pollsTotal ∉ r.claims ∧ exposed names ∉ r.claims := by
  rcases create_cases r names with ⟨-, e, hcreate⟩ | ⟨-, -, e, hcreate⟩ | ⟨haccepted, -, -⟩
  · rw [hcreate] at h
    cases h
  · rw [hcreate] at h
    cases h
  · have hfree := free_of_not_refused haccepted
    exact ⟨hfree _ (by simp [pollCounter, Metric.claims]),
      hfree _ (by simp [pollCounter, Metric.claims, exposed])⟩

/-! ## The invariant -/

/-- The names that are taken stay the same when metrics keep theirs. -/
theorem claims_map {f : Metric → Metric} (hf : ∀ m : Metric, (f m).claims = m.claims) :
    MetricRegistry.claims (r.map f) = r.claims := by
  unfold MetricRegistry.claims
  rw [List.flatMap_map]
  simp only [hf]

theorem claims_recordPoll {o : PollOutcome} (h : recordPoll r names o = .ok q) :
    q.claims = r.claims := by
  obtain ⟨-, rfl⟩ := recordPoll_eq_ok_iff.1 h
  refine claims_map fun m => ?_
  split
  · cases m <;> rfl
  · rfl

theorem claims_setListSize (r : MetricRegistry) (names : MetricNames) (value : Double) :
    MetricRegistry.claims (setListSize r names value) = r.claims := by
  refine claims_map fun m => ?_
  split
  · cases m <;> rfl
  · rfl

namespace Shared

variable {s : Shared}

theorem sound_start (r : MetricRegistry) : (start r).Sound where
  counts _ h := absurd h List.not_mem_nil
  apart _ h := absurd h List.not_mem_nil
  families _ h := absurd h List.not_mem_nil
  calls _ h := absurd h List.not_mem_nil
  taken _ h := h

/-- Metrics with names that are free do no harm. -/
theorem Sound.append (h : s.Sound) {added : List Metric}
    (hfree : ∀ m ∈ added, ∀ name ∈ m.claims, name ∉ s.metrics.claims) :
    { s with metrics := s.metrics ++ added }.Sound := by
  refine ⟨fun names hnames => ?_, h.apart, h.families, h.calls, fun name hname => ?_⟩
  · obtain ⟨counts, hcounts, hcounted⟩ := h.counts names hnames
    exact ⟨counts, hcounts.append hfree, hcounted⟩
  · rw [claims_append]
    exact List.mem_append_left _ (h.taken name hname)

/-- Measures with a counter of their own, through which there were no calls. -/
theorem Sound.cons (h : s.Sound) (hcounts : Counts s.metrics names [])
    (hfamily : ∀ other ∈ s.created, familyName names.pollsTotal ≠ familyName other.pollsTotal)
    (hexposed : exposed names ∉ s.foreign) : { s with created := names :: s.created }.Sound := by
  have hnone : ∀ o : PollOutcome, s.counted names o = 0 := by
    intro o
    have hcalls : s.calls.count (names, o) = 0 :=
      List.count_eq_zero.2 fun hmem => hfamily names (h.calls _ hmem) rfl
    rw [counted, hcalls, Nat.zero_min, ite_self]
  refine ⟨?_, ?_, ?_, fun call hcall => List.mem_cons_of_mem _ (h.calls call hcall), h.taken⟩
  · exact List.forall_mem_cons.2 ⟨⟨[], hcounts, fun o => (hnone o).symm⟩, h.counts⟩
  · exact List.forall_mem_cons.2 ⟨hexposed, h.apart⟩
  · intro names₁ h₁ names₂ h₂ hsame
    rcases List.mem_cons.1 h₁ with rfl | hold₁ <;> rcases List.mem_cons.1 h₂ with rfl | hold₂
    · rfl
    · exact absurd hsame (hfamily names₂ hold₂)
    · exact absurd hsame.symm (hfamily names₁ hold₁)
    · exact h.families names₁ hold₁ names₂ hold₂ hsame

/-- Creating measures adds metrics with free names, whether it fails or not; when it does not, these
measures have names that none of the others have. -/
theorem Sound.create (h : s.Sound) (names : MetricNames) : (s.create names).Sound := by
  obtain ⟨added, hadded, hfree⟩ := create_appends s.metrics names
  have happend := h.append hfree
  unfold Shared.create
  cases hcreate : Measures.create s.metrics names with
  | mk r result =>
    rw [hcreate] at hadded
    obtain rfl : r = s.metrics ++ added := hadded
    cases result with
    | error e => exact happend
    | ok _ =>
      obtain ⟨hfamily, hexposed⟩ := free_of_create hcreate
      refine happend.cons (counts_create hcreate) (fun other hother hsame => hfamily ?_)
        fun hmem => hexposed (h.taken _ hmem)
      obtain ⟨counts, hcounts, -⟩ := h.counts other hother
      exact hsame ▸ hcounts.claims.1

/-- A call counts one in the counter of its measures, unless no value can be given for the label. -/
theorem Sound.counts_record_self (h : s.Sound) (hnames : names ∈ s.created) (o : PollOutcome) :
    ∃ counts, Counts ((recordPoll s.metrics names o).toOption.getD s.metrics) names counts ∧
      ∀ o' : PollOutcome, (Assoc.get? o'.label counts).getD 0 =
        if CanRecord names then min (((names, o) :: s.calls).count (names, o')) greatestCount
        else 0 := by
  obtain ⟨counts, hcounts, hcounted⟩ := h.counts names hnames
  unfold counted at hcounted
  by_cases hrecords : CanRecord names
  · obtain ⟨q, hq, hnext⟩ := hcounts.recordPoll hrecords o
    refine ⟨_, by rw [hq]; exact hnext, fun o' => ?_⟩
    rw [if_pos hrecords, List.count_cons]
    by_cases ho : o = o'
    · subst ho
      rw [Assoc.get?_put_self, hcounted o, if_pos hrecords, Option.getD_some, oneMore_min]
      simp
    · have hkept : o'.label ≠ o.label := fun heq => ho (label_injective heq).symm
      rw [Assoc.get?_put_of_ne hkept, hcounted o', if_pos hrecords]
      simp [ho]
  · refine ⟨counts, ?_, fun o' => by rw [hcounted o', if_neg hrecords, if_neg hrecords]⟩
    rw [recordPoll, if_neg hrecords]
    exact hcounts

/-- It counts nothing in other counters. -/
theorem Sound.counts_record_other (h : s.Sound) (hnames : names ∈ s.created) (o : PollOutcome)
    (hother : other ∈ s.created) (hne : names ≠ other) :
    ∃ counts, Counts ((recordPoll s.metrics names o).toOption.getD s.metrics) other counts ∧
      ∀ o' : PollOutcome, (Assoc.get? o'.label counts).getD 0 =
        if CanRecord other then min (((names, o) :: s.calls).count (other, o')) greatestCount
        else 0 := by
  obtain ⟨counts, hcounts, hcounted⟩ := h.counts other hother
  have hfamily : familyName names.pollsTotal ≠ familyName other.pollsTotal :=
    fun heq => hne (h.families names hnames other hother heq)
  refine ⟨counts, ?_, fun o' => ?_⟩
  · cases hrecord : recordPoll s.metrics names o with
    | error e => exact hcounts
    | ok q => exact hcounts.recordPoll_other hfamily hrecord
  · have hpair : (names, o) ≠ (other, o') := fun heq => hne (Prod.mk.inj heq).1
    rw [hcounted o', List.count_cons_of_ne hpair, counted]

theorem Sound.record (h : s.Sound) (names : MetricNames) (o : PollOutcome) :
    (s.record names o).Sound := by
  unfold Shared.record
  split
  case isFalse => exact h
  next hnames =>
  refine ⟨fun other hother => ?_, h.apart, h.families,
    List.forall_mem_cons.2 ⟨hnames, h.calls⟩, fun name hname => ?_⟩
  · by_cases hsame : names = other
    · subst hsame
      exact h.counts_record_self hnames o
    · exact h.counts_record_other hnames o hother hsame
  · cases hrecord : recordPoll s.metrics names o with
    | error e => exact h.taken name hname
    | ok q =>
      show name ∈ q.claims
      rw [claims_recordPoll hrecord]
      exact h.taken name hname

/-- A gauge that is set leaves the counters alone. -/
theorem Sound.setListSize (h : s.Sound) (names : MetricNames) (value : Double) :
    (s.setListSize names value).Sound := by
  unfold Shared.setListSize
  split
  case isFalse => exact h
  next =>
  refine ⟨fun other hother => ?_, h.apart, h.families, h.calls, fun name hname => ?_⟩
  · obtain ⟨counts, hcounts, hcounted⟩ := h.counts other hother
    exact ⟨counts, hcounts.setListSize names value, hcounted⟩
  · rw [claims_setListSize]
    exact h.taken name hname

/-- The names of a metric that is added are not those of a counter. -/
theorem Sound.claim (h : s.Sound) (names : List String) : (s.claim names).Sound := by
  unfold Shared.claim
  split
  case isTrue => exact h
  next hany =>
  have hfree : ∀ name ∈ names, name ∉ s.metrics.claims := fun name hname hmem =>
    hany (List.any_eq_true.2 ⟨name, hname, List.contains_iff_mem.2 hmem⟩)
  have hgauges : ∀ m ∈ names.map fun name => Metric.gauge name "" Double.zero,
      ∀ name ∈ m.claims, name ∉ s.metrics.claims := by
    simpa [Metric.claims] using hfree
  have happend := h.append hgauges
  refine ⟨happend.counts, fun other hother hmem => ?_, happend.families, happend.calls,
    fun name hname => ?_⟩
  · rcases List.mem_append.1 hmem with hold | hnew
    · exact h.apart other hother hold
    · obtain ⟨counts, hcounts, -⟩ := h.counts other hother
      exact hfree _ hnew hcounts.claims.2
  · rcases List.mem_append.1 hname with hold | hnew
    · exact happend.taken name hold
    · refine List.mem_flatMap.2 ⟨.gauge name "" Double.zero, ?_, List.mem_singleton_self name⟩
      exact List.mem_append_right _ (List.mem_map.2 ⟨name, hnew, rfl⟩)

theorem Sound.step (h : s.Sound) (use : Use) : (s.step use).Sound := by
  cases use with
  | create names => exact h.create names
  | record names _ o => exact h.record names o
  | setListSize names value => exact h.setListSize names value
  | claim names => exact h.claim names

theorem Sound.run (h : s.Sound) (uses : List Use) : (s.run uses).Sound := by
  induction uses generalizing s with
  | nil => exact h
  | cons use uses ih => exact ih (h.step use)

/-- Measures stay. -/
theorem created_step (s : Shared) (use : Use) : s.created ⊆ (s.step use).created := by
  cases use with
  | create names =>
    show s.created ⊆ (s.create names).created
    unfold Shared.create
    split
    · exact List.subset_cons_self names s.created
    · exact List.Subset.refl _
  | record names _ o =>
    show s.created ⊆ (s.record names o).created
    unfold Shared.record
    split <;> exact List.Subset.refl _
  | setListSize names value =>
    show s.created ⊆ (s.setListSize names value).created
    unfold Shared.setListSize
    split <;> exact List.Subset.refl _
  | claim names =>
    show s.created ⊆ (s.claim names).created
    unfold Shared.claim
    split <;> exact List.Subset.refl _

theorem created_run (s : Shared) (uses : List Use) : s.created ⊆ (s.run uses).created := by
  induction uses generalizing s with
  | nil => exact List.Subset.refl _
  | cons use uses ih => exact List.Subset.trans (created_step s use) (ih _)

/-! ## Reading back -/

/-- What the counter has counted is read. -/
theorem Sound.pollCount_eq (h : s.Sound) (hnames : names ∈ s.created) (o : PollOutcome) :
    pollCount s.metrics names o = Double.ofInt (s.counted names o : Nat) := by
  obtain ⟨counts, hcounts, hcounted⟩ := h.counts names hnames
  rw [hcounts.pollCount_eq, hcounted o]

/-- The counter is exposed under no name of a time. -/
theorem not_isSuffixOf_exposed (names : MetricNames) :
    "_created".toList.isSuffixOf (exposed names).toList = false := by
  refine Bool.eq_false_iff.2 fun hsuffix => ?_
  obtain ⟨front, hfront⟩ := List.isSuffixOf_iff_suffix.1 hsuffix
  have hlast := congrArg List.getLast? hfront
  simp [exposed, totalSuffix] at hlast

/-- Every reading shows the same count. -/
theorem Sound.lookUp_eq (h : s.Sound) (hnames : names ∈ s.created) {samples : List Sample}
    (hshows : s.Shows samples) (o : PollOutcome) :
    lookUp samples names o = pollCount s.metrics names o := by
  rw [pollCount_eq_lookUp]
  refine lookUp_congr (fun x hx => ?_) hshows o
  rw [← Metric.exposed_eq_sampleName] at hx
  rw [isPlain, hx, not_isSuffixOf_exposed, Bool.not_false, Bool.and_true, Bool.not_eq_true']
  exact Bool.eq_false_iff.2 fun hmem => h.apart names hnames (List.contains_iff_mem.1 hmem)

/-- Recording returns, and every reading shows the number of the calls, as long as a double can tell
one more from it; from then on it stands still. -/
structure ReadsBack (s : Shared) (names : MetricNames) : Prop where
  returns : ∀ o, ∃ q, recordPoll s.metrics names o = .ok q
  reads : ∀ o samples, s.Shows samples → s.calls.count (names, o) ≤ 2 ^ 53 →
    lookUp samples names o = Double.ofInt (s.calls.count (names, o) : Nat)
  exact : ∀ o, s.calls.count (names, o) < 2 ^ 53 →
    (pollCount s.metrics names o).toRat? = some (s.calls.count (names, o) : Rat)
  stands : ∀ o samples, s.Shows samples → 2 ^ 53 ≤ s.calls.count (names, o) →
    lookUp samples names o = Double.ofInt (2 ^ 53 : Nat)

theorem Sound.readsBack (h : s.Sound) (hnames : names ∈ s.created)
    (hrecords : CanRecord names) : s.ReadsBack names := by
  have hgreatest : greatestCount = 2 ^ 53 := by decide
  have hread : ∀ o : PollOutcome, pollCount s.metrics names o =
      Double.ofInt (min (s.calls.count (names, o)) (2 ^ 53) : Nat) := by
    intro o
    rw [h.pollCount_eq hnames, counted, if_pos hrecords, hgreatest]
  refine ⟨fun o => (canRecord_iff s.metrics names o).1 hrecords, fun o samples hshows hbits => ?_,
    fun o hbits => ?_, fun o samples hshows hbits => ?_⟩
  · rw [h.lookUp_eq hnames hshows, hread, Nat.min_eq_left hbits]
  · rw [hread, Nat.min_eq_left hbits.le]
    exact Double.toRat?_ofInt_natCast hbits
  · rw [h.lookUp_eq hnames hshows, hread, Nat.min_eq_right hbits]

end Shared

/-- Take measures that were created on any registry, among any other metrics.  Whatever the registry
shows for those, looking up an outcome gives the same, and zero before the first call.  From then on,
whatever measures and metrics are added and whoever records what, recording returns and the counts
that are read are the numbers of the calls, as far as a double counts, exactly when the label does
not have the one name under which no value can be given.  Under that name every call fails and
nothing is counted. -/
theorem reads_back_iff {r : MetricRegistry} {earlier : List Use} {s : Shared}
    (h : (Shared.start r).run earlier = s) {names : MetricNames} (hnames : names ∈ s.created) :
    (∀ o samples, s.Shows samples → lookUp samples names o = pollCount s.metrics names o) ∧
      (∀ o, (names, o) ∉ s.calls → pollCount s.metrics names o = Double.zero) ∧
      ((∀ uses, (s.run uses).ReadsBack names) ↔ names.outcomeLabel ≠ ownName) ∧
      (names.outcomeLabel = ownName → ∀ o,
        recordPoll s.metrics names o = .error .unusableLabel ∧
          pollCount s.metrics names o = Double.zero) := by
  have hzero : Double.ofInt (0 : Nat) = Double.zero := by decide
  have hsound : s.Sound := h ▸ (Shared.sound_start r).run earlier
  refine ⟨fun o samples hshows => hsound.lookUp_eq hnames hshows o, fun o hnone => ?_,
    ⟨fun hreads => (canRecord_iff _ _ _).2 ((hreads []).returns .success), fun hlabel uses => ?_⟩,
    fun hlabel o => ⟨if_neg (not_canRecord_iff.2 hlabel), ?_⟩⟩
  · rw [hsound.pollCount_eq hnames, Shared.counted, List.count_eq_zero.2 hnone, Nat.zero_min,
      ite_self]
    exact hzero
  · exact (hsound.run uses).readsBack (s.created_run uses hnames) hlabel
  · rw [hsound.pollCount_eq hnames, Shared.counted, if_neg (not_canRecord_iff.2 hlabel)]
    exact hzero

/-- Names of which the counter keeps one of two suffixes. -/
def twiceTotal : MetricNames where
  pollsTotal := "w_total_total"

/-- Names of other measures. -/
def besides : MetricNames where
  pollsTotal := "v"
  webhookListSize := "v_size"
  outcomeLabel := "result"

/-- A registry with a metric of its own, to which measures, a metric and other measures are added. -/
def crowded : Shared :=
  (Shared.start [.gauge "w" "" Double.zero]).run
    [.create twiceTotal, .claim ["w_total_total_total"], .create besides]

/-- Two listeners record through the same measures, and one of them through the others too. -/
theorem reads_back_crowded :
    twiceTotal ∈ crowded.created ∧ twiceTotal.outcomeLabel ≠ ownName ∧
      pollCount (crowded.run [.record twiceTotal 0 .success, .record besides 0 .failure,
        .record twiceTotal 1 .success]).metrics twiceTotal .success = Double.ofInt 2 := by
  have hnames : twiceTotal ∈ crowded.created := by decide +kernel
  have hlabel : twiceTotal.outcomeLabel ≠ ownName := by decide
  obtain ⟨-, -, hiff, -⟩ := reads_back_iff (s := crowded) rfl hnames
  have hreads := hiff.2 hlabel [.record twiceTotal 0 .success, .record besides 0 .failure,
    .record twiceTotal 1 .success]
  have hcount : (crowded.run [.record twiceTotal 0 .success, .record besides 0 .failure,
      .record twiceTotal 1 .success]).calls.count (twiceTotal, .success) = 2 := by decide +kernel
  have htwo := hreads.reads .success _ rfl (by rw [hcount]; norm_num)
  rw [hcount] at htwo
  exact ⟨hnames, hlabel, htwo⟩

/-- Names with the label under which no value can be given. -/
def selfLabelled : MetricNames where
  outcomeLabel := "self"

/-- Measures are created with it, recording fails, and the count does not become one. -/
theorem own_name_not_read_back :
    selfLabelled ∈ ((Shared.start []).run [.create selfLabelled]).created ∧
      (recordPoll ((Shared.start []).run [.create selfLabelled]).metrics selfLabelled .success =
        .error .unusableLabel) ∧
      ((Shared.start []).run [.create selfLabelled, .record selfLabelled 0 .success]).calls.count
        (selfLabelled, .success) = 1 ∧
      pollCount ((Shared.start []).run [.create selfLabelled, .record selfLabelled 0 .success]).metrics
        selfLabelled .success = Double.zero := by
  decide +kernel

end HookRegistry.Measures
