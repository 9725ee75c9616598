import HookRegistry.Proofs.Metrics.Measures

/-!
# What a refused creation of the measures leaves behind

The counter is added before the gauge.  So a creation that fails leaves the registry as it was when
the counter is refused, and only then: `create_keeps_registry_iff`.  When the gauge is refused the
counter stays, and no creation with the name of that counter succeeds any more, whatever name the
gauge is given.
-/

namespace HookRegistry.Measures

open HookRegistry.Metric (familyName isReservedLabel)

/-- The counter of polls when it has counted nothing. -/
def pollCounter (names : MetricNames) : Metric :=
  .counter (familyName names.pollsTotal) names.pollsTotalHelp names.outcomeLabel []

/-- The gauge of the list size at zero. -/
def sizeGauge (names : MetricNames) : Metric :=
  .gauge names.webhookListSize names.webhookListSizeHelp Double.zero

/-- The counter of polls cannot be added where some names are taken. -/
def CounterRefused (taken : List String) (names : MetricNames) : Prop :=
  names.pollsTotal = "" ∨ isReservedLabel names.outcomeLabel = true ∨
    familyName names.pollsTotal = "" ∨ ∃ name ∈ (pollCounter names).claims, name ∈ taken

/-- The gauge of the list size cannot be added where some names are taken. -/
def GaugeRefused (taken : List String) (names : MetricNames) : Prop :=
  names.webhookListSize = "" ∨ names.webhookListSize ∈ taken

variable {r q : MetricRegistry} {names : MetricNames}

/-- Of a counter with a usable label only the family counts. -/
theorem CounterRefused.of_family {taken : List String} {corrected : MetricNames}
    (h : CounterRefused taken corrected)
    (hsame : familyName corrected.pollsTotal = familyName names.pollsTotal)
    (hlabel : isReservedLabel corrected.outcomeLabel = false) : CounterRefused taken names := by
  have hclaims : (pollCounter corrected).claims = (pollCounter names).claims := by
    simp [pollCounter, Metric.claims, hsame]
  rcases h with hname | hreserved | hfamily | htaken
  · rw [hname] at hsame
    exact .inr (.inr (.inl (hsame.symm.trans (by decide))))
  · rw [hlabel] at hreserved
    cases hreserved
  · exact .inr (.inr (.inl (hsame.symm.trans hfamily)))
  · rw [hclaims] at htaken
    exact .inr (.inr (.inr htaken))

/-! ## Adding one metric -/

theorem add_eq_duplicate {m : Metric} (h : ∃ name ∈ m.claims, name ∈ r.claims) :
    r.add m = .error .duplicate := by
  obtain ⟨name, hname, htaken⟩ := h
  exact if_pos (List.any_eq_true.2 ⟨name, hname, List.contains_iff_mem.2 htaken⟩)

/-- Whether a metric can be added depends on the names that are taken. -/
theorem add_congr {r' : MetricRegistry} (h : ∀ name, name ∈ r'.claims ↔ name ∈ r.claims)
    (m : Metric) :
    (∃ e, r.add m = .error e ∧ r'.add m = .error e) ∨
      (r.add m = .ok (r ++ [m]) ∧ r'.add m = .ok (r' ++ [m])) := by
  by_cases htaken : ∃ name ∈ m.claims, name ∈ r.claims
  · obtain ⟨name, hname, hmem⟩ := htaken
    exact .inl ⟨.duplicate, add_eq_duplicate ⟨name, hname, hmem⟩,
      add_eq_duplicate ⟨name, hname, (h name).2 hmem⟩⟩
  · refine .inr ⟨add_eq_ok_iff.2 ⟨fun name hname hmem => htaken ⟨name, hname, hmem⟩, rfl⟩,
      add_eq_ok_iff.2 ⟨fun name hname hmem => htaken ⟨name, hname, (h name).1 hmem⟩, rfl⟩⟩

/-- The counter is added unless it is refused. -/
theorem addCounter_eq_ok_iff :
    (Metric.newCounter names.pollsTotal names.pollsTotalHelp names.outcomeLabel).bind r.add =
        .ok q ↔
      ¬ CounterRefused r.claims names ∧ q = r ++ [pollCounter names] := by
  unfold CounterRefused Metric.newCounter
  by_cases hname : names.pollsTotal = ""
  · simp [hname, Except.bind]
  by_cases hlabel : isReservedLabel names.outcomeLabel = true
  · simp [hname, hlabel, Except.bind]
  by_cases hfamily : familyName names.pollsTotal = ""
  · simp [hname, hlabel, hfamily, Except.bind]
  · have hbuilt : pollCounter names = .counter (familyName names.pollsTotal) names.pollsTotalHelp
        names.outcomeLabel [] := rfl
    simp only [String.isEmpty_iff, hname, hlabel, hfamily, Bool.false_eq_true, if_false,
      Except.bind, ← hbuilt, add_eq_ok_iff]
    simp

/-- So is the gauge. -/
theorem addGauge_eq_ok_iff :
    (Metric.newGauge names.webhookListSize names.webhookListSizeHelp).bind r.add = .ok q ↔
      ¬ GaugeRefused r.claims names ∧ q = r ++ [sizeGauge names] := by
  unfold GaugeRefused Metric.newGauge
  by_cases hname : names.webhookListSize = ""
  · simp [hname, Except.bind]
  · have hbuilt : sizeGauge names =
        .gauge names.webhookListSize names.webhookListSizeHelp Double.zero := rfl
    simp only [String.isEmpty_iff, hname, if_false, Except.bind, ← hbuilt, add_eq_ok_iff]
    simp [sizeGauge, Metric.claims]

/-! ## Adding both -/

/-- A creation fails at the counter, fails at the gauge, or succeeds. -/
theorem create_cases (r : MetricRegistry) (names : MetricNames) :
    (CounterRefused r.claims names ∧ ∃ e, create r names = (r, .error e)) ∨
      (¬ CounterRefused r.claims names ∧
        GaugeRefused (MetricRegistry.claims (r ++ [pollCounter names])) names ∧
        ∃ e, create r names = (r ++ [pollCounter names], .error e)) ∨
      (¬ CounterRefused r.claims names ∧
        ¬ GaugeRefused (MetricRegistry.claims (r ++ [pollCounter names])) names ∧
        create r names = (r ++ [pollCounter names] ++ [sizeGauge names], .ok ())) := by
  unfold create
  cases hcounter :
      (Metric.newCounter names.pollsTotal names.pollsTotalHelp names.outcomeLabel).bind r.add with
  | error e =>
    refine .inl ⟨Classical.not_not.1 fun haccepted => ?_, e, rfl⟩
    rw [addCounter_eq_ok_iff.2 ⟨haccepted, rfl⟩] at hcounter
    cases hcounter
  | ok q =>
    obtain ⟨haccepted, rfl⟩ := addCounter_eq_ok_iff.1 hcounter
    refine .inr ?_
    cases hgauge : (Metric.newGauge names.webhookListSize names.webhookListSizeHelp).bind
        (MetricRegistry.add (r ++ [pollCounter names])) with
    | error e =>
      refine .inl ⟨haccepted, Classical.not_not.1 fun hfree => ?_, e, by simp only [hgauge]⟩
      rw [addGauge_eq_ok_iff.2 ⟨hfree, rfl⟩] at hgauge
      cases hgauge
    | ok q =>
      obtain ⟨hfree, rfl⟩ := addGauge_eq_ok_iff.1 hgauge
      exact .inr ⟨haccepted, hfree, by simp only [hgauge]⟩

/-- What a creation adds, and how it ends, depends on nothing but the names that are taken. -/
theorem create_congr {r' : MetricRegistry} (h : ∀ name, name ∈ r'.claims ↔ name ∈ r.claims)
    (names : MetricNames) :
    ∃ added result, create r names = (r ++ added, result) ∧
      create r' names = (r' ++ added, result) := by
  unfold create
  cases Metric.newCounter names.pollsTotal names.pollsTotalHelp names.outcomeLabel with
  | error e => exact ⟨[], .error e, by simp [Except.bind], by simp [Except.bind]⟩
  | ok counter =>
    rcases add_congr h counter with ⟨e, hadd, hadd'⟩ | ⟨hadd, hadd'⟩
    · exact ⟨[], .error e, by simp [Except.bind, hadd], by simp [Except.bind, hadd']⟩
    simp only [Except.bind, hadd, hadd']
    have hmore : ∀ name, name ∈ MetricRegistry.claims (r' ++ [counter]) ↔
        name ∈ MetricRegistry.claims (r ++ [counter]) := by
      intro name
      have hname := h name
      unfold MetricRegistry.claims at hname ⊢
      simp only [List.flatMap_append, List.mem_append, hname]
    cases Metric.newGauge names.webhookListSize names.webhookListSizeHelp with
    | error e => exact ⟨[counter], .error e, rfl, rfl⟩
    | ok gauge =>
      rcases add_congr hmore gauge with ⟨e, hadd, hadd'⟩ | ⟨hadd, hadd'⟩
      · exact ⟨[counter], .error e, by simp only [hadd], by simp only [hadd']⟩
      · exact ⟨[counter, gauge], .ok (), by simp [hadd], by simp [hadd']⟩

/-- Where the counter of polls is already, no counter of its family is added. -/
theorem create_beside_counter {corrected : MetricNames} (hcounter : pollCounter names ∈ r)
    (hfamily : familyName names.pollsTotal ≠ "")
    (hsame : familyName corrected.pollsTotal = familyName names.pollsTotal)
    (hlabel : isReservedLabel corrected.outcomeLabel = false) :
    create r corrected = (r, .error .duplicate) := by
  have hname : corrected.pollsTotal ≠ "" := by
    intro hempty
    rw [hempty] at hsame
    exact hfamily (hsame.symm.trans (by decide))
  have hbuilt : Metric.newCounter corrected.pollsTotal corrected.pollsTotalHelp
      corrected.outcomeLabel = .ok (pollCounter corrected) := by
    rw [← hsame] at hfamily
    simp [Metric.newCounter, hname, hlabel, hfamily, pollCounter]
  have htaken : ∃ name ∈ (pollCounter corrected).claims, name ∈ r.claims := by
    refine ⟨familyName corrected.pollsTotal, by simp [pollCounter, Metric.claims], ?_⟩
    exact List.mem_flatMap.2 ⟨_, hcounter, by simp [pollCounter, Metric.claims, hsame]⟩
  unfold create
  rw [hbuilt, Except.bind, add_eq_duplicate htaken]

/-- A creation that fails leaves the registry as it was exactly when the counter is refused.
Otherwise the counter stays, and every creation of a counter of that family fails from then on, also
where it would have succeeded before.  Of the metrics that were there, of whatever kind, nothing
counts but the names that they have taken. -/
theorem create_keeps_registry_iff {e : MetricError} (h : (create r names).2 = .error e) :
    ((create r names).1 = r ↔ CounterRefused r.claims names) ∧
      (¬ CounterRefused r.claims names →
        (create r names).1 = r ++ [pollCounter names] ∧
        ∀ corrected : MetricNames, familyName corrected.pollsTotal = familyName names.pollsTotal →
          isReservedLabel corrected.outcomeLabel = false →
          create (create r names).1 corrected = ((create r names).1, .error .duplicate) ∧
          (¬ GaugeRefused (MetricRegistry.claims (r ++ [pollCounter corrected])) corrected →
            (create r corrected).2 = .ok ())) ∧
      ∀ r' : MetricRegistry, (∀ name, name ∈ r'.claims ↔ name ∈ r.claims) →
        ∃ added, (create r names).1 = r ++ added ∧ create r' names = (r' ++ added, .error e) := by
  have hcongr : ∀ r' : MetricRegistry, (∀ name, name ∈ r'.claims ↔ name ∈ r.claims) →
      ∃ added, (create r names).1 = r ++ added ∧ create r' names = (r' ++ added, .error e) := by
    intro r' hclaims
    obtain ⟨added, result, hcreate, hcreate'⟩ := create_congr hclaims names
    rw [hcreate] at h ⊢
    cases h
    exact ⟨added, rfl, hcreate'⟩
  rcases create_cases r names with ⟨hrefused, f, hcreate⟩ | ⟨haccepted, -, f, hcreate⟩ |
    ⟨-, -, hcreate⟩
  · refine ⟨?_, fun haccepted => absurd hrefused haccepted, hcongr⟩
    rw [hcreate]
    exact ⟨fun _ => hrefused, fun _ => rfl⟩
  · rw [hcreate] at hcongr ⊢
    have hmore : r ++ [pollCounter names] ≠ r := by simp
    refine ⟨⟨fun hsame => absurd hsame hmore, fun hrefused => absurd hrefused haccepted⟩,
      fun _ => ⟨rfl, fun corrected hsame hlabel => ⟨?_, fun hgauge => ?_⟩⟩, hcongr⟩
    · have hfamily : familyName names.pollsTotal ≠ "" :=
        fun hempty => haccepted (.inr (.inr (.inl hempty)))
      exact create_beside_counter (by simp) hfamily hsame hlabel
    · rcases create_cases r corrected with ⟨hrefused, -⟩ | ⟨-, hrefused, -⟩ | ⟨-, -, hcreated⟩
      · exact absurd (hrefused.of_family hsame hlabel) haccepted
      · exact absurd hrefused hgauge
      · rw [hcreated]
  · rw [hcreate] at h
    cases h

/-- Names of which the gauge has the one under which the counter is exposed. -/
def clashing : MetricNames where
  pollsTotal := "w"
  webhookListSize := "w_total"

theorem create_clashing :
    create [] clashing = ([pollCounter clashing], .error .duplicate) :=
  rfl

/-- On an empty registry they leave the counter behind, and correcting the name of the gauge does
not help any more. -/
theorem create_keeps_registry_clashing :
    (create [] clashing).1 = [pollCounter clashing] ∧
      create (create [] clashing).1 { clashing with webhookListSize := "size" } =
        ([pollCounter clashing], .error .duplicate) ∧
      (create [] { clashing with webhookListSize := "size" }).2 = .ok () := by
  have hfails : (create [] clashing).2 = .error .duplicate := by rw [create_clashing]
  have hleft : (create [] clashing).1 = [pollCounter clashing] := by rw [create_clashing]
  have haccepted : ¬ CounterRefused (MetricRegistry.claims []) clashing := by
    rintro (h | h | h | ⟨name, -, h⟩)
    · revert h
      decide
    · revert h
      decide
    · revert h
      decide +kernel
    · cases h
  obtain ⟨-, hstays, -⟩ := create_keeps_registry_iff hfails
  obtain ⟨hagain, hbefore⟩ := (hstays haccepted).2 { clashing with webhookListSize := "size" } rfl
    (by decide)
  refine ⟨hleft, by rw [hagain, hleft], hbefore ?_⟩
  rintro (h | h)
  · revert h
    decide
  · revert h
    decide +kernel

/-- A creation that fails may leave the registry changed. -/
theorem create_changes_registry_on_failure :
    ¬ ∀ (r : MetricRegistry) (names : MetricNames) (e : MetricError),
      (create r names).2 = .error e → (create r names).1 = r := by
  intro hkept
  have hsame := hkept [] clashing .duplicate (by rw [create_clashing])
  rw [create_clashing] at hsame
  cases hsame

end HookRegistry.Measures
