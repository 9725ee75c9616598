import HookRegistry.Proofs.Config.RequestUrl
import HookRegistry.Proofs.Double.Rounding
import HookRegistry.StoreClient

/-!
# The rules of a configuration

`ConfigRule.Met` says what is asked of each field of a configuration, and `Config.brokenRules` lists
the rules that are broken, in the order of `ConfigRule.all`.  Each of them is reported by one entry
when the base address is split without an error and no rule is overlooked, and only then:
`problems_eq_brokenRules_iff`.  A base address without parts ends the check, a base address that has
a network location without a host passes, and so does a span that is no number, which is neither
negative nor zero.
-/

namespace HookRegistry

/-- The host of a URL: what stands behind the credentials and before the port, without brackets. -/
def Url.host (u : Url) : List Char :=
  match Text.cut '[' (Text.afterLast '@' u.netloc) with
  | (_, some bracketed) => (Text.cut ']' bracketed).1
  | (hostAndPort, none) => (Text.cut ':' hostAndPort).1

/-- Greater than zero: infinite, or a number above it. -/
def Seconds.Positive (s : Seconds) : Prop :=
  s = .real (.infinite false) ∨ (s.toRat?.any fun r => 0 < r) = true

/-- Zero or greater. -/
def Seconds.Nonnegative (s : Seconds) : Prop :=
  s = .real (.infinite false) ∨ (s.toRat?.any fun r => 0 ≤ r) = true

instance : DecidablePred Seconds.Positive := fun _ => inferInstanceAs (Decidable (_ ∨ _))

instance : DecidablePred Seconds.Nonnegative := fun _ => inferInstanceAs (Decidable (_ ∨ _))

/-- The rules, by the field that they are about. -/
inductive ConfigRule where
  | baseUrl
  | apiPath
  | bucket
  | requestTimeout
  | pullInterval
  deriving DecidableEq, Repr

namespace ConfigRule

/-- The rules in the order in which they are reported. -/
def all : List ConfigRule :=
  [.baseUrl, .apiPath, .bucket, .requestTimeout, .pullInterval]

/-- A rule is kept. -/
def Met (c : Config) : ConfigRule → Prop
  | .baseUrl => ∃ u, Url.split c.baseUrl = .ok u ∧
      (u.scheme = "http".toList ∨ u.scheme = "https".toList) ∧ u.host ≠ []
  | .apiPath => c.apiPath ≠ ""
  | .bucket => c.bucket ≠ ""
  | .requestTimeout => c.requestTimeout.Positive
  | .pullInterval => c.pullInterval.Nonnegative

/-- A rule is broken in a way that the check does not look for. -/
def Overlooked (c : Config) : ConfigRule → Prop
  | .baseUrl => ∃ u, Url.split c.baseUrl = .ok u ∧ u.isAbsoluteHttp = true ∧ u.host = []
  | .requestTimeout => c.requestTimeout = .real .nan
  | .pullInterval => c.pullInterval = .real .nan
  | .apiPath | .bucket => False

/-- The entry for a rule that is broken. -/
def problem (c : Config) : ConfigRule → ConfigProblem
  | .baseUrl => if c.baseUrl = "" then .emptyBaseUrl else .unusableBaseUrl c.baseUrl
  | .apiPath => .emptyApiPath
  | .bucket => .emptyBucket
  | .requestTimeout => .timeoutNotPositive c.requestTimeout
  | .pullInterval => .negativeInterval c.pullInterval

/-- Whether a text is split into parts with some property can be decided. -/
instance (s : String) (p : Url → Prop) [DecidablePred p] :
    Decidable (∃ u, Url.split s = .ok u ∧ p u) :=
  match Url.split s with
  | .ok u => decidable_of_iff (p u) ⟨fun h => ⟨u, rfl, h⟩, fun ⟨_, hv, h⟩ => Except.ok.inj hv ▸ h⟩
  | .error _ => .isFalse fun ⟨_, hv, _⟩ => nomatch hv

instance (c : Config) : DecidablePred (Met c)
  | .baseUrl => inferInstanceAs (Decidable (∃ u, Url.split c.baseUrl = .ok u ∧ _))
  | .apiPath | .bucket => inferInstanceAs (Decidable (_ ≠ _))
  | .requestTimeout => inferInstanceAs (Decidable c.requestTimeout.Positive)
  | .pullInterval => inferInstanceAs (Decidable c.pullInterval.Nonnegative)

instance (c : Config) : DecidablePred (Overlooked c)
  | .baseUrl => inferInstanceAs (Decidable (∃ u, Url.split c.baseUrl = .ok u ∧ _))
  | .apiPath | .bucket => .isFalse id
  | .requestTimeout | .pullInterval => inferInstanceAs (Decidable (_ = _))

end ConfigRule

namespace Config

/-- The rules that a configuration breaks. -/
def brokenRules (c : Config) : List ConfigRule :=
  ConfigRule.all.filter fun rule => ¬ rule.Met c

end Config

/-! ## The check of a rule -/

/-- A host stands in a network location. -/
theorem Url.netloc_ne_nil {u : Url} (h : u.host ≠ []) : u.netloc ≠ [] := by
  intro hnil
  refine h ?_
  rw [host, hnil]
  rfl

/-- The sign of a double is that of its exact value. -/
theorem Double.sign_of_toRat? {x : Double} {r : Rat} (h : x.toRat? = some r) :
    (x.isNegative = true ↔ r < 0) ∧ (x.isZero = true ↔ r = 0) := by
  cases x with
  | nan | infinite => cases h
  | finite negative m e =>
    cases h
    rcases Nat.eq_zero_or_pos m with rfl | hm
    · cases negative <;> simp [isNegative, isZero, scaled]
    · have hpos := scaled_pos hm e
      cases negative <;> simp [isNegative, isZero, hm.ne', hpos, hpos.le, hpos.ne']

namespace Seconds

theorem sign_of_toRat? {s : Seconds} {r : Rat} (h : s.toRat? = some r) :
    (s.isNegative = true ↔ r < 0) ∧ (s.isZero = true ↔ r = 0) := by
  cases s with
  | whole n =>
    cases h
    simp [isNegative, isZero]
  | real x => exact Double.sign_of_toRat? h

theorem exists_toRat?_or (s : Seconds) :
    (∃ r, s.toRat? = some r) ∨ s = .real .nan ∨ ∃ negative, s = .real (.infinite negative) := by
  cases s with
  | whole n => exact .inl ⟨_, rfl⟩
  | real x =>
    cases x with
    | nan => exact .inr (.inl rfl)
    | infinite negative => exact .inr (.inr ⟨negative, rfl⟩)
    | finite => exact .inl ⟨_, rfl⟩

/-- A number is compared with zero by its exact value. -/
theorem compares_of_toRat? {s : Seconds} {r : Rat} (h : s.toRat? = some r) :
    (s.Positive ↔ 0 < r) ∧ (s.Nonnegative ↔ 0 ≤ r) := by
  have hfinite : s ≠ .real (.infinite false) := by
    rintro rfl
    cases h
  simp [Positive, Nonnegative, h, hfinite]

theorem not_positive_iff {s : Seconds} (h : s ≠ .real .nan) :
    ¬ s.Positive ↔ (s.isNegative || s.isZero) = true := by
  rcases s.exists_toRat?_or with ⟨r, hr⟩ | hnan | ⟨negative, rfl⟩
  · obtain ⟨hnegative, hzero⟩ := sign_of_toRat? hr
    rw [(compares_of_toRat? hr).1, Bool.or_eq_true, hnegative, hzero, not_lt, le_iff_lt_or_eq]
  · exact absurd hnan h
  · cases negative <;> decide

theorem not_nonnegative_iff {s : Seconds} (h : s ≠ .real .nan) :
    ¬ s.Nonnegative ↔ s.isNegative = true := by
  rcases s.exists_toRat?_or with ⟨r, hr⟩ | hnan | ⟨negative, rfl⟩
  · rw [(compares_of_toRat? hr).2, (sign_of_toRat? hr).1, not_le]
  · exact absurd hnan h
  · cases negative <;> decide

end Seconds

namespace Config

variable {c : Config}

/-- A rule has an entry when it is broken and the check looks for that. -/
def Reports (c : Config) (rule : ConfigRule) : Prop :=
  ¬ rule.Overlooked c ∧ ¬ rule.Met c

instance (c : Config) : DecidablePred c.Reports := fun _ => inferInstanceAs (Decidable (_ ∧ _))

/-- The check of the base address, when it has parts. -/
theorem baseUrlProblems_eq {u : Url} (hu : Url.split c.baseUrl = .ok u) :
    c.baseUrlProblems = .ok (problemIf (c.Reports .baseUrl) (ConfigRule.problem c .baseUrl)) := by
  have hmet : ConfigRule.Met c .baseUrl ↔
      (u.scheme = "http".toList ∨ u.scheme = "https".toList) ∧ u.host ≠ [] := by
    simp [ConfigRule.Met, hu]
  have hoverlooked : ConfigRule.Overlooked c .baseUrl ↔ u.isAbsoluteHttp = true ∧ u.host = [] := by
    simp [ConfigRule.Overlooked, hu]
  have hreports : c.Reports .baseUrl ↔ u.isAbsoluteHttp = false := by
    rw [Reports, hmet, hoverlooked, ← Bool.not_eq_true, Url.isAbsoluteHttp_iff]
    by_cases hhost : u.host = []
    · simp [hhost]
    · simp [hhost, Url.netloc_ne_nil hhost]
  unfold baseUrlProblems ConfigRule.problem
  by_cases hempty : c.baseUrl = ""
  · have hnone : Url.split "" = .ok ⟨[], [], [], [], []⟩ := rfl
    rw [hempty, hnone, Except.ok.injEq] at hu
    subst hu
    have hbroken : c.Reports .baseUrl := hreports.2 rfl
    rw [if_pos (String.isEmpty_iff.2 hempty), if_pos hempty, problemIf, if_pos (by simpa)]
  · have hsome : c.baseUrl.isEmpty = false := by simpa using hempty
    rw [hsome, hu, if_neg hempty]
    cases habsolute : u.isAbsoluteHttp with
    | true =>
      have hkept : ¬ c.Reports .baseUrl := by simp [hreports, habsolute]
      simp [problemIf, hkept, habsolute, bind, Except.bind, pure, Except.pure]
    | false =>
      have hbroken : c.Reports .baseUrl := hreports.2 habsolute
      simp [problemIf, hbroken, habsolute, bind, Except.bind, pure, Except.pure]

theorem isEmpty_apiPath : c.apiPath.isEmpty = decide (c.Reports .apiPath) := by
  rw [Bool.eq_iff_iff, decide_eq_true_iff, String.isEmpty_iff]
  simp [Reports, ConfigRule.Met, ConfigRule.Overlooked]

theorem isEmpty_bucket : c.bucket.isEmpty = decide (c.Reports .bucket) := by
  rw [Bool.eq_iff_iff, decide_eq_true_iff, String.isEmpty_iff]
  simp [Reports, ConfigRule.Met, ConfigRule.Overlooked]

/-- The check of the timeout, which `nan` passes. -/
theorem isNegative_or_isZero_requestTimeout :
    (c.requestTimeout.isNegative || c.requestTimeout.isZero) =
      decide (c.Reports .requestTimeout) := by
  rw [Bool.eq_iff_iff, decide_eq_true_iff]
  by_cases hnan : c.requestTimeout = .real .nan
  · simp [Reports, ConfigRule.Overlooked, hnan, Seconds.isNegative, Seconds.isZero,
      Double.isNegative, Double.isZero]
  · rw [← Seconds.not_positive_iff hnan]
    simp [Reports, ConfigRule.Met, ConfigRule.Overlooked, hnan]

/-- The check of the interval, which `nan` passes. -/
theorem isNegative_pullInterval : c.pullInterval.isNegative = decide (c.Reports .pullInterval) := by
  rw [Bool.eq_iff_iff, decide_eq_true_iff]
  by_cases hnan : c.pullInterval = .real .nan
  · simp [Reports, ConfigRule.Overlooked, hnan, Seconds.isNegative, Double.isNegative]
  · rw [← Seconds.not_nonnegative_iff hnan]
    simp [Reports, ConfigRule.Met, ConfigRule.Overlooked, hnan]

/-! ## The whole check -/

/-- The entries of some rules are put together one by one. -/
theorem map_filter_eq_flatMap (p : ConfigRule → Prop) [DecidablePred p]
    (f : ConfigRule → ConfigProblem) (rules : List ConfigRule) :
    (rules.filter fun rule => p rule).map f =
      rules.flatMap fun rule => problemIf (p rule) (f rule) := by
  induction rules with
  | nil => rfl
  | cons rule rules ih =>
    rw [List.flatMap_cons, ← ih, problemIf, List.filter_cons]
    split <;> simp [*]

/-- The rules that have an entry are the broken ones that are not overlooked. -/
theorem filter_brokenRules :
    (c.brokenRules.filter fun rule => ¬ rule.Overlooked c) =
      ConfigRule.all.filter fun rule => c.Reports rule := by
  rw [brokenRules, List.filter_filter]
  refine List.filter_congr fun rule _ => ?_
  rw [Bool.eq_iff_iff, Bool.and_eq_true, decide_eq_true_iff, decide_eq_true_iff,
    decide_eq_true_iff, Reports]

theorem problems_of_split {u : Url} (hu : Url.split c.baseUrl = .ok u) :
    c.problems =
      .ok ((c.brokenRules.filter fun rule => ¬ rule.Overlooked c).map (ConfigRule.problem c)) := by
  rw [filter_brokenRules, map_filter_eq_flatMap, problems, baseUrlProblems_eq hu, isEmpty_apiPath,
    isEmpty_bucket, isNegative_or_isZero_requestTimeout, isNegative_pullInterval]
  simp only [ConfigRule.all, List.flatMap_cons, List.flatMap_nil, List.append_nil, bind,
    Except.bind, pure, Except.pure, ConfigRule.problem, List.append_assoc]

/-- A base address without parts ends the check. -/
theorem problems_of_split_error {e : UrlError} (he : Url.split c.baseUrl = .error e) :
    c.problems = .error e := by
  have hsome : c.baseUrl.isEmpty = false := by
    rw [Bool.eq_false_iff, Ne, String.isEmpty_iff]
    intro hempty
    rw [hempty] at he
    cases he
  simp [problems, baseUrlProblems, hsome, he, bind, Except.bind]

/-! ## What is reported -/

/-- The base address has parts, and no rule is overlooked. -/
structure Checkable (c : Config) : Prop where
  splits : ∃ u, Url.split c.baseUrl = .ok u
  seen : ∀ rule : ConfigRule, ¬ rule.Overlooked c

/-- A rule that is overlooked is broken. -/
theorem not_met_of_overlooked {rule : ConfigRule} (h : rule.Overlooked c) : ¬ rule.Met c := by
  cases rule with
  | baseUrl =>
    rintro ⟨v, hv, -, hhost⟩
    obtain ⟨u, hu, -, hnone⟩ := h
    cases hu.symm.trans hv
    exact hhost hnone
  | apiPath | bucket => exact h.elim
  | requestTimeout =>
    have hnan : c.requestTimeout = .real .nan := h
    simp [ConfigRule.Met, hnan, Seconds.Positive, Seconds.toRat?, Double.toRat?]
  | pullInterval =>
    have hnan : c.pullInterval = .real .nan := h
    simp [ConfigRule.Met, hnan, Seconds.Nonnegative, Seconds.toRat?, Double.toRat?]

theorem mem_brokenRules {rule : ConfigRule} : rule ∈ c.brokenRules ↔ ¬ rule.Met c := by
  have hall : rule ∈ ConfigRule.all := by cases rule <;> decide
  simp [brokenRules, hall]

/-- Leaving out the rules that are overlooked makes the list shorter, unless there are none. -/
theorem length_filter_brokenRules_iff :
    (c.brokenRules.filter fun rule => ¬ rule.Overlooked c).length = c.brokenRules.length ↔
      ∀ rule : ConfigRule, ¬ rule.Overlooked c := by
  rw [List.length_filter_eq_length_iff]
  constructor
  · intro h rule hrule
    have hmem := mem_brokenRules.2 (not_met_of_overlooked hrule)
    exact of_decide_eq_true (h rule hmem) hrule
  · intro h rule _
    exact decide_eq_true (h rule)

/-- A result stands for some rules that are broken: there is one when there are none, and otherwise
there is a failure of the configuration with the wording of each of them, in order. -/
def StandsFor {α : Type} (c : Config) (rules : List ConfigRule) (result : Except Failure α) :
    Prop :=
  if rules = [] then ∃ a, result = .ok a
  else ∃ f, result = .error f ∧ f.kind? = some .config ∧
    f.details.violations = rules.map fun rule => (rule.problem c).message

/-- A result tells how many rules it stands for. -/
theorem StandsFor.length_eq {α : Type} {rules others : List ConfigRule} {result : Except Failure α}
    (h : c.StandsFor rules result) (h' : c.StandsFor others result) :
    rules.length = others.length := by
  unfold StandsFor at h h'
  split at h
  next hrules =>
    split at h'
    next hothers => rw [hrules, hothers]
    next =>
      obtain ⟨a, ha⟩ := h
      obtain ⟨f, hf, -⟩ := h'
      cases ha.symm.trans hf
  next =>
    obtain ⟨f, hf, -, hviolations⟩ := h
    split at h'
    next =>
      obtain ⟨a, ha⟩ := h'
      cases ha.symm.trans hf
    next =>
      obtain ⟨g, hg, -, hviolations'⟩ := h'
      cases hf.symm.trans hg
      have hsame := congrArg List.length (hviolations.symm.trans hviolations')
      rwa [List.length_map, List.length_map] at hsame

variable {decorate : Option Decorator} {session : Option Nat} {transportInjected : Bool}

/-- The creation of a client stands for the rules that have an entry. -/
theorem standsFor_create {rules : List ConfigRule}
    (h : c.problems = .ok (rules.map (ConfigRule.problem c))) :
    c.StandsFor rules (StoreClient.create c decorate session transportInjected) := by
  unfold StandsFor StoreClient.create
  rw [h]
  cases rules with
  | nil => exact ⟨_, rfl⟩
  | cons rule rules =>
    refine ⟨_, rfl, rfl, ?_⟩
    simp [Failure.details]

/-- The error of a base address without parts is passed on. -/
theorem create_of_split_error {e : UrlError} (he : Url.split c.baseUrl = .error e) :
    StoreClient.create c decorate session transportInjected = .error (.badUrl e) := by
  unfold StoreClient.create
  rw [problems_of_split_error he]

theorem problems_eq_brokenRules_iff :
    c.problems = .ok (c.brokenRules.map (ConfigRule.problem c)) ↔ c.Checkable := by
  constructor
  · intro h
    cases hsplit : Url.split c.baseUrl with
    | error e =>
      rw [problems_of_split_error hsplit] at h
      cases h
    | ok u =>
      rw [problems_of_split hsplit] at h
      have hlength := congrArg List.length (Except.ok.inj h)
      rw [List.length_map, List.length_map] at hlength
      exact ⟨⟨u, hsplit⟩, length_filter_brokenRules_iff.1 hlength⟩
  · rintro ⟨⟨u, hu⟩, hseen⟩
    rw [problems_of_split hu, List.filter_eq_self.2 fun rule _ => decide_eq_true (hseen rule)]

theorem standsFor_brokenRules_iff :
    c.StandsFor c.brokenRules (StoreClient.create c decorate session transportInjected) ↔
      c.Checkable := by
  constructor
  · intro h
    cases hsplit : Url.split c.baseUrl with
    | error e =>
      rw [create_of_split_error hsplit, StandsFor] at h
      split at h
      · obtain ⟨a, ha⟩ := h
        cases ha
      · obtain ⟨f, hf, hkind, -⟩ := h
        cases hf
        cases hkind
    | ok u =>
      have hseen := (standsFor_create (problems_of_split hsplit)).length_eq h
      exact ⟨⟨u, hsplit⟩, length_filter_brokenRules_iff.1 hseen⟩
  · intro h
    exact standsFor_create (problems_eq_brokenRules_iff.2 h)

/-- A configuration is reported for just the rules that it breaks, one entry for each in order, when
its base address has parts and no rule is overlooked, and only then.  Otherwise the rules that are
overlooked are missing, or the error of the base address is passed on, which is none of the
configuration. -/
theorem reports_brokenRules_iff (c : Config) (decorate : Option Decorator) (session : Option Nat)
    (transportInjected : Bool) :
    (c.problems = .ok (c.brokenRules.map (ConfigRule.problem c)) ↔ c.Checkable) ∧
      (c.StandsFor c.brokenRules (StoreClient.create c decorate session transportInjected) ↔
        c.Checkable) ∧
      (∀ u, Url.split c.baseUrl = .ok u →
        c.StandsFor (c.brokenRules.filter fun rule => ¬ rule.Overlooked c)
          (StoreClient.create c decorate session transportInjected)) ∧
      ∀ e, Url.split c.baseUrl = .error e →
        StoreClient.create c decorate session transportInjected = .error (.badUrl e) ∧
          (Failure.badUrl e).kind? = none := by
  refine ⟨problems_eq_brokenRules_iff, standsFor_brokenRules_iff, ?_, ?_⟩
  · intro u hu
    exact standsFor_create (problems_of_split hu)
  · intro e he
    exact ⟨create_of_split_error he, rfl⟩

/-- A configuration that breaks every rule. -/
def broken : Config where
  baseUrl := "store.example.com"
  bucket := ""
  apiPath := ""
  requestTimeout := .whole 0
  pullInterval := .real (Double.ofInt (-1))

/-- It has five entries. -/
theorem reports_brokenRules_iff_broken :
    broken.Checkable ∧ ∃ f, StoreClient.create broken none none false = .error f ∧
      f.kind? = some .config ∧ f.details.violations =
        ["base_url must be an absolute http(s) URL, got 'store.example.com'",
          "empty string api_path", "empty string bucket", "request_timeout must be positive, got 0",
          "negative pull_interval -1.0"] := by
  have hseen : ∀ rule : ConfigRule, ¬ rule.Overlooked broken := by
    intro rule
    cases rule <;> decide +kernel
  have hchecked : broken.Checkable := ⟨⟨_, rfl⟩, hseen⟩
  have hall : broken.brokenRules = ConfigRule.all := by decide +kernel
  obtain ⟨-, hcreate, -⟩ := reports_brokenRules_iff broken none none false
  have hstands := hcreate.2 hchecked
  rw [hall, StandsFor, if_neg (by decide)] at hstands
  obtain ⟨f, hf, hkind, hviolations⟩ := hstands
  refine ⟨hchecked, f, hf, hkind, hviolations.trans ?_⟩
  decide +kernel

/-- A base address without parts hides that the bucket is missing as well; one with nothing but a
port, and spans that are no numbers, are accepted. -/
theorem brokenRules_not_reported :
    brokenRules { baseUrl := "http://[", bucket := "" } = [.baseUrl, .bucket] ∧
      problems { baseUrl := "http://[", bucket := "" } = .error .brackets ∧
      brokenRules { baseUrl := "http://:80", bucket := "b", requestTimeout := .real .nan
                    pullInterval := .real .nan } = [.baseUrl, .requestTimeout, .pullInterval] ∧
      problems { baseUrl := "http://:80", bucket := "b", requestTimeout := .real .nan
                 pullInterval := .real .nan } = .ok [] := by
  refine ⟨by decide +kernel, problems_of_split_error rfl, by decide +kernel, ?_⟩
  exact problems_eq_ok (by decide +kernel)

end Config

end HookRegistry
