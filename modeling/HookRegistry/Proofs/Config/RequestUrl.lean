import HookRegistry.Config.Basic
import HookRegistry.Proofs.Url.Authority
import HookRegistry.Transport.Basic

/-!
# The addresses of requests

A configuration that breaks no rule has addresses that are split without an error into the scheme
and the network location of its base address, so no request to them is turned down for its address:
`check_bucketUrl`, `check_itemUrl`.
-/

namespace HookRegistry.Config

/-- Nothing is wrong with a base address that leads to a host by one of the schemes of the web. -/
theorem baseUrlProblems_eq_nil_iff {c : Config} :
    c.baseUrlProblems = .ok [] ↔ ∃ u, Url.split c.baseUrl = .ok u ∧ u.isAbsoluteHttp = true := by
  unfold baseUrlProblems
  by_cases hempty : c.baseUrl = ""
  · have hsplit : Url.split "" = .ok ⟨[], [], [], [], []⟩ := rfl
    rw [hempty, hsplit]
    simp [Url.isAbsoluteHttp]
  · rw [if_neg (by simp [hempty])]
    cases hsplit : Url.split c.baseUrl with
    | error e => simp [bind, Except.bind]
    | ok u =>
      cases habsolute : u.isAbsoluteHttp <;>
        simp [bind, Except.bind, pure, Except.pure, habsolute]

theorem problemIf_eq_nil_iff {broken : Bool} {p : ConfigProblem} :
    problemIf broken p = [] ↔ broken = false := by
  cases broken <;> simp [problemIf]

/-- A configuration breaks no rule. -/
theorem problems_eq_nil_iff {c : Config} :
    c.problems = .ok [] ↔
      (∃ u, Url.split c.baseUrl = .ok u ∧ u.isAbsoluteHttp = true) ∧ c.apiPath ≠ "" ∧
        c.bucket ≠ "" ∧ (c.requestTimeout.isNegative || c.requestTimeout.isZero) = false ∧
        c.pullInterval.isNegative = false := by
  rw [← baseUrlProblems_eq_nil_iff]
  unfold problems
  cases c.baseUrlProblems with
  | error e => simp [bind, Except.bind]
  | ok base =>
    simp only [bind, Except.bind, pure, Except.pure, Except.ok.injEq, List.append_eq_nil_iff,
      problemIf_eq_nil_iff, Bool.eq_false_iff, Ne, String.isEmpty_iff, and_assoc]

/-- The base address of a configuration that breaks no rule. -/
theorem split_baseUrl {c : Config} (h : c.problems = .ok []) :
    ∃ u, Url.split c.baseUrl = .ok u ∧ u.isAbsoluteHttp = true :=
  (problems_eq_nil_iff.1 h).1

/-- An address that begins with the base address and a slash. -/
theorem split_below_baseUrl {c : Config} (h : c.problems = .ok []) (path : String) :
    ∃ u v, Url.split c.baseUrl = .ok u ∧ u.isAbsoluteHttp = true ∧
      Url.split (dropSlashesRight c.baseUrl ++ "/" ++ path) = .ok v ∧
      v.scheme = u.scheme ∧ v.netloc = u.netloc := by
  obtain ⟨u, hu, habsolute⟩ := split_baseUrl h
  obtain ⟨slashes, hbase, hslashes⟩ :=
    Text.exists_stripRight_append (· == '/') c.baseUrl.toList
  have hbaseUrl : String.ofList (Text.stripRight (· == '/') c.baseUrl.toList ++ slashes) =
      c.baseUrl := by rw [← hbase, String.ofList_toList]
  rw [← hbaseUrl] at hu
  obtain ⟨v, hv, hscheme, hnetloc⟩ :=
    Url.split_append (fun d hd => beq_iff_eq.1 (hslashes d hd)) hu habsolute path.toList
  rw [hbaseUrl] at hu
  have hlong : String.ofList (Text.stripRight (· == '/') c.baseUrl.toList ++ '/' :: path.toList) =
      dropSlashesRight c.baseUrl ++ "/" ++ path := by
    apply String.toList_injective
    simp [dropSlashesRight]
  rw [hlong] at hv
  exact ⟨u, v, hu, habsolute, hv, hscheme, hnetloc⟩

/-- The path of the bucket below the base address. -/
theorem bucketUrl_eq (c : Config) :
    c.bucketUrl = dropSlashesRight c.baseUrl ++ "/" ++ (dropSlashes c.apiPath ++ "/" ++ c.bucket) := by
  simp only [bucketUrl, storeUrl, String.append_assoc]

theorem itemUrl_eq (c : Config) (id : String) :
    c.itemUrl id = dropSlashesRight c.baseUrl ++ "/" ++
      (dropSlashes c.apiPath ++ "/" ++ c.bucket ++ "/" ++ id) := by
  simp only [itemUrl, bucketUrl, storeUrl, String.append_assoc]

/-- No address below the base address is turned down. -/
theorem check_below_baseUrl {c : Config} (h : c.problems = .ok []) {method : String}
    (hmethod : Transport.isMethod method = true) (path : String) :
    Transport.check method (dropSlashesRight c.baseUrl ++ "/" ++ path) = .ok () := by
  obtain ⟨u, v, -, habsolute, hv, hscheme, hnetloc⟩ := split_below_baseUrl h path
  have hsame : v.isAbsoluteHttp = true := by
    unfold Url.isAbsoluteHttp at habsolute ⊢
    rw [hscheme, hnetloc]
    exact habsolute
  simp [Transport.check, hmethod, hv, hsame]

theorem check_bucketUrl {c : Config} (h : c.problems = .ok []) {method : String}
    (hmethod : Transport.isMethod method = true) :
    Transport.check method c.bucketUrl = .ok () := by
  rw [bucketUrl_eq]
  exact check_below_baseUrl h hmethod _

theorem check_itemUrl {c : Config} (h : c.problems = .ok []) {method : String}
    (hmethod : Transport.isMethod method = true) (id : String) :
    Transport.check method (c.itemUrl id) = .ok () := by
  rw [itemUrl_eq]
  exact check_below_baseUrl h hmethod _

/-- That a configuration breaks no rule can be found by evaluation. -/
theorem problems_eq_ok {c : Config} (h : c.problems.toOption = some []) : c.problems = .ok [] := by
  cases hproblems : c.problems with
  | error e =>
    rw [hproblems] at h
    cases h
  | ok problems =>
    rw [hproblems] at h
    cases h
    rfl

end HookRegistry.Config
