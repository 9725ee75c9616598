import HookRegistry.Config.Environment

/-!
# What a configuration takes from the environment

`Takes` says where the value of a field comes from: the caller, else the text of its variable, else
the default.  A configuration is read exactly when every field takes its value in this way, and it
is refused exactly when the variable of a number that the caller does not give holds no number.
Nothing else of the environment matters, so a variable is without effect, however it is spelled,
when the caller gives its field: `reads_behind_given`.
-/

namespace HookRegistry

/-- The fields of a configuration. -/
inductive ConfigField where
  | baseUrl
  | bucket
  | apiPath
  | requestTimeout
  | pullInterval
  deriving DecidableEq, Repr

namespace ConfigField

/-- The variable that is read for a field. -/
def variableName : ConfigField → String
  | .baseUrl => "ANCLA_STORE_BASE_URL"
  | .bucket => "ANCLA_STORE_BUCKET"
  | .apiPath => "ANCLA_STORE_API_PATH"
  | .requestTimeout => "ANCLA_REQUEST_TIMEOUT"
  | .pullInterval => "ANCLA_PULL_INTERVAL"

/-- The text of the variable, when it is set. -/
def text? (env : Environment) (f : ConfigField) : Option String :=
  Assoc.get? f.variableName env

/-- The caller gives the field. -/
def IsGiven (given : ConfigFields) : ConfigField → Prop
  | .baseUrl => given.baseUrl ≠ none
  | .bucket => given.bucket ≠ none
  | .apiPath => given.apiPath ≠ none
  | .requestTimeout => given.requestTimeout ≠ none
  | .pullInterval => given.pullInterval ≠ none

/-- The field is a number. -/
def IsNumber : ConfigField → Prop
  | .requestTimeout | .pullInterval => True
  | .baseUrl | .bucket | .apiPath => False

/-- The text of the variable is needed for a number and is none. -/
def Malformed (env : Environment) (given : ConfigFields) (f : ConfigField) (text : String) : Prop :=
  f.IsNumber ∧ ¬ f.IsGiven given ∧ f.text? env = some text ∧ Seconds.doubleOfText? text = none

end ConfigField

/-- Two environments differ at most in variables of fields that the caller gives. -/
def Environment.AgreeBut (given : ConfigFields) (env env' : Environment) : Prop :=
  ∀ f : ConfigField, ¬ f.IsGiven given → f.text? env = f.text? env'

namespace Config

/-- The value of a field: what the caller gives, else what the text of the variable is read as, else
the default. -/
inductive Takes {α : Type} (read : String → Option α) (given : Option α) (text : Option String)
    (fallback : α) : α → Prop where
  | given {a : α} (hgiven : given = some a) : Takes read given text fallback a
  | spelled {t : String} {a : α} (hgiven : given = none) (htext : text = some t)
      (hread : read t = some a) : Takes read given text fallback a
  | fallback (hgiven : given = none) (htext : text = none) : Takes read given text fallback fallback

/-- A number is read from a text as a double. -/
def spanOfText? (text : String) : Option Seconds :=
  (Seconds.doubleOfText? text).map .real

/-- The configuration of an environment without variables. -/
def defaults : Config where
  baseUrl := ""
  bucket := ""

/-- Every field of a configuration comes from where it should. -/
structure ComesFrom (env : Environment) (given : ConfigFields) (c : Config) : Prop where
  baseUrl : Takes some given.baseUrl (ConfigField.baseUrl.text? env) defaults.baseUrl c.baseUrl
  bucket : Takes some given.bucket (ConfigField.bucket.text? env) defaults.bucket c.bucket
  apiPath : Takes some given.apiPath (ConfigField.apiPath.text? env) defaults.apiPath c.apiPath
  requestTimeout : Takes spanOfText? given.requestTimeout (ConfigField.requestTimeout.text? env)
    defaults.requestTimeout c.requestTimeout
  pullInterval : Takes spanOfText? given.pullInterval (ConfigField.pullInterval.text? env)
    defaults.pullInterval c.pullInterval

/-! ## Fields -/

section Fields

variable {env env' : Environment} {given : Option Seconds} {name : String} {fallback : Seconds}

/-- A text is taken as it is. -/
theorem takes_text_iff {given text : Option String} {fallback a : String} :
    Takes some given text fallback a ↔ (given.or text).getD fallback = a := by
  constructor
  · rintro (hgiven | ⟨hgiven, htext, hread⟩ | ⟨hgiven, htext⟩)
    · rw [hgiven]
      rfl
    · cases hread
      rw [hgiven, htext]
      rfl
    · rw [hgiven, htext]
      rfl
  · rintro rfl
    cases given with
    | some a => exact .given rfl
    | none =>
      cases text with
      | some t => exact .spelled rfl rfl rfl
      | none => exact .fallback rfl rfl

/-- The number of a field is read when it is given, or its variable is unset or holds a number. -/
theorem takes_span_iff {a : Seconds} :
    Takes spanOfText? given (Assoc.get? name env) fallback a ↔
      ∃ s, spanFrom env name given = .ok s ∧ s.getD fallback = a := by
  unfold spanFrom
  constructor
  · rintro (hgiven | ⟨hgiven, htext, hread⟩ | ⟨hgiven, htext⟩)
    · exact ⟨some a, by rw [hgiven], rfl⟩
    · obtain ⟨x, hx, rfl⟩ := Option.map_eq_some_iff.1 hread
      exact ⟨some (.real x), by simp only [hgiven, htext, hx], rfl⟩
    · exact ⟨none, by simp only [hgiven, htext], rfl⟩
  · rintro ⟨s, hs, rfl⟩
    split at hs
    next =>
      cases hs
      exact .given rfl
    next htext =>
      cases hs
      exact .fallback rfl htext
    next t htext =>
      split at hs
      next x hx =>
        cases hs
        exact .spelled rfl htext (by rw [spanOfText?, hx]; rfl)
      next => cases hs

/-- It is refused when it is not given and its variable holds no number. -/
theorem spanFrom_eq_error_iff {text : String} :
    spanFrom env name given = .error text ↔
      given = none ∧ Assoc.get? name env = some text ∧ Seconds.doubleOfText? text = none := by
  unfold spanFrom
  constructor
  · intro h
    split at h
    next => cases h
    next => cases h
    next t htext =>
      split at h
      next => cases h
      next hx =>
        cases h
        exact ⟨rfl, htext, hx⟩
  · rintro ⟨hgiven, htext, hread⟩
    simp only [hgiven, htext, hread]

/-- The environment is looked at for a field that is not given, and only there. -/
theorem spanFrom_congr (h : given = none → Assoc.get? name env = Assoc.get? name env') :
    spanFrom env name given = spanFrom env' name given := by
  cases given with
  | some s => rfl
  | none =>
    unfold spanFrom
    rw [h rfl]

end Fields

theorem or_congr {given text text' : Option String} (h : given = none → text = text') :
    given.or text = given.or text' := by
  cases given with
  | some s => rfl
  | none => rw [h rfl]

/-! ## Whole configurations -/

section Whole

variable {env env' : Environment} {given : ConfigFields} {c : Config} {text : String}

/-- The configuration for some numbers, or none where the default is wanted. -/
def withSpans (env : Environment) (given : ConfigFields)
    (requestTimeout pullInterval : Option Seconds) : Config where
  baseUrl := (given.baseUrl.or (ConfigField.baseUrl.text? env)).getD defaults.baseUrl
  bucket := (given.bucket.or (ConfigField.bucket.text? env)).getD defaults.bucket
  apiPath := (given.apiPath.or (ConfigField.apiPath.text? env)).getD defaults.apiPath
  requestTimeout := requestTimeout.getD defaults.requestTimeout
  pullInterval := pullInterval.getD defaults.pullInterval

/-- The numbers are read first, the timeout before the interval. -/
theorem fromEnvironment_eq (env : Environment) (given : ConfigFields) :
    fromEnvironment env given =
      (spanFrom env ConfigField.requestTimeout.variableName given.requestTimeout).bind fun t =>
        (spanFrom env ConfigField.pullInterval.variableName given.pullInterval).bind fun i =>
          .ok (withSpans env given t i) :=
  rfl

/-- A number is refused when its variable is malformed. -/
theorem spanFrom_requestTimeout_eq_error_iff :
    spanFrom env ConfigField.requestTimeout.variableName given.requestTimeout = .error text ↔
      ConfigField.requestTimeout.Malformed env given text := by
  simp [spanFrom_eq_error_iff, ConfigField.Malformed, ConfigField.IsNumber, ConfigField.IsGiven,
    ConfigField.text?]

theorem spanFrom_pullInterval_eq_error_iff :
    spanFrom env ConfigField.pullInterval.variableName given.pullInterval = .error text ↔
      ConfigField.pullInterval.Malformed env given text := by
  simp [spanFrom_eq_error_iff, ConfigField.Malformed, ConfigField.IsNumber, ConfigField.IsGiven,
    ConfigField.text?]

/-- A configuration is read when every field comes from where it should. -/
theorem fromEnvironment_eq_ok_iff : fromEnvironment env given = .ok c ↔ ComesFrom env given c := by
  rw [fromEnvironment_eq]
  constructor
  · intro h
    cases htimeout : spanFrom env ConfigField.requestTimeout.variableName given.requestTimeout with
    | error t =>
      rw [htimeout] at h
      cases h
    | ok t =>
      cases hinterval : spanFrom env ConfigField.pullInterval.variableName given.pullInterval with
      | error i =>
        rw [htimeout, hinterval] at h
        cases h
      | ok i =>
        rw [htimeout, hinterval] at h
        cases h
        exact
          { baseUrl := takes_text_iff.2 rfl
            bucket := takes_text_iff.2 rfl
            apiPath := takes_text_iff.2 rfl
            requestTimeout := takes_span_iff.2 ⟨t, htimeout, rfl⟩
            pullInterval := takes_span_iff.2 ⟨i, hinterval, rfl⟩ }
  · intro h
    obtain ⟨t, htimeout, ht⟩ := takes_span_iff.1 h.requestTimeout
    obtain ⟨i, hinterval, hi⟩ := takes_span_iff.1 h.pullInterval
    rw [htimeout, hinterval]
    obtain ⟨baseUrl, bucket, apiPath, requestTimeout, pullInterval⟩ := c
    cases takes_text_iff.1 h.baseUrl
    cases takes_text_iff.1 h.bucket
    cases takes_text_iff.1 h.apiPath
    cases ht
    cases hi
    rfl

/-- It is refused for the timeout, or for the interval when the timeout is in order. -/
theorem fromEnvironment_eq_error_iff :
    fromEnvironment env given = .error text ↔
      ConfigField.requestTimeout.Malformed env given text ∨
        (∀ t, ¬ ConfigField.requestTimeout.Malformed env given t) ∧
          ConfigField.pullInterval.Malformed env given text := by
  simp only [← spanFrom_requestTimeout_eq_error_iff, ← spanFrom_pullInterval_eq_error_iff]
  rw [fromEnvironment_eq]
  cases spanFrom env ConfigField.requestTimeout.variableName given.requestTimeout with
  | error t => simp [Except.bind]
  | ok t =>
    cases spanFrom env ConfigField.pullInterval.variableName given.pullInterval with
    | error i => simp [Except.bind]
    | ok i => simp [Except.bind]

/-- Some field is malformed when the timeout or the interval is. -/
theorem exists_malformed_iff :
    (∃ f : ConfigField, ∃ t, f.Malformed env given t) ↔
      (∃ t, ConfigField.requestTimeout.Malformed env given t) ∨
        ∃ t, ConfigField.pullInterval.Malformed env given t := by
  constructor
  · rintro ⟨f, t, ht⟩
    cases f with
    | baseUrl | bucket | apiPath => exact ht.1.elim
    | requestTimeout => exact .inl ⟨t, ht⟩
    | pullInterval => exact .inr ⟨t, ht⟩
  · rintro (⟨t, ht⟩ | ⟨t, ht⟩)
    · exact ⟨_, t, ht⟩
    · exact ⟨_, t, ht⟩

/-- Environments that differ in variables of given fields only read as the same. -/
theorem fromEnvironment_congr (h : Environment.AgreeBut given env env') :
    fromEnvironment env given = fromEnvironment env' given := by
  have hbaseUrl : given.baseUrl.or (ConfigField.baseUrl.text? env) =
      given.baseUrl.or (ConfigField.baseUrl.text? env') :=
    or_congr fun hnone => h .baseUrl fun hgiven => hgiven hnone
  have hbucket : given.bucket.or (ConfigField.bucket.text? env) =
      given.bucket.or (ConfigField.bucket.text? env') :=
    or_congr fun hnone => h .bucket fun hgiven => hgiven hnone
  have hapiPath : given.apiPath.or (ConfigField.apiPath.text? env) =
      given.apiPath.or (ConfigField.apiPath.text? env') :=
    or_congr fun hnone => h .apiPath fun hgiven => hgiven hnone
  have htimeout :
      spanFrom env ConfigField.requestTimeout.variableName given.requestTimeout =
        spanFrom env' ConfigField.requestTimeout.variableName given.requestTimeout :=
    spanFrom_congr fun hnone => h .requestTimeout fun hgiven => hgiven hnone
  have hinterval :
      spanFrom env ConfigField.pullInterval.variableName given.pullInterval =
        spanFrom env' ConfigField.pullInterval.variableName given.pullInterval :=
    spanFrom_congr fun hnone => h .pullInterval fun hgiven => hgiven hnone
  simp only [fromEnvironment_eq, withSpans]
  rw [htimeout, hinterval, hbaseUrl, hbucket, hapiPath]

end Whole

/-- Every field of a configuration that is read is what the caller gives, else what its variable
holds, else the default.  It is refused exactly when the variable of a number that the caller does
not give holds no number, with the text of the first of them.  Two environments that differ in
variables of given fields only come to the same, whether that is a configuration or an error. -/
theorem reads_behind_given (env : Environment) (given : ConfigFields) :
    (∀ c, fromEnvironment env given = .ok c ↔ ComesFrom env given c) ∧
      ((∃ t, fromEnvironment env given = .error t) ↔
        ∃ f : ConfigField, ∃ t, f.Malformed env given t) ∧
      (∀ t, fromEnvironment env given = .error t ↔
        ConfigField.requestTimeout.Malformed env given t ∨
          (∀ u, ¬ ConfigField.requestTimeout.Malformed env given u) ∧
            ConfigField.pullInterval.Malformed env given t) ∧
      ∀ env', Environment.AgreeBut given env env' →
        fromEnvironment env given = fromEnvironment env' given := by
  refine ⟨fun c => fromEnvironment_eq_ok_iff, ?_, fun t => fromEnvironment_eq_error_iff,
    fun env' => fromEnvironment_congr⟩
  rw [exists_malformed_iff]
  simp only [fromEnvironment_eq_error_iff]
  constructor
  · rintro ⟨t, ht | ⟨-, ht⟩⟩
    · exact .inl ⟨t, ht⟩
    · exact .inr ⟨t, ht⟩
  · rintro (⟨t, ht⟩ | ⟨t, ht⟩)
    · exact ⟨t, .inl ht⟩
    · by_cases hfirst : ∃ u, ConfigField.requestTimeout.Malformed env given u
      · exact hfirst.imp fun u hu => .inl hu
      · exact ⟨t, .inr ⟨fun u hu => hfirst ⟨u, hu⟩, ht⟩⟩

/-- An environment with a timeout that is no number. -/
def hasty : Environment :=
  [("ANCLA_STORE_BASE_URL", "http://store"), ("ANCLA_STORE_BUCKET", "hooks"),
    ("ANCLA_REQUEST_TIMEOUT", "soon"), ("ANCLA_PULL_INTERVAL", " 2_0.5 ")]

/-- It is refused for its timeout, unless the caller gives one: then it reads as an environment
without that variable, also when the two differ in a bucket that is given. -/
theorem reads_behind_given_hasty :
    fromEnvironment hasty { bucket := some "mine" } = .error "soon" ∧
      let given : ConfigFields := { bucket := some "mine", requestTimeout := some (.whole 7) }
      let plain : Environment :=
        [("ANCLA_PULL_INTERVAL", " 2_0.5 "), ("ANCLA_STORE_BASE_URL", "http://store")]
      Environment.AgreeBut given hasty plain ∧
        fromEnvironment hasty given = fromEnvironment plain given ∧
        fromEnvironment plain given = .ok
          { baseUrl := "http://store", bucket := "mine", requestTimeout := .whole 7
            pullInterval := .real (Double.ofRat (41 / 2)) } := by
  refine ⟨((reads_behind_given hasty _).2.2.1 "soon").2 (.inl ?_), ?_⟩
  · exact ⟨trivial, fun hgiven => hgiven rfl, rfl, by decide +kernel⟩
  · intro given plain
    have hagree : Environment.AgreeBut given hasty plain := by
      intro f hf
      cases f with
      | baseUrl | apiPath | pullInterval => rfl
      | bucket | requestTimeout => exact absurd (fun hnone => by cases hnone) hf
    refine ⟨hagree, (reads_behind_given hasty given).2.2.2 plain hagree, ?_⟩
    exact ((reads_behind_given plain given).1 _).2
      { baseUrl := .spelled rfl rfl rfl
        bucket := .given rfl
        apiPath := .fallback rfl rfl
        requestTimeout := .given rfl
        pullInterval := .spelled rfl rfl (by decide +kernel) }

end Config

end HookRegistry
