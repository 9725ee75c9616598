import HookRegistry.Transport.Basic

/-!
# The stages of a send

A send checks the method and the address, has credentials added, lets the session send the request
and reads the body of the answer.  `Stops` says at which of these stages a send breaks off, and with
which failure where there was one; it breaks off at one stage or at none.

A caller tells the stage by the kind of the failure, and finds the original failure as its cause:
`Classified`.  There are three ways to get past this, listed in `Escapes`.  An address that cannot
be split fails as it does anywhere else.  A session that fails with something that is neither a
fault of a session nor an unacceptable value has its failure passed on.  And while the body is read
nothing but the faults of a session are failures of reading.  `classified_unless_escapes` says that
these three are the only ones.
-/

namespace HookRegistry

namespace Transport

/-! ## What a send does -/

/-- What a transport does to headers; without a decorator they stay as they are. -/
def decoration (t : Transport) : Decorator :=
  t.decorate.getD fun headers => (headers, .ok ())

/-- What becomes of the headers of a request, and whether the decorator failed. -/
def decorated (t : Transport) (r : StoreRequest) : Headers × Except Failure Unit :=
  t.decoration (plainHeaders r)

/-- The request for the session, with the headers as the decorator left them. -/
def sessionRequest (t : Transport) (r : StoreRequest) : SessionRequest where
  method := r.method
  url := r.url
  body := r.body
  headers := (t.decorated r).1
  timeout := r.timeout.getD t.requestTimeout

/-- A request is prepared once its method and address are accepted and its credentials are added. -/
theorem prepare_eq (t : Transport) (r : StoreRequest) :
    t.prepare r =
      match check r.method r.url, (t.decorated r).2 with
      | .error f, _ => .error f
      | .ok (), .error f => .error (.authDecorator r.url f)
      | .ok (), .ok () => .ok (t.sessionRequest r) := by
  unfold prepare sessionRequest decorated decoration
  cases check r.method r.url with
  | error f => rfl
  | ok =>
    cases t.decorate with
    | none => rfl
    | some decorate =>
      simp only [Option.getD_some, bind, Except.bind]
      cases (decorate (plainHeaders r)).2 <;> rfl

/-- The result of a send, when the session has `reply` for the request. -/
def resultOf (t : Transport) (reply : Reply) (r : StoreRequest) : Except Failure StoreResponse :=
  ((t.send r).run (fun _ _ => (reply, ())) ()).1.result

/-- The result of a send, stage by stage. -/
theorem resultOf_eq (t : Transport) (reply : Reply) (r : StoreRequest) :
    t.resultOf reply r =
      match check r.method r.url, (t.decorated r).2 with
      | .error f, _ => .error f
      | .ok (), .error f => .error (.authDecorator r.url f)
      | .ok (), .ok () => receive r.url reply := by
  unfold resultOf send
  rw [prepare_eq]
  cases check r.method r.url with
  | error f => rfl
  | ok => cases (t.decorated r).2 <;> rfl

/-! ## Where a send breaks off -/

/-- The stages of a send. -/
inductive Stage where
  /-- The method and the address are checked. -/
  | request
  /-- The decorator adds credentials. -/
  | credentials
  /-- The session sends the request; there is no answer yet. -/
  | session
  /-- The body of the answer is read. -/
  | body
  deriving DecidableEq

/-- The end of a send that breaks off. -/
structure Break where
  stage : Stage
  /-- The failure that the stage reported, where there was one. -/
  original : Option Failure := none

/-- A method and an address that a request can have. -/
def Acceptable (r : StoreRequest) : Prop :=
  isMethod r.method = true ∧ ∃ u, Url.split r.url = .ok u ∧ u.isAbsoluteHttp = true

theorem check_eq_ok_iff {r : StoreRequest} : check r.method r.url = .ok () ↔ Acceptable r := by
  unfold check Acceptable
  cases isMethod r.method with
  | false => simp
  | true =>
    cases Url.split r.url with
    | error e => simp
    | ok u => simp

/-- The request goes out to the session. -/
structure GoesOut (t : Transport) (r : StoreRequest) : Prop where
  acceptable : Acceptable r
  authorized : (t.decorated r).2 = .ok ()

/-- Where a request that has gone out breaks off. -/
def breakOf : Reply → Option Break
  | .refused f => some { stage := .session, original := some f }
  | .answered _ _ (.error f) => some { stage := .body, original := some f }
  | .answered _ _ (.ok _) => none

/-- Where a send breaks off, when the session has `reply` for the request. -/
inductive Stops (t : Transport) (reply : Reply) (r : StoreRequest) : Option Break → Prop where
  | method (hmethod : isMethod r.method = false) : Stops t reply r (some { stage := .request })
  | address {e : UrlError} (hmethod : isMethod r.method = true)
      (hsplit : Url.split r.url = .error e) :
      Stops t reply r (some { stage := .request, original := some (.badUrl e) })
  | host {u : Url} (hmethod : isMethod r.method = true) (hsplit : Url.split r.url = .ok u)
      (hhost : u.isAbsoluteHttp = false) : Stops t reply r (some { stage := .request })
  | credentials {f : Failure} (hacceptable : Acceptable r) (hfails : (t.decorated r).2 = .error f) :
      Stops t reply r (some { stage := .credentials, original := some f })
  | out (hout : t.GoesOut r) : Stops t reply r (breakOf reply)

/-- Every send breaks off somewhere or comes through. -/
theorem exists_stops (t : Transport) (reply : Reply) (r : StoreRequest) :
    ∃ stop, t.Stops reply r stop := by
  cases hmethod : isMethod r.method with
  | false => exact ⟨_, .method hmethod⟩
  | true =>
    cases hsplit : Url.split r.url with
    | error e => exact ⟨_, .address hmethod hsplit⟩
    | ok u =>
      cases hhost : u.isAbsoluteHttp with
      | false => exact ⟨_, .host hmethod hsplit hhost⟩
      | true =>
        have hacceptable : Acceptable r := ⟨hmethod, u, hsplit, hhost⟩
        cases hauth : (t.decorated r).2 with
        | error f => exact ⟨_, .credentials hacceptable hauth⟩
        | ok => exact ⟨_, .out ⟨hacceptable, hauth⟩⟩

/-- A request that goes out breaks off nowhere before it does. -/
theorem Stops.eq_breakOf {t : Transport} {reply : Reply} {r : StoreRequest}
    {stop : Option Break} (h : t.Stops reply r stop) (hout : t.GoesOut r) :
    stop = breakOf reply := by
  obtain ⟨hmethod, u, hsplit, hhost⟩ := hout.acceptable
  cases h with
  | method hother =>
    rw [hmethod] at hother
    cases hother
  | address _ hother =>
    rw [hsplit] at hother
    cases hother
  | host _ hother hnone =>
    rw [hsplit] at hother
    cases hother
    rw [hhost] at hnone
    cases hnone
  | credentials _ hfails =>
    rw [hout.authorized] at hfails
    cases hfails
  | out => rfl

/-! ## What a caller hopes to see -/

/-- A result is a failure of a kind. -/
def FailsAs (result : Except Failure StoreResponse) (kind : ErrorKind) : Prop :=
  ∃ f, result = .error f ∧ f.kind? = some kind

theorem failsAs_error_iff {f : Failure} {kind : ErrorKind} :
    FailsAs (.error f) kind ↔ f.kind? = some kind := by
  unfold FailsAs
  constructor
  · rintro ⟨g, hg, hkind⟩
    cases hg
    exact hkind
  · intro hkind
    exact ⟨f, rfl, hkind⟩

/-- A send that comes through returns.  One that breaks off fails with an error of the transport,
which holds the address of the request and the original failure, and whose kind tells the stage. -/
structure Classified (url : String) (stop : Option Break) (result : Except Failure StoreResponse) :
    Prop where
  returns : stop = none → ∃ answer, result = .ok answer
  wraps : ∀ b, stop = some b → ∃ f kind, result = .error f ∧ f.kind? = some kind ∧
    kind.isA .transport = true ∧ f.cause? = b.original ∧ f.details.url = url
  request : ∀ b, stop = some b → b.stage = .request → FailsAs result .requestBuild
  credentials : FailsAs result .authDecorator ↔ ∃ b, stop = some b ∧ b.stage = .credentials
  /-- A failure to build or to send a request is one before there is an answer. -/
  unanswered : FailsAs result .requestBuild ∨ FailsAs result .requestExecution →
    ∃ b, stop = some b ∧ b.stage ≠ .body
  body : FailsAs result .responseRead ↔ ∃ b, stop = some b ∧ b.stage = .body

/-- The kinds of failure that name a stage. -/
def Stage.kinds : Stage → List ErrorKind
  | .request => [.requestBuild]
  | .credentials => [.authDecorator]
  | .session => [.requestBuild, .requestExecution]
  | .body => [.responseRead]

/-- What such a kind tells about the stage. -/
theorem Stage.kind_tells {stage : Stage} {kind : ErrorKind} (h : kind ∈ stage.kinds) :
    kind.isA .transport = true ∧ (stage = .request → kind = .requestBuild) ∧
      (kind = .authDecorator ↔ stage = .credentials) ∧ (kind = .responseRead ↔ stage = .body) := by
  cases stage with
  | request =>
    cases List.mem_singleton.1 h
    decide
  | credentials =>
    cases List.mem_singleton.1 h
    decide
  | session =>
    simp only [Stage.kinds, List.mem_cons, List.not_mem_nil, or_false] at h
    rcases h with rfl | rfl
    · decide
    · decide
  | body =>
    cases List.mem_singleton.1 h
    decide

/-- A failure of a kind that names its stage is what the caller hopes for. -/
theorem classified_of_kind {url : String} {b : Break} {f : Failure} {kind : ErrorKind}
    (hkind : f.kind? = some kind) (hstage : kind ∈ b.stage.kinds) (hcause : f.cause? = b.original)
    (hurl : f.details.url = url) : Classified url (some b) (.error f) := by
  obtain ⟨htransport, hrequest, hcredentials, hbody⟩ := Stage.kind_tells hstage
  have hnames : ∀ other, FailsAs (.error f) other ↔ kind = other := by
    intro other
    rw [failsAs_error_iff, hkind, Option.some.injEq]
  have hat : ∀ stage, (∃ c, some b = some c ∧ c.stage = stage) ↔ b.stage = stage := by
    intro stage
    simp
  refine ⟨fun h => (by cases h), ?_, ?_, ?_, ?_, ?_⟩
  · intro c hc
    cases hc
    exact ⟨f, kind, rfl, hkind, htransport, hcause, hurl⟩
  · intro c hc hstage
    cases hc
    exact (hnames _).2 (hrequest hstage)
  · rw [hnames, hat]
    exact hcredentials
  · intro h
    rw [hnames, hnames] at h
    refine ⟨b, rfl, fun hend => ?_⟩
    rw [hbody.2 hend] at h
    rcases h with h | h
    · cases h
    · cases h
  · rw [hnames, hat]
    exact hbody

theorem classified_ok (url : String) (answer : StoreResponse) :
    Classified url none (.ok answer) := by
  have hnone : ∀ kind, ¬ FailsAs (.ok answer) kind := by
    rintro kind ⟨f, hf, -⟩
    cases hf
  have hnowhere : ∀ stage, ¬ ∃ b, (none : Option Break) = some b ∧ b.stage = stage := by
    rintro stage ⟨b, hb, -⟩
    cases hb
  refine ⟨fun _ => ⟨answer, rfl⟩, fun b hb => (by cases hb), fun b hb => (by cases hb), ?_, ?_, ?_⟩
  · exact iff_of_false (hnone _) (hnowhere _)
  · intro h
    exact absurd h (not_or.2 ⟨hnone _, hnone _⟩)
  · exact iff_of_false (hnone _) (hnowhere _)

/-! ## How a failure gets past it -/

/-- The sends whose failure is not what the caller hopes for. -/
inductive Escapes (t : Transport) (reply : Reply) (r : StoreRequest) : Prop where
  /-- The address cannot be split. -/
  | address {e : UrlError} (hmethod : isMethod r.method = true)
      (hsplit : Url.split r.url = .error e)
  /-- The session fails with something else than its own faults and unacceptable values. -/
  | session {f : Failure} (hout : t.GoesOut r) (hreply : reply = .refused f)
      (hvalue : isBadValue f = false) (hfault : isSessionFault f = false)
  /-- The body fails with something else than the faults of a session. -/
  | body {status : Int} {headers : Headers} {f : Failure} (hout : t.GoesOut r)
      (hreply : reply = .answered status headers (.error f)) (hfault : isSessionFault f = false)

/-- What the caller gets for a request that goes out. -/
theorem GoesOut.resultOf {t : Transport} {r : StoreRequest} (hout : t.GoesOut r) (reply : Reply) :
    t.resultOf reply r = receive r.url reply := by
  rw [resultOf_eq, check_eq_ok_iff.2 hout.acceptable, hout.authorized]

/-- The failure of an address that cannot be split is that of splitting it. -/
theorem resultOf_of_split {t : Transport} {reply : Reply} {r : StoreRequest} {e : UrlError}
    (hmethod : isMethod r.method = true) (hsplit : Url.split r.url = .error e) :
    t.resultOf reply r = .error (.badUrl e) := by
  have hcheck : check r.method r.url = .error (.badUrl e) := by
    simp [check, hmethod, hsplit]
  rw [resultOf_eq, hcheck]

end Transport

/-- No failure is its own cause. -/
theorem Failure.cause?_ne_self (f : Failure) : f.cause? ≠ some f := by
  intro h
  cases f <;> cases h

namespace Transport

/-- Each of these failures is indeed not what the caller hopes for. -/
theorem Escapes.not_classified {t : Transport} {reply : Reply} {r : StoreRequest}
    (h : t.Escapes reply r) {stop : Option Break} (hstop : t.Stops reply r stop) :
    ¬ Classified r.url stop (t.resultOf reply r) := by
  intro hclassified
  cases h with
  | @address e hmethod hsplit =>
    rw [resultOf_of_split hmethod hsplit] at hclassified
    cases hstop' : stop with
    | none =>
      obtain ⟨answer, hanswer⟩ := hclassified.returns hstop'
      cases hanswer
    | some b =>
      obtain ⟨f, kind, hf, hkind, -⟩ := hclassified.wraps b hstop'
      cases hf
      cases hkind
  | @session f hout hreply hvalue hfault =>
    have hbreak := hstop.eq_breakOf hout
    rw [hreply] at hbreak
    have hresult : t.resultOf reply r = .error f := by
      rw [hout.resultOf, hreply, receive, sendFailure, hvalue, hfault]
      rfl
    rw [hresult] at hclassified
    obtain ⟨g, -, hg, -, -, hcause, -⟩ := hclassified.wraps _ hbreak
    cases hg
    exact f.cause?_ne_self hcause
  | @body status headers f hout hreply hfault =>
    have hbreak := hstop.eq_breakOf hout
    rw [hreply] at hbreak
    -- a reading failure is one of reading and holds the original failure
    obtain ⟨g, -, hg, -, -, hcause, -⟩ := hclassified.wraps _ hbreak
    obtain ⟨k, hk, hkind⟩ := hclassified.body.2 ⟨_, hbreak, rfl⟩
    rw [hout.resultOf, hreply, receive, readFailure, hfault] at hg hk
    cases hvalue : isBadValue f with
    | true =>
      rw [hvalue] at hk
      cases hk
      cases hkind
    | false =>
      rw [hvalue] at hg
      cases hg
      exact f.cause?_ne_self hcause

/-- Every other failure is. -/
theorem classified_of_not_escapes {t : Transport} {reply : Reply} {r : StoreRequest}
    (h : ¬ t.Escapes reply r) {stop : Option Break} (hstop : t.Stops reply r stop) :
    Classified r.url stop (t.resultOf reply r) := by
  cases hstop with
  | method hmethod =>
    have hcheck : check r.method r.url = .error (.unusableMethod r.method r.url) := by
      simp [check, hmethod]
    rw [resultOf_eq, hcheck]
    exact classified_of_kind rfl List.mem_cons_self rfl rfl
  | address hmethod hsplit => exact absurd (.address hmethod hsplit) h
  | host hmethod hsplit hhost =>
    have hcheck : check r.method r.url = .error (.unusableUrl r.url) := by
      simp [check, hmethod, hsplit, hhost]
    rw [resultOf_eq, hcheck]
    exact classified_of_kind rfl List.mem_cons_self rfl rfl
  | credentials hacceptable hfails =>
    rw [resultOf_eq, check_eq_ok_iff.2 hacceptable, hfails]
    exact classified_of_kind rfl List.mem_cons_self rfl rfl
  | out hout =>
    rw [hout.resultOf]
    cases reply with
    | refused f =>
      show Classified r.url (some _) (.error (sendFailure r.url f))
      unfold sendFailure
      by_cases hvalue : isBadValue f = true
      · rw [if_pos hvalue]
        exact classified_of_kind rfl List.mem_cons_self rfl rfl
      rw [if_neg hvalue]
      by_cases hfault : isSessionFault f = true
      · rw [if_pos hfault]
        exact classified_of_kind rfl (List.mem_cons_of_mem _ List.mem_cons_self) rfl rfl
      · exact absurd (.session hout rfl (Bool.eq_false_iff.2 hvalue) (Bool.eq_false_iff.2 hfault)) h
    | answered status headers body =>
      cases body with
      | ok body => exact classified_ok _ _
      | error f =>
        show Classified r.url (some _) (.error (readFailure r.url f))
        unfold readFailure
        by_cases hfault : isSessionFault f = true
        · rw [if_pos hfault]
          exact classified_of_kind rfl List.mem_cons_self rfl rfl
        · exact absurd (.body hout rfl (Bool.eq_false_iff.2 hfault)) h

/-- A request that goes out over a transport without a decorator. -/
theorem goesOut_plain : GoesOut {} { method := "GET", url := "http://s/b" } where
  acceptable := ⟨by decide, _, rfl, rfl⟩
  authorized := rfl

/-- A send fails in a way that is not what the caller hopes for. -/
def Misleads (t : Transport) (reply : Reply) (r : StoreRequest) (f : Failure) : Prop :=
  ∃ stop, t.Stops reply r stop ∧ t.resultOf reply r = .error f ∧
    ¬ Classified r.url stop (t.resultOf reply r)

/-- An address with one bracket, a session that fails with a fault that is not its own, and a body
that is not accepted: the first two failures reach the caller as they are, and the third one as a
failure to build a request that has been answered. -/
theorem stage_not_told :
    Misleads {} (.refused .notOpen) { method := "GET", url := "http://[" } (.badUrl .brackets) ∧
      Misleads {} (.refused (.fault .os "full")) { method := "GET", url := "http://s/b" }
        (.fault .os "full") ∧
      Misleads {} (.answered 200 [] (.error (.fault .badValue "odd")))
        { method := "GET", url := "http://s/b" }
        (.requestBuild "http://s/b" (.fault .badValue "odd")) := by
  refine ⟨?_, ?_, ?_⟩
  · have hmethod : isMethod "GET" = true := by decide
    have hsplit : Url.split "http://[" = .error .brackets := rfl
    obtain ⟨stop, hstop⟩ :=
      exists_stops {} (.refused .notOpen) { method := "GET", url := "http://[" }
    exact ⟨stop, hstop, resultOf_of_split hmethod hsplit,
      (Escapes.address hmethod hsplit).not_classified hstop⟩
  · exact ⟨_, .out goesOut_plain, goesOut_plain.resultOf _,
      (Escapes.session goesOut_plain rfl rfl rfl).not_classified (.out goesOut_plain)⟩
  · exact ⟨_, .out goesOut_plain, goesOut_plain.resultOf _,
      (Escapes.body goesOut_plain rfl rfl).not_classified (.out goesOut_plain)⟩

/-- For every request, decorator and reply of the session: the send breaks off somewhere or comes
through, and it returns, or fails with an error of the transport that names the stage and has the
original failure for its cause, exactly when it is none of the three sends that escape. -/
theorem classified_unless_escapes (t : Transport) (reply : Reply) (r : StoreRequest) :
    (∃ stop, t.Stops reply r stop) ∧
      ∀ stop, t.Stops reply r stop →
        (Classified r.url stop (t.resultOf reply r) ↔ ¬ t.Escapes reply r) := by
  refine ⟨exists_stops t reply r, fun stop hstop => ⟨?_, ?_⟩⟩
  · intro hclassified hescapes
    exact hescapes.not_classified hstop hclassified
  · intro hno
    exact classified_of_not_escapes hno hstop

/-- The body of an answer takes too long. -/
theorem classified_unless_escapes_late :
    ∃ reply stop, Stops {} reply { method := "GET", url := "http://s/b" } stop ∧
      stop = some { stage := .body, original := some (.fault .timeout "late") } ∧
      Classified "http://s/b" stop
        (resultOf {} reply { method := "GET", url := "http://s/b" }) := by
  have hstop : Stops {} (.answered 200 [] (.error (.fault .timeout "late")))
      { method := "GET", url := "http://s/b" } _ := .out goesOut_plain
  refine ⟨_, _, hstop, rfl, ?_⟩
  refine ((classified_unless_escapes {} _ _).2 _ hstop).2 fun hescapes => ?_
  cases hescapes with
  | address _ hsplit => cases hsplit
  | session _ hreply => cases hreply
  | body _ hreply hfault =>
    cases hreply
    cases hfault

end Transport

end HookRegistry
