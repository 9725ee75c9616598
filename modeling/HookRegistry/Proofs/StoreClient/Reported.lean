import HookRegistry.Proofs.StoreClient.Serving

/-!
# What comes back for a request

A request of a client meets a closed client, a decorator that fails, a session that does not send
it, a body that cannot be read, or an answer.  `Reports` lists these, each with what the client is
told, and `reports` says that there is nothing else, as long as the session reports nothing but what
it is known for.  `resultOf_mapOutcome_ask` reduces an operation to what comes back.
-/

namespace HookRegistry

/-- The session fails with faults that are its own, and with values that it does not accept. -/
def Reply.Foreseen : Reply → Prop
  | .refused f => Transport.isBadValue f = true ∨ Transport.isSessionFault f = true
  | .answered _ _ (.error f) => Transport.isBadValue f = true ∨ Transport.isSessionFault f = true
  | .answered _ _ (.ok _) => True

namespace StoreClient

variable {α β : Type}

/-- What the client is told about a request, when the session has `reply` for it. -/
inductive Reports (c : StoreClient) (reply : Reply) (r : StoreRequest) :
    Except Failure StoreResponse → Prop where
  /-- There is nothing to send it with. -/
  | closed (hclosed : c.channel = none) : Reports c reply r (.error .notOpen)
  /-- The credentials could not be added. -/
  | undecorated {decorate : Decorator} {f : Failure} (hopen : c.channel.isSome = true)
      (hdecorate : c.decorate = some decorate)
      (hfails : (decorate (Transport.plainHeaders r)).2 = .error f) :
      Reports c reply r (.error (.authDecorator r.url f))
  /-- The session did not accept it. -/
  | rejected {f : Failure} (hopen : c.channel.isSome = true) (hauth : c.Authorizes r)
      (hreply : reply = .refused f) (hvalue : Transport.isBadValue f = true) :
      Reports c reply r (.error (.requestBuild r.url f))
  /-- The session could not send it. -/
  | unsent {f : Failure} (hopen : c.channel.isSome = true) (hauth : c.Authorizes r)
      (hreply : reply = .refused f) (hvalue : Transport.isBadValue f = false)
      (hsession : Transport.isSessionFault f = true) :
      Reports c reply r (.error (.requestExecution r.url f))
  /-- The body of the answer could not be read. -/
  | unread {status : Int} {headers : Headers} {f : Failure} (hopen : c.channel.isSome = true)
      (hauth : c.Authorizes r) (hreply : reply = .answered status headers (.error f))
      (hsession : Transport.isSessionFault f = true) :
      Reports c reply r (.error (.responseRead r.url f))
  /-- The body of the answer was not accepted. -/
  | unaccepted {status : Int} {headers : Headers} {f : Failure} (hopen : c.channel.isSome = true)
      (hauth : c.Authorizes r) (hreply : reply = .answered status headers (.error f))
      (hsession : Transport.isSessionFault f = false) (hvalue : Transport.isBadValue f = true) :
      Reports c reply r (.error (.requestBuild r.url f))
  /-- There is an answer. -/
  | answered {status : Int} {headers : Headers} {body : ByteArray}
      (hopen : c.channel.isSome = true) (hauth : c.Authorizes r)
      (hreply : reply = .answered status headers (.ok body)) :
      Reports c reply r
        (.ok { status, errorHeader := Transport.headerValue Transport.errorHeader headers, body })

/-- Every failure to get an answer is one of the library's errors. -/
theorem Reports.isOwn {c : StoreClient} {reply : Reply} {r : StoreRequest} {f : Failure}
    (h : c.Reports reply r (.error f)) : f.isOwn = true := by
  cases h <;> rfl

/-- The result of an operation of the client, when the session has `reply` for its request. -/
def resultOf (c : StoreClient) (reply : Reply) (op : Operation α) : Except Failure α :=
  ((op.through c.transport.send).run (fun _ _ => (reply, ())) ()).1.result

/-- What comes back for a request. -/
def reported (c : StoreClient) (reply : Reply) (r : StoreRequest) : Except Failure StoreResponse :=
  match c.channel with
  | none => .error .notOpen
  | some _ => ((c.transport.send r).run (fun _ _ => (reply, ())) ()).1.result

/-- The end of an operation, by what came back for its request. -/
def conclude (finish : StoreResponse → Outcome α) : Except Failure StoreResponse → Outcome α
  | .error f => { result := .error f }
  | .ok response => finish response

/-- An operation that asks, and whose outcome is changed, ends with what came back. -/
theorem resultOf_mapOutcome_ask (c : StoreClient) (reply : Reply) (r : StoreRequest)
    (finish : StoreResponse → Outcome α) (f : Outcome α → Outcome β) :
    c.resultOf reply ((c.ask r finish).mapOutcome f) =
      (f (conclude finish (c.reported reply r))).result := by
  unfold resultOf ask reported
  cases c.channel with
  | none => rfl
  | some channel =>
    simp only [Exchange.mapOutcome, Exchange.through]
    cases c.transport.send r with
    | ended o => cases hresult : o.result <;> simp [Exchange.run, conclude, hresult]
    | asks q log after =>
      cases hresult : (after reply).result <;> simp [Exchange.run, conclude, hresult]

/-! ## What the session is asked, and what it replies -/

/-- A request whose credentials cannot be added is not sent. -/
theorem prepare_eq_error {c : StoreClient} {r : StoreRequest} {decorate : Decorator} {f : Failure}
    (hcheck : Transport.check r.method r.url = .ok ()) (hdecorate : c.decorate = some decorate)
    (hfails : (decorate (Transport.plainHeaders r)).2 = .error f) :
    c.transport.prepare r = .error (.authDecorator r.url f) := by
  have hdecorated : (c.transport.decorated r).2 = .error f := by
    show ((c.decorate.getD fun headers => (headers, .ok ())) (Transport.plainHeaders r)).2 =
      .error f
    rw [hdecorate]
    exact hfails
  rw [Transport.prepare_eq, hcheck, hdecorated]

/-- The decorator does not fail on a request, or it is the one that fails. -/
theorem authorizes_or_fails (c : StoreClient) (r : StoreRequest) :
    c.Authorizes r ∨ ∃ decorate f, c.decorate = some decorate ∧
      (decorate (Transport.plainHeaders r)).2 = .error f := by
  cases hdecorate : c.decorate with
  | none =>
    refine .inl fun decorate hmem => ?_
    rw [hdecorate] at hmem
    cases hmem
  | some decorate =>
    cases hresult : (decorate (Transport.plainHeaders r)).2 with
    | error f => exact .inr ⟨decorate, f, rfl, hresult⟩
    | ok =>
      refine .inl fun other hmem => ?_
      rw [hdecorate] at hmem
      cases hmem
      exact hresult

/-- What the client makes of the reply to a request that was sent. -/
theorem reports_receive {c : StoreClient} {r : StoreRequest} {reply : Reply}
    (hopen : c.channel.isSome = true) (hauth : c.Authorizes r) (hreply : reply.Foreseen) :
    c.Reports reply r (Transport.receive r.url reply) := by
  cases reply with
  | refused f =>
    simp only [Transport.receive, Transport.sendFailure]
    split
    next hvalue => exact .rejected hopen hauth rfl hvalue
    next hvalue =>
      have hsession := hreply.resolve_left hvalue
      rw [if_pos hsession]
      exact .unsent hopen hauth rfl (Bool.eq_false_iff.2 hvalue) hsession
  | answered status headers body =>
    cases body with
    | ok body => exact .answered hopen hauth rfl
    | error f =>
      simp only [Transport.receive, Transport.readFailure]
      split
      next hsession => exact .unread hopen hauth rfl hsession
      next hsession =>
        have hvalue := hreply.resolve_right hsession
        rw [if_pos hvalue]
        exact .unaccepted hopen hauth rfl (Bool.eq_false_iff.2 hsession) hvalue

/-- What comes back for a request that was sent. -/
theorem reported_of_authorizes {c : StoreClient} {r : StoreRequest} (reply : Reply)
    (hcheck : Transport.check r.method r.url = .ok ()) (hopen : c.channel.isSome = true)
    (hauth : c.Authorizes r) : c.reported reply r = Transport.receive r.url reply := by
  obtain ⟨channel, hchannel⟩ := Option.isSome_iff_exists.1 hopen
  obtain ⟨q, hq, -⟩ := prepare_eq_ok hcheck hauth
  simp only [reported, hchannel, Transport.send, hq]
  rfl

/-- What comes back when the credentials cannot be added. -/
theorem reported_of_fails {c : StoreClient} {r : StoreRequest} {decorate : Decorator} {f : Failure}
    (reply : Reply) (hcheck : Transport.check r.method r.url = .ok ())
    (hopen : c.channel.isSome = true) (hdecorate : c.decorate = some decorate)
    (hfails : (decorate (Transport.plainHeaders r)).2 = .error f) :
    c.reported reply r = .error (.authDecorator r.url f) := by
  obtain ⟨channel, hchannel⟩ := Option.isSome_iff_exists.1 hopen
  simp only [reported, hchannel, Transport.send, prepare_eq_error hcheck hdecorate hfails]
  rfl

theorem reported_of_closed {c : StoreClient} (reply : Reply) (r : StoreRequest)
    (hclosed : c.channel = none) : c.reported reply r = .error .notOpen := by
  simp only [reported, hclosed]

/-- What comes back for a request whose method and address are in order. -/
theorem reports (c : StoreClient) {reply : Reply} (hreply : reply.Foreseen) {r : StoreRequest}
    (hcheck : Transport.check r.method r.url = .ok ()) :
    c.Reports reply r (c.reported reply r) := by
  cases hchannel : c.channel with
  | none =>
    rw [reported_of_closed reply r hchannel]
    exact .closed hchannel
  | some channel =>
    have hopen : c.channel.isSome = true := by rw [hchannel]; rfl
    rcases c.authorizes_or_fails r with hauth | ⟨decorate, f, hdecorate, hfails⟩
    · rw [reported_of_authorizes reply hcheck hopen hauth]
      exact reports_receive hopen hauth hreply
    · rw [reported_of_fails reply hcheck hopen hdecorate hfails]
      exact .undecorated hopen hdecorate hfails

/-- There is an answer when the client is open, the credentials can be added and the session answers
with a body that can be read, whatever else the session may reply. -/
theorem reported_eq_ok_iff {c : StoreClient} {reply : Reply} {r : StoreRequest}
    (hcheck : Transport.check r.method r.url = .ok ()) {answer : StoreResponse} :
    c.reported reply r = .ok answer ↔ c.channel.isSome = true ∧ c.Authorizes r ∧
      ∃ status headers body, reply = .answered status headers (.ok body) ∧
        answer =
          { status, errorHeader := Transport.headerValue Transport.errorHeader headers, body } := by
  constructor
  · intro h
    cases hchannel : c.channel with
    | none =>
      rw [reported_of_closed reply r hchannel] at h
      cases h
    | some channel =>
      have hopen : c.channel.isSome = true := by rw [hchannel]; rfl
      rcases c.authorizes_or_fails r with hauth | ⟨decorate, f, hdecorate, hfails⟩
      · rw [reported_of_authorizes reply hcheck hopen hauth] at h
        refine ⟨rfl, hauth, ?_⟩
        match reply, h with
        | .answered status headers (.ok body), h =>
          exact ⟨status, headers, body, rfl, (Except.ok.inj h).symm⟩
      · rw [reported_of_fails reply hcheck hopen hdecorate hfails] at h
        cases h
  · rintro ⟨hopen, hauth, status, headers, body, rfl, rfl⟩
    exact reported_of_authorizes _ hcheck hopen hauth

/-- An operation that asks ends with what came back. -/
theorem resultOf_ask (c : StoreClient) (reply : Reply) (r : StoreRequest)
    (finish : StoreResponse → Outcome α) :
    c.resultOf reply (c.ask r finish) = (conclude finish (c.reported reply r)).result := by
  have hsame : (c.ask r finish).mapOutcome id = c.ask r finish := by
    cases c.ask r finish <;> rfl
  rw [← hsame]
  exact c.resultOf_mapOutcome_ask reply r finish id

/-- An operation has this one request, and ends by what comes back for it. -/
def Asks (c : StoreClient) (reply : Reply) (r : StoreRequest)
    (ends : Except Failure StoreResponse → Prop) : Prop :=
  ∃ back, c.Reports reply r back ∧ ends back

theorem Asks.imp {c : StoreClient} {reply : Reply} {r : StoreRequest}
    {ends others : Except Failure StoreResponse → Prop} (h : c.Asks reply r ends)
    (himp : ∀ back, ends back → others back) : c.Asks reply r others := by
  obtain ⟨back, hreports, hends⟩ := h
  exact ⟨back, hreports, himp back hends⟩

end StoreClient

end HookRegistry
