import HookRegistry.Proofs.Config.RequestUrl
import HookRegistry.Proofs.Transport.Stages
import HookRegistry.StoreClient

/-!
# A client that can serve requests

A client serves when it is open, its configuration breaks no rule and its credentials can be added;
`serves_enter` says that this is so once it was created and entered.
Every question to the store that has a proper method and an address below the base address then
goes out to the session as it is, and the reply of the session comes back as the answer:
`through_asks`.
-/

namespace HookRegistry.StoreClient

/-- What a client needs so that its requests go out. -/
structure Serves (c : StoreClient) : Prop where
  validated : c.config.problems = .ok []
  isOpen : c.channel.isSome = true
  authorized : ∀ decorate ∈ c.decorate, ∀ headers, (decorate headers).2 = .ok ()

/-- A client that was created and entered serves, when its credentials can always be added. -/
theorem serves_enter {config : Config} {decorate : Option Decorator} {session : Option Nat}
    {transportInjected : Bool} {c : StoreClient}
    (h : create config decorate session transportInjected = .ok c)
    (hdecorate : ∀ d ∈ decorate, ∀ headers, (d headers).2 = .ok ()) (sessions : Sessions) :
    (c.enter sessions).1.Serves := by
  unfold create at h
  split at h
  · cases h
  next hproblems =>
    cases h
    cases transportInjected with
    | true => exact ⟨hproblems, rfl, hdecorate⟩
    | false =>
      cases session with
      | none => exact ⟨hproblems, rfl, hdecorate⟩
      | some n => exact ⟨hproblems, rfl, hdecorate⟩
  · cases h

/-- The decorator of the client, when there is one, does not fail on the headers of a request. -/
def Authorizes (c : StoreClient) (r : StoreRequest) : Prop :=
  ∀ decorate ∈ c.decorate, (decorate (Transport.plainHeaders r)).2 = .ok ()

theorem Serves.authorizes {c : StoreClient} (hc : c.Serves) (r : StoreRequest) : c.Authorizes r :=
  fun decorate hdecorate => hc.authorized decorate hdecorate _

/-- A request that passes the check of its method and address is sent. -/
theorem prepare_eq_ok {c : StoreClient} {r : StoreRequest}
    (hcheck : Transport.check r.method r.url = .ok ()) (hauth : c.Authorizes r) :
    ∃ q, c.transport.prepare r = .ok q ∧ q.method = r.method ∧ q.url = r.url ∧ q.body = r.body := by
  have hauthorized : (c.transport.decorated r).2 = .ok () := by
    show ((c.decorate.getD fun headers => (headers, .ok ())) (Transport.plainHeaders r)).2 = .ok ()
    cases hd : c.decorate with
    | none => rfl
    | some decorate => exact hauth decorate (by rw [hd]; rfl)
  refine ⟨c.transport.sessionRequest r, ?_, rfl, rfl, rfl⟩
  rw [Transport.prepare_eq, hcheck, hauthorized]

/-- A question to the store, and the answer to it, pass the transport. -/
theorem through_asks {α : Type} {c : StoreClient} (hc : c.Serves) {r : StoreRequest}
    (hcheck : Transport.check r.method r.url = .ok ())
    (finish : Except Failure StoreResponse → Outcome α) :
    ∃ q log after, (Exchange.asks r [] finish).through c.transport.send = .asks q log after ∧
      q.method = r.method ∧ q.url = r.url ∧ q.body = r.body ∧
      ∀ status headers body, (after (.answered status headers (.ok body))).result =
        (finish (.ok { status, errorHeader := Transport.headerValue Transport.errorHeader headers
                       body })).result := by
  obtain ⟨q, hq, hmethod, hurl, hbody⟩ := prepare_eq_ok hcheck (hc.authorizes r)
  have hsend : c.transport.send r =
      .asks q [⟨.debug, .transport, r.method ++ " " ++ r.url⟩] fun reply =>
        { result := Transport.receive r.url reply } := by
    unfold Transport.send
    rw [hq]
  simp only [Exchange.through, hsend]
  exact ⟨q, _, _, rfl, hmethod, hurl, hbody, fun _ _ _ => rfl⟩

/-- An open client asks. -/
theorem ask_eq {α : Type} {c : StoreClient} (hc : c.Serves) (r : StoreRequest)
    (finish : StoreResponse → Outcome α) :
    c.ask r finish = .asks r [] fun
      | .error f => { result := .error f }
      | .ok response => finish response := by
  have hopen := hc.isOpen
  unfold ask
  split
  next hclosed =>
    rw [hclosed] at hopen
    cases hopen
  next => rfl

end HookRegistry.StoreClient
