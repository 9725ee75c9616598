import HookRegistry.StoreClient

/-!
# Whose the session is

A client talks through a transport that was handed in, over a session that was handed in, or over a
session of its own.  `Owns` is the invariant that ties its fields together in each of the three
cases; opening and closing keep it.  A session of its own exists only while the client is open, so
that opening and closing a closed client leaves it as it was: `close_enter_of_closed`.
-/

namespace HookRegistry

namespace StoreClient

/-- How a client, its session and what it talks through belong together. -/
structure Owns (c : StoreClient) (sessions : Sessions) : Prop where
  /-- The session is one that exists. -/
  exists_session : ∀ n, c.session = some n → n < sessions.length
  session_injected : c.sessionInjected = true → c.session ≠ none
  /-- A transport that was handed in is never dropped, and nothing is opened beside it. -/
  transport_injected : c.transportInjected = true →
    c.channel = some .injected ∧ (c.sessionInjected = false → c.session = none)
  /-- Without one the client talks over its session. -/
  over_session : c.transportInjected = false → ∀ channel, c.channel = some channel →
    ∃ n, channel = .session n ∧ c.session = some n
  /-- A closed client has no session of its own. -/
  closed : c.channel = none → c.sessionInjected = false → c.session = none

theorem create_eq_ok {config : Config} {decorate : Option Decorator} {session : Option Nat}
    {transportInjected : Bool} {c : StoreClient}
    (h : create config decorate session transportInjected = .ok c) :
    c = { config, decorate, transportInjected, session
          sessionInjected := session.isSome
          channel := if transportInjected then some .injected else none } := by
  unfold create at h
  split at h
  · cases h
  · exact (Except.ok.inj h).symm
  · cases h

/-- The configuration of a client breaks no rule. -/
theorem problems_create {config : Config} {decorate : Option Decorator} {session : Option Nat}
    {transportInjected : Bool} {c : StoreClient}
    (h : create config decorate session transportInjected = .ok c) : config.problems = .ok [] := by
  unfold create at h
  split at h
  · cases h
  next hproblems => exact hproblems
  · cases h

/-- A new client owns nothing. -/
theorem owns_create {config : Config} {decorate : Option Decorator} {session : Option Nat}
    {transportInjected : Bool} {c : StoreClient} {sessions : Sessions}
    (hsession : ∀ n, session = some n → n < sessions.length)
    (h : create config decorate session transportInjected = .ok c) : c.Owns sessions := by
  have hnone : session.isSome = false → session = none := by
    intro h
    cases session with
    | none => rfl
    | some n => cases h
  rw [create_eq_ok h]
  refine ⟨hsession, ?_, ?_, ?_, fun _ => hnone⟩
  · intro hsome hsession
    rw [show session = none from hsession] at hsome
    cases hsome
  · intro htransport
    exact ⟨if_pos htransport, hnone⟩
  · intro htransport channel hchannel
    rw [show transportInjected = false from htransport] at hchannel
    cases hchannel

/-- Opening an open client does nothing. -/
theorem enter_of_open {c : StoreClient} {channel : Channel} (h : c.channel = some channel)
    (sessions : Sessions) : c.enter sessions = (c, sessions) := by
  simp only [enter, h]

/-- A client that has a session is opened over it. -/
theorem enter_of_session {c : StoreClient} {n : Nat} (h : c.channel = none)
    (hsession : c.session = some n) (sessions : Sessions) :
    c.enter sessions = ({ c with channel := some (.session n) }, sessions) := by
  simp only [enter, h, hsession]

/-- Any other client is opened over a new session. -/
theorem enter_of_no_session {c : StoreClient} (h : c.channel = none) (hsession : c.session = none)
    (sessions : Sessions) :
    c.enter sessions =
      ({ c with session := some sessions.length, channel := some (.session sessions.length) },
        sessions ++ [0]) := by
  simp only [enter, h, hsession]

/-- Opening changes the session and what the client talks through, and nothing else. -/
theorem enter_frame (c : StoreClient) (sessions : Sessions) :
    ∃ session channel, (c.enter sessions).1 = { c with session, channel } := by
  cases hchannel : c.channel with
  | some channel => exact ⟨_, _, by rw [enter_of_open hchannel]⟩
  | none =>
    cases hsession : c.session with
    | some n => exact ⟨_, _, by rw [enter_of_session hchannel hsession]⟩
    | none => exact ⟨_, _, by rw [enter_of_no_session hchannel hsession]⟩

theorem Owns.enter {c : StoreClient} {sessions : Sessions} (hc : c.Owns sessions) :
    (c.enter sessions).1.Owns (c.enter sessions).2 := by
  cases hchannel : c.channel with
  | some channel =>
    rw [enter_of_open hchannel]
    exact hc
  | none =>
    have htransport : c.transportInjected ≠ true := by
      intro htransport
      rw [(hc.transport_injected htransport).1] at hchannel
      cases hchannel
    cases hsession : c.session with
    | some n =>
      rw [enter_of_session hchannel hsession]
      refine ⟨hc.exists_session, hc.session_injected, fun h => absurd h htransport, ?_, ?_⟩
      · intro _ channel h
        cases h
        exact ⟨n, rfl, hsession⟩
      · intro h
        cases h
    | none =>
      rw [enter_of_no_session hchannel hsession]
      refine ⟨?_, fun _ h => (by cases h), fun h => absurd h htransport, ?_, ?_⟩
      · intro n hn
        cases hn
        rw [List.length_append]
        exact Nat.lt_succ_self _
      · intro _ channel h
        cases h
        exact ⟨_, rfl, rfl⟩
      · intro h
        cases h

/-- Closing a client closes its own session and drops its own transport. -/
theorem close_eq (c : StoreClient) (sessions : Sessions) :
    c.close sessions =
      ({ c with
          session := if c.sessionInjected then c.session else none
          channel := if c.transportInjected then c.channel else none },
        match c.sessionInjected, c.session with
        | false, some n => sessions.modify n (· + 1)
        | _, _ => sessions) := by
  obtain ⟨config, decorate, sessionInjected, transportInjected, session, channel⟩ := c
  unfold close
  cases sessionInjected <;> cases transportInjected <;> cases session <;> rfl

/-- So does closing. -/
theorem close_frame (c : StoreClient) (sessions : Sessions) :
    ∃ session channel, (c.close sessions).1 = { c with session, channel } :=
  ⟨_, _, by rw [close_eq]⟩

/-- A client whose transport was not handed in is closed. -/
theorem channel_close {c : StoreClient} (h : c.transportInjected = false) (sessions : Sessions) :
    (c.close sessions).1.channel = none := by
  rw [close_eq]
  exact if_neg (Bool.eq_false_iff.1 h)

/-- Closing counts for its own session, and for no other. -/
theorem sessions_close {c : StoreClient} {n : Nat} (hown : c.sessionInjected = false)
    (hsession : c.session = some n) (sessions : Sessions) :
    (c.close sessions).2 = sessions.modify n (· + 1) := by
  rw [close_eq, hown, hsession]

theorem length_sessions_close (c : StoreClient) (sessions : Sessions) :
    (c.close sessions).2.length = sessions.length := by
  rw [close_eq]
  show (match c.sessionInjected, c.session with
    | false, some n => sessions.modify n (· + 1)
    | _, _ => sessions).length = sessions.length
  split
  · exact List.length_modify _ _ _
  · rfl

theorem Owns.close {c : StoreClient} {sessions : Sessions} (hc : c.Owns sessions) :
    (c.close sessions).1.Owns (c.close sessions).2 := by
  have hlength := c.length_sessions_close sessions
  have hkept : ∀ n, (c.close sessions).1.session = some n → c.session = some n := by
    intro n hn
    rw [close_eq] at hn
    cases hinjected : c.sessionInjected with
    | true => simpa [hinjected] using hn
    | false => simp [hinjected] at hn
  refine ⟨?_, ?_, ?_, ?_, ?_⟩
  · intro n hn
    rw [hlength]
    exact hc.exists_session n (hkept n hn)
  · intro hinjected
    rw [close_eq] at hinjected ⊢
    rw [if_pos hinjected]
    exact hc.session_injected hinjected
  · intro htransport
    rw [close_eq] at htransport ⊢
    obtain ⟨hchannel, -⟩ := hc.transport_injected htransport
    refine ⟨(if_pos htransport).trans hchannel, fun hinjected => ?_⟩
    exact if_neg (Bool.eq_false_iff.1 hinjected)
  · intro htransport channel hchannel
    rw [close_eq] at htransport hchannel
    rw [show (if c.transportInjected then c.channel else none) = none from
      if_neg (Bool.eq_false_iff.1 htransport)] at hchannel
    cases hchannel
  · intro _ hinjected
    rw [close_eq] at hinjected ⊢
    exact if_neg (Bool.eq_false_iff.1 hinjected)

/-- The newest session is closed. -/
theorem modify_newest (sessions : Sessions) :
    (sessions ++ [0]).modify sessions.length (· + 1) = sessions ++ [1] := by
  induction sessions with
  | nil => rfl
  | cons count sessions ih => exact congrArg (count :: ·) ih

/-- A closed client that is opened and closed is as it was, and the sessions that there were are as
they were: if there is a new one, it is closed. -/
theorem Owns.close_enter_of_closed {c : StoreClient} {sessions : Sessions} (hc : c.Owns sessions)
    (hclosed : c.channel = none) :
    ∃ fresh, (c.enter sessions).1.close (c.enter sessions).2 = (c, sessions ++ fresh) ∧
      ∀ count ∈ fresh, count = 1 := by
  obtain ⟨config, decorate, sessionInjected, transportInjected, session, channel⟩ := c
  cases hclosed
  have htransport : transportInjected = false := by
    cases transportInjected with
    | false => rfl
    | true => cases (hc.transport_injected rfl).1
  cases htransport
  cases sessionInjected with
  | false =>
    cases hc.closed rfl rfl
    refine ⟨[1], ?_, by simp⟩
    rw [enter_of_no_session rfl rfl, close_eq]
    exact congrArg (Prod.mk _) (modify_newest sessions)
  | true =>
    cases session with
    | none => exact absurd rfl (hc.session_injected rfl)
    | some n =>
      refine ⟨[], ?_, by simp⟩
      rw [enter_of_session rfl rfl, close_eq, List.append_nil]
      rfl

end StoreClient

end HookRegistry
