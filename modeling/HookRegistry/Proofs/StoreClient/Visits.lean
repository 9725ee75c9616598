import HookRegistry.Proofs.StoreClient.Conversation
import HookRegistry.Proofs.StoreClient.Ownership

/-!
# Sessions over a whole talk

A visit of a client begins with the first enter since its creation or its last close, and ends with
the next close.  A client that was handed neither a session nor a transport has one session of its
own for each visit.

`Visits` counts the visits of a talk from its moves alone.  `Tenancy` says what a client and the
sessions look like after so many visits: `Tenancy.step` carries it over one move and `tenancy_run`
over a talk.  `created_once` follows a single session from the enter that opens it.
`sessions_of_talk` puts together what holds after every talk: which sessions there are and how often
each was closed, which calls reach a transport, and that a closed client is the new one again.
-/

namespace HookRegistry

namespace Talk

open StoreClient (Call)

/-! ## Visits -/

/-- The visits of a client. -/
structure Visits where
  /-- How many have ended. -/
  ended : Nat := 0
  /-- Whether one is under way. -/
  underWay : Bool := false

namespace Visits

/-- The visits after one more move. -/
def next (v : Visits) : Move → Visits
  | .enter => { v with underWay := true }
  | .close => { ended := if v.underWay then v.ended + 1 else v.ended }
  | .call _ | .send _ => v

/-- The visits after more moves. -/
def after (v : Visits) (moves : List Move) : Visits :=
  moves.foldl next v

end Visits

/-- The client was entered and has not been closed since. -/
def EnteredSinceClose (moves : List Move) : Prop :=
  ∃ before rest, moves = before ++ .enter :: rest ∧ Move.close ∉ rest

theorem not_enteredSinceClose_nil : ¬ EnteredSinceClose [] := by
  rintro ⟨before, rest, hmoves, -⟩
  cases before <;> cases hmoves

theorem enteredSinceClose_cons_iff {move : Move} {moves : List Move} :
    EnteredSinceClose (move :: moves) ↔
      (move = .enter ∧ .close ∉ moves) ∨ EnteredSinceClose moves := by
  constructor
  · rintro ⟨before, rest, hmoves, hrest⟩
    cases before with
    | nil =>
      cases hmoves
      exact .inl ⟨rfl, hrest⟩
    | cons first before =>
      cases hmoves
      exact .inr ⟨before, rest, rfl, hrest⟩
  · rintro (⟨rfl, hmoves⟩ | ⟨before, rest, rfl, hrest⟩)
    · exact ⟨[], moves, rfl, hmoves⟩
    · exact ⟨move :: before, rest, rfl, hrest⟩

/-- A visit is under way when it was before and has not ended, or when one has begun since the last
close. -/
theorem Visits.underWay_after_iff {v : Visits} {moves : List Move} :
    (v.after moves).underWay = true ↔
      (v.underWay = true ∧ .close ∉ moves) ∨ EnteredSinceClose moves := by
  induction moves generalizing v with
  | nil =>
    have hnot := not_enteredSinceClose_nil
    simp [after, hnot]
  | cons move moves ih =>
    rw [enteredSinceClose_cons_iff]
    refine (ih (v := v.next move)).trans ?_
    cases move with
    | enter => simp +contextual [next]
    | close => simp [next]
    | call called => simp [next]
    | send r => simp [next]

/-! ## What a talk leaves -/

/-- A client as it was created: what was handed in decides what it has. -/
structure Untouched (c : StoreClient) : Prop where
  channel : c.channel = if c.transportInjected then some .injected else none
  session : c.sessionInjected = c.session.isSome

theorem untouched_create {config : Config} {decorate : Option Decorator} {session : Option Nat}
    {transportInjected : Bool} {c : StoreClient}
    (h : StoreClient.create config decorate session transportInjected = .ok c) : Untouched c := by
  rw [StoreClient.create_eq_ok h]
  exact ⟨rfl, rfl⟩

/-- What has become of a client that was `c`, and of the sessions that there were, after visits. -/
inductive Tenancy (c : StoreClient) (sessions : Sessions) (v : Visits) :
    StoreClient → Sessions → Prop where
  /-- It talks through the transport that was handed in. -/
  | handedTransport (htransport : c.transportInjected = true) : Tenancy c sessions v c sessions
  /-- It does not talk over the session that was handed in. -/
  | awayHanded {n : Nat} (htransport : c.transportInjected = false) (hsession : c.session = some n)
      (hvisit : v.underWay = false) : Tenancy c sessions v c sessions
  /-- It talks over the session that was handed in. -/
  | homeHanded {n : Nat} (htransport : c.transportInjected = false) (hsession : c.session = some n)
      (hvisit : v.underWay = true) :
      Tenancy c sessions v { c with channel := some (.session n) } sessions
  /-- Every visit that has ended has left a session that was closed once. -/
  | away (htransport : c.transportInjected = false) (hsession : c.session = none)
      (hvisit : v.underWay = false) :
      Tenancy c sessions v c (sessions ++ List.replicate v.ended 1)
  /-- The visit that is under way has one more session. -/
  | home (htransport : c.transportInjected = false) (hsession : c.session = none)
      (hvisit : v.underWay = true) :
      Tenancy c sessions v
        { c with
          session := some (sessions.length + v.ended)
          channel := some (.session (sessions.length + v.ended)) }
        (sessions ++ List.replicate v.ended 1 ++ [0])

variable {c client : StoreClient} {sessions now : Sessions} {v : Visits}

/-- A client that was handed no transport is created closed. -/
theorem Untouched.closed (hc : Untouched c) (htransport : c.transportInjected = false) :
    c.channel = none := by
  rw [hc.channel, htransport]
  rfl

theorem Tenancy.enter (h : Tenancy c sessions v client now) (hc : Untouched c) :
    Tenancy c sessions (v.next .enter) (client.enter now).1 (client.enter now).2 := by
  cases h with
  | handedTransport htransport =>
    rw [StoreClient.enter_of_open (hc.channel.trans (if_pos htransport))]
    exact .handedTransport htransport
  | awayHanded htransport hsession hvisit =>
    rw [StoreClient.enter_of_session (hc.closed htransport) hsession]
    exact .homeHanded htransport hsession rfl
  | homeHanded htransport hsession hvisit =>
    rw [StoreClient.enter_of_open rfl]
    exact .homeHanded htransport hsession rfl
  | away htransport hsession hvisit =>
    have hlength : (sessions ++ List.replicate v.ended 1).length = sessions.length + v.ended := by
      simp
    rw [StoreClient.enter_of_no_session (hc.closed htransport) hsession, hlength]
    exact .home htransport hsession rfl
  | home htransport hsession hvisit =>
    rw [StoreClient.enter_of_open rfl]
    exact .home htransport hsession rfl

/-- A client that is as it was created has nothing to close. -/
theorem Untouched.close (hc : Untouched c) (sessions : Sessions) :
    c.close sessions = (c, sessions) := by
  obtain ⟨config, decorate, sessionInjected, transportInjected, session, channel⟩ := c
  obtain ⟨hchannel, hsession⟩ := hc
  dsimp only at hchannel hsession
  subst hsession
  rw [hchannel, StoreClient.close_eq]
  cases transportInjected <;> cases session <;> rfl

/-- What a client of its own transport talks through makes no difference to its close. -/
theorem close_with_channel (htransport : c.transportInjected = false) (channel : Option Channel)
    (sessions : Sessions) :
    ({ c with channel } : StoreClient).close sessions = c.close sessions := by
  simp only [StoreClient.close_eq, htransport, Bool.false_eq_true, if_false]

/-- A session of its own is closed, and the client is as it was created. -/
theorem Untouched.close_own (hc : Untouched c) (htransport : c.transportInjected = false)
    (hsession : c.session = none) (sessions : Sessions) (channel : Option Channel) :
    ({ c with session := some sessions.length, channel } : StoreClient).close (sessions ++ [0]) =
      (c, sessions ++ [1]) := by
  have hclosed := hc.closed htransport
  have hinjected : c.sessionInjected = false := by rw [hc.session, hsession]; rfl
  obtain ⟨config, decorate, sessionInjected, transportInjected, session, old⟩ := c
  cases htransport
  cases hsession
  cases hclosed
  cases hinjected
  rw [StoreClient.close_eq]
  exact congrArg (Prod.mk _) (StoreClient.modify_newest sessions)

theorem Tenancy.close (h : Tenancy c sessions v client now) (hc : Untouched c) :
    Tenancy c sessions (v.next .close) (client.close now).1 (client.close now).2 := by
  cases h with
  | handedTransport htransport =>
    rw [hc.close]
    exact .handedTransport htransport
  | awayHanded htransport hsession hvisit =>
    rw [hc.close]
    exact .awayHanded htransport hsession rfl
  | homeHanded htransport hsession hvisit =>
    rw [close_with_channel htransport, hc.close]
    exact .awayHanded htransport hsession rfl
  | away htransport hsession hvisit =>
    have hended : (v.next .close).ended = v.ended := by simp [Visits.next, hvisit]
    rw [hc.close, ← hended]
    exact .away htransport hsession rfl
  | home htransport hsession hvisit =>
    have hended : (v.next .close).ended = v.ended + 1 := by simp [Visits.next, hvisit]
    have hlength : sessions.length + v.ended = (sessions ++ List.replicate v.ended 1).length := by
      simp
    have hsessions : sessions ++ List.replicate v.ended 1 ++ [1] =
        sessions ++ List.replicate (v.next .close).ended 1 := by
      rw [hended, List.replicate_succ', List.append_assoc]
    rw [hlength, hc.close_own htransport hsession, hsessions]
    exact .away htransport hsession rfl

/-- A new client has not been visited. -/
theorem tenancy_new (c : StoreClient) (sessions : Sessions) : Tenancy c sessions {} c sessions := by
  cases htransport : c.transportInjected with
  | true => exact .handedTransport htransport
  | false =>
    cases hsession : c.session with
    | some n => exact .awayHanded htransport hsession rfl
    | none =>
      have haway : Tenancy c sessions {} c (sessions ++ []) := .away htransport hsession rfl
      simpa using haway

variable {κ σ : Type} {w : Surroundings κ σ} {s : State κ σ}

/-- A move is a visit's beginning or end at most. -/
theorem Tenancy.step (h : Tenancy c sessions v s.client s.sessions) (hc : Untouched c)
    (move : Move) :
    Tenancy c sessions (v.next move) (s.step w move).client (s.step w move).sessions := by
  cases move with
  | enter => exact h.enter hc
  | close => exact h.close hc
  | call called => exact h
  | send r => exact h

/-- After a talk the client and the sessions are as the visits of the talk say. -/
theorem tenancy_run (h : Tenancy c sessions v s.client s.sessions) (hc : Untouched c)
    (moves : List Move) :
    Tenancy c sessions (v.after moves) (s.run w moves).client (s.run w moves).sessions := by
  induction moves generalizing s v with
  | nil => exact h
  | cons move moves ih => exact ih (h.step hc move)

/-! ## The sessions of the visits -/

namespace Visits

/-- How often the sessions of the visits were closed: each that has ended has one that was closed
once, and the one that is under way has an open one. -/
def counts (v : Visits) : Sessions :=
  List.replicate v.ended 1 ++ if v.underWay then [0] else []

theorem getElem?_counts_of_lt {v : Visits} {k : Nat} (h : k < v.ended) :
    v.counts[k]? = some 1 := by
  rw [counts, List.getElem?_append_left (by simpa using h)]
  exact List.getElem?_replicate_of_lt h

theorem getElem?_counts_ended {v : Visits} (h : v.underWay = true) :
    v.counts[v.ended]? = some 0 := by
  simp [counts, h]

/-- Only the session of the visit that is under way is open. -/
theorem eq_ended_of_open {v : Visits} {k : Nat} (h : v.counts[k]? = some 0) : k = v.ended := by
  rcases Nat.lt_trichotomy k v.ended with hlt | heq | hgt
  · rw [getElem?_counts_of_lt hlt] at h
    cases h
  · exact heq
  · have hlength : v.counts.length ≤ k := by
      unfold counts
      split <;> simp <;> omega
    rw [List.getElem?_eq_none hlength] at h
    cases h

/-- A session that a move adds is that of the visit which the move begins. -/
theorem added_next {v : Visits} {move : Move} {k : Nat} (hnew : v.counts.length ≤ k)
    (hthere : k < (v.next move).counts.length) :
    move = .enter ∧ k = (v.next move).ended ∧ (v.next move).underWay = true := by
  obtain ⟨ended, underWay⟩ := v
  cases move with
  | enter => cases underWay <;> simp [next, counts] at * <;> omega
  | close => cases underWay <;> simp [next, counts] at * <;> omega
  | call | send => exact absurd hthere (Nat.not_lt.2 hnew)

theorem ended_le_next (v : Visits) (move : Move) : v.ended ≤ (v.next move).ended := by
  cases move with
  | enter | call | send => exact Nat.le_refl _
  | close =>
    show v.ended ≤ if v.underWay then v.ended + 1 else v.ended
    split <;> omega

theorem ended_le_after (v : Visits) (moves : List Move) : v.ended ≤ (v.after moves).ended := by
  induction moves generalizing v with
  | nil => exact Nat.le_refl _
  | cons move moves ih => exact Nat.le_trans (v.ended_le_next move) (ih (v.next move))

/-- A visit goes on until the first close. -/
theorem after_of_underWay {v : Visits} (h : v.underWay = true) (moves : List Move) :
    (.close ∉ moves → v.after moves = v) ∧ (.close ∈ moves → v.ended < (v.after moves).ended) := by
  induction moves with
  | nil => exact ⟨fun _ => rfl, fun hclose => absurd hclose List.not_mem_nil⟩
  | cons move moves ih =>
    cases move with
    | enter =>
      have hsame : v.next .enter = v := by rw [next, ← h]
      simpa [after, hsame] using ih
    | close =>
      refine ⟨fun hclose => absurd List.mem_cons_self hclose, fun _ => ?_⟩
      have hended : (v.next .close).ended = v.ended + 1 := if_pos h
      have hle := (v.next .close).ended_le_after moves
      show v.ended < ((v.next .close).after moves).ended
      omega
    | call called => simpa [after, next] using ih
    | send r => simpa [after, next] using ih

/-- The session of a visit is open until the first close and closed once after that. -/
theorem counts_after_of_underWay {v : Visits} (h : v.underWay = true) (moves : List Move) :
    (.close ∉ moves → (v.after moves).counts[v.ended]? = some 0) ∧
      (.close ∈ moves → (v.after moves).counts[v.ended]? = some 1) := by
  obtain ⟨hstays, hends⟩ := after_of_underWay h moves
  refine ⟨fun hclose => ?_, fun hclose => getElem?_counts_of_lt (hends hclose)⟩
  rw [hstays hclose]
  exact getElem?_counts_ended h

end Visits

/-- What a client was handed on creation, a session or a transport. -/
def Handed (c : StoreClient) : Prop :=
  c.session ≠ none ∨ c.transportInjected = true

/-- A client that was handed something adds no sessions. -/
theorem Tenancy.eq_of_handed (h : Tenancy c sessions v client now) (hhanded : Handed c) :
    now = sessions := by
  cases h with
  | handedTransport | awayHanded | homeHanded => rfl
  | away htransport hsession | home htransport hsession =>
    simp [Handed, htransport, hsession] at hhanded

/-- Any other adds the sessions of its visits. -/
theorem Tenancy.eq_of_not_handed (h : Tenancy c sessions v client now) (hhanded : ¬ Handed c) :
    now = sessions ++ v.counts := by
  cases h with
  | handedTransport htransport => exact absurd (.inr htransport) hhanded
  | awayHanded _ hsession | homeHanded _ hsession =>
    exact absurd (.inl (by simp [hsession])) hhanded
  | away _ _ hvisit | home _ _ hvisit => simp [Visits.counts, hvisit]

/-- Sessions that there were are never touched. -/
theorem Tenancy.getElem?_earlier (h : Tenancy c sessions v client now) {n : Nat}
    (hn : n < sessions.length) : now[n]? = sessions[n]? := by
  by_cases hhanded : Handed c
  · rw [h.eq_of_handed hhanded]
  · rw [h.eq_of_not_handed hhanded, List.getElem?_append_left hn]

/-- One session at most is open beside those that there were. -/
theorem Tenancy.open_unique (h : Tenancy c sessions v client now) {m n : Nat}
    (hm : sessions.length ≤ m) (hn : sessions.length ≤ n) (hopenm : now[m]? = some 0)
    (hopenn : now[n]? = some 0) : m = n := by
  by_cases hhanded : Handed c
  · rw [h.eq_of_handed hhanded, List.getElem?_eq_none hm] at hopenm
    cases hopenm
  · rw [h.eq_of_not_handed hhanded, List.getElem?_append_right hm] at hopenm
    rw [h.eq_of_not_handed hhanded, List.getElem?_append_right hn] at hopenn
    have hm' := Visits.eq_ended_of_open hopenm
    have hn' := Visits.eq_ended_of_open hopenn
    omega

/-- A session that one move adds was opened by an enter, and is open until the first close; that
close closes it, and no later one does. -/
theorem created_once (hc : Untouched s.client) (before : List Move) (move : Move)
    (rest : List Move) {n : Nat} (hnew : (s.run w before).sessions.length ≤ n)
    (hthere : n < (s.run w (before ++ [move])).sessions.length) :
    move = .enter ∧
      (.close ∉ rest → (s.run w (before ++ move :: rest)).sessions[n]? = some 0) ∧
      (.close ∈ rest → (s.run w (before ++ move :: rest)).sessions[n]? = some 1) := by
  have hnow := tenancy_run (w := w) (tenancy_new s.client s.sessions) hc before
  have hnext := hnow.step (w := w) hc move
  have hlast := tenancy_run (w := w) hnext hc rest
  have hstep : s.run w (before ++ [move]) = (s.run w before).step w move := by simp [State.run]
  have hrun : s.run w (before ++ move :: rest) = ((s.run w before).step w move).run w rest := by
    simp [State.run]
  rw [hstep] at hthere
  rw [hrun]
  by_cases hhanded : Handed s.client
  · rw [hnow.eq_of_handed hhanded] at hnew
    rw [hnext.eq_of_handed hhanded] at hthere
    omega
  · rw [hnow.eq_of_not_handed hhanded, List.length_append] at hnew
    rw [hnext.eq_of_not_handed hhanded, List.length_append] at hthere
    have hnew' : (Visits.after {} before).counts.length ≤ n - s.sessions.length := by omega
    have hthere' : n - s.sessions.length < ((Visits.after {} before).next move).counts.length := by
      omega
    obtain ⟨rfl, hplace, hunderWay⟩ := Visits.added_next hnew' hthere'
    rw [hlast.eq_of_not_handed hhanded, List.getElem?_append_right (by omega), hplace]
    exact ⟨rfl, Visits.counts_after_of_underWay hunderWay rest⟩

/-! ## Calls -/

/-- What a client talks through that is open: the transport that was handed in, the session that was
handed in, or a session of its own that is open. -/
inductive Channelled (session : Option Nat) (transportInjected : Bool) (sessions now : Sessions) :
    Option Channel → Prop where
  | transport (htransport : transportInjected = true) :
      Channelled session transportInjected sessions now (some .injected)
  | handedSession {n : Nat} (htransport : transportInjected = false) (hsession : session = some n) :
      Channelled session transportInjected sessions now (some (.session n))
  | ownSession {n : Nat} (htransport : transportInjected = false) (hsession : session = none)
      (hnew : sessions.length ≤ n) (hopen : now[n]? = some 0) :
      Channelled session transportInjected sessions now (some (.session n))

theorem Channelled.isSome {session : Option Nat} {transportInjected : Bool}
    {channel : Option Channel}
    (h : Channelled session transportInjected sessions now channel) : channel.isSome = true := by
  cases h <;> rfl

theorem Channelled.eq_injected {session : Option Nat} {channel : Option Channel}
    (h : Channelled session true sessions now channel) : channel = some .injected := by
  cases h with
  | transport => rfl
  | handedSession htransport | ownSession htransport => cases htransport

/-- A client is open during a visit, and always when it was handed a transport. -/
theorem Tenancy.channel (h : Tenancy c sessions v client now) (hc : Untouched c) :
    (c.transportInjected = true ∨ v.underWay = true →
        Channelled c.session c.transportInjected sessions now client.channel) ∧
      (¬ (c.transportInjected = true ∨ v.underWay = true) → client.channel = none) := by
  cases h with
  | handedTransport htransport =>
    rw [hc.channel, if_pos htransport]
    exact ⟨fun _ => .transport htransport, fun hnot => absurd (.inl htransport) hnot⟩
  | awayHanded htransport hsession hvisit | away htransport hsession hvisit =>
    exact ⟨by simp [htransport, hvisit], fun _ => hc.closed htransport⟩
  | homeHanded htransport hsession hvisit =>
    exact ⟨fun _ => .handedSession htransport hsession, fun hnot => absurd (.inr hvisit) hnot⟩
  | home htransport hsession hvisit =>
    refine ⟨fun _ => ?_, fun hnot => absurd (.inr hvisit) hnot⟩
    exact .ownSession htransport hsession (Nat.le_add_right _ _) (by simp)

theorem Tenancy.config_eq (h : Tenancy c sessions v client now) : client.config = c.config := by
  cases h <;> rfl

/-- Over a closed client a call with arguments that stand for a request fails. -/
theorem operation_of_closed {c : StoreClient} (hclosed : c.channel = none) {call : Call}
    {r : StoreRequest} (hputs : call.Puts c.config r) : call.operation c = .fail .notOpen := by
  cases hputs with
  | getItems => simp [Call.operation, StoreClient.getItems, StoreClient.ask, hclosed]; rfl
  | @pushItem owner item timeout text hid hdata htext =>
    have hcheck : StoreClient.checkItem item = .ok () := by simp [StoreClient.checkItem, hid, hdata]
    simp [Call.operation, StoreClient.pushItem, hcheck, htext, StoreClient.ask, hclosed]; rfl
  | removeItem hid =>
    simp [Call.operation, StoreClient.removeItem, hid, StoreClient.ask, hclosed]; rfl

/-- Over an open client it asks for that request. -/
theorem question?_of_open {c : StoreClient} (hopen : c.channel.isSome = true) {call : Call}
    {r : StoreRequest} (hputs : call.Puts c.config r) : (call.operation c).question? = some r := by
  rcases call.question?_operation c with ⟨hunfit, -⟩ | ⟨other, hother, hasks⟩
  · exact absurd hputs (hunfit r)
  · rw [hasks, if_pos hopen, hputs.unique hother]

/-- A call that closed clients fail leaves everything as it was. -/
theorem step_of_closed (hclosed : s.client.channel = none) {call : Call} {r : StoreRequest}
    (hputs : call.Puts s.client.config r) : s.step w (.call call) = s := by
  show s.exchange w _ _ = s
  rw [operation_of_closed hclosed hputs]
  rfl

/-! ## Every talk -/

/-- What holds after some moves of a client that was created in the state `s` with what it was
handed. -/
structure SessionsKept (w : Surroundings κ σ) (s : State κ σ) (session : Option Nat)
    (transportInjected : Bool) (moves : List Move) : Prop where
  /-- No session that there was, the one that was handed in among them, was opened or closed. -/
  earlier : ∀ n, n < s.sessions.length → (s.run w moves).sessions[n]? = s.sessions[n]?
  /-- With anything handed in there is no further session. -/
  no_other : session ≠ none ∨ transportInjected = true → (s.run w moves).sessions = s.sessions
  transport_kept : transportInjected = true → (s.run w moves).client.channel = some .injected
  open_unique : ∀ m n, s.sessions.length ≤ m → s.sessions.length ≤ n →
    (s.run w moves).sessions[m]? = some 0 → (s.run w moves).sessions[n]? = some 0 → m = n
  /-- A session that was created was created by an enter, and the first close after it, if there
  was one, is the only one that closed it. -/
  created : ∀ before move rest, moves = before ++ move :: rest → ∀ n,
    (s.run w before).sessions.length ≤ n → n < (s.run w (before ++ [move])).sessions.length →
      move = .enter ∧ (.close ∉ rest → (s.run w moves).sessions[n]? = some 0) ∧
        (.close ∈ rest → (s.run w moves).sessions[n]? = some 1)
  /-- A call with arguments that stand for a request reaches something that is open. -/
  reaches : transportInjected = true ∨ EnteredSinceClose moves →
    Channelled session transportInjected s.sessions (s.run w moves).sessions
        (s.run w moves).client.channel ∧
      ∀ (call : Call) r, call.Puts s.client.config r →
        (call.operation (s.run w moves).client).question? = some r
  /-- Otherwise it ends with an error of the library, and nothing is asked. -/
  fails : ¬ (transportInjected = true ∨ EnteredSinceClose moves) →
    ∀ (call : Call) r, call.Puts s.client.config r →
      call.operation (s.run w moves).client = .fail .notOpen ∧
        Failure.notOpen.kind? = some .general ∧
        (s.run w moves).step w (.call call) = s.run w moves
  /-- A client that is closed is the new one again. -/
  reopens : ((s.run w moves).step w .close).client = s.client

/-- Of a client that is closed nothing is left but the sessions of its visits. -/
theorem Tenancy.client_eq (h : Tenancy c sessions v client now)
    (hvisit : v.underWay = false) : client = c := by
  cases h with
  | handedTransport | awayHanded | away => rfl
  | homeHanded _ _ hother | home _ _ hother =>
    rw [hvisit] at hother
    cases hother

/-- Whatever a client was handed, and however often it is entered, closed and called, it leaves the
sessions of others alone and closes each of its own at the first close. -/
theorem sessions_of_talk (w : Surroundings κ σ) (s : State κ σ) {config : Config}
    {decorate : Option Decorator} {session : Option Nat} {transportInjected : Bool}
    (hcreate : StoreClient.create config decorate session transportInjected = .ok s.client)
    (moves : List Move) : SessionsKept w s session transportInjected moves := by
  have hc := untouched_create hcreate
  have hsession : s.client.session = session := by rw [StoreClient.create_eq_ok hcreate]
  have htransport : s.client.transportInjected = transportInjected := by
    rw [StoreClient.create_eq_ok hcreate]
  subst hsession htransport
  have hrun := tenancy_run (w := w) (tenancy_new s.client s.sessions) hc moves
  have hvisit : EnteredSinceClose moves ↔ (Visits.after {} moves).underWay = true := by
    simp [Visits.underWay_after_iff]
  obtain ⟨hopen, hclosed⟩ := hrun.channel hc
  rw [← hvisit] at hopen hclosed
  have hconfig := hrun.config_eq
  refine ⟨?_, ?_, ?_, ?_, ?_, ?_, ?_, ?_⟩
  · intro n hn
    exact hrun.getElem?_earlier hn
  · intro hhanded
    exact hrun.eq_of_handed hhanded
  · intro hhanded
    have hchannel := hopen (.inl hhanded)
    rw [hhanded] at hchannel
    exact hchannel.eq_injected
  · intro m n hm hn
    exact hrun.open_unique hm hn
  · rintro before move rest rfl n hnew hthere
    exact created_once hc before move rest hnew hthere
  · intro hin
    have hchannel := hopen hin
    exact ⟨hchannel, fun call r hputs => question?_of_open hchannel.isSome (hconfig ▸ hputs)⟩
  · intro hout call r hputs
    have hputs' : call.Puts (s.run w moves).client.config r := hconfig ▸ hputs
    exact ⟨operation_of_closed (hclosed hout) hputs', rfl, step_of_closed (hclosed hout) hputs'⟩
  · exact (hrun.step (w := w) hc .close).client_eq rfl

/-- A client of its own session, in a place where one session was closed before. -/
def tenant : State Unit Unit where
  client := { config := { baseUrl := "http://s", bucket := "b" } }
  sessions := [1]
  memory := ()
  partner := ()

/-- A session that answers nothing. -/
def silent : Surroundings Unit Unit where
  respond := fun _ _ => (.refused .notOpen, ())

/-- A visit with a second enter and a second close. -/
def doubled : List Move :=
  [.enter, .enter, .call (.getItems "" none), .close, .close]

/-- When the client has been entered once more after that, its first session was closed once, and
its second one is open. -/
theorem sessions_of_talk_doubled :
    (tenant.run silent (doubled ++ [.enter])).sessions = [1, 1, 0] ∧
      ((tenant.run silent doubled).step silent .close).client = tenant.client ∧
      (tenant.run silent (doubled ++ [.enter])).sessions[0]? = tenant.sessions[0]? ∧
      ((Call.removeItem "x" "" none).operation (tenant.run silent doubled).client) =
        .fail .notOpen := by
  have hcreate : StoreClient.create { baseUrl := "http://s", bucket := "b" } none none false =
      .ok tenant.client := by
    have hproblems : Config.problems { baseUrl := "http://s", bucket := "b" } = .ok [] :=
      Config.problems_eq_ok (by decide +kernel)
    unfold StoreClient.create
    rw [hproblems]
    rfl
  have hclosed : ¬ (false = true ∨ EnteredSinceClose doubled) := by
    simp [doubled, enteredSinceClose_cons_iff, not_enteredSinceClose_nil]
  have hkept := sessions_of_talk silent tenant hcreate
  refine ⟨by decide +kernel, (hkept doubled).reopens, (hkept _).earlier 0 (by decide), ?_⟩
  exact ((hkept doubled).fails hclosed _ _ (.removeItem (by decide))).1

end Talk

end HookRegistry
