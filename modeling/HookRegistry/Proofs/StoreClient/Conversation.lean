import HookRegistry.Proofs.Config.RequestUrl
import HookRegistry.Proofs.Transport.Stages
import HookRegistry.StoreClient
import Mathlib.Logic.ExistsUnique

/-!
# What the session is asked

A client, its decorator and its session meet over and over: the client is opened and closed,
operations are called, and a transport that was handed in may be used by others as well.  The
decorator remembers what it likes from one request to the next, and so does the session.

`Call.Sends` says what the session is asked for one call, from the configuration, whether the client
is open, the timeout in force, the arguments of the call and what the decorator does to headers at
that moment, and from nothing else: one request when all of these allow it, and none otherwise.
`asked_step` says that each move adds just that to what the session has been asked, and
`requests_of_run` what a whole talk comes to.
-/

namespace HookRegistry

/-! ## Questions of operations -/

namespace Exchange

variable {ρ σ ρ' σ' α β : Type}

theorem question?_mapOutcome (f : Outcome α → Outcome β) (x : Exchange ρ σ α) :
    (x.mapOutcome f).question? = x.question? := by
  cases x <;> rfl

/-- Through a lower layer an operation asks what the lower layer makes of its question. -/
theorem question?_through (send : ρ → Exchange ρ' σ' β) (x : Exchange ρ (Except Failure β) α) :
    (x.through send).question? = x.question?.bind fun q => (send q).question? := by
  cases x with
  | ended o => rfl
  | asks q log finish => exact question?_through_asks send q log finish

end Exchange

/-! ## Headers -/

/-- The headers that the request to the session starts from: what the name is, what the body is when
there is one, and who the owner is when one is named. -/
structure StoreRequest.Headed (r : StoreRequest) (headers : Headers) : Prop where
  distinct : (headers.map Prod.fst).Nodup
  mem_iff : ∀ header, header ∈ headers ↔
    header = ("user-agent", "pyancla") ∨
      (header = ("content-type", "application/json") ∧ r.body ≠ none) ∨
      (header = ("X-Xmidt-Owner", r.owner) ∧ r.owner ≠ "")

namespace Transport

theorem headed_plainHeaders (r : StoreRequest) : r.Headed (plainHeaders r) := by
  obtain ⟨method, url, owner, body, timeout⟩ := r
  have hempty : owner.isEmpty = true ↔ owner = "" := String.isEmpty_iff
  by_cases howner : owner = ""
  · cases body with
    | none => constructor <;> simp [plainHeaders, howner, userAgent]
    | some bytes => constructor <;> simp [plainHeaders, howner, userAgent]
  · have hnot : owner.isEmpty = false := by
      rw [Bool.eq_false_iff, Ne, hempty]
      exact howner
    cases body with
    | none => constructor <;> simp [plainHeaders, howner, hnot, userAgent, ownerHeader]
    | some bytes => constructor <;> simp [plainHeaders, howner, hnot, userAgent, ownerHeader]

/-- What the session is asked for a request to the store, with a timeout for requests that name none
and with what the decorator does to headers. -/
inductive Carries (fallback : Seconds) (decorate : Decorator) (r : StoreRequest) :
    List SessionRequest → Prop where
  /-- The headers are as the decorator left them. -/
  | one {headers : Headers} (hacceptable : Acceptable r)
      (hauth : decorate (plainHeaders r) = (headers, .ok ())) :
      Carries fallback decorate r
        [{ method := r.method, url := r.url, body := r.body, headers
           timeout := r.timeout.getD fallback }]
  | unacceptable (hacceptable : ¬ Acceptable r) : Carries fallback decorate r []
  /-- Whatever the decorator has done to the headers before it failed. -/
  | unauthorized {headers : Headers} {f : Failure}
      (hfails : decorate (plainHeaders r) = (headers, .error f)) : Carries fallback decorate r []

/-- Nothing else decides on it. -/
theorem Carries.unique {fallback : Seconds} {decorate : Decorator} {r : StoreRequest}
    {asked other : List SessionRequest} (h : Carries fallback decorate r asked)
    (h' : Carries fallback decorate r other) : other = asked := by
  cases h with
  | one hacceptable hauth =>
    cases h' with
    | one _ hauth' =>
      rw [hauth] at hauth'
      cases hauth'
      rfl
    | unacceptable hnot => exact absurd hacceptable hnot
    | unauthorized hfails =>
      rw [hauth] at hfails
      cases hfails
  | unacceptable hnot =>
    cases h' with
    | one hacceptable => exact absurd hacceptable hnot
    | unacceptable | unauthorized => rfl
  | unauthorized hfails =>
    cases h' with
    | one _ hauth =>
      rw [hfails] at hauth
      cases hauth
    | unacceptable | unauthorized => rfl

/-- A transport asks the session for that. -/
theorem carries_send (t : Transport) (r : StoreRequest) :
    Carries t.requestTimeout t.decoration r (t.send r).question?.toList := by
  unfold send
  rw [prepare_eq]
  cases hcheck : check r.method r.url with
  | error f =>
    refine .unacceptable fun hacceptable => ?_
    rw [check_eq_ok_iff.2 hacceptable] at hcheck
    cases hcheck
  | ok =>
    have hacceptable := check_eq_ok_iff.1 hcheck
    cases hauth : (t.decorated r).2 with
    | error f => exact .unauthorized (Prod.ext rfl hauth)
    | ok => exact .one hacceptable (Prod.ext rfl hauth)

end Transport

namespace StoreClient

open Transport (Carries Acceptable plainHeaders)

/-! ## Calls -/

/-- A call of an operation. -/
inductive Call where
  | getItems (owner : String) (timeout : Option Seconds)
  | pushItem (owner : String) (item : Item) (timeout : Option Seconds)
  | removeItem (id owner : String) (timeout : Option Seconds)

/-- The end of an operation, without what it returns. -/
def ending {α : Type} (o : Outcome α) : Outcome Unit where
  result := o.result.map fun _ => ()
  log := o.log

/-- The operation that is called. -/
def Call.operation (c : StoreClient) : Call → Operation Unit
  | .getItems owner timeout => (c.getItems owner timeout).mapOutcome ending
  | .pushItem owner item timeout => (c.pushItem owner item timeout).mapOutcome ending
  | .removeItem id owner timeout => (c.removeItem id owner timeout).mapOutcome ending

/-- The request that the arguments of a call stand for; an empty id, an empty payload and an item
without an encoding stand for none. -/
inductive Call.Puts (config : Config) : Call → StoreRequest → Prop where
  | getItems {owner : String} {timeout : Option Seconds} :
      Puts config (.getItems owner timeout)
        { method := "GET", url := config.bucketUrl, owner, body := none, timeout }
  | pushItem {owner : String} {item : Item} {timeout : Option Seconds} {text : String}
      (hid : item.id ≠ "") (hdata : item.data ≠ []) (htext : item.toText? = some text) :
      Puts config (.pushItem owner item timeout)
        { method := "PUT", url := config.itemUrl item.id, owner, body := some text.toUTF8, timeout }
  | removeItem {id owner : String} {timeout : Option Seconds} (hid : id ≠ "") :
      Puts config (.removeItem id owner timeout)
        { method := "DELETE", url := config.itemUrl id, owner, body := none, timeout }

theorem Call.Puts.unique {config : Config} {call : Call} {r other : StoreRequest}
    (h : call.Puts config r) (h' : call.Puts config other) : other = r := by
  cases h with
  | getItems =>
    cases h'
    rfl
  | pushItem _ _ htext =>
    cases h' with
    | pushItem _ _ htext' =>
      rw [htext] at htext'
      cases htext'
      rfl
  | removeItem =>
    cases h'
    rfl

/-- With a configuration that breaks no rule the method and the address of a call are acceptable. -/
theorem Call.Puts.acceptable {config : Config} (hconfig : config.problems = .ok []) {call : Call}
    {r : StoreRequest} (h : call.Puts config r) : Acceptable r := by
  have hget : Transport.isMethod "GET" = true := by decide
  have hput : Transport.isMethod "PUT" = true := by decide
  have hdelete : Transport.isMethod "DELETE" = true := by decide
  apply Transport.check_eq_ok_iff.1
  cases h with
  | getItems => exact Config.check_bucketUrl hconfig hget
  | pushItem => exact Config.check_itemUrl hconfig hput _
  | removeItem => exact Config.check_itemUrl hconfig hdelete _

/-- What the session is asked for a call of a client. -/
inductive Call.Sends (config : Config) (isOpen : Bool) (fallback : Seconds) (decorate : Decorator)
    (call : Call) : List SessionRequest → Prop where
  | closed (hclosed : isOpen = false) : Sends config isOpen fallback decorate call []
  | unfit (hunfit : ∀ r, ¬ call.Puts config r) : Sends config isOpen fallback decorate call []
  | carries {r : StoreRequest} {asked : List SessionRequest} (hopen : isOpen = true)
      (hputs : call.Puts config r) (hcarries : Carries fallback decorate r asked) :
      Sends config isOpen fallback decorate call asked

theorem Call.Sends.unique {config : Config} {isOpen : Bool} {fallback : Seconds}
    {decorate : Decorator} {call : Call} {asked other : List SessionRequest}
    (h : call.Sends config isOpen fallback decorate asked)
    (h' : call.Sends config isOpen fallback decorate other) : other = asked := by
  cases h with
  | closed hclosed =>
    cases h' with
    | closed | unfit => rfl
    | carries hopen => exact absurd (hopen.symm.trans hclosed) (by decide)
  | unfit hunfit =>
    cases h' with
    | closed | unfit => rfl
    | carries _ hputs => exact absurd hputs (hunfit _)
  | carries hopen hputs hcarries =>
    cases h' with
    | closed hclosed => exact absurd (hopen.symm.trans hclosed) (by decide)
    | unfit hunfit => exact absurd hputs (hunfit _)
    | carries _ hputs' hcarries' =>
      cases hputs.unique hputs'
      exact hcarries.unique hcarries'

theorem question?_ask {α : Type} (c : StoreClient) (r : StoreRequest)
    (finish : StoreResponse → Outcome α) :
    (c.ask r finish).question? = if c.channel.isSome then some r else none := by
  unfold ask
  cases c.channel <;> rfl

/-- A call asks the transport for the request that its arguments stand for, if there is one and the
client is open. -/
theorem Call.question?_operation (c : StoreClient) (call : Call) :
    ((∀ r, ¬ call.Puts c.config r) ∧ (call.operation c).question? = none) ∨
      ∃ r, call.Puts c.config r ∧
        (call.operation c).question? = if c.channel.isSome then some r else none := by
  cases call with
  | getItems owner timeout =>
    refine .inr ⟨_, .getItems, ?_⟩
    rw [operation, Exchange.question?_mapOutcome]
    exact question?_ask c _ _
  | pushItem owner item timeout =>
    rw [operation, Exchange.question?_mapOutcome]
    unfold StoreClient.pushItem
    by_cases hid : item.id = ""
    · have hcheck : checkItem item = .error .emptyItemId := by simp [checkItem, hid]
      rw [hcheck]
      refine .inl ⟨?_, rfl⟩
      rintro r ⟨⟩
      contradiction
    by_cases hdata : item.data = []
    · have hcheck : checkItem item = .error .emptyItemData := by simp [checkItem, hid, hdata]
      rw [hcheck]
      refine .inl ⟨?_, rfl⟩
      rintro r ⟨⟩
      contradiction
    have hcheck : checkItem item = .ok () := by simp [checkItem, hid, hdata]
    rw [hcheck]
    cases htext : item.toText? with
    | none =>
      refine .inl ⟨?_, rfl⟩
      intro r hputs
      cases hputs with
      | pushItem _ _ hsome =>
        rw [htext] at hsome
        cases hsome
    | some text => exact .inr ⟨_, .pushItem hid hdata htext, question?_ask c _ _⟩
  | removeItem id owner timeout =>
    rw [operation, Exchange.question?_mapOutcome]
    unfold StoreClient.removeItem
    by_cases hid : id = ""
    · rw [if_pos (by simp [hid])]
      refine .inl ⟨?_, rfl⟩
      rintro r ⟨⟩
      contradiction
    · rw [if_neg (by simp [hid])]
      exact .inr ⟨_, .removeItem hid, question?_ask c _ _⟩

/-- Over a transport, a call asks the session for what `Call.Sends` says. -/
theorem Call.sends_operation (c : StoreClient) (t : Transport) (call : Call) :
    call.Sends c.config c.channel.isSome t.requestTimeout t.decoration
      ((call.operation c).through t.send).question?.toList := by
  rw [Exchange.question?_through]
  rcases Call.question?_operation c call with ⟨hunfit, hnone⟩ | ⟨r, hputs, hasks⟩
  · rw [hnone]
    exact .unfit hunfit
  · rw [hasks]
    cases hopen : c.channel.isSome with
    | false => exact .closed rfl
    | true => exact .carries rfl hputs (Transport.carries_send t r)

theorem Call.exists_sends (config : Config) (isOpen : Bool) (fallback : Seconds)
    (decorate : Decorator) (call : Call) :
    ∃ asked, call.Sends config isOpen fallback decorate asked := by
  let t : Transport := { decorate := some decorate, requestTimeout := fallback }
  cases isOpen with
  | false => exact ⟨_, call.sends_operation { config } t⟩
  | true => exact ⟨_, call.sends_operation { config, channel := some .injected } t⟩

/-- A call passes every check: of the client, of its arguments, of the method and the address, and
of the decorator. -/
def Call.Passes (config : Config) (isOpen : Bool) (decorate : Decorator) (call : Call) : Prop :=
  isOpen = true ∧
    ∃ r, call.Puts config r ∧ Acceptable r ∧ (decorate (plainHeaders r)).2 = .ok ()

/-- For a call that passes every check the session is asked once. -/
theorem Call.Sends.of_passes {config : Config} {isOpen : Bool} {fallback : Seconds}
    {decorate : Decorator} {call : Call} {asked : List SessionRequest}
    (h : call.Sends config isOpen fallback decorate asked)
    (hpasses : call.Passes config isOpen decorate) : ∃ q, asked = [q] := by
  obtain ⟨hopen, r, hputs, hacceptable, hauth⟩ := hpasses
  have hone : Carries fallback decorate r _ := .one hacceptable (Prod.ext rfl hauth)
  exact ⟨_, (Call.Sends.carries hopen hputs hone).unique h⟩

/-- For any other call it is not asked. -/
theorem Call.Sends.of_not_passes {config : Config} {isOpen : Bool} {fallback : Seconds}
    {decorate : Decorator} {call : Call} {asked : List SessionRequest}
    (h : call.Sends config isOpen fallback decorate asked)
    (hfails : ¬ call.Passes config isOpen decorate) : asked = [] := by
  cases h with
  | closed | unfit => rfl
  | @carries r _ hopen hputs hcarries =>
    cases hcarries with
    | one hacceptable hauth =>
      exact absurd ⟨hopen, r, hputs, hacceptable, congrArg Prod.snd hauth⟩ hfails
    | unacceptable | unauthorized => rfl

end StoreClient

namespace Talk

open StoreClient (Call)
open Transport (Carries Acceptable plainHeaders)

/-! ## Talks -/

/-- What a client finds around it: a decorator with a memory of type `κ`, the timeout of a transport
that is handed in, and a session with a memory of type `σ`. -/
structure Surroundings (κ σ : Type) where
  keeper : Option (κ → Headers → (Headers × Except Failure Unit) × κ) := none
  injectedTimeout : Seconds := .real (Double.ofInt 30)
  respond : SessionRequest → σ → Reply × σ

/-- How far a talk has come. -/
structure State (κ σ : Type) where
  client : StoreClient
  sessions : Sessions := []
  memory : κ
  partner : σ
  /-- What the session has been asked, oldest first. -/
  asked : List SessionRequest := []

/-- What happens in a talk. -/
inductive Move where
  | enter
  | close
  | call (call : Call)
  /-- A request is sent past the client. -/
  | send (r : StoreRequest)

variable {κ σ : Type}

namespace State

/-- What the decorator does to headers at this moment. -/
def decorator (s : State κ σ) (w : Surroundings κ σ) : Option Decorator :=
  w.keeper.map fun keep headers => (keep s.memory headers).1

/-- The transport at this moment: the one that was handed in, or the client's own. -/
def transport (s : State κ σ) (w : Surroundings κ σ) : Transport :=
  match s.client.channel with
  | some .injected => { decorate := s.decorator w, requestTimeout := w.injectedTimeout }
  | _ => { s.client with decorate := s.decorator w }.transport

/-- The decorator remembers a request when it was consulted about it. -/
def remember (s : State κ σ) (w : Surroundings κ σ) (r : StoreRequest) : κ :=
  match w.keeper, Transport.check r.method r.url with
  | some keep, .ok () => (keep s.memory (plainHeaders r)).2
  | _, _ => s.memory

/-- The session hears a request and replies. -/
def hear (w : Surroundings κ σ) (q : SessionRequest) (heard : σ × List SessionRequest) :
    Reply × (σ × List SessionRequest) :=
  ((w.respond q heard.1).1, ((w.respond q heard.1).2, heard.2 ++ [q]))

/-- An exchange with the session, for a request to the store if there is one. -/
def exchange {α : Type} (s : State κ σ) (w : Surroundings κ σ) (r : Option StoreRequest)
    (x : Exchange SessionRequest Reply α) : State κ σ :=
  let heard := (x.run (hear w) (s.partner, s.asked)).2
  { s with memory := (r.map (s.remember w)).getD s.memory, partner := heard.1, asked := heard.2 }

/-- The talk after a move. -/
def step (w : Surroundings κ σ) (s : State κ σ) : Move → State κ σ
  | .enter => { s with client := (s.client.enter s.sessions).1
                       sessions := (s.client.enter s.sessions).2 }
  | .close => { s with client := (s.client.close s.sessions).1
                       sessions := (s.client.close s.sessions).2 }
  | .call call =>
    let operation := call.operation s.client
    s.exchange w operation.question? (operation.through (s.transport w).send)
  | .send r => s.exchange w (some r) ((s.transport w).send r)

/-- The talk after several moves. -/
def run (w : Surroundings κ σ) (s : State κ σ) (moves : List Move) : State κ σ :=
  moves.foldl (step w) s

/-- An exchange adds its question to what the session has been asked. -/
theorem asked_exchange {α : Type} (s : State κ σ) (w : Surroundings κ σ) (r : Option StoreRequest)
    (x : Exchange SessionRequest Reply α) :
    (s.exchange w r x).asked = s.asked ++ x.question?.toList := by
  cases x with
  | ended o => exact (List.append_nil _).symm
  | asks q log finish => rfl

end State

/-- What the session is asked in one move. -/
def Move.Share (w : Surroundings κ σ) (s : State κ σ) (share : List SessionRequest) : Move → Prop
  | .enter | .close => share = []
  | .call called =>
    called.Sends s.client.config s.client.channel.isSome (s.transport w).requestTimeout
      (s.transport w).decoration share
  | .send r => Carries (s.transport w).requestTimeout (s.transport w).decoration r share

/-- What the session is asked in each move of a run. -/
inductive Shares (w : Surroundings κ σ) :
    State κ σ → List Move → List (List SessionRequest) → Prop where
  | nil {s : State κ σ} : Shares w s [] []
  | cons {s : State κ σ} {move : Move} {moves : List Move} {share : List SessionRequest}
      {shares : List (List SessionRequest)} (hshare : move.Share w s share)
      (hrest : Shares w (s.step w move) moves shares) :
      Shares w s (move :: moves) (share :: shares)

/-- A move adds its share to what the session has been asked. -/
theorem asked_step (w : Surroundings κ σ) (s : State κ σ) (move : Move) :
    ∃ share, move.Share w s share ∧ (s.step w move).asked = s.asked ++ share := by
  cases move with
  | enter => exact ⟨[], rfl, (List.append_nil _).symm⟩
  | close => exact ⟨[], rfl, (List.append_nil _).symm⟩
  | call call => exact ⟨_, Call.sends_operation _ _ call, s.asked_exchange w _ _⟩
  | send r => exact ⟨_, Transport.carries_send _ r, s.asked_exchange w _ _⟩

/-- A run adds the shares of its moves, one after the other. -/
theorem asked_run (w : Surroundings κ σ) (moves : List Move) (s : State κ σ) :
    ∃ shares, Shares w s moves shares ∧ (s.run w moves).asked = s.asked ++ shares.flatten := by
  induction moves generalizing s with
  | nil => exact ⟨[], .nil, (List.append_nil _).symm⟩
  | cons move moves ih =>
    obtain ⟨share, hshare, hstep⟩ := asked_step w s move
    obtain ⟨shares, hshares, hrun⟩ := ih (s.step w move)
    refine ⟨share :: shares, .cons hshare hshares, ?_⟩
    rw [List.flatten_cons, ← List.append_assoc, ← hstep]
    exact hrun

/-- The session is asked the shares of the moves and nothing else.  The share of a call depends on
the configuration, on whether the client is open, on the timeout in force, on the arguments and on
what the decorator does to headers at that moment: it is one request when every check is passed, and
none otherwise. -/
theorem requests_of_run (w : Surroundings κ σ) (s : State κ σ) (moves : List Move) :
    (∃ shares, Shares w s moves shares ∧ (s.run w moves).asked = s.asked ++ shares.flatten) ∧
      (∀ config isOpen fallback decorate (call : Call),
        ∃! share, call.Sends config isOpen fallback decorate share) ∧
      (∀ config isOpen fallback decorate (call : Call) share,
        call.Sends config isOpen fallback decorate share →
          (call.Passes config isOpen decorate → ∃ q, share = [q]) ∧
            (¬ call.Passes config isOpen decorate → share = [])) ∧
      ∀ r : StoreRequest, r.Headed (plainHeaders r) := by
  refine ⟨asked_run w moves s, ?_, ?_, Transport.headed_plainHeaders⟩
  · intro config isOpen fallback decorate call
    obtain ⟨share, hshare⟩ := call.exists_sends config isOpen fallback decorate
    exact ⟨share, hshare, fun other hother => hshare.unique hother⟩
  · intro config isOpen fallback decorate call share hshare
    exact ⟨hshare.of_passes, hshare.of_not_passes⟩

/-- A decorator that numbers the requests, and fails at the second one when it has written its
number already; a session that refuses everything. -/
def numbering : Surroundings Nat Unit where
  keeper := some fun n headers =>
    ((headers ++ [("number", toString n)], if n = 1 then .error .emptyToken else .ok ()), n + 1)
  respond := fun _ _ => (.refused .notOpen, ())

/-- A client that is not open yet, before the decorator has numbered anything. -/
def unnumbered : State Nat Unit where
  client := { config := { baseUrl := "http://s", bucket := "b", apiPath := "p"
                          requestTimeout := .whole 7 } }
  memory := 0
  partner := ()

/-- Before the client is open nothing is asked; the call that the decorator fails leaves nothing to
the last one, which has a timeout of zero. -/
theorem requests_of_run_numbered :
    ∃ shares, Shares numbering unnumbered
        [.call (.getItems "" none), .enter, .call (.getItems "" none),
          .call (.removeItem "y" "" none), .call (.removeItem "" "me" none),
          .call (.removeItem "x" "me" (some (.whole 0)))] shares ∧
      shares.flatten.map (fun q => (q.method, q.url, q.headers, q.timeout)) =
        [("GET", "http://s/p/b", [("user-agent", "pyancla"), ("number", "0")], .whole 7),
          ("DELETE", "http://s/p/b/x",
            [("user-agent", "pyancla"), ("X-Xmidt-Owner", "me"), ("number", "2")], .whole 0)] := by
  obtain ⟨shares, hshares, hasked⟩ := (requests_of_run numbering unnumbered _).1
  refine ⟨shares, hshares, ?_⟩
  have hflatten : shares.flatten = _ := hasked.symm
  rw [hflatten]
  decide +kernel

end Talk

end HookRegistry
