import HookRegistry.Proofs.Config.Slashes
import HookRegistry.Proofs.StoreClient.Destination

/-!
# Requests and the slashes of a configuration

Of its configuration a client reads the addresses and the timeout of its requests, and nothing else.
So two configurations that agree on these, `SameRequests`, lead to the same talk: `run_withConfig`.
More slashes in a configuration change neither, and `joined_apart_from_slashes` says so together with
where the joints of the addresses have one slash.
-/

namespace HookRegistry

/-- Two configurations have the same addresses and the same timeout. -/
structure Config.SameRequests (c c' : Config) : Prop where
  bucketUrl : c'.bucketUrl = c.bucketUrl
  itemUrl : ∀ id, c'.itemUrl id = c.itemUrl id
  requestTimeout : c'.requestTimeout = c.requestTimeout

theorem Config.sameRequests_slashed (c : Config) (behindBase beforePath behindPath : Nat) :
    c.SameRequests (c.slashed behindBase beforePath behindPath) where
  bucketUrl := bucketUrl_slashed
  itemUrl := itemUrl_slashed
  requestTimeout := rfl

/-! ## Clients with another configuration -/

namespace StoreClient

/-- The same client with another configuration. -/
def withConfig (c : StoreClient) (config : Config) : StoreClient :=
  { c with config }

variable {c : StoreClient} {config : Config}

theorem enter_withConfig (c : StoreClient) (config : Config) (sessions : Sessions) :
    (c.withConfig config).enter sessions =
      ((c.enter sessions).1.withConfig config, (c.enter sessions).2) := by
  obtain ⟨_, _, _, _, session, channel⟩ := c
  cases channel with
  | some => rfl
  | none => cases session <;> rfl

theorem close_withConfig (c : StoreClient) (config : Config) (sessions : Sessions) :
    (c.withConfig config).close sessions =
      ((c.close sessions).1.withConfig config, (c.close sessions).2) := by
  obtain ⟨_, _, sessionInjected, transportInjected, session, _⟩ := c
  cases sessionInjected <;> cases session <;> cases transportInjected <;> rfl

theorem ask_withConfig {α : Type} (c : StoreClient) (config : Config) (r : StoreRequest)
    (finish : StoreResponse → Outcome α) : (c.withConfig config).ask r finish = c.ask r finish :=
  rfl

/-- Its operations are the same when the addresses are. -/
theorem operation_withConfig (h : c.config.SameRequests config) (call : Call) :
    call.operation (c.withConfig config) = call.operation c := by
  have hbucket : (c.withConfig config).config.bucketUrl = c.config.bucketUrl := h.bucketUrl
  have hitem : ∀ id, (c.withConfig config).config.itemUrl id = c.config.itemUrl id := h.itemUrl
  cases call with
  | getItems owner timeout => simp only [Call.operation, getItems, ask_withConfig, hbucket]
  | pushItem owner item timeout => simp only [Call.operation, pushItem, ask_withConfig, hitem]
  | removeItem id owner timeout => simp only [Call.operation, removeItem, ask_withConfig, hitem]

end StoreClient

namespace Talk

variable {κ σ : Type} {w : Surroundings κ σ} {s : State κ σ} {config : Config}

/-- The same talk of a client with another configuration. -/
def State.withConfig (s : State κ σ) (config : Config) : State κ σ :=
  { s with client := s.client.withConfig config }

theorem transport_withConfig (h : s.client.config.SameRequests config) :
    (s.withConfig config).transport w = s.transport w := by
  unfold State.transport State.withConfig StoreClient.withConfig StoreClient.transport
  rw [h.requestTimeout]
  rfl

/-- A move does the same with it. -/
theorem step_withConfig (h : s.client.config.SameRequests config) (move : Move) :
    (s.withConfig config).step w move = (s.step w move).withConfig config := by
  cases move with
  | enter =>
    have henter := s.client.enter_withConfig config s.sessions
    unfold State.step State.withConfig
    rw [henter]
  | close =>
    have hclose := s.client.close_withConfig config s.sessions
    unfold State.step State.withConfig
    rw [hclose]
  | call call =>
    have hoperation : call.operation (s.withConfig config).client = call.operation s.client :=
      s.client.operation_withConfig h call
    show (s.withConfig config).exchange w (call.operation (s.withConfig config).client).question?
      ((call.operation (s.withConfig config).client).through
        ((s.withConfig config).transport w).send) = _
    rw [transport_withConfig h, hoperation]
    rfl
  | send r =>
    show (s.withConfig config).exchange w (some r) (((s.withConfig config).transport w).send r) = _
    rw [transport_withConfig h]
    rfl

/-- So does a run of moves. -/
theorem run_withConfig (h : s.client.config.SameRequests config) (moves : List Move) :
    (s.withConfig config).run w moves = (s.run w moves).withConfig config := by
  induction moves generalizing s with
  | nil => rfl
  | cons move moves ih =>
    show ((s.withConfig config).step w move).run w moves = ((s.step w move).run w moves).withConfig _
    have hnext : (s.step w move).client.config.SameRequests config := by
      rw [config_step]
      exact h
    rw [step_withConfig h, ih hnext]

end Talk

/-- Take a configuration that breaks no rule.  With any number of slashes added behind its base
address and at either end of its path, it breaks no rule, has the same addresses, and whatever a
client does, with any decorator and any session, the session is asked the same.  The base address
stands in the addresses without the slashes at its end, and the joints have one slash each exactly
when the path is not a run of slashes. -/
theorem joined_apart_from_slashes {c : Config} (h : c.problems = .ok []) :
    (∀ behindBase beforePath behindPath : Nat,
      (c.slashed behindBase beforePath behindPath).problems = .ok [] ∧
        (c.slashed behindBase beforePath behindPath).storeUrl = c.storeUrl ∧
        (c.slashed behindBase beforePath behindPath).bucketUrl = c.bucketUrl ∧
        (∀ id, (c.slashed behindBase beforePath behindPath).itemUrl id = c.itemUrl id) ∧
        ∀ (κ σ : Type) (w : Talk.Surroundings κ σ) (s : Talk.State κ σ) (moves : List Talk.Move),
          s.client.config = c →
          ((s.withConfig (c.slashed behindBase beforePath behindPath)).run w moves).asked =
            (s.run w moves).asked) ∧
      (∃ n, c.baseUrl = Config.dropSlashesRight c.baseUrl ++ Config.slashes n) ∧
      (c.WellJoined ↔ ∀ n, c.apiPath ≠ Config.slashes n) := by
  refine ⟨fun behindBase beforePath behindPath => ?_,
    Config.exists_dropSlashesRight_append c.baseUrl, Config.wellJoined_iff⟩
  refine ⟨Config.problems_slashed h, Config.storeUrl_slashed, Config.bucketUrl_slashed,
    Config.itemUrl_slashed, fun κ σ w s moves hconfig => ?_⟩
  have hsame : s.client.config.SameRequests (c.slashed behindBase beforePath behindPath) := by
    rw [hconfig]
    exact c.sameRequests_slashed behindBase beforePath behindPath
  rw [Talk.run_withConfig hsame]
  rfl

/-- An address with a slash behind it and a path without slashes. -/
def Config.short : Config where
  baseUrl := "http://s/"
  bucket := "b"
  apiPath := "p"

/-- More slashes do not show in the address of its bucket. -/
theorem joined_apart_from_slashes_short :
    Config.short.problems = .ok [] ∧ Config.short.WellJoined ∧
      { Config.short with baseUrl := "http://s///", apiPath := "//p/" }.bucketUrl =
        "http://s/p/b" := by
  have hproblems : Config.short.problems = .ok [] := Config.problems_eq_ok (by decide +kernel)
  obtain ⟨hslashed, -, hjoined⟩ := joined_apart_from_slashes hproblems
  obtain ⟨-, -, hbucket, -, -⟩ := hslashed 2 2 1
  refine ⟨hproblems, hjoined.2 fun n hn => ?_, hbucket.trans (by decide)⟩
  have hslash : 'p' = '/' := Config.eq_slashes_iff.1 ⟨n, hn⟩ 'p' (by simp [Config.short])
  exact absurd hslash (by decide)

/-- An address without slashes at its end, and nothing but a slash as path. -/
def Config.rooted : Config where
  baseUrl := "http://s"
  bucket := "b"
  apiPath := "/"

/-- It breaks no rule, and its joints are not those of single slashes. -/
theorem rooted_not_wellJoined :
    Config.rooted.problems = .ok [] ∧ Config.rooted.storeUrl = "http://s/" ∧
      Config.rooted.bucketUrl = "http://s//b" ∧ ¬ Config.rooted.WellJoined := by
  refine ⟨Config.problems_eq_ok (by decide +kernel), by decide, by decide, fun hjoined => ?_⟩
  exact Config.wellJoined_iff.1 hjoined 1 rfl

end HookRegistry
