import HookRegistry.Proofs.StoreClient.Conversation

/-!
# The method of a request

A method is meant to be a token: letters, digits and marks of the ASCII range, at least one of them.
The check accepts every token and one thing more, a token with a line feed behind it:
`isMethod_iff`.  What it accepts goes on to the decorator (`Admitted`), and a request with any other
method fails before the decorator and the session hear of it (`TurnedDown`).  So the methods that are
screened as they should be are those without such a line feed: `screened_iff`.
-/

namespace HookRegistry.Transport

/-! ## Tokens -/

/-- The marks that stand in tokens. -/
def tokenMarks : List Char :=
  "!#$%&'*+-.^_\x60|~".toList

/-- A character of a token. -/
def TokenChar (c : Char) : Prop :=
  c ∈ tokenMarks ∨ ('0' ≤ c ∧ c ≤ '9') ∨ ('A' ≤ c ∧ c ≤ 'Z') ∨ ('a' ≤ c ∧ c ≤ 'z')

instance : DecidablePred TokenChar :=
  fun _ => inferInstanceAs (Decidable (_ ∨ _))

/-- A text of such characters that is not empty. -/
def IsToken (s : String) : Prop :=
  s ≠ "" ∧ ∀ c ∈ s.toList, TokenChar c

/-- A token with a line feed behind it. -/
def EndsInLineFeed (s : String) : Prop :=
  ∃ token, IsToken token ∧ s = token ++ "\n"

theorem isTokenChar_iff (c : Char) : isTokenChar c = true ↔ TokenChar c := by
  have hmarks : tokenMarks =
      ['!', '#', '$', '%', '&', '\'', '*', '+', '-', '.', '^', '_', '\x60', '|', '~'] := rfl
  unfold isTokenChar TokenChar Char.isAlphanum Char.isAlpha Char.isUpper Char.isLower Char.isDigit
  simp only [Bool.or_eq_true, Bool.and_eq_true, decide_eq_true_eq, List.contains_iff_mem, ← hmarks,
    Char.le_def, ge_iff_le]
  grind

theorem isToken_ofList_iff {cs : List Char} :
    IsToken (String.ofList cs) ↔ (!cs.isEmpty && cs.all isTokenChar) = true := by
  unfold IsToken
  simp [isTokenChar_iff]

/-- No token ends in a line feed. -/
theorem IsToken.getLast?_ne {s : String} (h : IsToken s) : s.toList.getLast? ≠ some '\n' := by
  intro hlast
  have hchar : TokenChar '\n' := h.2 _ (List.mem_of_getLast? hlast)
  revert hchar
  decide

theorem not_isToken_append_lineFeed (s : String) : ¬ IsToken (s ++ "\n") := by
  intro h
  apply h.getLast?_ne
  simp

/-- The check of methods accepts tokens, also with a line feed behind them. -/
theorem isMethod_iff (s : String) : isMethod s = true ↔ IsToken s ∨ EndsInLineFeed s := by
  unfold isMethod
  by_cases hlast : s.toList.getLast? = some '\n'
  · -- the check looks at what stands before the line feed
    obtain ⟨token, htoken⟩ := List.getLast?_eq_some_iff.1 hlast
    have hs : s = String.ofList token ++ "\n" := by
      apply String.toList_injective
      simpa using htoken
    simp only [if_pos hlast]
    simp only [htoken, List.dropLast_concat, ← isToken_ofList_iff]
    constructor
    · exact fun h => .inr ⟨_, h, hs⟩
    · rintro (h | ⟨token', h, hs'⟩)
      · exact absurd hlast h.getLast?_ne
      · have hsame : token' = String.ofList token := by
          rw [hs] at hs'
          exact ((String.append_left_inj _).1 hs').symm
        exact hsame ▸ h
  · have hnot : ¬ EndsInLineFeed s := by
      rintro ⟨token, -, rfl⟩
      exact hlast (by simp)
    simp only [if_neg hlast, ← isToken_ofList_iff, String.ofList_toList, hnot, or_false]

/-! ## What becomes of a request -/

/-- An address that a request can have. -/
def UsableUrl (url : String) : Prop :=
  ∃ u, Url.split url = .ok u ∧ u.isAbsoluteHttp = true

/-- A request goes past the checks: the decorator, whatever it remembers, is consulted about the
headers that the request starts with. -/
structure Admitted (r : StoreRequest) : Prop where
  check_eq : check r.method r.url = .ok ()
  consults : ∀ (κ σ : Type) (w : Talk.Surroundings κ σ) (s : Talk.State κ σ)
    (keep : κ → Headers → (Headers × Except Failure Unit) × κ), w.keeper = some keep →
      (s.step w (.send r)).memory = (keep s.memory (plainHeaders r)).2

/-- A request is turned down for its method: over every transport the send fails with an error of
building the request, and neither the decorator nor the session has heard of it. -/
structure TurnedDown (r : StoreRequest) : Prop where
  fails : ∀ t : Transport, t.send r = .fail (.unusableMethod r.method r.url)
  kind : (Failure.unusableMethod r.method r.url).kind? = some .requestBuild
  unheard : ∀ (κ σ : Type) (w : Talk.Surroundings κ σ) (s : Talk.State κ σ),
    s.step w (.send r) = s

/-- The checks of a request let its method pass when it is a token, and no other method. -/
structure Screened (r : StoreRequest) : Prop where
  admitted_iff : Admitted r ↔ IsToken r.method
  turnedDown : ¬ IsToken r.method → TurnedDown r

variable {r : StoreRequest}

theorem admitted_of_check (h : check r.method r.url = .ok ()) : Admitted r := by
  refine ⟨h, fun κ σ w s keep hkeep => ?_⟩
  show ((some r).map (s.remember w)).getD s.memory = _
  simp only [Option.map_some, Option.getD_some, Talk.State.remember, hkeep, h]

theorem admitted_of_isMethod (hurl : UsableUrl r.url) (h : isMethod r.method = true) :
    Admitted r :=
  admitted_of_check (check_eq_ok_iff.2 ⟨h, hurl⟩)

theorem turnedDown_of_isMethod (h : isMethod r.method = false) : TurnedDown r := by
  have hcheck : check r.method r.url = .error (.unusableMethod r.method r.url) := by
    simp [check, h]
  have hsend : ∀ t : Transport, t.send r = .fail (.unusableMethod r.method r.url) := by
    intro t
    rw [send, prepare_eq, hcheck]
  refine ⟨hsend, rfl, fun κ σ w s => ?_⟩
  have hmemory : s.remember w r = s.memory := by
    unfold Talk.State.remember
    rw [hcheck]
    cases w.keeper <;> rfl
  show s.exchange w (some r) ((s.transport w).send r) = s
  rw [hsend, Talk.State.exchange, Option.map_some, hmemory]
  rfl

/-- What is turned down is not let pass. -/
theorem TurnedDown.not_admitted (h : TurnedDown r) : ¬ Admitted r := by
  intro hadmitted
  have hsend := h.fails {}
  rw [send, prepare_eq, hadmitted.check_eq] at hsend
  cases hsend

/-- A method that is neither a token nor a token with a line feed behind it is turned down, whatever
the address.  With an address that a request can have, the checks screen the method as they should
exactly when it does not end in such a line feed; when it does, the request goes past them. -/
theorem screened_iff (r : StoreRequest) :
    (¬ IsToken r.method → ¬ EndsInLineFeed r.method → TurnedDown r) ∧
      (UsableUrl r.url → (Screened r ↔ ¬ EndsInLineFeed r.method) ∧
        (EndsInLineFeed r.method → Admitted r)) := by
  have hdown : ¬ IsToken r.method → ¬ EndsInLineFeed r.method → TurnedDown r := by
    intro htoken hfeed
    apply turnedDown_of_isMethod
    rw [Bool.eq_false_iff, Ne, isMethod_iff]
    exact not_or.2 ⟨htoken, hfeed⟩
  refine ⟨hdown, fun hurl => ?_⟩
  have hadmits : IsToken r.method ∨ EndsInLineFeed r.method → Admitted r :=
    fun h => admitted_of_isMethod hurl ((isMethod_iff _).2 h)
  refine ⟨⟨?_, fun hfeed => ⟨⟨fun hadmitted => ?_, fun h => hadmits (.inl h)⟩, ?_⟩⟩,
    fun h => hadmits (.inr h)⟩
  · intro hscreened hfeed
    have htoken := hscreened.admitted_iff.1 (hadmits (.inr hfeed))
    obtain ⟨token, -, hmethod⟩ := hfeed
    exact not_isToken_append_lineFeed token (hmethod ▸ htoken)
  · exact Classical.byContradiction fun htoken => (hdown htoken hfeed).not_admitted hadmitted
  · exact fun htoken => hdown htoken hfeed

/-- With two line feeds behind it a token is turned down. -/
theorem screened_iff_two_line_feeds :
    Screened { method := "GET\n\n", url := "http://s/b" } ∧
      TurnedDown { method := "GET\n\n", url := "http://s/b" } := by
  have hnot : ¬ (IsToken "GET\n\n" ∨ EndsInLineFeed "GET\n\n") := by
    rw [← isMethod_iff]
    decide
  obtain ⟨htoken, hfeed⟩ := not_or.1 hnot
  obtain ⟨hdown, hurl⟩ := screened_iff { method := "GET\n\n", url := "http://s/b" }
  exact ⟨(hurl ⟨_, rfl, rfl⟩).1.2 hfeed, hdown htoken hfeed⟩

/-- With one line feed it goes past the checks, and reaches the session as it is. -/
theorem line_feed_reaches_session :
    ¬ Screened { method := "GET\n", url := "http://s/b" } ∧
      ((send {} { method := "GET\n", url := "http://s/b" }).question?.map SessionRequest.method) =
        some "GET\n" := by
  refine ⟨fun hscreened => ?_, by decide⟩
  have hmethod : isMethod "GET\n" = true := by decide
  have hadmitted : Admitted { method := "GET\n", url := "http://s/b" } :=
    admitted_of_isMethod ⟨_, rfl, rfl⟩ hmethod
  exact not_isToken_append_lineFeed "GET" (hscreened.admitted_iff.1 hadmitted)

end HookRegistry.Transport
