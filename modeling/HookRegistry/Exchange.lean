import HookRegistry.Failure.Basic

/-!
# Exchanges

An operation that talks to a partner either ends by itself or asks exactly one question and ends
with the answer.  The type leaves no room for a second question, so "one request or none" is read
off from it.
-/

namespace HookRegistry

/-- How an operation ended, and what it wrote to the log since its question. -/
structure Outcome (α : Type) where
  result : Except Failure α
  log : List LogRecord := []

/-- An operation that asks a partner at most once.  The log of `asks` is written before the
question is put. -/
inductive Exchange (question answer α : Type) where
  | ended (o : Outcome α)
  | asks (q : question) (log : List LogRecord) (finish : answer → Outcome α)

namespace Exchange

variable {ρ σ ρ' σ' α β : Type}

/-- An operation that fails by itself. -/
def fail (f : Failure) : Exchange ρ σ α :=
  .ended { result := .error f }

/-- The question, when there is one. -/
def question? : Exchange ρ σ α → Option ρ
  | .ended _ => none
  | .asks q _ _ => some q

/-- Runs the operation with a partner that answers from a state of its own; a partner that is not
asked keeps its state. -/
def run {s : Type} (respond : ρ → s → σ × s) (partner : s) : Exchange ρ σ α → Outcome α × s
  | .ended o => (o, partner)
  | .asks q log finish =>
    let (a, partner) := respond q partner
    ({ result := (finish a).result, log := log ++ (finish a).log }, partner)

/-- Puts the question through a lower layer, whose own outcome is the answer. -/
def through (send : ρ → Exchange ρ' σ' β) (x : Exchange ρ (Except Failure β) α) : Exchange ρ' σ' α :=
  match x with
  | .ended o => .ended o
  | .asks q log finish =>
    match send q with
    | .ended o =>
      .ended { result := (finish o.result).result, log := log ++ o.log ++ (finish o.result).log }
    | .asks q' log' finish' =>
      .asks q' (log ++ log') fun a =>
        let o := finish' a
        { result := (finish o.result).result, log := o.log ++ (finish o.result).log }

/-- Changes how the operation ends. -/
def mapOutcome (f : Outcome α → Outcome β) : Exchange ρ σ α → Exchange ρ σ β
  | .ended o => .ended (f o)
  | .asks q log finish => .asks q log fun a => f (finish a)

/-- A partner that is not asked keeps its state. -/
theorem run_snd_of_question?_eq_none {s : Type} (respond : ρ → s → σ × s) (partner : s)
    {x : Exchange ρ σ α} (h : x.question? = none) : (x.run respond partner).2 = partner := by
  cases x with
  | ended o => rfl
  | asks q log finish => simp [question?] at h

/-- The question that reaches the lower partner is the one that the lower layer makes. -/
theorem question?_through_asks (send : ρ → Exchange ρ' σ' β) (q : ρ) (log : List LogRecord)
    (finish : Except Failure β → Outcome α) :
    (through send (.asks q log finish)).question? = (send q).question? := by
  simp only [through]
  cases send q <;> rfl

end Exchange

end HookRegistry
