/-!
# Checked reading

Reading a record reports every problem of every field at once, in the order in which the fields
are declared.  A problem has a kind and a location: the names and indices that lead to it.
-/

namespace HookRegistry

/-- What is wrong at a location. -/
inductive ProblemKind where
  | malformedText
  | notAModel
  | notARecord
  | notAList
  | notAText
  | invalidUtf8
  | notAWhole
  | unreadableWhole
  | oversizedWhole
  | fractionalWhole
  | notFinite
  | notATime
  | unreadableTime
  | unreadableDate
  deriving DecidableEq, Repr

/-- The code under which a kind of problem is reported. -/
def ProblemKind.code : ProblemKind → String
  | .malformedText => "json_invalid"
  | .notAModel => "model_type"
  | .notARecord => "dict_type"
  | .notAList => "list_type"
  | .notAText => "string_type"
  | .invalidUtf8 => "string_unicode"
  | .notAWhole => "int_type"
  | .unreadableWhole => "int_parsing"
  | .oversizedWhole => "int_parsing_size"
  | .fractionalWhole => "int_from_float"
  | .notFinite => "finite_number"
  | .notATime => "datetime_type"
  | .unreadableTime => "datetime_parsing"
  | .unreadableDate => "datetime_from_date_parsing"

/-- A step of a location. -/
inductive Step where
  | name (s : String)
  | index (i : Nat)
  deriving DecidableEq, Repr

/-- A problem and where it is. -/
structure Problem where
  kind : ProblemKind
  location : List Step
  deriving DecidableEq, Repr

/-- Puts a step in front of a location. -/
def Problem.under (s : Step) (p : Problem) : Problem :=
  { p with location := s :: p.location }

/-- A value, or all the problems that keep it from being one. -/
inductive Checked (α : Type) where
  | valid (a : α)
  | invalid (problems : List Problem)
  deriving DecidableEq

namespace Checked

variable {α β : Type}

/-- A single problem at the place itself. -/
def fail (kind : ProblemKind) : Checked α :=
  .invalid [⟨kind, []⟩]

/-- Applies a function to the value. -/
def map (f : α → β) : Checked α → Checked β
  | .valid a => .valid (f a)
  | .invalid ps => .invalid ps

/-- Joins two readings; the problems of both are kept, the first one's first. -/
def seq (f : Checked (α → β)) (x : Unit → Checked α) : Checked β :=
  match f, x () with
  | .valid f, .valid a => .valid (f a)
  | .valid _, .invalid ps => .invalid ps
  | .invalid ps, .valid _ => .invalid ps
  | .invalid ps, .invalid qs => .invalid (ps ++ qs)

instance : Applicative Checked where
  pure := .valid
  seq := seq

/-- Moves every problem under a step. -/
def under (s : Step) : Checked α → Checked α
  | .valid a => .valid a
  | .invalid ps => .invalid (ps.map (Problem.under s))

/-- Continues with a valid value. -/
def bind (x : Checked α) (f : α → Checked β) : Checked β :=
  match x with
  | .valid a => f a
  | .invalid ps => .invalid ps

/-- Reads every element of a list, counting from `i`. -/
def traverseFrom (read : α → Checked β) : Nat → List α → Checked (List β)
  | _, [] => .valid []
  | i, a :: rest => List.cons <$> (read a).under (.index i) <*> traverseFrom read (i + 1) rest

/-- Reads every element of a list. -/
def traverse (read : α → Checked β) (items : List α) : Checked (List β) :=
  traverseFrom read 0 items

end Checked

end HookRegistry
