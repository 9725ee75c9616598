/-!
# Association lists

Pairs of a name and a value in the order in which the names first appeared.  Storing under a name
that is present replaces the value and keeps the position.
-/

namespace HookRegistry.Assoc

variable {α : Type}

/-- The value stored under a name. -/
def get? (name : String) : List (String × α) → Option α
  | [] => none
  | (n, a) :: rest => if n = name then some a else get? name rest

/-- Stores a value: in place when the name is present, at the end otherwise. -/
def put (name : String) (a : α) : List (String × α) → List (String × α)
  | [] => [(name, a)]
  | (n, b) :: rest => if n = name then (n, a) :: rest else (n, b) :: put name a rest

/-- Removes the entry of a name. -/
def erase (name : String) : List (String × α) → List (String × α)
  | [] => []
  | (n, b) :: rest => if n = name then rest else (n, b) :: erase name rest

/-- Whether a name is present. -/
def contains (name : String) (entries : List (String × α)) : Bool :=
  (get? name entries).isSome

@[simp] theorem get?_put_self (name : String) (a : α) (entries : List (String × α)) :
    get? name (put name a entries) = some a := by
  induction entries with
  | nil => simp [put, get?]
  | cons e rest ih => by_cases h : e.1 = name <;> simp [put, get?, h, ih]

theorem get?_put_of_ne {name other : String} (hne : other ≠ name) (a : α)
    (entries : List (String × α)) : get? other (put name a entries) = get? other entries := by
  induction entries with
  | nil => simp [put, get?, Ne.symm hne]
  | cons e rest ih =>
    obtain ⟨n, b⟩ := e
    by_cases h : n = name
    · subst h
      simp [put, get?, Ne.symm hne]
    · by_cases h' : n = other
      · subst h'
        simp [put, get?, h]
      · simp [put, get?, h, h', ih]

/-- The names after a store: unchanged when the name was present, one longer otherwise. -/
theorem map_fst_put (name : String) (a : α) (entries : List (String × α)) :
    (put name a entries).map Prod.fst =
      if contains name entries then entries.map Prod.fst
      else entries.map Prod.fst ++ [name] := by
  induction entries with
  | nil => simp [put, contains, get?]
  | cons e rest ih =>
    obtain ⟨n, b⟩ := e
    by_cases h : n = name
    · simp [put, contains, get?, h]
    · by_cases hc : contains name rest <;> simp_all [put, contains, get?]

end HookRegistry.Assoc
