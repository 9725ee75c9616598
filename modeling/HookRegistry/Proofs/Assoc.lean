import HookRegistry.Assoc

/-!
# Storing and removing in association lists

The names after a store and after a removal, and what is found under a name then.
-/

namespace HookRegistry.Assoc

variable {α : Type}

/-- What is found under a name belongs to the list. -/
theorem mem_of_get? {name : String} {a : α} {entries : List (String × α)}
    (h : get? name entries = some a) : (name, a) ∈ entries := by
  induction entries with
  | nil => cases h
  | cons e rest ih =>
    obtain ⟨n, b⟩ := e
    rw [get?] at h
    by_cases hn : n = name
    · rw [if_pos hn] at h
      cases h
      rw [hn]
      exact List.mem_cons_self
    · rw [if_neg hn] at h
      exact List.mem_cons_of_mem _ (ih h)

/-- Nothing is found under a name exactly when the name is not there. -/
theorem get?_eq_none_iff {name : String} {entries : List (String × α)} :
    get? name entries = none ↔ name ∉ entries.map Prod.fst := by
  induction entries with
  | nil => simp [get?]
  | cons e rest ih =>
    obtain ⟨n, b⟩ := e
    rw [get?, List.map_cons, List.mem_cons, not_or]
    by_cases hn : n = name
    · simp [hn]
    · rw [if_neg hn, ih]
      exact ⟨fun h => ⟨Ne.symm hn, h⟩, And.right⟩

/-- Where no name comes twice, what belongs to the list is found. -/
theorem get?_eq_some_iff {name : String} {a : α} {entries : List (String × α)}
    (h : (entries.map Prod.fst).Nodup) : get? name entries = some a ↔ (name, a) ∈ entries := by
  refine ⟨mem_of_get?, ?_⟩
  intro hmem
  induction entries with
  | nil => cases hmem
  | cons e rest ih =>
    obtain ⟨n, b⟩ := e
    rw [List.map_cons, List.nodup_cons] at h
    rw [get?]
    rcases List.mem_cons.1 hmem with heq | hmem
    · cases heq
      rw [if_pos rfl]
    · have hname : name ∈ rest.map Prod.fst := List.mem_map.2 ⟨_, hmem, rfl⟩
      have hn : n ≠ name := fun hn => h.1 (hn ▸ hname)
      rw [if_neg hn, ih h.2 hmem]

/-- A name that is not there goes to the end. -/
theorem put_of_not_mem {name : String} {entries : List (String × α)}
    (h : name ∉ entries.map Prod.fst) (a : α) :
    put name a entries = entries ++ [(name, a)] := by
  induction entries with
  | nil => rfl
  | cons e rest ih =>
    obtain ⟨n, b⟩ := e
    rw [List.map_cons, List.mem_cons, not_or] at h
    rw [put, if_neg (Ne.symm h.1), ih h.2, List.cons_append]

/-- No name comes twice. -/
theorem nodup_put {name : String} {entries : List (String × α)}
    (h : (entries.map Prod.fst).Nodup) (a : α) : ((put name a entries).map Prod.fst).Nodup := by
  rw [map_fst_put]
  split
  · exact h
  next hc =>
    have hnone : get? name entries = none := by simpa [contains] using hc
    rw [List.nodup_append]
    refine ⟨h, by simp, ?_⟩
    rintro m hm n hn rfl
    rw [List.mem_singleton] at hn
    exact get?_eq_none_iff.1 hnone (hn ▸ hm)

/-- What is in the list after a store is the new entry or was there before. -/
theorem mem_put {name : String} {a : α} {entries : List (String × α)} {e : String × α}
    (h : e ∈ put name a entries) : e = (name, a) ∨ e ∈ entries := by
  induction entries with
  | nil => exact .inl (List.mem_singleton.1 h)
  | cons f rest ih =>
    obtain ⟨n, b⟩ := f
    rw [put] at h
    by_cases hn : n = name
    · rw [if_pos hn, hn] at h
      rcases List.mem_cons.1 h with h | h
      · exact .inl h
      · exact .inr (List.mem_cons_of_mem _ h)
    · rw [if_neg hn] at h
      rcases List.mem_cons.1 h with h | h
      · exact .inr (h ▸ List.mem_cons_self)
      · exact (ih h).imp_right (List.mem_cons_of_mem _)

/-- A store leaves the entries of other names as they are, in their order. -/
theorem filter_put (name : String) (a : α) (entries : List (String × α)) :
    ((put name a entries).filter fun e => e.1 ≠ name) = entries.filter fun e => e.1 ≠ name := by
  induction entries with
  | nil => simp [put]
  | cons e rest ih =>
    obtain ⟨n, b⟩ := e
    rw [put]
    by_cases hn : n = name
    · simp [hn]
    · rw [if_neg hn, List.filter_cons, List.filter_cons, ih]

/-- Nothing is removed under a name that is not there. -/
theorem erase_of_get?_eq_none {name : String} {entries : List (String × α)}
    (h : get? name entries = none) : erase name entries = entries := by
  induction entries with
  | nil => rfl
  | cons e rest ih =>
    obtain ⟨n, b⟩ := e
    rw [get?] at h
    by_cases hn : n = name
    · rw [if_pos hn] at h
      cases h
    · rw [if_neg hn] at h
      rw [erase, if_neg hn, ih h]

theorem erase_sublist (name : String) (entries : List (String × α)) :
    (erase name entries).Sublist entries := by
  induction entries with
  | nil => exact .slnil
  | cons e rest ih =>
    obtain ⟨n, b⟩ := e
    rw [erase]
    split
    · exact List.sublist_cons_self _ rest
    · exact ih.cons_cons _

theorem nodup_erase {entries : List (String × α)} (h : (entries.map Prod.fst).Nodup)
    (name : String) : ((erase name entries).map Prod.fst).Nodup :=
  h.sublist ((erase_sublist name entries).map Prod.fst)

/-- Nothing is left under a name that was removed. -/
theorem get?_erase_self {name : String} {entries : List (String × α)}
    (h : (entries.map Prod.fst).Nodup) : get? name (erase name entries) = none := by
  induction entries with
  | nil => rfl
  | cons e rest ih =>
    obtain ⟨n, b⟩ := e
    rw [List.map_cons, List.nodup_cons] at h
    rw [erase]
    by_cases hn : n = name
    · rw [if_pos hn, get?_eq_none_iff, ← hn]
      exact h.1
    · rw [if_neg hn, get?, if_neg hn]
      exact ih h.2

theorem get?_erase_of_ne {name other : String} (hne : other ≠ name)
    (entries : List (String × α)) : get? other (erase name entries) = get? other entries := by
  induction entries with
  | nil => rfl
  | cons e rest ih =>
    obtain ⟨n, b⟩ := e
    rw [erase]
    by_cases hn : n = name
    · rw [if_pos hn, get?, if_neg fun h => hne (h.symm.trans hn)]
    · rw [if_neg hn, get?, get?, ih]

/-! ## Other names -/

section Rename

variable {f : String → String} {name : String} {entries : List (String × α)}

/-- The entries of a list under new names. -/
def rename (f : String → String) (entries : List (String × α)) : List (String × α) :=
  entries.map fun e => (f e.1, e.2)

theorem map_snd_rename (f : String → String) (entries : List (String × α)) :
    (rename f entries).map Prod.snd = entries.map Prod.snd := by
  simp [rename]

/-- What is found under a new name, when no two names become the same. -/
theorem get?_rename (h : ∀ e ∈ entries, f e.1 = f name → e.1 = name) :
    get? (f name) (rename f entries) = get? name entries := by
  induction entries with
  | nil => rfl
  | cons e rest ih =>
    obtain ⟨n, b⟩ := e
    have hrest := ih fun e he => h e (List.mem_cons_of_mem _ he)
    unfold rename at hrest ⊢
    rw [List.map_cons, get?, get?]
    by_cases hn : n = name
    · rw [if_pos hn, if_pos (congrArg f hn)]
    · rw [if_neg hn, if_neg fun hf => hn (h (n, b) List.mem_cons_self hf), hrest]

theorem put_rename (h : ∀ e ∈ entries, f e.1 = f name → e.1 = name) (a : α) :
    put (f name) a (rename f entries) = rename f (put name a entries) := by
  induction entries with
  | nil => rfl
  | cons e rest ih =>
    obtain ⟨n, b⟩ := e
    have hrest := ih fun e he => h e (List.mem_cons_of_mem _ he)
    unfold rename at hrest ⊢
    rw [List.map_cons, put, put]
    by_cases hn : n = name
    · rw [if_pos hn, if_pos (congrArg f hn), List.map_cons]
    · rw [if_neg hn, if_neg fun hf => hn (h (n, b) List.mem_cons_self hf), hrest, List.map_cons]

theorem erase_rename (h : ∀ e ∈ entries, f e.1 = f name → e.1 = name) :
    erase (f name) (rename f entries) = rename f (erase name entries) := by
  induction entries with
  | nil => rfl
  | cons e rest ih =>
    obtain ⟨n, b⟩ := e
    have hrest := ih fun e he => h e (List.mem_cons_of_mem _ he)
    unfold rename at hrest ⊢
    rw [List.map_cons, erase, erase]
    by_cases hn : n = name
    · rw [if_pos hn, if_pos (congrArg f hn)]
    · rw [if_neg hn, if_neg fun hf => hn (h (n, b) List.mem_cons_self hf), hrest, List.map_cons]

end Rename

end HookRegistry.Assoc
