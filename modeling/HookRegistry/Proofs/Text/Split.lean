import HookRegistry.Text.Basic

/-!
# Cutting and trimming

What stands before and behind a separator, and what trimming takes off, when a text is known to be
put together from parts.
-/

namespace HookRegistry.Text

/-- What is taken from the front ends with the first part when the second begins with an end. -/
theorem takeWhile_append_of_head {α : Type} {p : α → Bool} (xs : List α) {ys : List α}
    (h : ∀ y ∈ ys.head?, p y = false) : (xs ++ ys).takeWhile p = xs.takeWhile p := by
  induction xs with
  | nil =>
    cases ys with
    | nil => rfl
    | cons y ys =>
      rw [List.nil_append, List.takeWhile_cons, h y rfl]
      rfl
  | cons x xs ih => rw [List.cons_append, List.takeWhile_cons, List.takeWhile_cons, ih]

/-- So does what is dropped. -/
theorem dropWhile_append_of_head {α : Type} {p : α → Bool} (xs : List α) {ys : List α}
    (h : ∀ y ∈ ys.head?, p y = false) : (xs ++ ys).dropWhile p = xs.dropWhile p ++ ys := by
  have hys : ys.dropWhile p = ys := by
    cases ys with
    | nil => rfl
    | cons y ys => rw [List.dropWhile_cons, h y rfl]; rfl
  rw [List.dropWhile_append, hys]
  split
  next hempty => rw [List.isEmpty_iff.1 hempty, List.nil_append]
  next => rfl

variable {sep : Char}

/-- A text is cut at the first separator. -/
theorem cut_append {before : List Char} (h : sep ∉ before) (after : List Char) :
    cut sep (before ++ sep :: after) = (before, some after) := by
  have hbefore : ∀ c ∈ before, decide (c ≠ sep) = true := by
    intro c hc
    exact decide_eq_true fun heq => h (heq ▸ hc)
  have hdrop : (before ++ sep :: after).dropWhile (· ≠ sep) = sep :: after := by
    rw [List.dropWhile_append_of_pos hbefore]
    simp
  have htake : (before ++ sep :: after).takeWhile (· ≠ sep) = before := by
    rw [List.takeWhile_append_of_pos hbefore]
    simp
  unfold cut
  rw [hdrop, htake]

/-- A text that was cut at a separator is put together from its parts. -/
theorem eq_append_of_cut {cs before after : List Char} (h : cut sep cs = (before, some after)) :
    cs = before ++ sep :: after ∧ sep ∉ before := by
  have hparts := (List.takeWhile_append_dropWhile (p := (· ≠ sep)) (l := cs)).symm
  have hhead := List.head?_dropWhile_not (· ≠ sep) cs
  unfold cut at h
  split at h
  next => cases h
  next c rest hdrop =>
    cases h
    rw [hdrop] at hparts hhead
    have hc : c = sep := by simpa using hhead
    rw [hc] at hparts
    refine ⟨hparts, ?_⟩
    intro hmem
    have hne := List.all_eq_true.1 List.all_takeWhile sep hmem
    simp at hne

/-- What is taken off at the end satisfies the predicate. -/
theorem exists_stripRight_append (p : Char → Bool) (cs : List Char) :
    ∃ tail, cs = stripRight p cs ++ tail ∧ ∀ c ∈ tail, p c = true := by
  refine ⟨(cs.reverse.takeWhile p).reverse, ?_, fun c hc => ?_⟩
  · rw [stripRight, ← List.reverse_append, List.takeWhile_append_dropWhile, List.reverse_reverse]
  · exact List.all_eq_true.1 List.all_takeWhile c (List.mem_reverse.1 hc)

/-- What satisfies the predicate is dropped from the end, however much of it there is. -/
theorem stripRight_append {p : Char → Bool} {tail : List Char} (h : ∀ c ∈ tail, p c = true)
    (cs : List Char) : stripRight p (cs ++ tail) = stripRight p cs := by
  unfold stripRight
  rw [List.reverse_append, List.dropWhile_append_of_pos fun c hc => h c (List.mem_reverse.1 hc)]

/-- So it is at both ends. -/
theorem strip_append {p : Char → Bool} {before after : List Char} (hbefore : ∀ c ∈ before, p c = true)
    (hafter : ∀ c ∈ after, p c = true) (cs : List Char) :
    strip p (before ++ cs ++ after) = strip p cs := by
  unfold strip
  rw [List.append_assoc, List.dropWhile_append_of_pos hbefore, List.dropWhile_append]
  split
  next hnone =>
    rw [List.isEmpty_iff.1 hnone]
    exact stripRight_append (fun c hc => hafter c ((List.dropWhile_sublist p).subset hc)) []
  next => exact stripRight_append hafter _

/-- What is left ends in a character that does not satisfy the predicate. -/
theorem getLast?_stripRight {p : Char → Bool} {cs : List Char} {c : Char}
    (h : (stripRight p cs).getLast? = some c) : p c = false := by
  have hhead := List.head?_dropWhile_not p cs.reverse
  rw [stripRight, List.getLast?_reverse] at h
  rw [h] at hhead
  simpa using hhead

/-- It begins with one, too, when it was dropped from both ends. -/
theorem head?_strip {p : Char → Bool} {cs : List Char} {c : Char}
    (h : (strip p cs).head? = some c) : p c = false := by
  obtain ⟨tail, htail, -⟩ := exists_stripRight_append p (cs.dropWhile p)
  have hhead := List.head?_dropWhile_not p cs
  rw [htail, List.head?_append] at hhead
  rw [strip] at h
  rw [h] at hhead
  simpa using hhead

/-- Nothing is left exactly when everything satisfies the predicate. -/
theorem strip_eq_nil_iff {p : Char → Bool} {cs : List Char} :
    strip p cs = [] ↔ ∀ c ∈ cs, p c = true := by
  constructor
  · intro h
    obtain ⟨tail, htail, hall⟩ := exists_stripRight_append p (cs.dropWhile p)
    rw [strip] at h
    rw [h, List.nil_append] at htail
    intro c hc
    rw [← List.takeWhile_append_dropWhile (p := p) (l := cs), htail, List.mem_append] at hc
    rcases hc with hc | hc
    · exact List.all_eq_true.1 List.all_takeWhile c hc
    · exact hall c hc
  · intro h
    have hstrip := strip_append h (List.forall_mem_nil _) []
    rw [List.append_nil, List.append_nil] at hstrip
    exact hstrip

/-- What is left of a text whose blanks at both ends are dropped, when it is a word without blanks
at its own ends. -/
theorem strip_eq_iff {p : Char → Bool} {w cs : List Char} {first last : Char}
    (hfirst : w.head? = some first) (hlast : w.getLast? = some last) (hpfirst : p first = false)
    (hplast : p last = false) :
    strip p cs = w ↔ ∃ before after, cs = before ++ w ++ after ∧ (∀ c ∈ before, p c = true) ∧
      ∀ c ∈ after, p c = true := by
  constructor
  · intro h
    obtain ⟨after, htail, hafter⟩ := exists_stripRight_append p (cs.dropWhile p)
    refine ⟨cs.takeWhile p, after, ?_, List.all_eq_true.1 List.all_takeWhile, hafter⟩
    rw [List.append_assoc, ← h, strip, ← htail, List.takeWhile_append_dropWhile]
  · rintro ⟨before, after, rfl, hbefore, hafter⟩
    have hdrop : (before ++ w ++ after).dropWhile p = w ++ after := by
      rw [List.append_assoc, List.dropWhile_append_of_pos hbefore]
      cases w with
      | nil => cases hfirst
      | cons c w =>
        cases hfirst
        rw [List.cons_append, List.dropWhile_cons_of_neg (by simp [hpfirst])]
    have hreverse : (w ++ after).reverse.dropWhile p = w.reverse := by
      rw [List.reverse_append,
        List.dropWhile_append_of_pos fun c hc => hafter c (List.mem_reverse.1 hc)]
      rw [List.getLast?_eq_head?_reverse] at hlast
      cases hw : w.reverse with
      | nil => rfl
      | cons c w =>
        rw [hw] at hlast
        cases hlast
        rw [List.dropWhile_cons_of_neg (by simp [hplast])]
    rw [strip, stripRight, hdrop, hreverse, List.reverse_reverse]

/-- What stands behind the last separator of a text that ends without one. -/
theorem afterLast_append {after : List Char} (h : sep ∉ after) (before : List Char) :
    afterLast sep (before ++ sep :: after) = after := by
  have hafter : ∀ c ∈ after.reverse, decide (c ≠ sep) = true := by
    intro c hc
    exact decide_eq_true fun heq => h (heq ▸ List.mem_reverse.1 hc)
  unfold afterLast
  rw [List.reverse_append, List.reverse_cons, List.append_assoc,
    List.takeWhile_append_of_pos hafter]
  simp

end HookRegistry.Text
