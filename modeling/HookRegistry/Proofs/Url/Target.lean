import HookRegistry.Proofs.Url.Authority

/-!
# What of an address reaches the server

The fragment of an address stays with the client: `target` is what reaches the server.  Whatever is
put behind a slash at the end of an address stands in its path, its query or its fragment, after the
characters that splitting drops were dropped.  `seenBehind` says what of it reaches the server, and
two such texts lead to the same target when that is the same: `sameTarget_append_iff`.
-/

namespace HookRegistry.Url

/-- The parts of a URL that reach the server: scheme, network location, path and query. -/
def target (u : Url) : List Char × List Char × List Char × List Char :=
  (u.scheme, u.netloc, u.path, u.query)

/-- Two addresses of which the same reaches the server. -/
def SameTarget (s t : String) : Prop :=
  ∃ u v, split s = .ok u ∧ split t = .ok v ∧ u.target = v.target

/-! ## Behind the network location -/

/-- What follows the network location of a text. -/
def remainder (cs : List Char) : List Char :=
  (splitNetloc (splitScheme (clean cs)).2).2

/-- The path and the query in what follows a network location. -/
def route (rest : List Char) : List Char × List Char :=
  ((Text.cut '?' (Text.cut '#' rest).1).1, (Text.cut '?' (Text.cut '#' rest).1).2.getD [])

theorem route_of_split {s : String} {u : Url} (h : split s = .ok u) :
    (u.path, u.query) = route (remainder s.toList) := by
  unfold split at h
  simp only [bind, Except.bind] at h
  split at h
  · cases h
  · split at h
    · cases h
    · cases h
      rfl

/-- A character that is not dropped with the others in front of it is still there. -/
theorem mem_dropWhile_iff {p : Char → Bool} {c : Char} (hc : p c = false) {cs : List Char} :
    c ∈ cs.dropWhile p ↔ c ∈ cs := by
  refine ⟨fun h => (List.dropWhile_sublist p).mem h, fun h => ?_⟩
  rw [← List.takeWhile_append_dropWhile (p := p) (l := cs), List.mem_append] at h
  refine h.resolve_left fun htake => ?_
  rw [List.all_eq_true.1 List.all_takeWhile c htake] at hc
  cases hc

theorem mem_clean_iff {c : Char} (hc : ' ' < c) (hkept : isDropped c = false) {cs : List Char} :
    c ∈ clean cs ↔ c ∈ cs := by
  have hblank : decide (c ≤ ' ') = false := decide_eq_false (Char.not_le.2 hc)
  unfold clean
  rw [List.mem_filter, mem_dropWhile_iff hblank, hkept]
  simp

/-- What stands before a scheme that was split off, and behind it. -/
theorem eq_append_of_splitScheme {cs : List Char} (h : (splitScheme cs).1 ≠ []) :
    ∃ name, cs = name ++ ':' :: (splitScheme cs).2 ∧ isScheme name = true := by
  unfold splitScheme at h ⊢
  split at h
  next name rest hcut =>
    split at h
    next hname =>
      rw [if_pos hname]
      exact ⟨name, (Text.eq_append_of_cut hcut).1, hname⟩
    next => exact absurd rfl h
  next => exact absurd rfl h

/-- The characters of a scheme are letters, digits and signs. -/
theorem isSchemeChar_of_isScheme {name : List Char} (h : isScheme name = true) :
    ∀ c ∈ name, isSchemeChar c = true := by
  cases name with
  | nil => cases h
  | cons c rest =>
    simp only [isScheme, Bool.and_eq_true, List.all_eq_true] at h
    refine List.forall_mem_cons.2 ⟨?_, h.2⟩
    simp [isSchemeChar, Char.isAlphanum, h.1]

/-- What follows the network location of an address goes on with what is put behind the address. -/
theorem exists_remainder_append {front : List Char} (hscheme : (authority (front ++ ['/'])).1 ≠ [])
    (hnetloc : (authority (front ++ ['/'])).2 ≠ []) :
    ∃ body, (∀ path, remainder (front ++ '/' :: path) =
        body ++ '/' :: path.filter fun c => !isDropped c) ∧
      ∀ c, c = '#' ∨ c = '?' → (c ∈ body ↔ c ∈ front) := by
  have hcolon : ':' ∉ ['/'] := by decide
  have hfront := dropWhile_ne_nil_of_scheme hcolon hscheme
  have hclean : ∀ path, clean (front ++ '/' :: path) =
      clean front ++ '/' :: path.filter fun c => !isDropped c := fun path => clean_append hfront _
  have hshort : clean (front ++ ['/']) = clean front ++ ['/'] := hclean []
  unfold authority at hscheme hnetloc
  rw [hshort] at hscheme hnetloc
  obtain ⟨rest, hrest, -⟩ := splitScheme_append hcolon hscheme []
  rw [hrest] at hnetloc
  obtain ⟨after, hafter, hne⟩ := exists_of_splitNetloc hnetloc
  obtain ⟨host, rfl⟩ : ∃ host, rest = '/' :: '/' :: host := by
    match rest, hafter with
    | [], hafter => simp at hafter
    | [c], hafter =>
      simp only [List.cons_append, List.nil_append, List.cons.injEq] at hafter
      exact absurd (by rw [← hafter.2.2]; rfl) hne
    | c :: d :: host, hafter =>
      simp only [List.cons_append, List.cons.injEq] at hafter
      exact ⟨host, by rw [hafter.1, hafter.2.1]⟩
  refine ⟨host.dropWhile fun c => !endsNetloc c, fun path => ?_, fun c hc => ?_⟩
  · obtain ⟨other, hother, hpath⟩ := splitScheme_append hcolon hscheme
      ('/' :: path.filter fun c => !isDropped c)
    rw [hrest, Prod.mk.injEq, List.append_cancel_right_eq] at hother
    unfold remainder
    rw [hclean, hpath, ← hother.2]
    exact Text.dropWhile_append_of_head host fun c hc => by cases hc; rfl
  · obtain ⟨name, hname, hisScheme⟩ := eq_append_of_splitScheme hscheme
    have hcleanFront : clean front = name ++ ':' :: '/' :: '/' :: host := by
      rw [hrest] at hname
      refine List.append_cancel_right (hname.trans ?_)
      simp
    have hends : (!endsNetloc c) = false := by rcases hc with rfl | rfl <;> rfl
    have hkept : c ∈ clean front ↔ c ∈ front := by
      rcases hc with rfl | rfl <;> exact mem_clean_iff (by decide) rfl
    have hnot : c ∉ name := by
      intro hmem
      have hchar := isSchemeChar_of_isScheme hisScheme c hmem
      rcases hc with rfl | rfl <;> cases hchar
    rw [mem_dropWhile_iff hends, ← hkept, hcleanFront]
    rcases hc with rfl | rfl <;> simp [hnot]

/-! ## Cutting off the query and the fragment -/

theorem cut_fst (sep : Char) (cs : List Char) : (Text.cut sep cs).1 = cs.takeWhile (· ≠ sep) := by
  unfold Text.cut
  split
  next h => rw [← List.append_nil (cs.takeWhile _), ← h, List.takeWhile_append_dropWhile]
  next => rfl

/-- A text is cut in its second part when the separator is not in the first. -/
theorem cut_append_of_not_mem {sep : Char} {before : List Char} (h : sep ∉ before)
    (after : List Char) :
    Text.cut sep (before ++ after) =
      (before ++ (Text.cut sep after).1, (Text.cut sep after).2) := by
  have hbefore : ∀ c ∈ before, decide (c ≠ sep) = true :=
    fun c hc => decide_eq_true fun heq => h (heq ▸ hc)
  unfold Text.cut
  rw [List.dropWhile_append_of_pos hbefore, List.takeWhile_append_of_pos hbefore]
  cases after.dropWhile (· ≠ sep) <;> rfl

/-- Behind a number sign nothing is path or query. -/
theorem route_append_of_hash {before : List Char} (h : '#' ∈ before) (after : List Char) :
    route (before ++ after) = route before := by
  obtain ⟨front, rest, rfl, hfront⟩ := List.eq_append_cons_of_mem h
  unfold route
  rw [List.append_assoc, List.cons_append, Text.cut_append hfront, Text.cut_append hfront]

/-- Behind a question mark all is query, up to a number sign. -/
theorem route_append_of_mark {before : List Char} (hhash : '#' ∉ before) (hmark : '?' ∈ before) :
    ∃ path query, ∀ after,
      route (before ++ after) = (path, query ++ after.takeWhile (· ≠ '#')) := by
  obtain ⟨path, query, rfl, hpath⟩ := List.eq_append_cons_of_mem hmark
  refine ⟨path, query, fun after => ?_⟩
  unfold route
  rw [cut_append_of_not_mem hhash, cut_fst '#', List.append_assoc, List.cons_append,
    Text.cut_append hpath]
  rfl

/-- Behind anything else the text is cut as it is on its own. -/
theorem route_append {before : List Char} (hhash : '#' ∉ before) (hmark : '?' ∉ before)
    (after : List Char) :
    route (before ++ after) = (before ++ (route after).1, (route after).2) := by
  unfold route
  rw [cut_append_of_not_mem hhash, cut_append_of_not_mem hmark]

/-! ## Texts behind an address -/

/-- What of a text behind an address reaches the server, in the path and in the query. -/
def seenBehind (front text : List Char) : List Char × List Char :=
  let kept := text.filter fun c => !isDropped c
  if '#' ∈ front then ([], [])
  else if '?' ∈ front then ([], kept.takeWhile (· ≠ '#'))
  else route kept

/-- Two texts behind a slash at the end of an address lead to the same target when the same of them
reaches the server. -/
theorem route_remainder_eq_iff {front : List Char} (hscheme : (authority (front ++ ['/'])).1 ≠ [])
    (hnetloc : (authority (front ++ ['/'])).2 ≠ []) (s t : List Char) :
    route (remainder (front ++ '/' :: s)) = route (remainder (front ++ '/' :: t)) ↔
      seenBehind front s = seenBehind front t := by
  obtain ⟨body, hbody, hmem⟩ := exists_remainder_append hscheme hnetloc
  have hslash : ∀ path, remainder (front ++ '/' :: path) =
      body ++ ['/'] ++ path.filter fun c => !isDropped c := by
    intro path
    rw [hbody, List.append_assoc, List.singleton_append]
  have hhash : '#' ∈ body ++ ['/'] ↔ '#' ∈ front := by
    rw [← hmem '#' (.inl rfl)]
    simp
  have hmark : '?' ∈ body ++ ['/'] ↔ '?' ∈ front := by
    rw [← hmem '?' (.inr rfl)]
    simp
  rw [hslash, hslash]
  unfold seenBehind
  by_cases hfrontHash : '#' ∈ front
  · rw [route_append_of_hash (hhash.2 hfrontHash), route_append_of_hash (hhash.2 hfrontHash)]
    simp [hfrontHash]
  · by_cases hfrontMark : '?' ∈ front
    · obtain ⟨path, query, hroute⟩ :=
        route_append_of_mark (fun h => hfrontHash (hhash.1 h)) (hmark.2 hfrontMark)
      rw [hroute, hroute]
      simp [hfrontHash, hfrontMark]
    · have happend := fun after =>
        route_append (fun h => hfrontHash (hhash.1 h)) (fun h => hfrontMark (hmark.1 h)) after
      rw [happend, happend]
      simp [hfrontHash, hfrontMark, Prod.ext_iff]

end HookRegistry.Url
