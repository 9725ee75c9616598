import HookRegistry.Proofs.Text.Split
import HookRegistry.Url.Basic

/-!
# The scheme and the host of a longer URL

What is put behind the address of a host, after a slash, changes neither the scheme nor the network
location that the address is split into: `split_append`.  Slashes at the end of the address may be
dropped before.
-/

namespace HookRegistry.Url

theorem isAbsoluteHttp_iff {u : Url} : u.isAbsoluteHttp = true ↔
    (u.scheme = "http".toList ∨ u.scheme = "https".toList) ∧ u.netloc ≠ [] := by
  simp [isAbsoluteHttp]

/-- The scheme and the network location that a text is split into. -/
def authority (cs : List Char) : List Char × List Char :=
  ((splitScheme (clean cs)).1, (splitNetloc (splitScheme (clean cs)).2).1)

/-- A text is split when nothing is wrong with its network location. -/
theorem split_of_checks {s : String}
    (hbrackets : checkBrackets (authority s.toList).2 = .ok ())
    (hdelimiters : checkDelimiters (authority s.toList).2 = .ok ()) :
    ∃ u, split s = .ok u ∧ (u.scheme, u.netloc) = authority s.toList := by
  unfold authority at hbrackets hdelimiters
  unfold split
  simp only [hbrackets, hdelimiters]
  exact ⟨_, rfl, rfl⟩

theorem checks_of_split {s : String} {u : Url} (h : split s = .ok u) :
    (u.scheme, u.netloc) = authority s.toList ∧
      checkBrackets u.netloc = .ok () ∧ checkDelimiters u.netloc = .ok () := by
  unfold split at h
  simp only [bind, Except.bind] at h
  split at h
  · cases h
  next hbrackets =>
    split at h
    · cases h
    next hdelimiters =>
      cases h
      exact ⟨rfl, hbrackets, hdelimiters⟩

/-! ## Parts of a text -/

/-- Once something of a text is kept, what follows it is kept too. -/
theorem clean_append {front : List Char} (h : front.dropWhile (· ≤ ' ') ≠ []) (rest : List Char) :
    clean (front ++ rest) = clean front ++ rest.filter fun c => !isDropped c := by
  unfold clean
  rw [List.dropWhile_append, if_neg (by simpa using h), List.filter_append]

/-- A scheme stands before a colon. -/
theorem splitScheme_of_not_mem {cs : List Char} (h : ':' ∉ cs) : (splitScheme cs).1 = [] := by
  unfold splitScheme
  split
  next name rest hcut =>
    have hmem : ':' ∈ cs := by
      rw [(Text.eq_append_of_cut hcut).1]
      exact List.mem_append_right name List.mem_cons_self
    exact absurd hmem h
  next => rfl

/-- The scheme is split off before what follows it. -/
theorem splitScheme_append {front rest : List Char} (hrest : ':' ∉ rest)
    (h : (splitScheme (front ++ rest)).1 ≠ []) (more : List Char) :
    ∃ body, splitScheme (front ++ rest) = ((splitScheme (front ++ rest)).1, body ++ rest) ∧
      splitScheme (front ++ more) = ((splitScheme (front ++ rest)).1, body ++ more) := by
  unfold splitScheme at h ⊢
  split at h
  next name after hcut =>
    obtain ⟨hparts, hname⟩ := Text.eq_append_of_cut hcut
    rcases List.append_eq_append_iff.1 hparts with ⟨middle, -, hmiddle⟩ | ⟨middle, hfront, hmiddle⟩
    · exact absurd (hmiddle ▸ List.mem_append_right middle List.mem_cons_self) hrest
    · cases middle with
      | nil =>
        rw [List.nil_append] at hmiddle
        exact absurd (hmiddle ▸ List.mem_cons_self) hrest
      | cons c body =>
        rw [List.cons_append, List.cons.injEq] at hmiddle
        obtain ⟨rfl, rfl⟩ := hmiddle
        subst hfront
        have hmore : Text.cut ':' (name ++ ':' :: body ++ more) = (name, some (body ++ more)) := by
          rw [List.append_assoc, List.cons_append, Text.cut_append hname]
        split at h
        next hscheme =>
          refine ⟨body, ?_, ?_⟩
          · simp only [if_pos hscheme]
          · simp only [hmore, if_pos hscheme]
        next => exact absurd rfl h
  next => exact absurd rfl h

/-- A network location stands behind two slashes. -/
theorem exists_of_splitNetloc {cs : List Char} (h : (splitNetloc cs).1 ≠ []) :
    ∃ rest, cs = '/' :: '/' :: rest ∧ rest.takeWhile (fun c => !endsNetloc c) ≠ [] := by
  unfold splitNetloc at h
  split at h
  next rest => exact ⟨rest, rfl, h⟩
  next => exact absurd rfl h

/-- The network location ends before a slash that follows it. -/
theorem splitNetloc_append {front slashes : List Char} (hslashes : ∀ c ∈ slashes, c = '/')
    (h : (splitNetloc (front ++ slashes)).1 ≠ []) (more : List Char) :
    (splitNetloc (front ++ '/' :: more)).1 = (splitNetloc (front ++ slashes)).1 := by
  have hend : ∀ ss : List Char, (∀ c ∈ ss, c = '/') → ∀ c ∈ ss.head?, (!endsNetloc c) = false := by
    intro ss hss c hc
    rw [hss c (List.mem_of_mem_head? hc)]
    rfl
  have hnone : ∀ ss : List Char, (∀ c ∈ ss, c = '/') →
      ss.takeWhile (fun c => !endsNetloc c) = [] :=
    fun ss hss => Text.takeWhile_append_of_head [] (hend ss hss)
  obtain ⟨rest, hrest, hne⟩ := exists_of_splitNetloc h
  match front, hrest with
  | [], hrest =>
    rw [List.nil_append] at hrest
    have htail : ∀ c ∈ rest, c = '/' := fun c hc => hslashes c (by simp [hrest, hc])
    exact absurd (hnone rest htail) hne
  | [c], hrest =>
    rw [List.singleton_append, List.cons.injEq] at hrest
    have htail : ∀ c ∈ rest, c = '/' := fun c hc => hslashes c (by simp [hrest.2, hc])
    exact absurd (hnone rest htail) hne
  | c :: d :: body, hrest =>
    rw [List.cons_append, List.cons_append, List.cons.injEq, List.cons.injEq] at hrest
    obtain ⟨rfl, rfl, -⟩ := hrest
    have hmore : (body ++ '/' :: more).takeWhile (fun c => !endsNetloc c) =
        body.takeWhile fun c => !endsNetloc c := by
      refine Text.takeWhile_append_of_head body ?_
      intro c hc
      cases hc
      rfl
    have hslash : (body ++ slashes).takeWhile (fun c => !endsNetloc c) =
        body.takeWhile fun c => !endsNetloc c :=
      Text.takeWhile_append_of_head body (hend slashes hslashes)
    exact hmore.trans hslash.symm

/-! ## Longer addresses -/

/-- Something is kept of the part of an address that has its scheme. -/
theorem dropWhile_ne_nil_of_scheme {front slashes : List Char} (hcolon : ':' ∉ slashes)
    (hscheme : (authority (front ++ slashes)).1 ≠ []) : front.dropWhile (· ≤ ' ') ≠ [] := by
  intro hnil
  have hclean : clean (front ++ slashes) =
      (slashes.dropWhile (· ≤ ' ')).filter fun c => !isDropped c := by
    rw [clean, List.dropWhile_append, hnil]
    rfl
  have hmem : ':' ∉ clean (front ++ slashes) := by
    rw [hclean]
    exact fun h => hcolon ((List.dropWhile_sublist _).mem (List.mem_filter.1 h).1)
  exact hscheme (splitScheme_of_not_mem hmem)

/-- A path behind the address of a host changes neither its scheme nor its network location. -/
theorem authority_append {front slashes : List Char} (hslashes : ∀ c ∈ slashes, c = '/')
    (hscheme : (authority (front ++ slashes)).1 ≠ [])
    (hnetloc : (authority (front ++ slashes)).2 ≠ []) (path : List Char) :
    authority (front ++ '/' :: path) = authority (front ++ slashes) := by
  have hcolon : ':' ∉ slashes := fun h => absurd (hslashes _ h) (by decide)
  have hkept : (slashes.filter fun c => !isDropped c) = slashes := by
    refine List.filter_eq_self.2 ?_
    intro c hc
    rw [hslashes c hc]
    rfl
  have hfront : front.dropWhile (· ≤ ' ') ≠ [] := dropWhile_ne_nil_of_scheme hcolon hscheme
  have hshort : clean (front ++ slashes) = clean front ++ slashes := by
    rw [clean_append hfront, hkept]
  have hlong : clean (front ++ '/' :: path) =
      clean front ++ '/' :: path.filter fun c => !isDropped c := clean_append hfront _
  unfold authority at hscheme hnetloc ⊢
  rw [hshort] at hscheme hnetloc ⊢
  rw [hlong]
  obtain ⟨body, hbody, hmore⟩ := splitScheme_append hcolon hscheme
    ('/' :: path.filter fun c => !isDropped c)
  rw [hmore]
  rw [hbody] at hnetloc ⊢
  rw [splitNetloc_append hslashes hnetloc]

/-- A URL with a path behind it has the same scheme and the same network location, and nothing is
wrong with it when nothing is wrong with the URL. -/
theorem split_append {front slashes : List Char} (hslashes : ∀ c ∈ slashes, c = '/') {u : Url}
    (h : split (String.ofList (front ++ slashes)) = .ok u) (hu : u.isAbsoluteHttp = true)
    (path : List Char) :
    ∃ v, split (String.ofList (front ++ '/' :: path)) = .ok v ∧
      v.scheme = u.scheme ∧ v.netloc = u.netloc := by
  obtain ⟨hauthority, hbrackets, hdelimiters⟩ := checks_of_split h
  rw [String.toList_ofList] at hauthority
  rw [isAbsoluteHttp_iff] at hu
  have hscheme : (authority (front ++ slashes)).1 ≠ [] := by
    rw [← hauthority]
    rcases hu.1 with hscheme | hscheme <;> simp [hscheme]
  have hnetloc : (authority (front ++ slashes)).2 ≠ [] := by
    rw [← hauthority]
    exact hu.2
  have hsame := authority_append hslashes hscheme hnetloc path
  rw [← hauthority] at hsame
  obtain ⟨v, hv, hparts⟩ := split_of_checks (s := String.ofList (front ++ '/' :: path))
    (by rw [String.toList_ofList, hsame]; exact hbrackets)
    (by rw [String.toList_ofList, hsame]; exact hdelimiters)
  rw [String.toList_ofList, hsame, Prod.mk.injEq] at hparts
  exact ⟨v, hv, hparts.1, hparts.2⟩

end HookRegistry.Url
