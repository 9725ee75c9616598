import HookRegistry.Proofs.Config.RequestUrl

/-!
# Slashes of a configuration

The addresses of requests are joined from a base address without slashes at its end and a path
without slashes at its ends.  So more slashes there change no address: `storeUrl_slashed` and its
companions.  They do not change whether a configuration breaks a rule either: `problems_slashed`.

The joints have one slash each when something is left of the path: `wellJoined_iff`.  A path of
nothing but slashes is not empty and breaks no rule, but nothing is left of it, and the address of the
store ends in a slash then.
-/

namespace HookRegistry.Config

/-! ## More slashes -/

/-- A run of slashes. -/
def slashes (n : Nat) : String :=
  String.ofList (List.replicate n '/')

/-- A configuration with more slashes: behind its base address, and before and behind its path. -/
def slashed (c : Config) (behindBase beforePath behindPath : Nat) : Config :=
  { c with baseUrl := c.baseUrl ++ slashes behindBase
           apiPath := slashes beforePath ++ c.apiPath ++ slashes behindPath }

theorem forall_mem_slashes (n : Nat) : ∀ d ∈ List.replicate n '/', (d == '/') = true := by
  intro d hd
  rw [List.eq_of_mem_replicate hd]
  rfl

/-- A text with slashes only is a run of them. -/
theorem eq_slashes_iff {s : String} : (∃ n, s = slashes n) ↔ ∀ d ∈ s.toList, d = '/' := by
  constructor
  · rintro ⟨n, rfl⟩ d hd
    rw [slashes, String.toList_ofList] at hd
    exact List.eq_of_mem_replicate hd
  · intro h
    refine ⟨s.toList.length, String.toList_injective ?_⟩
    rw [slashes, String.toList_ofList]
    exact List.eq_replicate_of_mem h

variable {c : Config} {behindBase beforePath behindPath : Nat}

theorem dropSlashesRight_append (s : String) (n : Nat) :
    dropSlashesRight (s ++ slashes n) = dropSlashesRight s := by
  unfold dropSlashesRight slashes
  rw [String.toList_append, String.toList_ofList, Text.stripRight_append (forall_mem_slashes n)]

theorem dropSlashes_append (s : String) (n m : Nat) :
    dropSlashes (slashes n ++ s ++ slashes m) = dropSlashes s := by
  unfold dropSlashes slashes
  simp only [String.toList_append, String.toList_ofList]
  rw [Text.strip_append (forall_mem_slashes n) (forall_mem_slashes m)]

/-- The addresses stay the same. -/
theorem storeUrl_slashed : (c.slashed behindBase beforePath behindPath).storeUrl = c.storeUrl := by
  unfold storeUrl slashed
  rw [dropSlashesRight_append, dropSlashes_append]

theorem bucketUrl_slashed :
    (c.slashed behindBase beforePath behindPath).bucketUrl = c.bucketUrl := by
  unfold bucketUrl
  rw [storeUrl_slashed]
  rfl

theorem itemUrl_slashed (id : String) :
    (c.slashed behindBase beforePath behindPath).itemUrl id = c.itemUrl id := by
  unfold itemUrl
  rw [bucketUrl_slashed]

theorem slashes_append (n m : Nat) : slashes n ++ slashes m = slashes (n + m) := by
  apply String.toList_injective
  simp [slashes]

/-- The base address is what is left of it and the slashes that are dropped. -/
theorem exists_dropSlashesRight_append (s : String) : ∃ n, s = dropSlashesRight s ++ slashes n := by
  obtain ⟨tail, htail, hslashes⟩ := Text.exists_stripRight_append (· == '/') s.toList
  have hrun : tail = List.replicate tail.length '/' :=
    List.eq_replicate_of_mem fun d hd => beq_iff_eq.1 (hslashes d hd)
  refine ⟨tail.length, String.toList_injective ?_⟩
  simp only [dropSlashesRight, slashes, String.toList_append, String.toList_ofList, ← hrun]
  exact htail

/-- With slashes behind it the base address is one still. -/
theorem split_baseUrl_append (h : c.problems = .ok []) (n : Nat) :
    ∃ u, Url.split (c.baseUrl ++ slashes n) = .ok u ∧ u.isAbsoluteHttp = true := by
  cases n with
  | zero =>
    have hnone : c.baseUrl ++ slashes 0 = c.baseUrl := by simp [slashes]
    rw [hnone]
    exact split_baseUrl h
  | succ n =>
    obtain ⟨m, hm⟩ := exists_dropSlashesRight_append c.baseUrl
    have hlong : c.baseUrl ++ slashes (n + 1) =
        dropSlashesRight c.baseUrl ++ "/" ++ slashes (m + n) := by
      have hrun : slashes m ++ slashes (n + 1) = "/" ++ slashes (m + n) := by
        have hslash : slashes 1 = "/" := rfl
        rw [← hslash, slashes_append, slashes_append]
        congr 1
        omega
      calc c.baseUrl ++ slashes (n + 1)
          = dropSlashesRight c.baseUrl ++ slashes m ++ slashes (n + 1) := by rw [← hm]
        _ = dropSlashesRight c.baseUrl ++ "/" ++ slashes (m + n) := by
            rw [String.append_assoc, hrun, ← String.append_assoc]
    obtain ⟨u, v, -, habsolute, hv, hscheme, hnetloc⟩ := split_below_baseUrl h (slashes (m + n))
    rw [hlong]
    refine ⟨v, hv, ?_⟩
    unfold Url.isAbsoluteHttp at habsolute ⊢
    rw [hscheme, hnetloc]
    exact habsolute

/-- So no rule is broken by more slashes. -/
theorem problems_slashed (h : c.problems = .ok []) :
    (c.slashed behindBase beforePath behindPath).problems = .ok [] := by
  obtain ⟨-, hpath, hothers⟩ := problems_eq_nil_iff.1 h
  refine problems_eq_nil_iff.2 ⟨split_baseUrl_append h behindBase, fun hempty => hpath ?_, hothers⟩
  have hchars := congrArg String.toList hempty
  simp only [slashed, String.toList_append, String.toList_empty, List.append_eq_nil_iff] at hchars
  exact String.toList_injective hchars.1.2

/-! ## The joints -/

/-- A text that begins with a slash. -/
def BeginsWithSlash (s : String) : Prop :=
  s.toList.head? = some '/'

/-- A text that ends in a slash. -/
def EndsInSlash (s : String) : Prop :=
  s.toList.getLast? = some '/'

/-- A text of two parts with exactly one slash between them. -/
structure Joins (s front back : String) : Prop where
  eq : s = front ++ "/" ++ back
  front : ¬ EndsInSlash front
  back : ¬ BeginsWithSlash back

/-- The addresses are joined by single slashes: what follows the base address stands behind one, the
address of the store ends in none, and the bucket, unless it begins with slashes of its own, stands
behind one. -/
structure WellJoined (c : Config) : Prop where
  base : ∀ url ∈ [c.storeUrl, c.bucketUrl], ∃ rest, Joins url (dropSlashesRight c.baseUrl) rest
  store : ¬ EndsInSlash c.storeUrl
  bucket : ¬ BeginsWithSlash c.bucket → ∃ front, Joins c.bucketUrl front c.bucket

theorem not_endsInSlash_dropSlashesRight (s : String) : ¬ EndsInSlash (dropSlashesRight s) := by
  intro h
  rw [EndsInSlash, dropSlashesRight, String.toList_ofList] at h
  have hslash := Text.getLast?_stripRight h
  revert hslash
  decide

theorem not_endsInSlash_dropSlashes (s : String) : ¬ EndsInSlash (dropSlashes s) := by
  intro h
  rw [EndsInSlash, dropSlashes, String.toList_ofList] at h
  have hslash := Text.getLast?_stripRight h
  revert hslash
  decide

theorem not_beginsWithSlash_dropSlashes (s : String) : ¬ BeginsWithSlash (dropSlashes s) := by
  intro h
  rw [BeginsWithSlash, dropSlashes, String.toList_ofList] at h
  have hslash := Text.head?_strip h
  revert hslash
  decide

/-- Nothing is left of a path exactly when it is a run of slashes. -/
theorem dropSlashes_eq_empty_iff {s : String} : dropSlashes s = "" ↔ ∃ n, s = slashes n := by
  rw [eq_slashes_iff, ← String.toList_inj, dropSlashes, String.toList_ofList, String.toList_empty,
    Text.strip_eq_nil_iff]
  simp only [beq_iff_eq]

/-- What stands behind a slash decides how the text ends. -/
theorem endsInSlash_join_iff {front back : String} (h : ¬ EndsInSlash back) :
    EndsInSlash (front ++ "/" ++ back) ↔ back = "" := by
  have hchars : (front ++ "/" ++ back).toList = front.toList ++ '/' :: back.toList := by simp
  unfold EndsInSlash at h ⊢
  rw [hchars, List.getLast?_append, ← String.toList_inj, String.toList_empty]
  cases hback : back.toList with
  | nil => simp
  | cons d ds =>
    rw [hback] at h
    simpa using h

/-- What stands before a slash decides how it begins. -/
theorem beginsWithSlash_join_iff {front back : String} (h : ¬ BeginsWithSlash front) :
    BeginsWithSlash (front ++ "/" ++ back) ↔ front = "" := by
  have hchars : (front ++ "/" ++ back).toList = front.toList ++ '/' :: back.toList := by simp
  unfold BeginsWithSlash at h ⊢
  rw [hchars, ← String.toList_inj, String.toList_empty]
  cases hfront : front.toList with
  | nil => simp
  | cons d ds =>
    rw [hfront] at h
    simpa using h

/-- The joints have one slash each exactly when something is left of the path. -/
theorem wellJoined_iff : c.WellJoined ↔ ∀ n, c.apiPath ≠ slashes n := by
  have hleft : dropSlashes c.apiPath ≠ "" ↔ ∀ n, c.apiPath ≠ slashes n := by
    rw [Ne, dropSlashes_eq_empty_iff, not_exists]
  have hends : EndsInSlash c.storeUrl ↔ dropSlashes c.apiPath = "" :=
    endsInSlash_join_iff (not_endsInSlash_dropSlashes _)
  rw [← hleft]
  refine ⟨fun h hempty => h.store (hends.2 hempty), fun h => ?_⟩
  have hbase := not_endsInSlash_dropSlashesRight c.baseUrl
  have hstore : ¬ EndsInSlash c.storeUrl := fun hslash => h (hends.1 hslash)
  refine ⟨?_, hstore, fun hbucket => ⟨c.storeUrl, rfl, hstore, hbucket⟩⟩
  intro url hurl
  rcases List.mem_cons.1 hurl with rfl | hurl
  · exact ⟨_, rfl, hbase, not_beginsWithSlash_dropSlashes _⟩
  · obtain rfl := List.mem_singleton.1 hurl
    refine ⟨dropSlashes c.apiPath ++ "/" ++ c.bucket, bucketUrl_eq c, hbase, fun hslash => h ?_⟩
    exact (beginsWithSlash_join_iff (not_beginsWithSlash_dropSlashes _)).1 hslash

end HookRegistry.Config
