import HookRegistry.Proofs.Assoc
import HookRegistry.Webhook.Basic

/-!
# The directory of webhooks

What is registered after a sequence of requests, seen as a list of webhooks under keys of their
addresses: an addition puts a webhook in the place of the one with the same key, or at the end, and
a removal takes it out.

* `directory` takes the address itself as the key.  `registers_directory` says that it holds the
  webhooks that were added last for their address and not removed since, one for each address, in
  the order in which the addresses were entered, and no other list does: `Registers.eq_directory`.
* `keptBy_eq_rename` says that any other key gives the same webhooks in the same order, as long as
  it tells the addresses apart that occur.
-/

namespace HookRegistry

/-- A request that is made of a registry. -/
inductive Request where
  | add (now : Civil) (offset : Int) (owner : String) (w : Webhook)
  | remove (owner url : String)
  | all
  | poll
  deriving DecidableEq

namespace Request

/-- The address that a request changes the registration for. -/
def address? : Request → Option String
  | .add _ _ _ w => some w.delivery.url
  | .remove _ url => some url
  | .all | .poll => none

/-- The webhooks that are kept after a request, under the keys of their addresses. -/
def apply (key : String → String) (entries : List (String × Webhook)) :
    Request → List (String × Webhook)
  | .add _ _ _ w => Assoc.put (key w.delivery.url) w entries
  | .remove _ url => Assoc.erase (key url) entries
  | .all | .poll => entries

/-- The webhooks that are kept after a sequence of requests. -/
def keptBy (key : String → String) (rs : List Request) : List (String × Webhook) :=
  rs.foldl (apply key) []

/-- The webhooks that are kept under their addresses. -/
def directory (rs : List Request) : List (String × Webhook) :=
  keptBy id rs

theorem keptBy_append_singleton (key : String → String) (rs : List Request) (r : Request) :
    keptBy key (rs ++ [r]) = apply key (keptBy key rs) r := by
  simp [keptBy]

/-! ## One webhook for each address -/

theorem nodup_apply {key : String → String} {entries : List (String × Webhook)}
    (h : (entries.map Prod.fst).Nodup) (r : Request) :
    ((apply key entries r).map Prod.fst).Nodup := by
  cases r with
  | add => exact Assoc.nodup_put h _
  | remove => exact Assoc.nodup_erase h _
  | all | poll => exact h

theorem nodup_foldl_apply {key : String → String} (rs : List Request)
    {entries : List (String × Webhook)} (h : (entries.map Prod.fst).Nodup) :
    ((rs.foldl (apply key) entries).map Prod.fst).Nodup := by
  induction rs generalizing entries with
  | nil => exact h
  | cons r rs ih => exact ih (nodup_apply h r)

/-- There is at most one webhook for each address. -/
theorem nodup_directory (rs : List Request) : ((directory rs).map Prod.fst).Nodup :=
  nodup_foldl_apply rs List.nodup_nil

/-! ## What was added last -/

/-- A request that adds a webhook for an address. -/
def Adds (r : Request) (url : String) (w : Webhook) : Prop :=
  w.delivery.url = url ∧ ∃ now offset owner, r = .add now offset owner w

/-- A webhook is the last that was added for an address, and it was not removed since. -/
def Stands (rs : List Request) (url : String) (w : Webhook) : Prop :=
  ∃ before r after, rs = before ++ r :: after ∧ r.Adds url w ∧
    ∀ later ∈ after, later.address? ≠ some url

theorem not_stands_nil (url : String) (w : Webhook) : ¬ Stands [] url w := by
  rintro ⟨before, r, after, hrs, -⟩
  simp at hrs

theorem stands_cons_iff {r : Request} {rs : List Request} {url : String} {w : Webhook} :
    Stands (r :: rs) url w ↔
      Stands rs url w ∨ (r.Adds url w ∧ ∀ later ∈ rs, later.address? ≠ some url) := by
  constructor
  · rintro ⟨before, r', after, hrs, hadds, hafter⟩
    cases before with
    | nil =>
      cases hrs
      exact .inr ⟨hadds, hafter⟩
    | cons b before =>
      cases hrs
      exact .inl ⟨before, r', after, rfl, hadds, hafter⟩
  · rintro (⟨before, r', after, rfl, hadds, hafter⟩ | ⟨hadds, hafter⟩)
    · exact ⟨r :: before, r', after, rfl, hadds, hafter⟩
    · exact ⟨[], r, rs, rfl, hadds, hafter⟩

theorem adds_add_iff {now : Civil} {offset : Int} {owner url : String} {v w : Webhook} :
    (Request.add now offset owner v).Adds url w ↔ v = w ∧ v.delivery.url = url := by
  constructor
  · rintro ⟨rfl, _, _, _, hadd⟩
    cases hadd
    exact ⟨rfl, rfl⟩
  · rintro ⟨rfl, rfl⟩
    exact ⟨rfl, now, offset, owner, rfl⟩

/-- What one request changes for an address. -/
theorem get?_apply_iff {entries : List (String × Webhook)} (h : (entries.map Prod.fst).Nodup)
    (r : Request) {url : String} {w : Webhook} :
    Assoc.get? url (apply id entries r) = some w ↔
      r.Adds url w ∨ (Assoc.get? url entries = some w ∧ r.address? ≠ some url) := by
  cases r with
  | add now offset owner v =>
    rw [adds_add_iff]
    by_cases hurl : url = v.delivery.url
    · subst hurl
      simp [apply, address?]
    · simp [apply, address?, Assoc.get?_put_of_ne hurl, Ne.symm hurl]
  | remove owner v =>
    by_cases hurl : url = v
    · subst hurl
      simp [apply, address?, Adds, Assoc.get?_erase_self h]
    · simp [apply, address?, Adds, Assoc.get?_erase_of_ne hurl, Ne.symm hurl]
  | all | poll => simp [apply, address?, Adds]

theorem get?_foldl_apply_iff (rs : List Request) {entries : List (String × Webhook)}
    (h : (entries.map Prod.fst).Nodup) {url : String} {w : Webhook} :
    Assoc.get? url (rs.foldl (apply id) entries) = some w ↔
      Stands rs url w ∨
        (Assoc.get? url entries = some w ∧ ∀ r ∈ rs, r.address? ≠ some url) := by
  induction rs generalizing entries with
  | nil => simp [not_stands_nil]
  | cons r rs ih =>
    rw [List.foldl_cons, ih (nodup_apply h r), get?_apply_iff h, stands_cons_iff,
      List.forall_mem_cons, or_and_right, or_assoc, and_assoc]

/-- The directory holds the webhooks that were added last for their address and not removed
since. -/
theorem mem_directory_iff {rs : List Request} {url : String} {w : Webhook} :
    (url, w) ∈ directory rs ↔ Stands rs url w := by
  have hnil : (([] : List (String × Webhook)).map Prod.fst).Nodup := List.nodup_nil
  rw [← Assoc.get?_eq_some_iff (nodup_directory rs), directory, keptBy,
    get?_foldl_apply_iff rs hnil]
  simp [Assoc.get?]

/-! ## The order -/

/-- An address was entered by the request at place `n`: it added a webhook for an address that had
none, and no request has removed the address since. -/
def EnteredAt (rs : List Request) (url : String) (n : Nat) : Prop :=
  ∃ before r after w, rs = before ++ r :: after ∧ before.length = n ∧ r.Adds url w ∧
    (∀ v, ¬ Stands before url v) ∧ ∀ later ∈ after, ∀ owner, later ≠ .remove owner url

/-- One address was entered before another. -/
def EnteredBefore (rs : List Request) (u v : String) : Prop :=
  ∃ m n, m < n ∧ EnteredAt rs u m ∧ EnteredAt rs v n

variable {rs : List Request} {r : Request} {u v url : String} {n : Nat}

theorem EnteredAt.lt_length (h : EnteredAt rs url n) : n < rs.length := by
  obtain ⟨before, r, after, w, rfl, rfl, -⟩ := h
  rw [List.length_append, List.length_cons]
  omega

theorem EnteredAt.append (h : EnteredAt rs url n) (hr : ∀ owner, r ≠ .remove owner url) :
    EnteredAt (rs ++ [r]) url n := by
  obtain ⟨before, first, after, w, rfl, hlength, hadds, hbefore, hafter⟩ := h
  refine ⟨before, first, after ++ [r], w, by simp, hlength, hadds, hbefore, ?_⟩
  intro later hlater
  rcases List.mem_append.1 hlater with hlater | hlater
  · exact hafter later hlater
  · exact List.mem_singleton.1 hlater ▸ hr

theorem EnteredBefore.append (h : EnteredBefore rs u v) (hu : ∀ owner, r ≠ .remove owner u)
    (hv : ∀ owner, r ≠ .remove owner v) : EnteredBefore (rs ++ [r]) u v := by
  obtain ⟨m, n, hlt, hm, hn⟩ := h
  exact ⟨m, n, hlt, hm.append hu, hn.append hv⟩

/-- Addresses that were entered one after the other. -/
structure InOrder (rs : List Request) (urls : List String) : Prop where
  entered : ∀ u ∈ urls, ∃ n, EnteredAt rs u n
  ordered : urls.Pairwise (EnteredBefore rs)

/-- A request that removes none of the addresses leaves their order as it is. -/
theorem InOrder.append {urls : List String} (h : InOrder rs urls)
    (hr : ∀ u ∈ urls, ∀ owner, r ≠ .remove owner u) : InOrder (rs ++ [r]) urls where
  entered := fun u hu => by
    obtain ⟨n, hn⟩ := h.entered u hu
    exact ⟨n, hn.append (hr u hu)⟩
  ordered := h.ordered.imp_of_mem fun hu hv huv => huv.append (hr _ hu) (hr _ hv)

/-- A new address comes last. -/
theorem InOrder.snoc {urls : List String} (h : InOrder rs urls)
    (hr : ∀ owner u, r ≠ .remove owner u) {w : Webhook} (hadds : r.Adds url w)
    (hnew : ∀ v, ¬ Stands rs url v) : InOrder (rs ++ [r]) (urls ++ [url]) := by
  have hold : InOrder (rs ++ [r]) urls := h.append fun u _ owner => hr owner u
  have hlast : EnteredAt (rs ++ [r]) url rs.length :=
    ⟨rs, r, [], w, rfl, rfl, hadds, hnew, fun _ h => absurd h List.not_mem_nil⟩
  constructor
  · intro u hu
    rcases List.mem_append.1 hu with hu | hu
    · exact hold.entered u hu
    · exact ⟨_, List.mem_singleton.1 hu ▸ hlast⟩
  · refine List.pairwise_append.2 ⟨hold.ordered, List.pairwise_singleton _ _, ?_⟩
    intro u hu v hv
    obtain ⟨m, hm⟩ := h.entered u hu
    rw [List.mem_singleton.1 hv]
    exact ⟨m, rs.length, hm.lt_length, hm.append fun owner => hr owner u, hlast⟩

theorem inOrder_append_singleton (h : InOrder rs ((directory rs).map Prod.fst)) (r : Request) :
    InOrder (rs ++ [r]) ((directory (rs ++ [r])).map Prod.fst) := by
  have hstep : directory (rs ++ [r]) = apply id (directory rs) r := keptBy_append_singleton id rs r
  rw [hstep]
  cases r with
  | add now offset owner w =>
    have hkeys : (apply id (directory rs) (.add now offset owner w)).map Prod.fst =
        if Assoc.contains w.delivery.url (directory rs) then (directory rs).map Prod.fst
        else (directory rs).map Prod.fst ++ [w.delivery.url] :=
      Assoc.map_fst_put w.delivery.url w (directory rs)
    rw [hkeys]
    split
    next => exact h.append fun _ _ _ hr => by cases hr
    next hnew =>
      refine h.snoc (fun _ _ hr => by cases hr) ⟨rfl, now, offset, owner, rfl⟩ fun v hv => hnew ?_
      rw [← mem_directory_iff, ← Assoc.get?_eq_some_iff (nodup_directory rs)] at hv
      rw [Assoc.contains, hv]
      rfl
  | remove owner url =>
    have hsub : ((Assoc.erase url (directory rs)).map Prod.fst).Sublist
        ((directory rs).map Prod.fst) :=
      (Assoc.erase_sublist url (directory rs)).map Prod.fst
    have hgone : url ∉ (Assoc.erase url (directory rs)).map Prod.fst :=
      Assoc.get?_eq_none_iff.1 (Assoc.get?_erase_self (nodup_directory rs))
    have hleft : InOrder rs ((Assoc.erase url (directory rs)).map Prod.fst) :=
      ⟨fun u hu => h.entered u (hsub.mem hu), h.ordered.sublist hsub⟩
    refine hleft.append fun u hu owner' heq => hgone ?_
    cases heq
    exact hu
  | all | poll => exact h.append fun _ _ _ hr => by cases hr

/-- The addresses stand in the order in which they were entered. -/
theorem inOrder_directory (rs : List Request) : InOrder rs ((directory rs).map Prod.fst) := by
  rw [← List.reverse_reverse rs]
  induction rs.reverse with
  | nil => exact ⟨nofun, .nil⟩
  | cons r rest ih =>
    rw [List.reverse_cons]
    exact inOrder_append_singleton ih r

/-- Webhooks under their addresses that are those added last and not removed since, once for each
address, in the order in which the addresses were entered. -/
structure Registers (rs : List Request) (entries : List (String × Webhook)) : Prop where
  standing : ∀ url w, (url, w) ∈ entries ↔ Stands rs url w
  once : (entries.map Prod.fst).Nodup
  inOrder : InOrder rs (entries.map Prod.fst)

theorem registers_directory (rs : List Request) : Registers rs (directory rs) where
  standing := fun _ _ => mem_directory_iff
  once := nodup_directory rs
  inOrder := inOrder_directory rs

/-- An address that was added and not removed since has a webhook. -/
theorem exists_stands {w : Webhook} (hadds : r.Adds url w) :
    ∀ later : List Request, (∀ l ∈ later, ∀ owner, l ≠ .remove owner url) →
      ∃ v, Stands (r :: later) url v := by
  intro later hlater
  induction later generalizing w with
  | nil => exact ⟨w, stands_cons_iff.2 (.inr ⟨hadds, nofun⟩)⟩
  | cons l rest ih =>
    obtain ⟨hl, hrest⟩ := List.forall_mem_cons.1 hlater
    obtain ⟨v, hv⟩ := ih hadds hrest
    rcases stands_cons_iff.1 hv with hv | ⟨hr, hafter⟩
    · exact ⟨v, stands_cons_iff.2 (.inl (stands_cons_iff.2 (.inl hv)))⟩
    · by_cases hurl : l.address? = some url
      · -- `l` is no removal, so it adds a webhook that stands
        cases l with
        | add now offset owner x =>
          have hx : (Request.add now offset owner x).Adds url x :=
            adds_add_iff.2 ⟨rfl, Option.some.inj hurl⟩
          exact ⟨x, stands_cons_iff.2 (.inl (stands_cons_iff.2 (.inr ⟨hx, hafter⟩)))⟩
        | remove owner v =>
          cases hurl
          exact absurd rfl (hl owner)
        | all | poll => cases hurl
      · exact ⟨v, stands_cons_iff.2 (.inr ⟨hr, List.forall_mem_cons.2 ⟨hurl, hafter⟩⟩)⟩

theorem Stands.append_left {w : Webhook} (h : Stands rs url w) (before : List Request) :
    Stands (before ++ rs) url w := by
  obtain ⟨first, r, after, rfl, hadds, hafter⟩ := h
  exact ⟨before ++ first, r, after, by simp, hadds, hafter⟩

/-- An address that was entered is not entered again later, since it has a webhook then. -/
theorem EnteredAt.not_lt {m : Nat} (hm : EnteredAt rs url m) (hn : EnteredAt rs url n) :
    ¬ m < n := by
  intro hlt
  obtain ⟨before, r, after, w, hrs, rfl, hadds, -, hafter⟩ := hm
  obtain ⟨before', r', after', w', hrs', rfl, -, hnone, -⟩ := hn
  rcases List.append_eq_append_iff.1 (hrs.symm.trans hrs') with ⟨mid, rfl, hmid⟩ | ⟨mid, rfl, -⟩
  · cases mid with
    | nil => simp at hlt
    | cons first mid =>
      cases hmid
      obtain ⟨v, hv⟩ := exists_stands hadds mid fun l hl => hafter l (List.mem_append_left _ hl)
      exact hnone v (hv.append_left before)
  · rw [List.length_append] at hlt
    omega

/-- Of two addresses only one was entered before the other. -/
theorem EnteredBefore.asymm (h : EnteredBefore rs u v) : ¬ EnteredBefore rs v u := by
  rintro ⟨m, n, hlt, hm, hn⟩
  obtain ⟨m', n', hlt', hm', hn'⟩ := h
  have hu : ¬ m' < n := hm'.not_lt hn
  have hv : ¬ m < n' := hm.not_lt hn'
  omega

/-- There is only one such list. -/
theorem Registers.eq_directory {entries : List (String × Webhook)} (h : Registers rs entries) :
    entries = directory rs := by
  have hd := registers_directory rs
  have hnodup {entries : List (String × Webhook)} (h : (entries.map Prod.fst).Nodup) :
      entries.Nodup :=
    List.Pairwise.of_map Prod.fst (fun _ _ hne heq => hne (congrArg Prod.fst heq)) h
  have hperm : entries.Perm (directory rs) := by
    rw [List.perm_ext_iff_of_nodup (hnodup h.once) (hnodup hd.once)]
    rintro ⟨url, w⟩
    rw [h.standing, hd.standing]
  have hantisymm : ∀ e e' : String × Webhook, e ∈ entries → e' ∈ directory rs →
      EnteredBefore rs e.1 e'.1 → EnteredBefore rs e'.1 e.1 → e = e' :=
    fun _ _ _ _ hbefore hafter => absurd hafter hbefore.asymm
  exact hperm.eq_of_pairwise hantisymm (List.pairwise_map.1 h.inOrder.ordered)
    (List.pairwise_map.1 hd.inOrder.ordered)

/-! ## Other keys -/

/-- Whether a key tells the addresses apart that occur in some requests. -/
def TellsApart (key : String → String) (rs : List Request) : Prop :=
  ∀ r ∈ rs, ∀ s ∈ rs, ∀ u ∈ r.address?, ∀ v ∈ s.address?, key u = key v → u = v

theorem keys_apply {P : String → Prop} {entries : List (String × Webhook)}
    (h : ∀ e ∈ entries, P e.1) {r : Request} (hr : ∀ u ∈ r.address?, P u) :
    ∀ e ∈ apply id entries r, P e.1 := by
  intro e he
  cases r with
  | add now offset owner w =>
    rcases Assoc.mem_put he with rfl | he
    · exact hr _ rfl
    · exact h e he
  | remove owner url => exact h e ((Assoc.erase_sublist _ _).mem he)
  | all | poll => exact h e he

/-- One request under another key. -/
theorem apply_rename {key : String → String} {entries : List (String × Webhook)} {r : Request}
    (h : ∀ e ∈ entries, ∀ u ∈ r.address?, key e.1 = key u → e.1 = u) :
    apply key (Assoc.rename key entries) r = Assoc.rename key (apply id entries r) := by
  cases r with
  | add now offset owner w => exact Assoc.put_rename (fun e he => h e he _ rfl) w
  | remove owner url => exact Assoc.erase_rename fun e he => h e he _ rfl
  | all | poll => rfl

theorem foldl_apply_rename {key : String → String} {P : String → Prop}
    (hkey : ∀ u v, P u → P v → key u = key v → u = v) (rs : List Request)
    (hrs : ∀ r ∈ rs, ∀ u ∈ r.address?, P u) {entries : List (String × Webhook)}
    (hentries : ∀ e ∈ entries, P e.1) :
    rs.foldl (apply key) (Assoc.rename key entries) =
        Assoc.rename key (rs.foldl (apply id) entries) ∧
      ∀ e ∈ rs.foldl (apply id) entries, P e.1 := by
  induction rs generalizing entries with
  | nil => exact ⟨rfl, hentries⟩
  | cons r rs ih =>
    have hr : ∀ u ∈ r.address?, P u := hrs r List.mem_cons_self
    rw [List.foldl_cons, List.foldl_cons,
      apply_rename fun e he u hu => hkey e.1 u (hentries e he) (hr u hu)]
    exact ih (fun s hs => hrs s (List.mem_cons_of_mem r hs)) (keys_apply hentries hr)

/-- Under another key the same webhooks are kept in the same order. -/
theorem keptBy_eq_rename {key : String → String} {rs : List Request} (h : TellsApart key rs) :
    keptBy key rs = Assoc.rename key (directory rs) ∧
      ∀ e ∈ directory rs, ∃ r ∈ rs, e.1 ∈ r.address? := by
  have hkey : ∀ u v, (∃ r ∈ rs, u ∈ r.address?) → (∃ r ∈ rs, v ∈ r.address?) →
      key u = key v → u = v := by
    rintro u v ⟨r, hr, hu⟩ ⟨s, hs, hv⟩
    exact h r hr s hs u hu v hv
  have hnone : ∀ e ∈ ([] : List (String × Webhook)), ∃ r ∈ rs, e.1 ∈ r.address? :=
    fun e he => absurd he List.not_mem_nil
  exact foldl_apply_rename hkey rs (fun r hr u hu => ⟨r, hr, hu⟩) hnone

end Request

end HookRegistry
