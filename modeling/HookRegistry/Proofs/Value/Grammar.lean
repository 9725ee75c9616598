import HookRegistry.Proofs.Text.Bytes
import HookRegistry.Proofs.Value.Lexing

/-!
# Which texts denote which values

`Reads d ts v` says, apart from the reader, that some tokens denote a value within `d` containers,
`Denotes cs v` that a JSON text does, and `Encodes data v` that its bytes do.  The reader accepts
exactly these texts: `ofText?_eq_some_iff`, and for bytes `ofBytes?_eq_some_iff`.  The text of
`null` is the word with nothing but white space around it: `denotes_null_iff`.
-/

namespace HookRegistry.Value

/-! ## The grammar -/

/-- The tokens of a member of a record. -/
def nameTokens (name : String) (ts : List Token) : List Token :=
  .text name :: .colon :: ts

/-- Puts members into a record, one after the other. -/
def putAll (before members : List (String × Value)) : List (String × Value) :=
  members.foldl (fun ms m => Assoc.put m.1 m.2 ms) before

/-- The record of some members; of those with one name the first gives the place and the last the
value. -/
def collect (members : List (String × Value)) : List (String × Value) :=
  putAll [] members

/-- The tokens of a value within some containers, an empty one not counted.  The items of a list and
the members of a record are each given with their tokens. -/
inductive Reads : Nat → List Token → Value → Prop where
  | word {d : Nat} (v : Value) : Reads d [.word v] v
  | text {d : Nat} (s : String) : Reads d [.text s] (.text s)
  | emptyList {d : Nat} : Reads d [.openList, .closeList] (.list [])
  | list {d : Nat} {first : List Token × Value} {items : List (List Token × Value)}
      (h : ∀ item ∈ first :: items, Reads d item.1 item.2) :
      Reads (d + 1)
        (.openList :: first.1 ++ items.flatMap (fun item => .comma :: item.1) ++ [.closeList])
        (.list ((first :: items).map Prod.snd))
  | emptyRecord {d : Nat} : Reads d [.openRecord, .closeRecord] (.record [])
  | record {d : Nat} {first : String × List Token × Value}
      {members : List (String × List Token × Value)}
      (h : ∀ m ∈ first :: members, Reads d m.2.1 m.2.2) :
      Reads (d + 1)
        (.openRecord :: nameTokens first.1 first.2.1 ++
          members.flatMap (fun m => .comma :: nameTokens m.1 m.2.1) ++ [.closeRecord])
        (.record (collect ((first :: members).map fun m => (m.1, m.2.2))))

/-- A JSON text and the value that it denotes. -/
def Denotes (cs : List Char) (v : Value) : Prop :=
  ∃ ts, Token.Lexes cs ts ∧ Reads depthLimit ts v

/-- Bytes that are a JSON text, and the value that it denotes. -/
def Encodes (data : ByteArray) (v : Value) : Prop :=
  ∃ s : String, data = s.toUTF8 ∧ Denotes s.toList v

/-! ## The members of a record -/

theorem putAll_cons (before : List (String × Value)) (m : String × Value)
    (ms : List (String × Value)) : putAll before (m :: ms) = putAll (Assoc.put m.1 m.2 before) ms :=
  rfl

theorem putAll_of_nodup {before ms : List (String × Value)}
    (h : ((before ++ ms).map Prod.fst).Nodup) : putAll before ms = before ++ ms := by
  induction ms generalizing before with
  | nil =>
    rw [List.append_nil]
    rfl
  | cons m ms ih =>
    have hnew : m.1 ∉ before.map Prod.fst := by
      rw [List.map_append, List.nodup_append] at h
      exact fun hmem => h.2.2 m.1 hmem m.1 (by simp) rfl
    have hput : Assoc.put m.1 m.2 before ++ ms = before ++ m :: ms := by
      rw [Assoc.put_of_not_mem hnew, List.append_assoc, List.singleton_append]
    rw [putAll_cons, ih (by rw [hput]; exact h), hput]

/-- Members with distinct names are kept as they are. -/
theorem collect_of_nodup {ms : List (String × Value)} (h : (ms.map Prod.fst).Nodup) :
    collect ms = ms :=
  putAll_of_nodup h

theorem nodup_putAll {before : List (String × Value)} (h : (before.map Prod.fst).Nodup)
    (ms : List (String × Value)) : ((putAll before ms).map Prod.fst).Nodup := by
  induction ms generalizing before with
  | nil => exact h
  | cons m ms ih => exact ih (Assoc.nodup_put h m.2)

/-- The members of a record have distinct names. -/
theorem nodup_collect (ms : List (String × Value)) : ((collect ms).map Prod.fst).Nodup := by
  have hnil : (([] : List (String × Value)).map Prod.fst).Nodup := List.nodup_nil
  exact nodup_putAll hnil ms

theorem mem_putAll {before ms : List (String × Value)} {m : String × Value}
    (h : m ∈ putAll before ms) : m ∈ before ∨ m ∈ ms := by
  induction ms generalizing before with
  | nil => exact .inl h
  | cons first ms ih =>
    rcases ih h with hmem | hmem
    · rcases Assoc.mem_put hmem with rfl | hmem
      · exact .inr List.mem_cons_self
      · exact .inl hmem
    · exact .inr (List.mem_cons_of_mem _ hmem)

/-- They are among those that are given. -/
theorem mem_collect {ms : List (String × Value)} {m : String × Value} (h : m ∈ collect ms) :
    m ∈ ms :=
  (mem_putAll h).resolve_left List.not_mem_nil

/-! ## The reader by what is left of the tokens -/

/-- The value that the reader finds when the rest of the tokens is read. -/
def readTo? (r : Reading) (ts : List Token) : Option Value :=
  (ts.foldlM read? r).bind fun r =>
    match r.expect with
    | .finished v => some v
    | _ => none

theorem readTo?_cons (r : Reading) (t : Token) (ts : List Token) :
    readTo? r (t :: ts) = (read? r t).bind fun r => readTo? r ts := by
  rw [readTo?, List.foldlM_cons, Option.bind_eq_bind, Option.bind_assoc]
  rfl

theorem readTo?_cons_of_eq {r r' : Reading} {t : Token} (h : read? r t = some r')
    (ts : List Token) : readTo? r (t :: ts) = readTo? r' ts := by
  rw [readTo?_cons, h, Option.bind_some]

theorem ofTokens?_eq_readTo? (ts : List Token) : ofTokens? ts = readTo? ⟨[], .value⟩ ts :=
  rfl

/-- Where the first item of a list may stand, a value may, if there is room for the list. -/
theorem read?_firstItem {t : Token} (ht : t ≠ .closeList) (stack : List Frame) :
    read? ⟨stack, .firstItem⟩ t =
      if stack.length < depthLimit then startValue? (.list [] :: stack) t else none := by
  cases t with
  | closeList => exact absurd rfl ht
  | _ => rfl

theorem depthLimit_sub {n : Nat} (h : n < depthLimit) :
    depthLimit - n = depthLimit - (n + 1) + 1 := by
  omega

/-! ## What the reader takes tokens for -/

/-- Where a value must follow, the first tokens denote one, and with it the rest is read. -/
def FindsValue (stack : List Frame) (ts : List Token) (w : Value) : Prop :=
  ∃ front rest v, ts = front ++ rest ∧ Reads (depthLimit - stack.length) front v ∧
    readTo? (deliver v stack) rest = some w

/-- Behind an item of a list there are more items and the end of the list. -/
def FindsItems (stack : List Frame) (items : List Value) (ts : List Token) (w : Value) : Prop :=
  ∃ (more : List (List Token × Value)) (rest : List Token),
    ts = more.flatMap (fun item => .comma :: item.1) ++ .closeList :: rest ∧
      (∀ item ∈ more, Reads (depthLimit - (stack.length + 1)) item.1 item.2) ∧
      readTo? (deliver (.list (items.reverse ++ more.map Prod.snd)) stack) rest = some w

/-- Behind a member of a record there are more members and the end of the record. -/
def FindsMembers (stack : List Frame) (ms : List (String × Value)) (ts : List Token) (w : Value) :
    Prop :=
  ∃ (more : List (String × List Token × Value)) (rest : List Token),
    ts = more.flatMap (fun m => .comma :: nameTokens m.1 m.2.1) ++ .closeRecord :: rest ∧
      (∀ m ∈ more, Reads (depthLimit - (stack.length + 1)) m.2.1 m.2.2) ∧
      readTo? (deliver (.record (putAll ms (more.map fun m => (m.1, m.2.2)))) stack) rest = some w

/-- In fewer tokens than some number a value is found where it must follow. -/
def ValuesFound (n : Nat) : Prop :=
  ∀ ts : List Token, ts.length < n → ∀ {stack : List Frame} {w : Value},
    readTo? ⟨stack, .value⟩ ts = some w → FindsValue stack ts w

section Containers

variable {n : Nat} (hvalue : ValuesFound n) {stack : List Frame} {ts : List Token} {w : Value}

include hvalue

/-- The items of a list are found when values are. -/
theorem findsItems_of_readTo? {items : List Value} (hlength : ts.length ≤ n)
    (h : readTo? ⟨stack, .afterItem items⟩ ts = some w) : FindsItems stack items ts w := by
  -- on the length of what is left, of which an item takes at least its comma
  induction hts : ts.length using Nat.strongRecOn generalizing items ts with
  | ind length ih =>
  match ts with
  | [] => cases h
  | .comma :: ts =>
    rw [List.length_cons] at hts hlength
    have hitem : readTo? ⟨.list items :: stack, .value⟩ ts = some w := h
    obtain ⟨front, rest, v, rfl, hv, hrest⟩ := hvalue ts (by omega) hitem
    rw [List.length_append] at hts hlength
    obtain ⟨more, rest, rfl, hmore, hend⟩ := ih rest.length (by omega) (by omega) hrest rfl
    refine ⟨(front, v) :: more, rest, by simp, List.forall_mem_cons.2 ⟨hv, hmore⟩, ?_⟩
    simpa using hend
  | .closeList :: rest =>
    refine ⟨[], rest, rfl, by simp, ?_⟩
    rw [List.map_nil, List.append_nil]
    exact h
  | .openList :: _ | .openRecord :: _ | .closeRecord :: _ | .colon :: _ | .text _ :: _
  | .word _ :: _ => cases h

/-- Behind the name of a member there is its value, and then what is behind a member. -/
theorem findsMember_of_readTo? {ms : List (String × Value)} {name : String}
    (hlength : ts.length ≤ n) (h : readTo? ⟨stack, .colon ms name⟩ ts = some w) :
    ∃ front rest v, .text name :: ts = nameTokens name front ++ rest ∧ rest.length < ts.length ∧
      Reads (depthLimit - (stack.length + 1)) front v ∧
      readTo? ⟨stack, .afterMember (Assoc.put name v ms)⟩ rest = some w := by
  match ts with
  | [] => cases h
  | .colon :: ts =>
    have hmember : readTo? ⟨.member ms name :: stack, .value⟩ ts = some w := h
    obtain ⟨front, rest, v, rfl, hv, hrest⟩ := hvalue ts hlength hmember
    have hshort : rest.length < (Token.colon :: (front ++ rest)).length := by
      rw [List.length_cons, List.length_append]
      omega
    exact ⟨front, rest, v, rfl, hshort, hv, hrest⟩
  | .comma :: _ | .openList :: _ | .closeList :: _ | .openRecord :: _ | .closeRecord :: _
  | .text _ :: _ | .word _ :: _ => cases h

/-- The members of a record are found when values are. -/
theorem findsMembers_of_readTo? {ms : List (String × Value)} (hlength : ts.length ≤ n)
    (h : readTo? ⟨stack, .afterMember ms⟩ ts = some w) : FindsMembers stack ms ts w := by
  induction hts : ts.length using Nat.strongRecOn generalizing ms ts with
  | ind length ih =>
  match ts with
  | [] | [.comma] => cases h
  | .comma :: .text name :: ts =>
    simp only [List.length_cons] at hts hlength
    have hname : readTo? ⟨stack, .colon ms name⟩ ts = some w := h
    obtain ⟨front, rest, v, heq, hshort, hv, hrest⟩ :=
      findsMember_of_readTo? hvalue (by omega) hname
    obtain ⟨more, rest, rfl, hmore, hend⟩ := ih rest.length (by omega) (by omega) hrest rfl
    refine ⟨(name, front, v) :: more, rest, ?_, List.forall_mem_cons.2 ⟨hv, hmore⟩, hend⟩
    simp [heq]
  | .closeRecord :: rest => exact ⟨[], rest, rfl, by simp, h⟩
  | .openList :: _ | .openRecord :: _ | .closeList :: _ | .colon :: _ | .text _ :: _
  | .word _ :: _ | .comma :: .openList :: _ | .comma :: .openRecord :: _ | .comma :: .closeList :: _
  | .comma :: .colon :: _ | .comma :: .closeRecord :: _ | .comma :: .comma :: _
  | .comma :: .word _ :: _ => cases h

/-- A list that is open is found with its items. -/
theorem findsList_of_readTo? (hlength : ts.length < n)
    (h : readTo? ⟨stack, .firstItem⟩ ts = some w) : FindsValue stack (.openList :: ts) w := by
  match ts with
  | [] => cases h
  | t :: ts =>
    by_cases hclose : t = .closeList
    · subst hclose
      exact ⟨[.openList, .closeList], ts, .list [], rfl, .emptyList, h⟩
    · rw [readTo?_cons, read?_firstItem hclose] at h
      split at h
      next hroom =>
        have hitem : readTo? ⟨.list [] :: stack, .value⟩ (t :: ts) = some w := by
          rw [readTo?_cons, ← h]
          unfold read?
          rfl
        obtain ⟨front, rest, v, heq, hv, hrest⟩ := hvalue (t :: ts) hlength hitem
        have hshort : rest.length ≤ n := by
          rw [heq, List.length_append] at hlength
          omega
        obtain ⟨more, rest, rfl, hmore, hend⟩ := findsItems_of_readTo? hvalue hshort hrest
        have hitems : ∀ item ∈ (front, v) :: more,
            Reads (depthLimit - (stack.length + 1)) item.1 item.2 :=
          List.forall_mem_cons.2 ⟨hv, hmore⟩
        have hlist := Reads.list hitems
        rw [← depthLimit_sub hroom] at hlist
        exact ⟨_, rest, _, by simp [heq], hlist, hend⟩
      next => cases h

/-- A record that is open is found with its members. -/
theorem findsRecord_of_readTo? (hlength : ts.length < n)
    (h : readTo? ⟨stack, .firstName⟩ ts = some w) : FindsValue stack (.openRecord :: ts) w := by
  match ts with
  | [] => cases h
  | .closeRecord :: ts => exact ⟨[.openRecord, .closeRecord], ts, .record [], rfl, .emptyRecord, h⟩
  | .text name :: ts =>
    rw [List.length_cons] at hlength
    rw [readTo?_cons] at h
    simp only [read?] at h
    split at h
    next hroom =>
      have hname : readTo? ⟨stack, .colon [] name⟩ ts = some w := h
      obtain ⟨front, rest, v, heq, hshort, hv, hrest⟩ :=
        findsMember_of_readTo? hvalue (by omega) hname
      obtain ⟨more, rest, rfl, hmore, hend⟩ := findsMembers_of_readTo? hvalue (by omega) hrest
      have hmembers : ∀ m ∈ (name, front, v) :: more,
          Reads (depthLimit - (stack.length + 1)) m.2.1 m.2.2 :=
        List.forall_mem_cons.2 ⟨hv, hmore⟩
      have hrecord := Reads.record hmembers
      rw [← depthLimit_sub hroom] at hrecord
      exact ⟨_, rest, _, by simp [heq], hrecord, hend⟩
    next => cases h
  | .openList :: _ | .openRecord :: _ | .closeList :: _ | .colon :: _ | .comma :: _
  | .word _ :: _ => cases h

end Containers

/-- Where a value must follow, it is found. -/
theorem findsValue_of_readTo? {stack : List Frame} {ts : List Token} {w : Value}
    (h : readTo? ⟨stack, .value⟩ ts = some w) : FindsValue stack ts w := by
  induction hts : ts.length using Nat.strongRecOn generalizing stack ts w with
  | ind length ih =>
  have hvalue : ValuesFound length := fun us hus _ _ hread => ih us.length hus hread rfl
  match ts with
  | [] => cases h
  | .word v :: ts => exact ⟨[.word v], ts, v, rfl, .word v, h⟩
  | .text s :: ts => exact ⟨[.text s], ts, .text s, rfl, .text s, h⟩
  | .openList :: ts => exact findsList_of_readTo? hvalue (by simp at hts; omega) h
  | .openRecord :: ts => exact findsRecord_of_readTo? hvalue (by simp at hts; omega) h
  | .closeList :: _ | .closeRecord :: _ | .colon :: _ | .comma :: _ => cases h

/-! ## What the reader finds -/

/-- Tokens that denote a value are read as it where `n` containers are open. -/
def ReadFrom (n : Nat) (ts : List Token) (v : Value) : Prop :=
  ∀ stack : List Frame, stack.length = n → ∀ rest : List Token,
    readTo? ⟨stack, .value⟩ (ts ++ rest) = readTo? (deliver v stack) rest

/-- The items after the first. -/
theorem readTo?_items {more : List (List Token × Value)} {stack : List Frame}
    (h : ∀ item ∈ more, ReadFrom (stack.length + 1) item.1 item.2) (items : List Value)
    (rest : List Token) :
    readTo? ⟨stack, .afterItem items⟩
        (more.flatMap (fun item => .comma :: item.1) ++ .closeList :: rest) =
      readTo? (deliver (.list (items.reverse ++ more.map Prod.snd)) stack) rest := by
  induction more generalizing items with
  | nil =>
    rw [List.map_nil, List.append_nil]
    rfl
  | cons item more ih =>
    rw [List.forall_mem_cons] at h
    have hcomma : read? ⟨stack, .afterItem items⟩ .comma =
        some ⟨.list items :: stack, .value⟩ := rfl
    rw [List.flatMap_cons, List.append_assoc, List.cons_append, readTo?_cons_of_eq hcomma,
      h.1 _ rfl, deliver, ih h.2]
    simp

/-- The members after the first. -/
theorem readTo?_members {more : List (String × List Token × Value)} {stack : List Frame}
    (h : ∀ m ∈ more, ReadFrom (stack.length + 1) m.2.1 m.2.2) (ms : List (String × Value))
    (rest : List Token) :
    readTo? ⟨stack, .afterMember ms⟩
        (more.flatMap (fun m => .comma :: nameTokens m.1 m.2.1) ++ .closeRecord :: rest) =
      readTo? (deliver (.record (putAll ms (more.map fun m => (m.1, m.2.2)))) stack) rest := by
  induction more generalizing ms with
  | nil => rfl
  | cons m more ih =>
    rw [List.forall_mem_cons] at h
    have hcomma : read? ⟨stack, .afterMember ms⟩ .comma = some ⟨stack, .name ms⟩ := rfl
    have hname : read? ⟨stack, .name ms⟩ (.text m.1) = some ⟨stack, .colon ms m.1⟩ := rfl
    have hcolon : read? ⟨stack, .colon ms m.1⟩ .colon =
        some ⟨.member ms m.1 :: stack, .value⟩ := rfl
    rw [List.flatMap_cons, List.append_assoc, List.cons_append, readTo?_cons_of_eq hcomma,
      nameTokens, List.cons_append, readTo?_cons_of_eq hname, List.cons_append,
      readTo?_cons_of_eq hcolon, h.1 _ rfl, deliver, ih h.2]
    rfl

/-- No value begins with the end of a list. -/
theorem Reads.exists_eq_cons {d : Nat} {ts : List Token} {v : Value} (h : Reads d ts v) :
    ∃ t us, ts = t :: us ∧ t ≠ .closeList := by
  cases h <;> exact ⟨_, _, rfl, nofun⟩

/-- Tokens that denote a value are read as it wherever there is room for its containers. -/
theorem Reads.readFrom {d : Nat} {ts : List Token} {v : Value} (h : Reads d ts v) :
    ∀ n, n + d ≤ depthLimit → ReadFrom n ts v := by
  induction h with
  | word v => exact fun _ _ _ _ _ => rfl
  | text s => exact fun _ _ _ _ _ => rfl
  | emptyList => exact fun _ _ _ _ _ => rfl
  | emptyRecord => exact fun _ _ _ _ _ => rfl
  | @list d first items h ih =>
    rintro n hn stack rfl rest
    have hroom : stack.length < depthLimit := by omega
    have hitems : ∀ item ∈ first :: items, ReadFrom (stack.length + 1) item.1 item.2 :=
      fun item hitem => ih item hitem (stack.length + 1) (by omega)
    rw [List.forall_mem_cons] at h hitems
    obtain ⟨t, us, heq, ht⟩ := h.1.exists_eq_cons
    have hfirst : ∀ more : List Token, readTo? ⟨stack, .firstItem⟩ (first.1 ++ more) =
        readTo? ⟨.list [] :: stack, .value⟩ (first.1 ++ more) := by
      intro more
      rw [heq, List.cons_append, readTo?_cons, readTo?_cons, read?_firstItem ht, if_pos hroom]
      unfold read?
      rfl
    have hopen : read? ⟨stack, .value⟩ .openList = some ⟨stack, .firstItem⟩ := rfl
    rw [List.append_assoc, List.append_assoc, List.cons_append, readTo?_cons_of_eq hopen, hfirst,
      hitems.1 _ rfl, deliver, List.singleton_append, readTo?_items hitems.2]
    rfl
  | @record d first members h ih =>
    rintro n hn stack rfl rest
    have hroom : stack.length < depthLimit := by omega
    have hmembers : ∀ m ∈ first :: members, ReadFrom (stack.length + 1) m.2.1 m.2.2 :=
      fun m hm => ih m hm (stack.length + 1) (by omega)
    rw [List.forall_mem_cons] at hmembers
    have hopen : read? ⟨stack, .value⟩ .openRecord = some ⟨stack, .firstName⟩ := rfl
    have hname : read? ⟨stack, .firstName⟩ (.text first.1) = some ⟨stack, .colon [] first.1⟩ :=
      if_pos hroom
    have hcolon : read? ⟨stack, .colon [] first.1⟩ .colon =
        some ⟨.member [] first.1 :: stack, .value⟩ := rfl
    rw [List.append_assoc, List.append_assoc, List.cons_append, readTo?_cons_of_eq hopen,
      nameTokens, List.cons_append, readTo?_cons_of_eq hname, List.cons_append,
      readTo?_cons_of_eq hcolon, hmembers.1 _ rfl, deliver, List.singleton_append,
      readTo?_members hmembers.2]
    rfl

/-! ## Whole texts -/

/-- A complete value has nothing behind it. -/
theorem readTo?_finished {v w : Value} {ts : List Token}
    (h : readTo? ⟨[], .finished v⟩ ts = some w) : ts = [] ∧ v = w := by
  cases ts with
  | nil => exact ⟨rfl, Option.some.inj h⟩
  | cons t ts => cases h

theorem ofTokens?_eq_some_iff {ts : List Token} {v : Value} :
    ofTokens? ts = some v ↔ Reads depthLimit ts v := by
  rw [ofTokens?_eq_readTo?]
  constructor
  · intro h
    obtain ⟨front, rest, u, rfl, hu, hrest⟩ := findsValue_of_readTo? h
    obtain ⟨rfl, rfl⟩ := readTo?_finished hrest
    rwa [List.append_nil]
  · intro h
    have hread := h.readFrom 0 (by omega) [] rfl []
    rw [List.append_nil] at hread
    exact hread

/-- The value of a text is the one that it denotes. -/
theorem ofText?_eq_some_iff {s : String} {v : Value} :
    ofText? s = some v ↔ Denotes s.toList v := by
  unfold ofText? Denotes
  rw [Option.bind_eq_some_iff]
  simp only [Token.scan?_eq_some_iff, ofTokens?_eq_some_iff]

/-- The value of some bytes is the one that they encode. -/
theorem ofBytes?_eq_some_iff {data : ByteArray} {v : Value} :
    ofBytes? data = some v ↔ Encodes data v := by
  unfold ofBytes? Encodes
  rw [Option.bind_eq_some_iff]
  simp only [Text.fromUTF8?_eq_some_iff, ofText?_eq_some_iff]

/-! ## The text of null -/

/-- No number is null. -/
theorem number?_ne_null (cs : List Char) : Token.number? cs ≠ some .null := by
  intro h
  unfold Token.number? at h
  split at h
  · cases h
  · repeat' split at h
    all_goals cases h

/-- The only word for null. -/
theorem wordValue?_eq_null_iff {cs : List Char} :
    Token.wordValue? cs = some .null ↔ cs = ['n', 'u', 'l', 'l'] := by
  constructor
  · intro h
    unfold Token.wordValue? at h
    split at h
    · rfl
    iterate 5 · cases h
    · exact absurd h (number?_ne_null cs)
  · rintro rfl
    rfl

/-- White space is no part of a word. -/
theorem isWordChar_of_isSpace {c : Char} (h : Token.isSpace c = true) :
    Token.isWordChar c = false := by
  simp only [Token.isSpace, Bool.or_eq_true, beq_iff_eq] at h
  rcases h with ((rfl | rfl) | rfl) | rfl <;> rfl

theorem lexes_of_spaces {before cs : List Char} (hbefore : ∀ c ∈ before, Token.isSpace c = true)
    {ts : List Token} (h : Token.Lexes cs ts) : Token.Lexes (before ++ cs) ts := by
  induction before with
  | nil => exact h
  | cons c before ih =>
    rw [List.forall_mem_cons] at hbefore
    exact .space hbefore.1 (ih hbefore.2)

/-- A text without tokens is white space. -/
theorem spaces_of_lexes_nil {cs : List Char} (h : Token.Lexes cs []) :
    ∀ c ∈ cs, Token.isSpace c = true := by
  generalize hts : ([] : List Token) = ts at h
  induction h with
  | nil => exact List.forall_mem_nil _
  | space hc _ ih => exact List.forall_mem_cons.2 ⟨hc, ih hts⟩
  | sign | text | word => cases hts

/-- A text that is one word has white space around it. -/
theorem exists_of_lexes_word {cs : List Char} {v : Value} (h : Token.Lexes cs [.word v]) :
    ∃ before w after, cs = before ++ w ++ after ∧ Token.wordValue? w = some v ∧
      (∀ c ∈ before, Token.isSpace c = true) ∧ ∀ c ∈ after, Token.isSpace c = true := by
  generalize hts : [Token.word v] = ts at h
  induction h with
  | nil | text => cases hts
  | @space c cs _ hc _ ih =>
    obtain ⟨before, w, after, rfl, hw, hbefore, hafter⟩ := ih hts
    exact ⟨c :: before, w, after, rfl, hw, List.forall_mem_cons.2 ⟨hc, hbefore⟩, hafter⟩
  | sign hc =>
    cases hts
    exact absurd hc Token.sign?_ne_word
  | @word w cs v _ _ hv _ h =>
    cases hts
    exact ⟨[], w, cs, rfl, hv, List.forall_mem_nil _, spaces_of_lexes_nil h⟩

/-- A text of null is the word with nothing but white space around it. -/
theorem denotes_null_iff {cs : List Char} :
    Denotes cs .null ↔ ∃ before after, cs = before ++ ['n', 'u', 'l', 'l'] ++ after ∧
      (∀ c ∈ before, Token.isSpace c = true) ∧ ∀ c ∈ after, Token.isSpace c = true := by
  constructor
  · rintro ⟨ts, hlexes, hreads⟩
    cases hreads
    obtain ⟨before, w, after, rfl, hw, hbefore, hafter⟩ := exists_of_lexes_word hlexes
    exact ⟨before, after, by rw [wordValue?_eq_null_iff.1 hw], hbefore, hafter⟩
  · rintro ⟨before, after, rfl, hbefore, hafter⟩
    have hspaces : Token.Lexes after [] := by
      rw [← List.append_nil after]
      exact lexes_of_spaces hafter .nil
    have hend : ∀ c ∈ after.head?, Token.isWordChar c = false :=
      fun c hc => isWordChar_of_isSpace (hafter c (List.mem_of_mem_head? hc))
    have hword : Token.Lexes (['n', 'u', 'l', 'l'] ++ after) [.word .null] :=
      .word (List.all_eq_true.1 rfl) (wordValue?_eq_null_iff.2 rfl) hend hspaces
    rw [List.append_assoc]
    exact ⟨[.word .null], lexes_of_spaces hbefore hword, .word .null⟩

end HookRegistry.Value
