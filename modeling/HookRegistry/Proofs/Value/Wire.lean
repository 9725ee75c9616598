import HookRegistry.Proofs.Assoc
import HookRegistry.Proofs.Value.Literal
import HookRegistry.Value.Reader

/-!
# Values that JSON text can hold

`OnWire R d v` says what a value must be to stand in JSON text: no raw bytes and nothing foreign,
whole numbers of a limited size, records whose names are distinct, and at most `d` containers in
each other, an empty one not counted.  `R` is what is asked of the doubles in it.

`OnWire.scan?_write?` is the first half of reading what was written: the text of such a value is
scanned into `tokens v`, the tokens that the value consists of.
-/

namespace HookRegistry

/-- A double whose text is a word that reads back as it. -/
def Double.ReadsBack (x : Double) : Prop :=
  (∀ c ∈ x.text Double.wireStyle, Token.isWordChar c = true) ∧
    Token.wordValue? (x.text Double.wireStyle) = some (.real x)

namespace Value

/-- A value that JSON text can hold within `d` containers. -/
inductive OnWire (R : Double → Prop) : Nat → Value → Prop where
  | null {d} : OnWire R d .null
  | bool {d} (b : Bool) : OnWire R d (.bool b)
  | int {d} {n : Int} (h : n.natAbs < 10 ^ Token.digitLimit) : OnWire R d (.int n)
  | real {d} {x : Double} (h : R x) : OnWire R d (.real x)
  | text {d} (s : String) : OnWire R d (.text s)
  | emptyList {d} : OnWire R d (.list [])
  | list {d} {vs : List Value} (h : ∀ v ∈ vs, OnWire R d v) : OnWire R (d + 1) (.list vs)
  | emptyRecord {d} : OnWire R d (.record [])
  | record {d} {ms : List (String × Value)} (hnames : (ms.map Prod.fst).Nodup)
      (h : ∀ m ∈ ms, OnWire R d m.2) : OnWire R (d + 1) (.record ms)

/-- A value within some containers is within one more. -/
theorem OnWire.succ {R : Double → Prop} {d : Nat} {v : Value} (h : OnWire R d v) :
    OnWire R (d + 1) v := by
  induction h with
  | null => exact .null
  | bool b => exact .bool b
  | int h => exact .int h
  | real h => exact .real h
  | text s => exact .text s
  | emptyList => exact .emptyList
  | list _ ih => exact .list ih
  | emptyRecord => exact .emptyRecord
  | record hnames _ ih => exact .record hnames ih

/-- A member of a record stands in one container less. -/
theorem OnWire.member {R : Double → Prop} {d : Nat} {ms : List (String × Value)}
    (h : OnWire R (d + 1) (.record ms)) {name : String} {v : Value}
    (hv : Assoc.get? name ms = some v) : OnWire R d v := by
  cases h with
  | emptyRecord => cases hv
  | record _ hms => exact hms _ (Assoc.mem_of_get? hv)

/-- So does an item of a list. -/
theorem OnWire.item {R : Double → Prop} {d : Nat} {vs : List Value}
    (h : OnWire R (d + 1) (.list vs)) {v : Value} (hv : v ∈ vs) : OnWire R d v := by
  cases h with
  | emptyList => cases hv
  | list hvs => exact hvs v hv

/-! ## The tokens of a value -/

mutual

/-- The tokens that the text of a value consists of. -/
def tokens : Value → List Token
  | .text s => [.text s]
  | .list [] => [.openList, .closeList]
  | .list (v :: vs) => .openList :: tokens v ++ itemTokens vs ++ [.closeList]
  | .record [] => [.openRecord, .closeRecord]
  | .record ((name, v) :: ms) =>
    .openRecord :: .text name :: .colon :: tokens v ++ memberTokens ms ++ [.closeRecord]
  | v => [.word v]

/-- The tokens of the items of a list after the first. -/
def itemTokens : List Value → List Token
  | [] => []
  | v :: vs => .comma :: tokens v ++ itemTokens vs

/-- The tokens of the members of a record after the first. -/
def memberTokens : List (String × Value) → List Token
  | [] => []
  | (name, v) :: ms => .comma :: .text name :: .colon :: tokens v ++ memberTokens ms

end

/-! ## Scanning -/

open Token

/-- A character that ends a word and is a token of its own. -/
def Delimits (c : Char) (t : Token) : Prop :=
  isWordChar c = false ∧ start? c = some ([t], .between)

/-- Where the scanner stands when the tokens read so far are `ts`, in reverse, the last of which
may be a word that goes on. -/
def Stands (st : List Token × Scan) (ts : List Token) : Prop :=
  (∀ c t, Delimits c t → advance? st c = some (t :: ts, .between)) ∧
    ∃ last, finish? st.2 = some last ∧ last.reverse ++ st.1 = ts

theorem delimits_comma : Delimits ',' .comma := ⟨rfl, rfl⟩

theorem delimits_closeList : Delimits ']' .closeList := ⟨rfl, rfl⟩

theorem delimits_closeRecord : Delimits '}' .closeRecord := ⟨rfl, rfl⟩

theorem stands_between (ts : List Token) : Stands (ts, .between) ts := by
  refine ⟨fun c t h => ?_, [], rfl, rfl⟩
  simp [advance?, step?, h.2]

/-- A word begins with a word character between tokens. -/
theorem start?_word {c : Char} (h : isWordChar c = true) : start? c = some ([], .inWord [c]) := by
  have hspace : isSpace c = false := by
    cases hs : isSpace c with
    | false => rfl
    | true =>
      simp only [isSpace, Bool.or_eq_true, beq_iff_eq] at hs
      rcases hs with ((rfl | rfl) | rfl) | rfl <;> exact absurd h (by decide)
  unfold start?
  rw [hspace]
  simp only [Bool.false_eq_true, if_false]
  split <;> exact if_pos h

theorem scanFrom_word {cs : List Char} (h : ∀ c ∈ cs, isWordChar c = true) (done : List Token)
    (read : List Char) :
    scanFrom (done, .inWord read) cs = some (done, .inWord (cs.reverse ++ read)) := by
  induction cs generalizing read with
  | nil => rfl
  | cons c cs ih =>
    have hstep : advance? (done, .inWord read) c = some (done, .inWord (c :: read)) := by
      simp [advance?, step?, h c List.mem_cons_self]
    rw [scanFrom_cons, hstep, Option.bind_some,
      ih (fun d hd => h d (List.mem_cons_of_mem c hd)) (c :: read)]
    simp

/-- A word is scanned up to where it may still go on. -/
theorem scanFrom_wordValue {cs : List Char} {v : Value} (h : ∀ c ∈ cs, isWordChar c = true)
    (hv : wordValue? cs = some v) (done : List Token) :
    ∃ st, scanFrom (done, .between) cs = some st ∧ Stands st (.word v :: done) := by
  have hword : ofWord? cs = some (.word v) := by simp [ofWord?, hv]
  cases cs with
  | nil =>
    have hnone : wordValue? [] = none := rfl
    rw [hnone] at hv
    cases hv
  | cons c cs =>
    have hfirst : advance? (done, .between) c = some (done, .inWord [c]) := by
      simp [advance?, step?, start?_word (h c List.mem_cons_self)]
    have hread : (cs.reverse ++ [c]).reverse = c :: cs := by simp
    refine ⟨(done, .inWord (cs.reverse ++ [c])), ?_, fun d t hd => ?_, [.word v], ?_, rfl⟩
    · rw [scanFrom_cons, hfirst, Option.bind_some,
        scanFrom_word (fun d hd => h d (List.mem_cons_of_mem c hd))]
    · simp [advance?, step?, hd.1, hd.2, hread, hword]
    · simp [finish?, hread, hword]

/-- The text of a value and where the scanner stands after it. -/
def Scans (v : Value) : Prop :=
  ∃ cs, v.write? = some cs ∧
    ∀ done, ∃ st, scanFrom (done, .between) cs = some st ∧ Stands st ((tokens v).reverse ++ done)

/-- A value that is written as a word. -/
theorem scans_of_word {v : Value} {cs : List Char} (hwrite : v.write? = some cs)
    (htokens : tokens v = [.word v]) (h : ∀ c ∈ cs, isWordChar c = true)
    (hv : wordValue? cs = some v) : Scans v := by
  refine ⟨cs, hwrite, ?_⟩
  intro done
  rw [htokens]
  exact scanFrom_wordValue h hv done

/-- A value that is written up to a character that can be no part of it. -/
theorem scans_of_closed {v : Value} {cs : List Char} (hwrite : v.write? = some cs)
    (h : ∀ done, scanFrom (done, .between) cs = some ((tokens v).reverse ++ done, .between)) :
    Scans v :=
  ⟨cs, hwrite, fun done => ⟨_, h done, stands_between _⟩⟩

/-- The items of a list after the first, up to the end of the list. -/
theorem scanFrom_items {vs : List Value} (h : ∀ v ∈ vs, Scans v) :
    ∃ cs, writeItems? vs = some cs ∧
      ∀ st ts, Stands st ts →
        scanFrom st (cs ++ [']']) =
          some (.closeList :: ((itemTokens vs).reverse ++ ts), .between) := by
  induction vs with
  | nil =>
    refine ⟨[], rfl, ?_⟩
    intro st ts hst
    simp [scanFrom_cons, hst.1 _ _ delimits_closeList, itemTokens]
  | cons v vs ih =>
    obtain ⟨first, hfirst, hscan⟩ := h v List.mem_cons_self
    obtain ⟨rest, hrest, hscans⟩ := ih fun w hw => h w (List.mem_cons_of_mem v hw)
    refine ⟨',' :: first ++ rest, by simp [writeItems?, hfirst, hrest], ?_⟩
    intro st ts hst
    obtain ⟨st', hst', hstands⟩ := hscan (.comma :: ts)
    rw [List.cons_append, List.cons_append, scanFrom_cons, hst.1 _ _ delimits_comma,
      Option.bind_some, List.append_assoc, scanFrom_append_of_eq hst', hscans st' _ hstands]
    simp [itemTokens]

/-- The name of a member, and the colon. -/
theorem scanFrom_name (name : String) (cs : List Char) (done : List Token) :
    scanFrom (done, .between) (textLiteral name ++ ':' :: cs) =
      scanFrom (.colon :: .text name :: done, .between) cs := by
  have hcolon : ∀ ts, advance? (ts, .between) ':' = some (.colon :: ts, .between) := fun _ => rfl
  rw [scanFrom_append_of_eq (scanFrom_textLiteral name done), scanFrom_cons, hcolon,
    Option.bind_some]

/-- The members of a record after the first, up to the end of the record. -/
theorem scanFrom_members {ms : List (String × Value)} (h : ∀ m ∈ ms, Scans m.2) :
    ∃ cs, writeMembers? ms = some cs ∧
      ∀ st ts, Stands st ts →
        scanFrom st (cs ++ ['}']) =
          some (.closeRecord :: ((memberTokens ms).reverse ++ ts), .between) := by
  induction ms with
  | nil =>
    refine ⟨[], rfl, ?_⟩
    intro st ts hst
    simp [scanFrom_cons, hst.1 _ _ delimits_closeRecord, memberTokens]
  | cons m ms ih =>
    obtain ⟨name, v⟩ := m
    obtain ⟨first, hfirst, hscan⟩ := h (name, v) List.mem_cons_self
    obtain ⟨rest, hrest, hscans⟩ := ih fun w hw => h w (List.mem_cons_of_mem _ hw)
    refine ⟨',' :: textLiteral name ++ ':' :: first ++ rest, ?_, fun st ts hst => ?_⟩
    · simp only at hfirst
      simp [writeMembers?, hfirst, hrest]
    · obtain ⟨st', hst', hstands⟩ := hscan (.colon :: .text name :: .comma :: ts)
      have hshape : ',' :: textLiteral name ++ ':' :: first ++ rest ++ ['}'] =
          ',' :: (textLiteral name ++ ':' :: (first ++ (rest ++ ['}']))) := by simp
      rw [hshape, scanFrom_cons, hst.1 _ _ delimits_comma, Option.bind_some, scanFrom_name,
        scanFrom_append_of_eq hst', hscans st' _ hstands]
      simp [memberTokens]

theorem scans_null : Scans .null := by
  have hwrite : write? .null = some ['n', 'u', 'l', 'l'] := by simp [write?]
  exact scans_of_word hwrite (by simp [tokens]) (List.all_eq_true.1 (by decide)) rfl

theorem scans_bool (b : Bool) : Scans (.bool b) := by
  cases b with
  | true =>
    have hwrite : write? (.bool true) = some ['t', 'r', 'u', 'e'] := by simp [write?]
    exact scans_of_word hwrite (by simp [tokens]) (List.all_eq_true.1 (by decide)) rfl
  | false =>
    have hwrite : write? (.bool false) = some ['f', 'a', 'l', 's', 'e'] := by simp [write?]
    exact scans_of_word hwrite (by simp [tokens]) (List.all_eq_true.1 (by decide)) rfl

theorem scans_text (s : String) : Scans (.text s) := by
  have hwrite : write? (.text s) = some (textLiteral s) := by simp [write?]
  refine scans_of_closed hwrite ?_
  intro done
  rw [scanFrom_textLiteral]
  simp [tokens]

theorem scans_list {vs : List Value} (h : ∀ v ∈ vs, Scans v) : Scans (.list vs) := by
  cases vs with
  | nil =>
    have hwrite : write? (.list []) = some ['[', ']'] := by simp [write?]
    refine scans_of_closed hwrite ?_
    intro done
    simp only [tokens]
    rfl
  | cons v vs =>
    obtain ⟨first, hfirst, hscan⟩ := h v List.mem_cons_self
    obtain ⟨rest, hrest, hscans⟩ := scanFrom_items fun w hw => h w (List.mem_cons_of_mem v hw)
    have hwrite : write? (.list (v :: vs)) = some ('[' :: first ++ rest ++ [']']) := by
      simp [write?, hfirst, hrest]
    refine scans_of_closed hwrite ?_
    intro done
    have hopen : advance? (done, .between) '[' = some (.openList :: done, .between) := rfl
    obtain ⟨st, hst, hstands⟩ := hscan (.openList :: done)
    rw [List.cons_append, List.cons_append, scanFrom_cons, hopen, Option.bind_some,
      List.append_assoc, scanFrom_append_of_eq hst, hscans st _ hstands]
    simp [tokens]

theorem scans_record {ms : List (String × Value)} (h : ∀ m ∈ ms, Scans m.2) :
    Scans (.record ms) := by
  cases ms with
  | nil =>
    have hwrite : write? (.record []) = some ['{', '}'] := by simp [write?]
    refine scans_of_closed hwrite ?_
    intro done
    simp only [tokens]
    rfl
  | cons m ms =>
    obtain ⟨name, v⟩ := m
    obtain ⟨first, hfirst, hscan⟩ : Scans v := h (name, v) List.mem_cons_self
    obtain ⟨rest, hrest, hscans⟩ := scanFrom_members fun w hw => h w (List.mem_cons_of_mem _ hw)
    have hwrite : write? (.record ((name, v) :: ms)) =
        some ('{' :: textLiteral name ++ ':' :: first ++ rest ++ ['}']) := by
      simp [write?, hfirst, hrest]
    refine scans_of_closed hwrite ?_
    intro done
    have hopen : advance? (done, .between) '{' = some (.openRecord :: done, .between) := rfl
    have hshape : '{' :: textLiteral name ++ ':' :: first ++ rest ++ ['}'] =
        '{' :: (textLiteral name ++ ':' :: (first ++ (rest ++ ['}']))) := by simp
    obtain ⟨st, hst, hstands⟩ := hscan (.colon :: .text name :: .openRecord :: done)
    rw [hshape, scanFrom_cons, hopen, Option.bind_some, scanFrom_name,
      scanFrom_append_of_eq hst, hscans st _ hstands]
    simp [tokens]

/-- Every value that JSON text can hold is written, and scanned into its tokens. -/
theorem OnWire.scans {d : Nat} {v : Value} (h : OnWire Double.ReadsBack d v) : Scans v := by
  induction h with
  | null => exact scans_null
  | bool b => exact scans_bool b
  | @int d n h =>
    have hwrite : write? (.int n) = some (intLiteral n) := by simp [write?]
    exact scans_of_word hwrite (by simp [tokens]) (isWordChar_intLiteral n) (wordValue?_intLiteral h)
  | @real d x h =>
    have hwrite : write? (.real x) = some (x.text Double.wireStyle) := by simp [write?]
    exact scans_of_word hwrite (by simp [tokens]) h.1 h.2
  | text s => exact scans_text s
  | emptyList => exact scans_list (by simp)
  | emptyRecord => exact scans_record (by simp)
  | list _ ih => exact scans_list ih
  | record _ _ ih => exact scans_record ih

/-- Every value that JSON text can hold has a text, whose tokens are those of the value. -/
theorem OnWire.scan?_write? {d : Nat} {v : Value} (h : OnWire Double.ReadsBack d v) :
    ∃ cs, v.write? = some cs ∧ scan? cs = some (tokens v) := by
  obtain ⟨cs, hwrite, hscan⟩ := h.scans
  obtain ⟨st, hst, -, last, hlast, htokens⟩ := hscan []
  refine ⟨cs, hwrite, ?_⟩
  have hfold : cs.foldlM advance? ([], .between) = some st := hst
  have hdone : st.1.reverse ++ last = tokens v := by
    have := congrArg List.reverse htokens
    simpa using this
  simp [scan?, hfold, hlast, hdone]

end Value

end HookRegistry
