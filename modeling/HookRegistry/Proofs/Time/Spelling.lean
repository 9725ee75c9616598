import HookRegistry.Proofs.Time.RoundTrip
import HookRegistry.Proofs.Value.Checked
import Mathlib.Data.List.TakeWhile

/-!
# The offset of a timestamp

`Given` lists how a timestamp can be given.  A number counts from the start of 1970 in UTC, and the
text of a date and time may name an offset.  Where it names none, and where there is a date alone,
the timestamp is the one that the same text gives with UTC behind it: `given_of_ofValue`.
-/

namespace HookRegistry.Timestamp

/-! ## More text behind -/

theorem digits?_more {count n : Nat} {cs rest : List Char} (h : digits? count cs = some (n, rest))
    (more : List Char) : digits? count (cs ++ more) = some (n, rest ++ more) := by
  unfold digits? at h
  simp only at h
  split at h
  next hdigits =>
    cases h
    rw [Bool.and_eq_true, decide_eq_true_eq] at hdigits
    have hparts := digits?_append (Numeral.all_isDigit_iff.1 hdigits.2) hdigits.1
      (cs.drop count ++ more)
    rwa [← List.append_assoc, List.take_append_drop] at hparts
  next => cases h

theorem expect?_more {p : Char → Bool} {cs rest : List Char} (h : expect? p cs = some rest)
    (more : List Char) : expect? p (cs ++ more) = some (rest ++ more) := by
  cases cs with
  | nil => cases h
  | cons c cs =>
    rw [expect?] at h
    split at h
    next hc =>
      cases h
      rw [List.cons_append, expect?, if_pos hc]
    next => cases h

theorem date?_more {cs rest : List Char} {d : Nat × Nat × Nat} (h : date? cs = some (d, rest))
    (more : List Char) : date? (cs ++ more) = some (d, rest ++ more) := by
  obtain ⟨⟨year, cs₁⟩, hyear, h⟩ := Option.bind_eq_some_iff.1 h
  obtain ⟨cs₂, hdash, h⟩ := Option.bind_eq_some_iff.1 h
  obtain ⟨⟨month, cs₃⟩, hmonth, h⟩ := Option.bind_eq_some_iff.1 h
  obtain ⟨cs₄, hdash', h⟩ := Option.bind_eq_some_iff.1 h
  obtain ⟨⟨day, cs₅⟩, hday, h⟩ := Option.bind_eq_some_iff.1 h
  cases h
  simp only [date?, digits?_more hyear, expect?_more hdash, digits?_more hmonth,
    expect?_more hdash', digits?_more hday, Option.bind_eq_bind, Option.bind_some]

/-! ## UTC behind -/

/-- A fraction that ends the text also ends before the name of UTC. -/
theorem fraction?_utc {cs : List Char} {micro : Nat} (h : fraction? cs = some (micro, [])) :
    fraction? (cs ++ ['Z']) = some (micro, ['Z']) := by
  cases cs with
  | nil =>
    cases h
    rfl
  | cons c cs =>
    rw [fraction?] at h
    split at h
    next hmark =>
      simp only at h
      split at h
      · cases h
      next hsome =>
        obtain ⟨rfl, hend⟩ := Prod.mk.inj (Option.some.inj h)
        have hdigits : Numeral.AllDigits cs := List.dropWhile_eq_nil_iff.1 hend
        have hutc : ∀ d ∈ ['Z'].head?, d.isDigit = false := by
          rintro d ⟨rfl⟩
          rfl
        have hwhole : cs.takeWhile Char.isDigit = cs :=
          List.takeWhile_eq_self_iff.2 hdigits
        rw [hwhole] at hsome ⊢
        rw [List.cons_append, fraction?, if_pos hmark]
        simp only [Numeral.takeWhile_isDigit_append hdigits hutc,
          Numeral.dropWhile_isDigit_append hdigits hutc, if_neg hsome]
    next => cases h

theorem clock?_utc {cs : List Char} {t : Nat × Nat × Nat × Nat} (h : clock? cs = some (t, [])) :
    clock? (cs ++ ['Z']) = some (t, ['Z']) := by
  obtain ⟨⟨hour, cs₁⟩, hhour, h⟩ := Option.bind_eq_some_iff.1 h
  obtain ⟨cs₂, hcolon, h⟩ := Option.bind_eq_some_iff.1 h
  obtain ⟨⟨minute, cs₃⟩, hminute, h⟩ := Option.bind_eq_some_iff.1 h
  simp only [clock?, digits?_more hhour, expect?_more hcolon, digits?_more hminute,
    Option.bind_eq_bind, Option.bind_some]
  simp only at h
  split at h
  next rest =>
    obtain ⟨⟨second, cs₄⟩, hsecond, h⟩ := Option.bind_eq_some_iff.1 h
    obtain ⟨⟨micro, cs₅⟩, hmicro, h⟩ := Option.bind_eq_some_iff.1 h
    cases h
    simp only [List.cons_append, digits?_more hsecond, fraction?_utc hmicro, Option.bind_some]
  next =>
    cases h
    rfl

/-- Only the end of the text names no offset. -/
theorem offset?_eq_none {cs : List Char} (h : offset? cs = some none) : cs = [] := by
  cases cs with
  | nil => rfl
  | cons c cs =>
    rw [offset?] at h
    split at h
    · cases h
    · split at h
      · obtain ⟨_, -, h⟩ := Option.bind_eq_some_iff.1 h
        obtain ⟨_, -, h⟩ := Option.bind_eq_some_iff.1 h
        simp only at h
        split at h <;> cases h
      · cases h

/-- A date and time without offset, with UTC behind it. -/
theorem dateTime?_utc {cs : List Char} {c : Civil} (h : dateTime? cs = some (c, none)) :
    dateTime? (cs ++ ['Z']) = some (c, some 0) := by
  obtain ⟨⟨⟨year, month, day⟩, cs₁⟩, hdate, h⟩ := Option.bind_eq_some_iff.1 h
  obtain ⟨cs₂, hseparator, h⟩ := Option.bind_eq_some_iff.1 h
  obtain ⟨⟨⟨hour, minute, second, micro⟩, cs₃⟩, hclock, h⟩ := Option.bind_eq_some_iff.1 h
  obtain ⟨offset, hoffset, h⟩ := Option.bind_eq_some_iff.1 h
  simp only at h
  split at h
  next hwell =>
    cases h
    cases offset?_eq_none hoffset
    simp only [dateTime?, date?_more hdate, expect?_more hseparator, clock?_utc hclock,
      Option.bind_eq_bind, Option.bind_some, offset?, true_or, and_self, if_true, hwell]
  next => cases h

/-- The first moment of a date in UTC. -/
def midnight : List Char :=
  "T00:00Z".toList

/-- A date alone, with the first moment of it in UTC behind it. -/
theorem dateTime?_midnight {cs : List Char} {c : Civil} {o : Option Int}
    (h : date cs = some (c, o)) : o = none ∧ dateTime? (cs ++ midnight) = some (c, some 0) := by
  obtain ⟨⟨⟨year, month, day⟩, cs₁⟩, hdate, h⟩ := Option.bind_eq_some_iff.1 h
  simp only at h
  split at h
  next hwell =>
    cases h
    rw [Bool.and_eq_true, List.isEmpty_iff] at hwell
    obtain ⟨rfl, hwell⟩ := hwell
    have hseparator : expect? isSeparator midnight = some "00:00Z".toList := by decide
    have hclock : clock? "00:00Z".toList = some ((0, 0, 0, 0), ['Z']) := by decide
    have hoffset : offset? ['Z'] = some (some 0) := by decide
    refine ⟨rfl, ?_⟩
    simp only [dateTime?, date?_more hdate, List.nil_append, hseparator, hclock, hoffset,
      Option.bind_eq_bind, Option.bind_some, hwell, if_true]
  next => cases h

/-! ## How a timestamp is given -/

/-- How a timestamp is given by a value. -/
inductive Given (source : Source) : Value → Timestamp → Prop where
  /-- Seconds or milliseconds since the start of 1970, in UTC. -/
  | whole {n : Int} {c : Civil} (h : ofWhole? n = some (c, some 0)) : Given source (.int n) ⟨c, 0⟩
  | double {x : Double} {c : Civil} (h : ofDouble? x = some (c, some 0)) :
      Given source (.real x) ⟨c, 0⟩
  | numeral {s : String} {c : Civil} (h : number? s.toList = some (c, some 0)) :
      Given source (.text s) ⟨c, 0⟩
  /-- A date and a time at an offset. -/
  | dateTime {s : String} {c : Civil} {offset : Int}
      (h : dateTime? s.toList = some (c, some offset)) : Given source (.text s) ⟨c, offset⟩
  /-- A date and a time without offset: what the same text gives with UTC named behind it. -/
  | openDateTime {s : String} {t : Timestamp} (h : dateTime? s.toList = some (t.civil, none))
      (hutc : ofValue source (.text (s ++ "Z")) = .valid t) (hoffset : t.offset = 0) :
      Given source (.text s) t
  /-- A date alone: what the same text gives with its first moment in UTC named behind it. -/
  | date {s : String} {t : Timestamp} (h : date s.toList = some (t.civil, none))
      (hutc : ofValue source (.text (s ++ String.ofList midnight)) = .valid t)
      (hoffset : t.offset = 0) : Given source (.text s) t
  /-- Bytes that are a text in UTF-8. -/
  | bytes {data : ByteArray} {s : String} {t : Timestamp} (hs : String.fromUTF8? data = some s)
      (h : Given source (.text s) t) : Given source (.bytes data) t

theorem offset_ofWhole? {n : Int} {t : Open} (h : ofWhole? n = some t) : t.2 = some 0 := by
  obtain ⟨c, -, rfl⟩ := Option.map_eq_some_iff.1 h
  rfl

theorem offset_ofDouble? {x : Double} {t : Open} (h : ofDouble? x = some t) : t.2 = some 0 := by
  obtain ⟨_, -, h⟩ := Option.bind_eq_some_iff.1 h
  obtain ⟨_, -, h⟩ := Option.bind_eq_some_iff.1 h
  obtain ⟨_, -, h⟩ := Option.bind_eq_some_iff.1 h
  obtain ⟨_, -, h⟩ := Option.bind_eq_some_iff.1 h
  cases h
  rfl

theorem offset_number? {cs : List Char} {t : Open} (h : number? cs = some t) : t.2 = some 0 := by
  obtain ⟨n, -, h⟩ := Option.bind_eq_some_iff.1 h
  split at h
  · split at h
    · exact offset_ofWhole? h
    · cases h
  · split at h
    · exact offset_ofDouble? h
    · cases h

/-- A text that begins like a date and time is read as that. -/
theorem ofValue_of_dateTime? {s : String} {c : Civil} {offset : Int}
    (h : dateTime? s.toList = some (c, some offset)) (hrange : c.inRange = true) (source : Source) :
    ofValue source (.text s) = .valid ⟨c, offset⟩ := by
  unfold ofValue openOfValue ofText
  simp only [h, Option.some_or, inCalendar, hrange, if_true]
  rfl

/-- A text is a numeral, a date and time, or a date. -/
theorem given_of_ofText {s : String} {t : Open} (source : Source) (h : ofText s = .valid t) :
    Given source (.text s) ⟨t.1, t.2.getD 0⟩ := by
  obtain ⟨c, offset⟩ := t
  have hrange : c.inRange = true := (proper_ofText h).2
  unfold ofText at h
  simp only at h
  split at h
  · cases h
  next t ht =>
    cases (inCalendar_eq_valid h).1
    rcases Option.or_eq_some_iff.1 ht with ht | ⟨-, hdate⟩
    · rcases Option.or_eq_some_iff.1 ht with hdateTime | ⟨-, hnumber⟩
      · cases offset with
        | some offset => exact .dateTime hdateTime
        | none =>
          have hutc := dateTime?_utc hdateTime
          have hlong : (s ++ "Z").toList = s.toList ++ ['Z'] := by rw [String.toList_append]; rfl
          rw [← hlong] at hutc
          exact .openDateTime hdateTime (ofValue_of_dateTime? hutc hrange source) rfl
      · cases offset_number? hnumber
        exact .numeral hnumber
    · obtain ⟨rfl, hutc⟩ := dateTime?_midnight hdate
      have hlong : (s ++ String.ofList midnight).toList = s.toList ++ midnight := by
        rw [String.toList_append, String.toList_ofList]
      rw [← hlong] at hutc
      exact .date hdate (ofValue_of_dateTime? hutc hrange source) rfl

/-- Whatever a timestamp is read from, it is given in one of these ways. -/
theorem given_of_ofValue {source : Source} {v : Value} {t : Timestamp}
    (h : ofValue source v = .valid t) : Given source v t := by
  obtain ⟨⟨c, offset⟩, hopen, rfl⟩ := Checked.map_eq_valid.1 h
  unfold openOfValue at hopen
  split at hopen
  · split at hopen
    · have hwhole := (inCalendar_eq_valid hopen).1
      cases offset_ofWhole? hwhole
      exact .whole hwhole
    · cases hopen
  · have hdouble := (inCalendar_eq_valid hopen).1
    cases offset_ofDouble? hdouble
    exact .double hdouble
  · exact given_of_ofText source hopen
  · split at hopen
    next s hs => exact .bytes hs (given_of_ofText source hopen)
    next => cases hopen
  · cases hopen

end HookRegistry.Timestamp
