import HookRegistry.Proofs.Text.Decimal
import HookRegistry.Time.Reader

/-!
# Timestamps, written and read

A timestamp that was read has a date of the calendar, a time of day and an offset of less than a
day: `proper_of_ofValue`.  `ofText_write` says that such a timestamp is written as a text that names
its date and time and its offset.
-/

namespace HookRegistry

namespace Timestamp

open Numeral (AllDigits)

/-- A date and time of the calendar at an offset of less than a day. -/
structure Proper (t : Timestamp) : Prop where
  wellFormed : t.civil.wellFormed = true
  inRange : t.civil.inRange = true
  offset : t.offset.natAbs < 24 * 60

/-! ## Reading what was written -/

theorem digits?_append {count : Nat} {ds : List Char} (hds : AllDigits ds)
    (hlength : ds.length = count) (rest : List Char) :
    digits? count (ds ++ rest) = some (Numeral.natOfDigits ds, rest) := by
  have htake : (ds ++ rest).take count = ds := List.take_left' hlength
  have hdrop : (ds ++ rest).drop count = rest := List.drop_left' hlength
  have hall : ds.all Char.isDigit = true := Numeral.all_isDigit_iff.2 hds
  simp [digits?, htake, hdrop, hall, hlength]

/-- A number of a fixed width is read back. -/
theorem digits?_zeroPadded {width n : Nat} (hwidth : 0 < width) (h : n < 10 ^ width)
    (rest : List Char) :
    digits? width (Double.zeroPadded width n ++ rest) = some (n, rest) := by
  rw [digits?_append (Numeral.allDigits_zeroPadded width n)
    (Numeral.length_zeroPadded hwidth h), Numeral.natOfDigits_zeroPadded]

theorem digits?_two {n : Nat} (h : n < 100) (rest : List Char) :
    digits? 2 (two n ++ rest) = some (n, rest) :=
  digits?_zeroPadded (by decide) h rest

theorem digits?_four {n : Nat} (h : n < 10000) (rest : List Char) :
    digits? 4 (Double.zeroPadded 4 n ++ rest) = some (n, rest) :=
  digits?_zeroPadded (by decide) h rest

/-- The text of a date. -/
theorem date?_write {year month day : Nat} (hyear : year < 10000) (hmonth : month < 100)
    (hday : day < 100) (rest : List Char) :
    date? (Double.zeroPadded 4 year ++ '-' :: (two month ++ '-' :: (two day ++ rest))) =
      some ((year, month, day), rest) := by
  simp [date?, digits?_four hyear, expect?, digits?_two hmonth, digits?_two hday]

/-- An offset begins with no digit and no decimal mark. -/
theorem head_writeOffset (offset : Int) :
    ∃ c cs, writeOffset offset = c :: cs ∧ (c = 'Z' ∨ c = '+' ∨ c = '-') := by
  unfold writeOffset
  split
  · exact ⟨_, _, rfl, .inl rfl⟩
  · refine ⟨_, _, rfl, .inr ?_⟩
    split
    · exact .inr rfl
    · exact .inl rfl

/-- The text of the microseconds, which are left out when there are none. -/
theorem fraction?_write {micro : Nat} (h : micro < 1000000) (offset : Int) :
    fraction? ((if micro = 0 then [] else '.' :: Double.zeroPadded 6 micro) ++ writeOffset offset) =
      some (micro, writeOffset offset) := by
  obtain ⟨c, cs, hcs, hc⟩ := head_writeOffset offset
  rw [hcs]
  split
  next hzero =>
    have hmark : ¬ (c = '.' ∨ c = ',') := by rcases hc with rfl | rfl | rfl <;> decide
    rw [List.nil_append, fraction?, if_neg hmark, hzero]
  next hmicro =>
    have hdigits := Numeral.allDigits_zeroPadded 6 micro
    have hlength : (Double.zeroPadded 6 micro).length = 6 :=
      Numeral.length_zeroPadded (by decide) h
    have hend : ∀ d ∈ (c :: cs).head?, d.isDigit = false := by
      rintro d ⟨rfl⟩
      rcases hc with rfl | rfl | rfl <;> rfl
    have htake := Numeral.takeWhile_isDigit_append hdigits hend
    have hdrop := Numeral.dropWhile_isDigit_append hdigits hend
    have hne : Double.zeroPadded 6 micro ≠ [] := by
      intro hnil
      rw [hnil] at hlength
      cases hlength
    have hvalue : microsOfDigits (Double.zeroPadded 6 micro) = micro := by
      have hkept : (Double.zeroPadded 6 micro).take 6 = Double.zeroPadded 6 micro :=
        List.take_of_length_le (Nat.le_of_eq hlength)
      rw [microsOfDigits, hkept, hlength, Nat.sub_self, List.replicate_zero, List.append_nil,
        Numeral.natOfDigits_zeroPadded]
    simp [fraction?, htake, hdrop, hne, hvalue]

/-- The text of a time of day. -/
theorem clock?_write {hour minute second micro : Nat} (hhour : hour < 100) (hminute : minute < 100)
    (hsecond : second < 100) (hmicro : micro < 1000000) (offset : Int) :
    clock? (two hour ++ ':' :: (two minute ++ ':' :: (two second ++
      ((if micro = 0 then [] else '.' :: Double.zeroPadded 6 micro) ++ writeOffset offset)))) =
      some ((hour, minute, second, micro), writeOffset offset) := by
  simp [clock?, digits?_two hhour, digits?_two hminute, digits?_two hsecond, expect?,
    fraction?_write hmicro]

/-- The text of an offset of less than a day. -/
theorem offset?_write {offset : Int} (h : offset.natAbs < 24 * 60) :
    offset? (writeOffset offset) = some (some offset) := by
  unfold writeOffset
  split
  next hzero =>
    rw [hzero]
    rfl
  next hne =>
    have hhours : offset.natAbs / 60 ≤ 23 := by omega
    have hminutes : offset.natAbs % 60 ≤ 59 := by omega
    have hread : ∀ c, c = '+' ∨ c = '-' →
        offset? (c :: (two (offset.natAbs / 60) ++ ':' :: (two (offset.natAbs % 60) ++ []))) =
          some (some (if c = '+' then (offset.natAbs : Int) else -offset.natAbs)) := by
      intro c hc
      have hz : ¬ (c = 'Z' ∨ c = 'z') := by rcases hc with rfl | rfl <;> decide
      have hsign : c = '+' ∨ c = '-' ∨ c = '−' := hc.imp_right .inl
      have hsum : offset.natAbs / 60 * 60 + offset.natAbs % 60 = offset.natAbs := by omega
      rw [offset?, if_neg (fun h => hz h.1), if_pos hsign,
        digits?_two (by omega : offset.natAbs / 60 < 100)]
      simp only [Option.bind_eq_bind, Option.bind_some,
        digits?_two (by omega : offset.natAbs % 60 < 100)]
      simp [hhours, hminutes, hsum]
    by_cases hneg : offset < 0
    · have hminus := hread '-' (.inr rfl)
      rw [List.append_nil] at hminus
      have hvalue : (if '-' = '+' then (offset.natAbs : Int) else -offset.natAbs) = offset := by
        rw [if_neg (by decide)]
        omega
      rw [if_pos hneg, List.cons_append, hminus, hvalue]
    · have hplus := hread '+' (.inl rfl)
      rw [List.append_nil] at hplus
      have hvalue : (if '+' = '+' then (offset.natAbs : Int) else -offset.natAbs) = offset := by
        rw [if_pos rfl]
        omega
      rw [if_neg hneg, List.cons_append, hplus, hvalue]

/-- The parts of a date and time have as many digits as they are written with. -/
theorem parts_lt {c : Civil} (h : c.wellFormed = true) :
    c.year < 10000 ∧ c.month < 100 ∧ c.day < 100 ∧ c.hour < 100 ∧ c.minute < 100 ∧
      c.second < 100 ∧ c.micro < 1000000 := by
  have hdays : ∀ year month, Civil.daysInMonth year month ≤ 31 := by
    intro year month
    unfold Civil.daysInMonth
    split
    · split <;> decide
    all_goals decide
  have hday := hdays c.year c.month
  simp only [Civil.wellFormed, Bool.and_eq_true, decide_eq_true_eq] at h
  omega

/-- The text of a timestamp names its date and time, and its offset. -/
theorem dateTime?_write {t : Timestamp} (h : t.Proper) :
    dateTime? t.write = some (t.civil, some t.offset) := by
  obtain ⟨hyear, hmonth, hday, hhour, hminute, hsecond, hmicro⟩ := parts_lt h.wellFormed
  have hseparator : isSeparator 'T' = true := rfl
  have hshape : t.write =
      Double.zeroPadded 4 t.civil.year ++ '-' :: (two t.civil.month ++ '-' :: (two t.civil.day ++
        'T' :: (two t.civil.hour ++ ':' :: (two t.civil.minute ++ ':' :: (two t.civil.second ++
          ((if t.civil.micro = 0 then [] else '.' :: Double.zeroPadded 6 t.civil.micro) ++
            writeOffset t.offset)))))) := by
    simp only [write, List.append_assoc, List.cons_append]
  rw [hshape, dateTime?, date?_write hyear hmonth hday]
  simp only [Option.bind_eq_bind, Option.bind_some, expect?, hseparator, if_true,
    clock?_write hhour hminute hsecond hmicro, offset?_write h.offset]
  rw [if_pos h.wellFormed]

theorem ofText_write {t : Timestamp} (h : t.Proper) :
    ofText (String.ofList t.write) = .valid (t.civil, some t.offset) := by
  unfold ofText
  simp only [String.toList_ofList, dateTime?_write h, Option.some_or, inCalendar, h.inRange,
    if_true]

/-- A written timestamp reads back as the same date and time at the same offset. -/
theorem ofValue_write {t : Timestamp} (h : t.Proper) (source : Source) :
    ofValue source (.text (String.ofList t.write)) = .valid t := by
  rw [ofValue, openOfValue, ofText_write h]
  rfl

/-! ## What is read -/

/-- A date and time of the calendar, at an open offset or one of less than a day. -/
def Open.Proper (t : Open) : Prop :=
  t.1.wellFormed = true ∧ (t.2.getD 0).natAbs < 24 * 60

/-- A date and time without offset, and one in UTC. -/
theorem proper_of_wellFormed {c : Civil} (h : c.wellFormed = true) :
    Open.Proper (c, none) ∧ Open.Proper (c, some 0) := by
  have hzero : (0 : Int).natAbs < 24 * 60 := by decide
  exact ⟨⟨h, hzero⟩, ⟨h, hzero⟩⟩

theorem wellFormed_of_ofMicros? {n : Int} {c : Civil} (h : Civil.ofMicros? n = some c) :
    c.wellFormed = true := by
  obtain ⟨⟨year, month, day⟩, -, h⟩ := Option.bind_eq_some_iff.1 h
  simp only at h
  split at h
  next hwell =>
    cases h
    exact hwell
  next => cases h

theorem proper_ofWhole? {n : Int} {t : Open} (h : ofWhole? n = some t) : t.Proper := by
  obtain ⟨c, hc, rfl⟩ := Option.map_eq_some_iff.1 h
  exact (proper_of_wellFormed (wellFormed_of_ofMicros? hc)).2

theorem proper_ofDouble? {x : Double} {t : Open} (h : ofDouble? x = some t) : t.Proper := by
  obtain ⟨r, -, h⟩ := Option.bind_eq_some_iff.1 h
  obtain ⟨excess, -, h⟩ := Option.bind_eq_some_iff.1 h
  obtain ⟨part, -, h⟩ := Option.bind_eq_some_iff.1 h
  obtain ⟨c, hc, h⟩ := Option.bind_eq_some_iff.1 h
  cases h
  exact (proper_of_wellFormed (wellFormed_of_ofMicros? hc)).2

theorem proper_number? {cs : List Char} {t : Open} (h : number? cs = some t) : t.Proper := by
  obtain ⟨n, -, h⟩ := Option.bind_eq_some_iff.1 h
  split at h
  · split at h
    · exact proper_ofWhole? h
    · cases h
  · split at h
    · exact proper_ofDouble? h
    · cases h

/-- An offset that is read is less than a day. -/
theorem natAbs_offset?_lt {cs : List Char} {o : Option Int} (h : offset? cs = some o) :
    (o.getD 0).natAbs < 24 * 60 := by
  cases cs with
  | nil =>
    cases h
    decide
  | cons c rest =>
    rw [offset?] at h
    split at h
    · cases h
      decide
    · split at h
      · obtain ⟨⟨hours, cs⟩, -, h⟩ := Option.bind_eq_some_iff.1 h
        obtain ⟨⟨minutes, cs⟩, -, h⟩ := Option.bind_eq_some_iff.1 h
        simp only at h
        split at h
        next hparts =>
          simp only [Bool.and_eq_true, decide_eq_true_eq] at hparts
          obtain ⟨⟨-, hhours⟩, hminutes⟩ := hparts
          cases h
          simp only [Option.getD_some]
          split <;> omega
        next => cases h
      · cases h

theorem proper_dateTime? {cs : List Char} {t : Open} (h : dateTime? cs = some t) : t.Proper := by
  obtain ⟨⟨⟨year, month, day⟩, cs⟩, -, h⟩ := Option.bind_eq_some_iff.1 h
  obtain ⟨cs, -, h⟩ := Option.bind_eq_some_iff.1 h
  obtain ⟨⟨⟨hour, minute, second, micro⟩, cs⟩, -, h⟩ := Option.bind_eq_some_iff.1 h
  obtain ⟨offset, hoffset, h⟩ := Option.bind_eq_some_iff.1 h
  simp only at h
  split at h
  next hwell =>
    cases h
    exact ⟨hwell, natAbs_offset?_lt hoffset⟩
  next => cases h

theorem proper_date {cs : List Char} {t : Open} (h : date cs = some t) : t.Proper := by
  obtain ⟨⟨⟨year, month, day⟩, cs⟩, -, h⟩ := Option.bind_eq_some_iff.1 h
  simp only at h
  split at h
  next hwell =>
    cases h
    rw [Bool.and_eq_true] at hwell
    exact (proper_of_wellFormed hwell.2).1
  next => cases h

/-- What is in the calendar has a year that the calendar has. -/
theorem inCalendar_eq_valid {o : Option Open} {t : Open} (h : inCalendar o = .valid t) :
    o = some t ∧ t.1.inRange = true := by
  cases o with
  | none => cases h
  | some s =>
    rw [inCalendar] at h
    split at h
    next hrange =>
      cases h
      exact ⟨rfl, hrange⟩
    next => cases h

theorem proper_ofText {s : String} {t : Open} (h : ofText s = .valid t) :
    t.Proper ∧ t.1.inRange = true := by
  unfold ofText at h
  simp only at h
  split at h
  · cases h
  next u hu =>
    obtain ⟨hsome, hrange⟩ := inCalendar_eq_valid h
    cases hsome
    refine ⟨?_, hrange⟩
    rcases Option.or_eq_some_iff.1 hu with hu | ⟨-, hu⟩
    · rcases Option.or_eq_some_iff.1 hu with hu | ⟨-, hu⟩
      · exact proper_dateTime? hu
      · exact proper_number? hu
    · exact proper_date hu

theorem proper_openOfValue {source : Source} {v : Value} {t : Open}
    (h : openOfValue source v = .valid t) : t.Proper ∧ t.1.inRange = true := by
  unfold openOfValue at h
  split at h
  · split at h
    · obtain ⟨hsome, hrange⟩ := inCalendar_eq_valid h
      exact ⟨proper_ofWhole? hsome, hrange⟩
    · cases h
  · obtain ⟨hsome, hrange⟩ := inCalendar_eq_valid h
    exact ⟨proper_ofDouble? hsome, hrange⟩
  · exact proper_ofText h
  · split at h
    · exact proper_ofText h
    · cases h
  · cases h

/-- Whatever a timestamp is read from, it is a date and time of the calendar. -/
theorem proper_of_ofValue {source : Source} {v : Value} {t : Timestamp}
    (h : ofValue source v = .valid t) : t.Proper := by
  unfold ofValue at h
  cases hopen : openOfValue source v with
  | invalid problems =>
    rw [hopen] at h
    cases h
  | valid u =>
    rw [hopen] at h
    cases h
    obtain ⟨⟨hwell, hoffset⟩, hrange⟩ := proper_openOfValue hopen
    exact ⟨hwell, hrange, hoffset⟩

theorem proper_epoch : epoch.Proper :=
  ⟨by decide, by decide, by decide⟩

end Timestamp

end HookRegistry
