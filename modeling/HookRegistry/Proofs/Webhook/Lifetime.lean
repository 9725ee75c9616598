import HookRegistry.Proofs.Double.Accuracy
import HookRegistry.Proofs.Webhook.RoundTrip

/-!
# The time to live of a webhook

The seconds that a webhook has left are rounded to a double before the fraction is dropped, so a
microsecond before a full second may count as the full second.  `secondsLeft_bounds` says by how
much that can be wrong, `secondsLeft_eq` where it is not, and `secondsLeft_mono` that it keeps the
order; `ttl_follows_expiry` puts them together for the items of webhooks, over all times that the
calendar has.
-/

namespace HookRegistry

/-! ## The range of the calendar -/

/-- Microseconds of a day. -/
def Civil.dayMicros : Int := 86400000000

/-- The first moment of the calendar, in microseconds from the start of 1970. -/
def Civil.firstMicros : Int := -719162 * dayMicros

/-- The end of the calendar, which is the start of the year 10000. -/
def Civil.endMicros : Int := 2932897 * dayMicros

/-- The dates of the calendar lie in its range. -/
theorem Civil.micros_bounds {c : Civil} (hwell : c.wellFormed = true) (hrange : c.inRange = true) :
    firstMicros ≤ c.micros ∧ c.micros < endMicros := by
  have hmonth : daysInMonth c.year c.month ≤ 31 := by
    unfold daysInMonth
    split
    · split <;> decide
    all_goals decide
  simp only [wellFormed, Bool.and_eq_true, decide_eq_true_eq] at hwell
  simp only [inRange, Bool.and_eq_true, decide_eq_true_eq] at hrange
  have hdays : -719162 ≤ c.days ∧ c.days ≤ 2932896 := by
    unfold days epochDay
    simp only
    split
    · omega
    · omega
  unfold micros firstMicros endMicros dayMicros
  omega

/-- A moment within a day of the calendar: what the clock of any place shows. -/
def Timestamp.InReach (t : Timestamp) : Prop :=
  Civil.firstMicros - Civil.dayMicros < t.instant ∧
    t.instant < Civil.endMicros + Civil.dayMicros

instance (t : Timestamp) : Decidable t.InReach :=
  inferInstanceAs (Decidable (_ ∧ _))

theorem Timestamp.Proper.inReach {t : Timestamp} (h : t.Proper) : t.InReach := by
  obtain ⟨hfirst, hend⟩ := Civil.micros_bounds h.wellFormed h.inRange
  have hoffset := h.offset
  unfold InReach instant Civil.dayMicros
  omega

namespace Webhook

/-! ## Seconds -/

theorem span_nonpos {micros : Int} (h : micros ≤ 0) : (micros : Rat) / 1000000 ≤ 0 :=
  div_nonpos_of_nonpos_of_nonneg (by exact_mod_cast h) (by norm_num)

theorem span_pos {micros : Int} (h : 0 < micros) : (0 : Rat) < (micros : Rat) / 1000000 :=
  div_pos (by exact_mod_cast h) (by norm_num)

theorem span_lt {micros : Int} {k : Nat} (h : micros < 2 ^ k * 1000000) :
    (micros : Rat) / 1000000 < 2 ^ (k : Int) := by
  rw [div_lt_iff₀ (by norm_num), zpow_natCast]
  exact_mod_cast h

/-- A span that has passed leaves nothing. -/
theorem secondsLeft_of_nonpos {micros : Int} (h : micros ≤ 0) : secondsLeft micros = 0 := by
  unfold secondsLeft
  split
  next r hr =>
    exact max_eq_left (Int.floor_nonpos (Double.toRat?_ofRat_nonpos (span_nonpos h) hr))
  next => rfl

/-- A span that lies ahead is rounded off, and the fraction is dropped. -/
theorem secondsLeft_of_pos {micros : Int} (hpos : 0 < micros) (h : micros < 2 ^ 53 * 1000000) :
    secondsLeft micros = ⌊Double.roundOff ((micros : Rat) / 1000000)⌋ := by
  have hrange : (micros : Rat) / 1000000 < 2 ^ (1023 : Int) :=
    (span_lt h).trans (zpow_lt_zpow_right₀ (by norm_num) (by norm_num))
  unfold secondsLeft
  rw [Double.toRat?_ofRat (span_pos hpos) hrange]
  exact max_eq_right (Int.floor_nonneg.2 (Double.roundOff_nonneg _))

/-- The whole seconds of a span, nothing for a span that has passed. -/
def wholeSeconds (micros : Int) : Int :=
  max 0 ⌊(micros : Rat) / 1000000⌋

theorem wholeSeconds_of_nonpos {micros : Int} (h : micros ≤ 0) : wholeSeconds micros = 0 :=
  max_eq_left (Int.floor_nonpos (span_nonpos h))

/-- What a span that lies ahead has beyond its whole seconds is less than a second, by a microsecond
at least. -/
theorem wholeSeconds_of_pos {micros : Int} (hpos : 0 < micros) :
    ∃ n : Nat, wholeSeconds micros = n ∧ (n : Rat) ≤ (micros : Rat) / 1000000 ∧
      (micros : Rat) / 1000000 + 1 / 1000000 ≤ n + 1 := by
  have hnonneg : 0 ≤ micros / 1000000 := Int.ediv_nonneg hpos.le (by norm_num)
  obtain ⟨n, hn⟩ := Int.eq_ofNat_of_zero_le hnonneg
  have hfloor : ⌊(micros : Rat) / 1000000⌋ = n := by
    rw [← hn]
    exact_mod_cast Rat.floor_intCast_div_natCast micros 1000000
  have hlow : (n : Int) * 1000000 ≤ micros := by omega
  have hhigh : micros + 1 ≤ ((n : Int) + 1) * 1000000 := by omega
  have hlow' : (n : Rat) * 1000000 ≤ micros := by exact_mod_cast hlow
  have hhigh' : (micros : Rat) + 1 ≤ ((n : Rat) + 1) * 1000000 := by exact_mod_cast hhigh
  refine ⟨n, ?_, ?_, ?_⟩
  · rw [wholeSeconds, hfloor]
    exact max_eq_right (Int.natCast_nonneg n)
  · rw [le_div_iff₀ (by norm_num)]
    exact hlow'
  · rw [← add_div, div_le_iff₀ (by norm_num)]
    exact hhigh'

/-- The seconds that are left are the whole seconds, or one more: rounding goes no further than half
a second here, and not below a whole number. -/
theorem secondsLeft_bounds {micros : Int} (h : micros < 2 ^ 53 * 1000000) :
    wholeSeconds micros ≤ secondsLeft micros ∧ secondsLeft micros ≤ wholeSeconds micros + 1 := by
  rcases le_or_gt micros 0 with hpassed | hpos
  · rw [secondsLeft_of_nonpos hpassed, wholeSeconds_of_nonpos hpassed]
    decide
  · obtain ⟨n, hn, hlow, hhigh⟩ := wholeSeconds_of_pos hpos
    have hleast := Double.natCast_le_roundOff (span_pos hpos) hlow (span_lt h)
    have herror := (abs_le.1 (Double.abs_roundOff_sub_le (span_pos hpos) (by decide) (span_lt h))).2
    have hhalf : (2 : Rat) ^ (((53 : Nat) : Int) - 54) = 1 / 2 := by norm_num
    rw [hhalf] at herror
    rw [secondsLeft_of_pos hpos h, hn]
    refine ⟨Int.le_floor.2 (by exact_mod_cast hleast), Int.lt_add_one_iff.1 (Int.floor_lt.2 ?_)⟩
    push_cast
    linarith

/-- Below `2 ^ 34` seconds the error of rounding is less than a microsecond, so no second is
reached too early. -/
theorem secondsLeft_eq {micros : Int} (h : micros < 2 ^ 34 * 1000000) :
    secondsLeft micros = wholeSeconds micros := by
  rcases le_or_gt micros 0 with hpassed | hpos
  · rw [secondsLeft_of_nonpos hpassed, wholeSeconds_of_nonpos hpassed]
  · obtain ⟨n, hn, hlow, hhigh⟩ := wholeSeconds_of_pos hpos
    have herror := (abs_le.1 (Double.abs_roundOff_sub_le (span_pos hpos) (by decide) (span_lt h))).2
    have hsmall : (2 : Rat) ^ (((34 : Nat) : Int) - 54) < 1 / 1000000 := by norm_num
    have hbound : micros < 2 ^ 53 * 1000000 := by omega
    refine le_antisymm ?_ (secondsLeft_bounds hbound).1
    rw [secondsLeft_of_pos hpos hbound, hn]
    refine Int.lt_add_one_iff.1 (Int.floor_lt.2 ?_)
    push_cast
    linarith

/-- From there on a microsecond before a full second may count as the full second. -/
example : secondsLeft (2 ^ 34 * 1000000 + 999999) = 2 ^ 34 + 1 ∧
    wholeSeconds (2 ^ 34 * 1000000 + 999999) = 2 ^ 34 := by decide +kernel

/-- A longer span leaves no less. -/
theorem secondsLeft_mono {short long : Int} (hle : short ≤ long) (h : long < 2 ^ 53 * 1000000) :
    secondsLeft short ≤ secondsLeft long := by
  rcases le_or_gt short 0 with hpassed | hpos
  · rw [secondsLeft_of_nonpos hpassed]
    exact (le_max_left _ _).trans (secondsLeft_bounds h).1
  · have hspans : (short : Rat) / 1000000 ≤ (long : Rat) / 1000000 :=
      div_le_div_of_nonneg_right (by exact_mod_cast hle) (by norm_num)
    rw [secondsLeft_of_pos hpos (hle.trans_lt h), secondsLeft_of_pos (hpos.trans_le hle) h]
    exact Int.floor_le_floor (Double.roundOff_mono (span_pos hpos) hspans)

/-! ## Items -/

/-- Microseconds from a time to the expiry of a webhook. -/
def microsLeft (w : Webhook) (now : Timestamp) : Int :=
  w.expires.instant - now.instant

/-- The time to live in the item of a webhook. -/
theorem exists_ttl (w : Webhook) (now : Timestamp) :
    ∃ item, w.toItem (now.civil, some now.offset) = .ok item ∧
      item.ttl = some (secondsLeft (w.microsLeft now)) :=
  ⟨_, rfl, rfl⟩

/-- Between two moments of the calendar there are few enough seconds. -/
theorem microsLeft_lt {w : Webhook} (hw : w.WasRead) {now : Timestamp} (hnow : now.InReach) :
    w.microsLeft now < 2 ^ 53 * 1000000 := by
  have hexpires := hw.proper.expires.inReach
  unfold Timestamp.InReach Civil.firstMicros Civil.endMicros Civil.dayMicros at hnow hexpires
  unfold microsLeft
  omega

/-- The time to live is the number of whole seconds to the expiry or one more; it is that number
when less than `2 ^ 34` seconds are left, and nothing when the webhook has expired.  A later expiry
and an earlier time give no less. -/
theorem ttl_follows_expiry {w : Webhook} (hw : w.WasRead) {now : Timestamp} (hnow : now.InReach) :
    ∃ item ttl, w.toItem (now.civil, some now.offset) = .ok item ∧ item.ttl = some ttl ∧
      0 ≤ ttl ∧ wholeSeconds (w.microsLeft now) ≤ ttl ∧
      ttl ≤ wholeSeconds (w.microsLeft now) + 1 ∧
      (w.microsLeft now < 2 ^ 34 * 1000000 → ttl = wholeSeconds (w.microsLeft now)) ∧
      (w.expires.instant ≤ now.instant → ttl = 0) ∧
      ∀ later : Webhook, later.WasRead → ∀ earlier : Timestamp, earlier.InReach →
        w.expires.instant ≤ later.expires.instant → earlier.instant ≤ now.instant →
          ∃ item' ttl', later.toItem (earlier.civil, some earlier.offset) = .ok item' ∧
            item'.ttl = some ttl' ∧ ttl ≤ ttl' := by
  obtain ⟨item, hitem, httl⟩ := exists_ttl w now
  obtain ⟨hleast, hmost⟩ := secondsLeft_bounds (microsLeft_lt hw hnow)
  refine ⟨item, _, hitem, httl, (le_max_left _ _).trans hleast, hleast, hmost, secondsLeft_eq,
    ?_, ?_⟩
  · intro hexpired
    exact secondsLeft_of_nonpos (Int.sub_nonpos_of_le hexpired)
  · intro later hlater earlier hearlier hexpires htimes
    obtain ⟨item', hitem', httl'⟩ := exists_ttl later earlier
    have hlonger : w.microsLeft now ≤ later.microsLeft earlier := Int.sub_le_sub hexpires htimes
    exact ⟨item', _, hitem', httl', secondsLeft_mono hlonger (microsLeft_lt hlater hearlier)⟩

/-- A webhook that expires with the calendar, seen from the start of it: the last microsecond counts
as a second. -/
theorem ttl_follows_expiry_rounded :
    ∃ w : Webhook, ∃ now : Timestamp, w.WasRead ∧ now.InReach ∧
      wholeSeconds (w.microsLeft now) = 315537897599 ∧
      ∃ item ttl, w.toItem (now.civil, some now.offset) = .ok item ∧ item.ttl = some ttl ∧
        ttl = 315537897600 ∧ ttl ≤ wholeSeconds (w.microsLeft now) + 1 := by
  obtain ⟨text, v, w, htext, hw, hexpires⟩ : ∃ text v w, Value.ofText? text = some v ∧
      ofValue .written v = .valid w ∧
      w.expires = ⟨⟨9999, 12, 31, 23, 59, 59, 999999⟩, 0⟩ :=
    ⟨"\x7b\"until\": \"9999-12-31T23:59:59.999999Z\"\x7d", _, _, rfl, rfl, rfl⟩
  have hread : w.WasRead := ⟨_, v, .written, Value.ofBytes?_of_ofText? htext, hw⟩
  let now : Timestamp := ⟨{ year := 1, month := 1, day := 1 }, 0⟩
  have hnow : now.InReach := by decide +kernel
  have hmicros : w.microsLeft now = 315537897599999999 := by
    rw [microsLeft, hexpires]
    decide +kernel
  have hwhole : wholeSeconds (w.microsLeft now) = 315537897599 := by
    rw [hmicros]
    decide +kernel
  obtain ⟨item, ttl, hitem, httl, -, -, hmost, -⟩ := ttl_follows_expiry hread hnow
  obtain ⟨item', hitem', httl'⟩ := exists_ttl w now
  rw [hitem, Except.ok.injEq] at hitem'
  rw [← hitem', httl, Option.some.injEq, hmicros] at httl'
  have hleft : secondsLeft 315537897599999999 = 315537897600 := by decide +kernel
  exact ⟨w, now, hread, hnow, hwhole, item, ttl, hitem, httl, httl'.trans hleft, hmost⟩

end Webhook

end HookRegistry
