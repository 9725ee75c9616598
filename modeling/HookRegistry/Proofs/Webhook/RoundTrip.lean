import HookRegistry.Proofs.Double.Rounding
import HookRegistry.Proofs.Item
import HookRegistry.Proofs.Time.RoundTrip
import HookRegistry.Proofs.Value.Whole
import HookRegistry.Webhook.Conversion

/-!
# Webhooks, written and read

A webhook that was read from a JSON value has a duration of limited size and an expiry in the
calendar: `proper_of_ofValue`.  That is all that is asked of a webhook for it to be read back, field
by field, from its own members under either name of the address, from its item, and from the texts
of both: `ofValue_members`, `ofItem_toItem`, `onWire_toItem`.
-/

namespace HookRegistry.Webhook

open Value (OnWire)
open Checked (seq_eq_valid fmap_eq_valid)

/-- What reading makes sure of beyond the types of the fields. -/
structure Proper (w : Webhook) : Prop where
  duration : w.duration.natAbs < 10 ^ Token.digitLimit
  expires : w.expires.Proper

/-! ## What is read -/

/-- What a webhook was read from beside its texts. -/
theorem fields_of_ofValue {source : Timestamp.Source} {ms : List (String × Value)} {w : Webhook}
    (h : ofValue source (.record ms) = .valid w) :
    Value.field ms "duration" 0 Value.toWhole = .valid w.duration ∧
      Value.field ms "until" Timestamp.epoch (Timestamp.ofValue source) = .valid w.expires := by
  simp only [ofValue] at h
  obtain ⟨_, expires, h₁, hexpires, rfl⟩ := seq_eq_valid.1 h
  obtain ⟨_, duration, h₂, hduration, rfl⟩ := seq_eq_valid.1 h₁
  obtain ⟨_, devices, h₃, -, rfl⟩ := seq_eq_valid.1 h₂
  obtain ⟨_, events, h₄, -, rfl⟩ := seq_eq_valid.1 h₃
  obtain ⟨_, failureUrl, h₅, -, rfl⟩ := seq_eq_valid.1 h₄
  obtain ⟨_, delivery, h₆, -, rfl⟩ := seq_eq_valid.1 h₅
  obtain ⟨address, -, rfl⟩ := fmap_eq_valid.1 h₆
  exact ⟨hduration, hexpires⟩

/-- Every webhook that is read from a JSON value. -/
theorem proper_of_ofValue {R : Double → Prop} {d : Nat} {v : Value} (hv : OnWire R d v)
    {source : Timestamp.Source} {w : Webhook} (h : ofValue source v = .valid w) : w.Proper := by
  cases v with
  | record ms =>
    obtain ⟨hduration, hexpires⟩ := fields_of_ofValue h
    refine ⟨?_, ?_⟩
    · rcases Value.field_eq_valid.1 hduration with ⟨u, hu, hread⟩ | ⟨-, hzero⟩
      · exact Value.natAbs_toWhole_lt (hv.succ.member hu) hread
      · rw [← hzero]
        exact Nat.pow_pos (by decide)
    · rcases Value.field_eq_valid.1 hexpires with ⟨u, -, hread⟩ | ⟨-, hepoch⟩
      · exact Timestamp.proper_of_ofValue hread
      · rw [← hepoch]
        exact Timestamp.proper_epoch
  | _ => cases h

/-- Every webhook that is read from JSON text. -/
theorem proper_of_decode {data : ByteArray} {w : Webhook} (h : decode data = .valid w) :
    w.Proper := by
  obtain ⟨v, hv, hread⟩ := Value.decodeBytes_eq_valid.1 h
  exact proper_of_ofValue (Value.onWire_of_ofBytes? hv) hread

/-- A webhook that was read from JSON: from a text, or from a value that came out of one. -/
def WasRead (w : Webhook) : Prop :=
  ∃ data v source, Value.ofBytes? data = some v ∧ ofValue source v = .valid w

theorem WasRead.proper {w : Webhook} (h : w.WasRead) : w.Proper := by
  obtain ⟨data, v, source, hv, hread⟩ := h
  exact proper_of_ofValue (Value.onWire_of_ofBytes? hv) hread

/-! ## Reading back -/

theorem toText_text (s : String) : Value.toText (.text s) = .valid s :=
  rfl

theorem toTexts_texts (ss : List String) : Value.toTexts (texts ss) = .valid ss :=
  Value.toTexts_list ss

/-- The delivery part, with what was left out of it. -/
theorem deliveryOfValue_deliveryValue (d : Delivery) :
    deliveryOfValue (deliveryValue d) = .valid d := by
  obtain ⟨url, contentType, secret, alternatives⟩ := d
  simp only [deliveryValue, deliveryOfValue, seq_eq_valid, fmap_eq_valid]
  refine ⟨_, _, ⟨_, _, ⟨_, _, ⟨_, Value.field_of_get? rfl (toText_text url), rfl⟩,
    Value.field_of_get? rfl (toText_text contentType), rfl⟩,
    Value.field_of_omitted ?_ (fun h => (String.isEmpty_iff.1 h).symm) (toText_text secret), rfl⟩,
    Value.field_of_omitted ?_ (fun h => (List.isEmpty_iff.1 h).symm) (toTexts_texts alternatives),
    rfl⟩
  · split <;> split <;> rfl
  · split <;> split <;> rfl

/-- The device patterns. -/
theorem devicesOfValue_record (ss : List String) :
    devicesOfValue (.record [("device_id", texts ss)]) = .valid ss := by
  unfold devicesOfValue
  exact Value.field_of_get? rfl (toTexts_texts ss)

/-- The address is read under either of its names. -/
theorem addressOfMembers_members (w : Webhook) {name : String}
    (hname : name = wireAddress ∨ name = plainAddress) :
    addressOfMembers (w.members name) = .valid w.address := by
  unfold addressOfMembers
  rcases hname with rfl | rfl
  · have hpresent : Assoc.contains wireAddress (w.members wireAddress) = true := rfl
    rw [if_pos hpresent]
    exact Value.field_of_get? rfl (toText_text _)
  · have hmissing : ¬ Assoc.contains wireAddress (w.members plainAddress) = true := by
      unfold members
      split <;> exact nofun
    rw [if_neg hmissing]
    exact Value.field_of_get? rfl (toText_text _)

/-- What is found in the members of a webhook beside the address. -/
theorem get?_members (w : Webhook) {name : String}
    (hname : name = wireAddress ∨ name = plainAddress) :
    Assoc.get? "config" (w.members name) = some (deliveryValue w.delivery) ∧
      Assoc.get? "failure_url" (w.members name) = some (.text w.failureUrl) ∧
      Assoc.get? "events" (w.members name) = some (texts w.events) ∧
      Assoc.get? "matcher" (w.members name) =
        (if w.devices.isEmpty then none else some (.record [("device_id", texts w.devices)])) ∧
      Assoc.get? "duration" (w.members name) = some (.int w.duration) ∧
      Assoc.get? "until" (w.members name) = some (.text (String.ofList w.expires.write)) := by
  unfold members
  rcases hname with rfl | rfl
  · refine ⟨rfl, rfl, rfl, ?_, ?_, ?_⟩ <;> split <;> rfl
  · refine ⟨rfl, rfl, rfl, ?_, ?_, ?_⟩ <;> split <;> rfl

/-- A webhook is read back from its members, under either name of the address. -/
theorem ofValue_members {w : Webhook} (hw : w.expires.Proper) (source : Timestamp.Source)
    {name : String} (hname : name = wireAddress ∨ name = plainAddress) :
    ofValue source (.record (w.members name)) = .valid w := by
  have haddress := addressOfMembers_members w hname
  obtain ⟨hdelivery, hfailureUrl, hevents, hdevices, hduration, hexpires⟩ := get?_members w hname
  have hwhole : Value.toWhole (.int w.duration) = .valid w.duration := rfl
  simp only [ofValue, seq_eq_valid, fmap_eq_valid]
  exact ⟨_, _, ⟨_, _, ⟨_, _, ⟨_, _, ⟨_, _, ⟨_, _, ⟨_, haddress, rfl⟩,
    Value.field_of_get? hdelivery (deliveryOfValue_deliveryValue _), rfl⟩,
    Value.field_of_get? hfailureUrl (toText_text _), rfl⟩,
    Value.field_of_get? hevents (toTexts_texts _), rfl⟩,
    Value.field_of_omitted hdevices (fun h => (List.isEmpty_iff.1 h).symm)
      (devicesOfValue_record _), rfl⟩,
    Value.field_of_get? hduration hwhole, rfl⟩,
    Value.field_of_get? hexpires (Timestamp.ofValue_write hw source), rfl⟩

/-! ## On the wire -/

theorem onWire_texts {R : Double → Prop} (d : Nat) (ss : List String) :
    OnWire R (d + 1) (texts ss) := by
  refine .list ?_
  intro v hv
  obtain ⟨s, -, rfl⟩ := List.mem_map.1 hv
  exact .text s

theorem onWire_deliveryValue {R : Double → Prop} (d : Nat) (delivery : Delivery) :
    OnWire R (d + 2) (deliveryValue delivery) := by
  refine .record ?_ fun m hm => ?_
  · split <;> split <;> simp
  · simp only [List.mem_append, List.mem_cons, List.not_mem_nil, or_false,
      List.mem_ite_nil_left] at hm
    rcases hm with ((rfl | rfl) | ⟨-, rfl⟩) | ⟨-, rfl⟩
    · exact .text _
    · exact .text _
    · exact .text _
    · exact onWire_texts d _

/-- The members of a webhook can stand in JSON text, three containers deep. -/
theorem onWire_members {R : Double → Prop} (d : Nat) {w : Webhook} (hw : w.Proper) {name : String}
    (hname : name = wireAddress ∨ name = plainAddress) :
    OnWire R (d + 3) (.record (w.members name)) := by
  refine .record ?_ fun m hm => ?_
  · unfold members
    rcases hname with rfl | rfl
    · split <;> simp [wireAddress]
    · split <;> simp [plainAddress]
  · simp only [members, List.mem_append, List.mem_cons, List.not_mem_nil, or_false,
      List.mem_ite_nil_left] at hm
    rcases hm with ((rfl | rfl | rfl | rfl) | ⟨-, rfl⟩) | rfl | rfl
    · exact .text _
    · exact onWire_deliveryValue d _
    · exact .text _
    · exact onWire_texts (d + 1) _
    · refine .record (by simp) ?_
      intro m hm
      rw [List.mem_singleton.1 hm]
      exact onWire_texts d _
    · exact .int hw.duration
    · exact .text _

theorem natAbs_max_zero_lt {z : Int} {k : Nat} (h : z ≤ ((2 ^ k : Nat) : Int)) :
    (max 0 z).natAbs < 2 ^ (k + 1) := by
  have hgrow : 2 ^ k < 2 ^ (k + 1) := Nat.pow_lt_pow_right (by decide) (Nat.lt_succ_self k)
  omega

/-- The time to live has few digits, however far away the expiry is. -/
theorem natAbs_secondsLeft_lt (micros : Int) :
    (secondsLeft micros).natAbs < 10 ^ Token.digitLimit := by
  unfold secondsLeft
  split
  next r hr =>
    have hlt := natAbs_max_zero_lt (Double.floor_ofRat_le hr)
    exact Value.lt_digitLimit_of_lt_two_pow hlt (by decide)
  next => exact Nat.pow_pos (by decide)

/-- The webhook of its own item. -/
theorem ofItem_toItem {w : Webhook} (hw : w.expires.Proper) {now : Timestamp.Open} {item : Item}
    (h : w.toItem now = .ok item) : ofItem item = .ok w := by
  obtain ⟨civil, offset⟩ := now
  cases offset with
  | none => cases h
  | some offset =>
    cases h
    unfold ofItem
    rw [ofValue_members hw .parsed (.inl rfl)]

/-- The item of a webhook can stand in JSON text. -/
theorem onWire_toItem {R : Double → Prop} (d : Nat) {w : Webhook} (hw : w.Proper)
    {now : Timestamp.Open} {item : Item} (h : w.toItem now = .ok item) :
    OnWire R (d + 4) item.toValue := by
  obtain ⟨civil, offset⟩ := now
  cases offset with
  | none => cases h
  | some offset =>
    cases h
    refine Item.onWire_toValue (onWire_members d hw (.inl rfl)) ?_
    intro n hn
    cases hn
    exact natAbs_secondsLeft_lt _

/-- Every webhook that is read from JSON is read back, field by field, from its item at any time
with an offset, from the text of that item, and from its own texts under both names of the
address. -/
theorem reads_back {source : Timestamp.Source} {data : ByteArray} {v : Value} {w : Webhook}
    (hv : Value.ofBytes? data = some v) (h : ofValue source v = .valid w) (now : Civil)
    (offset : Int) :
    (∃ item text, w.toItem (now, some offset) = .ok item ∧ ofItem item = .ok w ∧
      item.toText? = some text ∧
      ∃ decoded, Item.decode text.toUTF8 = .valid decoded ∧ ofItem decoded = .ok w) ∧
    ∀ name, name = wireAddress ∨ name = plainAddress →
      ∃ text, (Value.record (w.members name)).toText? = some text ∧
        decode text.toUTF8 = .valid w := by
  have hw : w.Proper := proper_of_ofValue (Value.onWire_of_ofBytes? hv) h
  refine ⟨?_, fun name hname => ?_⟩
  · obtain ⟨item, hitem⟩ : ∃ item, w.toItem (now, some offset) = .ok item := ⟨_, rfl⟩
    have hback := ofItem_toItem hw.expires hitem
    obtain ⟨text, htext, hdecode⟩ := Item.decode_toUTF8 (onWire_toItem 196 hw hitem)
    exact ⟨item, text, hitem, hback, htext, item, hdecode, hback⟩
  · obtain ⟨text, htext, hread⟩ := Value.ofBytes?_toUTF8 (onWire_members 197 hw hname)
    have hback := ofValue_members hw.expires .written hname
    exact ⟨text, htext, Value.decodeBytes_eq_valid.2 ⟨_, hread, hback⟩⟩

/-- A webhook without secret, alternatives and devices, which expires in a zone west of UTC. -/
theorem reads_back_west :
    ∃ text v w, Value.ofBytes? (String.toUTF8 text) = some v ∧ ofValue .parsed v = .valid w ∧
      w.expires.offset = -210 ∧
      (∃ item text, w.toItem ({ year := 2029, month := 12, day := 31 }, some 60) = .ok item ∧
        ofItem item = .ok w ∧ item.toText? = some text ∧
        ∃ decoded, Item.decode text.toUTF8 = .valid decoded ∧ ofItem decoded = .ok w) ∧
      ∀ name, name = wireAddress ∨ name = plainAddress →
        ∃ text, (Value.record (w.members name)).toText? = some text ∧
          decode text.toUTF8 = .valid w := by
  obtain ⟨text, v, w, htext, hw, hoffset⟩ : ∃ text v w, Value.ofText? text = some v ∧
      ofValue .parsed v = .valid w ∧ w.expires.offset = -210 :=
    ⟨"\x7b\"config\": \x7b\"url\": \"http://a\"\x7d, \"duration\": -7, " ++
      "\"until\": \"2030-01-02T03:04:05.000006-03:30\"\x7d", _, _, rfl, rfl, rfl⟩
  have hv := Value.ofBytes?_of_ofText? htext
  exact ⟨text, v, w, hv, hw, hoffset, reads_back hv hw _ _⟩

end HookRegistry.Webhook
