import HookRegistry.Proofs.Assoc
import HookRegistry.Proofs.Text.Base64
import HookRegistry.Proofs.Text.Bytes
import HookRegistry.Proofs.Text.Split
import HookRegistry.Transport.Credentials
import Mathlib.Data.List.Basic

/-!
# User names and passwords, read back

The value of the header for a user name and a password holds the two joined by a colon.  A server
reads the joined text with `carried?` and takes it apart at its first colon with `parted?`.  Both
readers accept nothing but what is written here: `carried?_eq_some_iff`, `parted?_eq_some_iff`.  So a
user name without a colon comes back with its password, and no other does: `basic_recoverable`.
-/

namespace HookRegistry.Credentials

/-- The text for a user name and a password. -/
def joined (username password : String) : String :=
  username ++ ":" ++ password

/-- The text that a value of the header holds. -/
def carried? (value : String) : Option String := do
  let text ← "Basic ".toList.isPrefixOf? value.toList
  let bytes ← Base64.decode? text
  String.fromUTF8? ⟨bytes.toArray⟩

/-- What stands before the first colon of a text, and what stands behind it. -/
def parted? (text : String) : Option (String × String) :=
  match Text.cut ':' text.toList with
  | (before, some after) => some (String.ofList before, String.ofList after)
  | (_, none) => none

theorem basicValue_eq (username password : String) :
    basicValue username password =
      "Basic " ++ String.ofList (Base64.encode (joined username password).toUTF8.toList) :=
  rfl

/-- A value holds the text whose bytes it spells. -/
theorem carried?_eq_some_iff {value text : String} :
    carried? value = some text ↔
      value = "Basic " ++ String.ofList (Base64.encode text.toUTF8.toList) := by
  have hbytes : ∀ bytes : List UInt8,
      (⟨bytes.toArray⟩ : ByteArray) = text.toUTF8 ↔ bytes = text.toUTF8.toList := by
    intro bytes
    rw [Text.toList_eq, ByteArray.ext_iff, ← Array.toList_inj]
  unfold carried?
  simp only [bind, Option.bind_eq_some_iff, List.isPrefixOf?_eq_some_iff_append_eq,
    Base64.decode?_eq_some_iff, Text.fromUTF8?_eq_some_iff, hbytes]
  constructor
  · rintro ⟨_, hvalue, bytes, rfl, rfl⟩
    apply String.toList_injective
    simp only [← hvalue, String.toList_append, String.toList_ofList]
  · rintro rfl
    refine ⟨_, ?_, _, rfl, rfl⟩
    simp only [String.toList_append, String.toList_ofList]

theorem carried?_basicValue (username password : String) :
    carried? (basicValue username password) = some (joined username password) :=
  carried?_eq_some_iff.2 (basicValue_eq username password)

/-- A text is taken apart into what it was joined from, when the first part has no colon. -/
theorem parted?_eq_some_iff {text username password : String} :
    parted? text = some (username, password) ↔
      text = joined username password ∧ ':' ∉ username.toList := by
  have hjoined : (joined username password).toList = username.toList ++ ':' :: password.toList := by
    simp [joined]
  unfold parted?
  constructor
  · intro h
    split at h
    next before after hcut =>
      cases h
      obtain ⟨htext, hbefore⟩ := Text.eq_append_of_cut hcut
      rw [String.toList_ofList]
      refine ⟨String.toList_injective ?_, hbefore⟩
      rw [hjoined, htext, String.toList_ofList, String.toList_ofList]
    next => cases h
  · rintro ⟨rfl, hcolon⟩
    rw [hjoined, Text.cut_append hcolon]
    simp only [String.ofList_toList]

/-- Values are told apart just as the joined texts are. -/
theorem basicValue_eq_iff {username password username' password' : String} :
    basicValue username password = basicValue username' password' ↔
      joined username password = joined username' password' := by
  refine ⟨fun h => ?_, fun h => by rw [basicValue_eq, basicValue_eq, h]⟩
  have hcarried := carried?_basicValue username password
  rw [h, carried?_basicValue] at hcarried
  exact (Option.some.inj hcarried).symm

/-- A value is read as a user name and a password exactly when it is theirs and the user name has no
colon. -/
theorem carried?_bind_parted?_eq_some_iff {value username password : String} :
    (carried? value).bind parted? = some (username, password) ↔
      value = basicValue username password ∧ ':' ∉ username.toList := by
  simp only [Option.bind_eq_some_iff, carried?_eq_some_iff, parted?_eq_some_iff]
  constructor
  · rintro ⟨_, hvalue, rfl, hcolon⟩
    exact ⟨hvalue, hcolon⟩
  · rintro ⟨hvalue, hcolon⟩
    exact ⟨_, hvalue, rfl, hcolon⟩

/-- The value for a user name and a password is the word `Basic`, a blank and plain base64 text for
the bytes of the two joined by a colon; so it tells apart what the joined texts tell apart.  Taken
apart at its first colon the text gives user name and password back exactly when the user name has no
colon.  The decorator succeeds, puts the value under its own header and leaves every other header
alone. -/
theorem basic_recoverable (username password : String) :
    (∃ text, basicValue username password = "Basic " ++ String.ofList text ∧
        Base64.Spells text (username ++ ":" ++ password).toUTF8.toList ∧
        ∀ c ∈ text, c.toNat < 128 ∧ c ≠ '\n' ∧ c ≠ '\r') ∧
      (∀ username' password', basicValue username password = basicValue username' password' ↔
        username ++ ":" ++ password = username' ++ ":" ++ password') ∧
      ((carried? (basicValue username password)).bind parted? = some (username, password) ↔
        ':' ∉ username.toList) ∧
      ∀ headers : Headers, ∃ after, basic username password headers = (after, .ok ()) ∧
        Assoc.get? "Authorization" after = some (basicValue username password) ∧
        (after.filter fun h => h.1 ≠ "Authorization") =
          headers.filter fun h => h.1 ≠ "Authorization" := by
  have hspells := Base64.spells_encode (joined username password).toUTF8.toList
  refine ⟨⟨_, basicValue_eq username password, hspells, fun c hc => hspells.plain hc⟩,
    fun _ _ => basicValue_eq_iff, ?_, fun headers => ⟨_, rfl, ?_, ?_⟩⟩
  · rw [carried?_bind_parted?_eq_some_iff]
    exact and_iff_right rfl
  · exact Assoc.get?_put_self headerName _ headers
  · exact Assoc.filter_put headerName _ headers

end HookRegistry.Credentials
