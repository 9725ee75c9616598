import HookRegistry.Digest.Sha256
import HookRegistry.Failure.Basic
import HookRegistry.Item
import HookRegistry.Webhook.Basic

/-!
# Webhooks as items

A webhook is stored as an item whose id is the digest of its delivery address, whose payload is the
webhook and whose time to live ends with the webhook.

A text is a sequence of Unicode scalar values, so every address has a UTF-8 form to take the digest
of.  A text with a lone surrogate has none; it is left out here.
-/

namespace HookRegistry

namespace Webhook

/-- The id of the item for a delivery address: the SHA-256 digest of the address in UTF-8. -/
def idOfUrl (url : String) : String :=
  String.ofList (Sha256.hexDigest url.toUTF8.toList)

/-- Whole seconds in a span of microseconds, nothing for a span that has passed.  The span is
turned into seconds as the nearest double, and the fraction is dropped from that. -/
def secondsLeft (micros : Int) : Int :=
  match (Double.ofRat ((micros : Rat) / 1000000)).toRat? with
  | some r => max 0 r.floor
  | none => 0

/-- The item for a webhook at a time.  A time without offset cannot be compared. -/
def toItem (now : Timestamp.Open) (w : Webhook) : Except Failure Item :=
  match now.2 with
  | none => .error .openClock
  | some offset =>
    let here : Timestamp := ⟨now.1, offset⟩
    .ok
      { id := idOfUrl w.delivery.url
        data := w.members wireAddress
        ttl := some (secondsLeft (w.expires.instant - here.instant)) }

/-- The webhook in the payload of an item. -/
def ofItem (item : Item) : Except Failure Webhook :=
  match ofValue .parsed (.record item.data) with
  | .valid w => .ok w
  | .invalid problems => .error (.itemConversion item.id problems)

/-- The webhooks in the payloads of items; the first item that holds none fails the whole list. -/
def ofItems (items : List Item) : Except Failure (List Webhook) :=
  items.mapM ofItem

end Webhook

/-- What a caller registers: a webhook, or a record that was put together without checks and has
no encoding. -/
inductive Submission where
  | webhook (w : Webhook)
  | unencodable

/-- The item for a submission at a time. -/
def Submission.toItem (now : Timestamp.Open) : Submission → Except Failure Item
  | .webhook w => w.toItem now
  | .unencodable => .error .webhookConversion

end HookRegistry
