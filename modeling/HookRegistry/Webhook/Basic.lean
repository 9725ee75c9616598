import HookRegistry.Time.Reader
import HookRegistry.Value.Writer

/-!
# Webhooks

A webhook says where events go, which ones, and until when.  `Webhook.ofValue` reads one,
`Webhook.toValue` lays it out for the wire.  Fields that are empty and optional are left out there;
reading gives the empty value for a field that is missing.
-/

namespace HookRegistry

/-- Where and how events are delivered. -/
structure Delivery where
  url : String := ""
  contentType : String := ""
  secret : String := ""
  alternatives : List String := []
  deriving DecidableEq, Repr, Inhabited

/-- A registration for events. -/
structure Webhook where
  /-- The address that the registration came from. -/
  address : String := ""
  delivery : Delivery := {}
  /-- Told when the subscriber is cut off; empty for nobody. -/
  failureUrl : String := ""
  /-- Patterns for the kind of event. -/
  events : List String := []
  /-- Patterns for the device of the event. -/
  devices : List String := []
  /-- Nanoseconds; kept for the wire alone. -/
  duration : Int := 0
  expires : Timestamp := Timestamp.epoch
  deriving DecidableEq, Repr, Inhabited

namespace Webhook

/-- The name of the address on the wire. -/
def wireAddress : String := "registered_from_address"

/-- The name of the address in the program. -/
def plainAddress : String := "address"

/-- Reads the delivery part. -/
def deliveryOfValue : Value → Checked Delivery
  | .record members =>
    Delivery.mk <$> Value.field members "url" "" Value.toText
      <*> Value.field members "content_type" "" Value.toText
      <*> Value.field members "secret" "" Value.toText
      <*> Value.field members "alt_urls" [] Value.toTexts
  | _ => .fail .notAModel

/-- Reads the device patterns. -/
def devicesOfValue : Value → Checked (List String)
  | .record members => Value.field members "device_id" [] Value.toTexts
  | _ => .fail .notAModel

/-- Reads the address, under its wire name or, when that is missing, under its plain one. -/
def addressOfMembers (members : List (String × Value)) : Checked String :=
  if Assoc.contains wireAddress members then Value.field members wireAddress "" Value.toText
  else Value.field members plainAddress "" Value.toText

/-- Reads a webhook. -/
def ofValue (source : Timestamp.Source) : Value → Checked Webhook
  | .record members =>
    mk <$> addressOfMembers members
      <*> Value.field members "config" {} deliveryOfValue
      <*> Value.field members "failure_url" "" Value.toText
      <*> Value.field members "events" [] Value.toTexts
      <*> Value.field members "matcher" [] devicesOfValue
      <*> Value.field members "duration" 0 Value.toWhole
      <*> Value.field members "until" Timestamp.epoch (Timestamp.ofValue source)
  | _ => .fail .notAModel

/-- Reads a webhook from JSON text. -/
def decode (data : ByteArray) : Checked Webhook :=
  Value.decodeBytes (ofValue .written) data

/-- A list of texts as a value. -/
def texts (ss : List String) : Value :=
  .list (ss.map .text)

/-- The delivery part, without an empty secret and without an empty list of alternatives. -/
def deliveryValue (d : Delivery) : Value :=
  .record <|
    [("url", .text d.url), ("content_type", .text d.contentType)] ++
      (if d.secret.isEmpty then [] else [("secret", .text d.secret)]) ++
      (if d.alternatives.isEmpty then [] else [("alt_urls", texts d.alternatives)])

/-- The members of a webhook, the address under a given name and the matcher only when there are
patterns for devices. -/
def members (addressName : String) (w : Webhook) : List (String × Value) :=
  [(addressName, .text w.address), ("config", deliveryValue w.delivery),
    ("failure_url", .text w.failureUrl), ("events", texts w.events)] ++
    (if w.devices.isEmpty then [] else [("matcher", .record [("device_id", texts w.devices)])]) ++
    [("duration", .int w.duration), ("until", .text (String.ofList w.expires.write))]

/-- A webhook as a dynamic value for the wire. -/
def toValue (w : Webhook) : Value :=
  .record (w.members wireAddress)

/-- Whether two webhooks agree in every field, the expiry as an instant. -/
def agrees (v w : Webhook) : Bool :=
  v.address == w.address && v.delivery == w.delivery && v.failureUrl == w.failureUrl &&
    v.events == w.events && v.devices == w.devices && v.duration == w.duration &&
    v.expires.sameInstant w.expires

end Webhook

end HookRegistry
