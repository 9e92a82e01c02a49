import SmsTracking.Message.Basic

/-!
The JSON form of a message. `version` may be left out and is then 0.
-/

namespace SmsTracking

namespace Json.Value

def ofUuid (id : Uuid) : Value := .string (toString id)

def ofTimestamp (t : Timestamp) : Value := .string (toString t)

end Json.Value

namespace Message

open Json

def encode (m : Message) : Value :=
  .object [("id", .ofUuid m.id), ("owner", .string m.owner), ("contact", .string m.contact),
    ("content", .string m.content), ("type", .string m.direction.name),
    ("status", .string m.status.name), ("request_received_at", .ofTimestamp m.requestReceivedAt),
    ("created_at", .ofTimestamp m.createdAt), ("updated_at", .ofTimestamp m.updatedAt),
    ("order_timestamp", .ofTimestamp m.orderTimestamp),
    ("last_attempted_at", .ofOption .ofTimestamp m.lastAttemptedAt),
    ("send_attempt_count", .ofUInt32 m.sendAttemptCount),
    ("sent_at", .ofOption .ofTimestamp m.sentAt),
    ("received_at", .ofOption .ofTimestamp m.receivedAt),
    ("send_duration_ms", .ofOption .ofInt64 m.sendDurationMs), ("version", .ofUInt64 m.version)]

open Record in
def record : Record Message :=
  Message.mk <$> required "id" Decoder.uuid <*> required "owner" Decoder.string
    <*> required "contact" Decoder.string <*> required "content" Decoder.string
    <*> required "type" Direction.decode <*> required "status" Status.decode
    <*> required "request_received_at" Decoder.timestamp
    <*> required "created_at" Decoder.timestamp <*> required "updated_at" Decoder.timestamp
    <*> required "order_timestamp" Decoder.timestamp
    <*> optional "last_attempted_at" Decoder.timestamp
    <*> required "send_attempt_count" Decoder.uint32 <*> optional "sent_at" Decoder.timestamp
    <*> optional "received_at" Decoder.timestamp <*> optional "send_duration_ms" Decoder.int64
    <*> withDefault "version" Decoder.uint64 0

def decode : Decoder Message := record.decode "Message"

end Message

end SmsTracking
