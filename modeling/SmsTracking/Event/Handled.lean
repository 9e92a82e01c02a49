import SmsTracking.Message.Codec

/-!
The record that a handler has dealt with an event: which one, when, and how long it took.
-/

namespace SmsTracking

open Json Record

structure HandledEvent where
  id : Uuid
  eventId : String
  eventType : String
  handler : String
  durationMs : Int64
  handledAt : Timestamp
  createdAt : Timestamp
deriving DecidableEq

namespace HandledEvent

def encode (e : HandledEvent) : Value :=
  .object [("id", .ofUuid e.id), ("event_id", .string e.eventId),
    ("event_type", .string e.eventType), ("handler", .string e.handler),
    ("duration_ms", .ofInt64 e.durationMs), ("handled_at", .ofTimestamp e.handledAt),
    ("created_at", .ofTimestamp e.createdAt)]

def decode : Decoder HandledEvent :=
  (HandledEvent.mk <$> required "id" Decoder.uuid <*> required "event_id" Decoder.string
    <*> required "event_type" Decoder.string <*> required "handler" Decoder.string
    <*> required "duration_ms" Decoder.int64 <*> required "handled_at" Decoder.timestamp
    <*> required "created_at" Decoder.timestamp).decode "EventListenerLog"

end HandledEvent

end SmsTracking
