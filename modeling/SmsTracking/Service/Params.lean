import SmsTracking.Message.Page

/-!
What the operations of the service are asked with, and the JSON forms of that.
-/

namespace SmsTracking

open Json Record

structure Progress where
  id : Uuid
  timestamp : Timestamp
deriving DecidableEq

structure SendRequest where
  owner : String
  contact : String
  content : String
  source : String
  requestReceivedAt : Timestamp
deriving DecidableEq

structure Receipt where
  owner : String
  contact : String
  content : String
  source : String
  timestamp : Timestamp
deriving DecidableEq

structure Poll where
  source : String
  limit : Option UInt64
deriving DecidableEq

structure ThreadQuery where
  owner : String
  contact : String
  page : Page
deriving DecidableEq

structure PhoneReport where
  messageId : Uuid
  report : Report
  timestamp : Timestamp
  source : String
deriving DecidableEq

namespace NewMessage

def encode (p : NewMessage) : Value :=
  .object [("id", .ofUuid p.id), ("owner", .string p.owner), ("contact", .string p.contact),
    ("content", .string p.content), ("timestamp", .ofTimestamp p.timestamp)]

def decode : Decoder NewMessage :=
  (NewMessage.mk <$> required "id" Decoder.uuid <*> required "owner" Decoder.string
    <*> required "contact" Decoder.string <*> required "content" Decoder.string
    <*> required "timestamp" Decoder.timestamp).decode "MessageStoreParams"

end NewMessage

namespace Progress

def encode (p : Progress) : Value :=
  .object [("id", .ofUuid p.id), ("timestamp", .ofTimestamp p.timestamp)]

def decode : Decoder Progress :=
  (Progress.mk <$> required "id" Decoder.uuid <*> required "timestamp" Decoder.timestamp).decode
    "HandleMessageParams"

end Progress

namespace SendRequest

def encode (p : SendRequest) : Value :=
  .object [("owner", .string p.owner), ("contact", .string p.contact),
    ("content", .string p.content), ("source", .string p.source),
    ("request_received_at", .ofTimestamp p.requestReceivedAt)]

def decode : Decoder SendRequest :=
  (SendRequest.mk <$> required "owner" Decoder.string <*> required "contact" Decoder.string
    <*> required "content" Decoder.string <*> required "source" Decoder.string
    <*> required "request_received_at" Decoder.timestamp).decode "MessageSendParams"

end SendRequest

namespace Receipt

def encode (p : Receipt) : Value :=
  .object [("owner", .string p.owner), ("contact", .string p.contact),
    ("content", .string p.content), ("source", .string p.source),
    ("timestamp", .ofTimestamp p.timestamp)]

def decode : Decoder Receipt :=
  (Receipt.mk <$> required "owner" Decoder.string <*> required "contact" Decoder.string
    <*> required "content" Decoder.string <*> required "source" Decoder.string
    <*> required "timestamp" Decoder.timestamp).decode "MessageReceiveParams"

end Receipt

namespace Poll

def encode (p : Poll) : Value :=
  .object [("source", .string p.source), ("limit", .ofOption .ofUInt64 p.limit)]

def decode : Decoder Poll :=
  (Poll.mk <$> required "source" Decoder.string
    <*> withDefault "limit" Decoder.size.optional none).decode "MessageGetOutstandingParams"

end Poll

namespace ThreadQuery

/-- The page stands beside the two numbers. -/
def encode (p : ThreadQuery) : Value :=
  .object ([("owner", .string p.owner), ("contact", .string p.contact)] ++ p.page.members)

def decode : Decoder ThreadQuery :=
  decodeFlat "MessageGetParams"
    (ThreadQuery.mk <$> required "owner" Decoder.string <*> required "contact" Decoder.string)
    Page.record

end ThreadQuery

namespace PhoneReport

def encode (p : PhoneReport) : Value :=
  .object [("message_id", .ofUuid p.messageId), ("event_name", .string p.report.name),
    ("timestamp", .ofTimestamp p.timestamp), ("source", .string p.source)]

def decode : Decoder PhoneReport :=
  (PhoneReport.mk <$> required "message_id" Decoder.uuid <*> required "event_name" Report.decode
    <*> required "timestamp" Decoder.timestamp <*> required "source" Decoder.string).decode
    "MessageStorePhoneEventParams"

end PhoneReport

end SmsTracking
