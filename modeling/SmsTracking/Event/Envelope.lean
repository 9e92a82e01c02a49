import SmsTracking.Event.Payload

/-!
Events as they travel: an envelope with an identifier, the name of the kind, a free source, a time
and JSON data. The identifier belongs to one emission; a redelivery keeps it. A payload is read only
out of an envelope of its own kind whose data are declared to be JSON.
-/

namespace SmsTracking

structure Envelope where
  id : String
  type : String
  source : String
  time : Timestamp
  contentType : String
  data : Json.Value

namespace Envelope

open Json

def jsonContent : String := "application/json"

def new (id : Uuid) (now : Timestamp) (kind : EventKind) (source : String) (p : Payload) :
    Envelope where
  id := toString id
  type := kind.name
  source := source
  time := now
  contentType := jsonContent
  data := p.data

/-- A new envelope of the kind to which the payload belongs. -/
def ofPayload (id : Uuid) (now : Timestamp) (source : String) (p : Payload) : Envelope :=
  new id now p.kind source p

def encode (e : Envelope) : Value :=
  .object [("id", .string e.id), ("type", .string e.type), ("source", .string e.source),
    ("time", .ofTimestamp e.time), ("datacontenttype", .string e.contentType), ("data", e.data)]

open Record in
def decode : Decoder Envelope :=
  (Envelope.mk <$> required "id" Decoder.string <*> required "type" Decoder.string
    <*> required "source" Decoder.string <*> required "time" Decoder.timestamp
    <*> required "datacontenttype" Decoder.string <*> required "data" Decoder.value).decode
    "EventEnvelope"

def toBytes (e : Envelope) : ByteArray := e.encode.toBytes

def ofBytes (bytes : ByteArray) : Except DomainError Envelope :=
  match decodeBytes decode bytes with
  | .ok e => .ok e
  | .error e => .error (.serialization e)

/-- Equality in which minus zero equals zero. -/
def same (e f : Envelope) : Bool :=
  e.id == f.id && e.type == f.type && e.source == f.source && e.time == f.time &&
    e.contentType == f.contentType && e.data.same f.data

def undecodable (e : Envelope) (reason : String) : DomainError := .decode e.id e.type reason

def payloadAs (e : Envelope) (k : EventKind) : Except DomainError Payload :=
  if e.type ≠ k.name then .error (e.undecodable ("payload type is bound to " ++ bracketed k.name))
  else if e.contentType ≠ jsonContent then
    .error (e.undecodable ("unsupported content type " ++ bracketed e.contentType))
  else match decodeValue (Payload.decode k) e.data with
    | .ok p => .ok p
    | .error reason => .error (e.undecodable reason.message)

end Envelope

end SmsTracking
