import SmsTracking.Event.Kind
import SmsTracking.Message.Codec

/-!
What an event tells about a message. Every payload names the message, the two numbers and the
content; all but one also tell a time. A payload belongs to one kind of event, and its JSON form
depends on the kind.
-/

namespace SmsTracking

/-- A message as events see it. -/
structure Sms where
  id : Uuid
  owner : String
  contact : String
  content : String
deriving DecidableEq

inductive Payload where
  | apiSent (sms : Sms) (requestReceivedAt : Timestamp)
  | phoneSending (sms : Sms)
  | phoneSent (sms : Sms) (timestamp : Timestamp)
  | phoneReceived (sms : Sms) (timestamp : Timestamp)
deriving DecidableEq

namespace Sms

def ofMessage (m : Message) : Sms := ⟨m.id, m.owner, m.contact, m.content⟩

def members (s : Sms) : List (String × Json.Value) :=
  [("id", .ofUuid s.id), ("owner", .string s.owner), ("contact", .string s.contact),
    ("content", .string s.content)]

open Json Record in
def record : Record Sms :=
  Sms.mk <$> required "id" Decoder.uuid <*> required "owner" Decoder.string
    <*> required "contact" Decoder.string <*> required "content" Decoder.string

end Sms

namespace Payload

open Json

def kind : Payload → EventKind
  | apiSent _ _ => .apiSent
  | phoneSending _ => .phoneSending
  | phoneSent _ _ => .phoneSent
  | phoneReceived _ _ => .phoneReceived

def sms : Payload → Sms
  | apiSent sms _ | phoneSending sms | phoneSent sms _ | phoneReceived sms _ => sms

def messageId (p : Payload) : Uuid := p.sms.id

def members : Payload → List (String × Value)
  | apiSent sms t => sms.members ++ [("requestReceivedAt", .ofTimestamp t)]
  | phoneSending sms => sms.members
  | phoneSent sms t | phoneReceived sms t => sms.members ++ [("timestamp", .ofTimestamp t)]

def encode (p : Payload) : Value := .object p.members

def data (p : Payload) : Value := .object (Value.sortMembers p.members)

open Record in
def decode : EventKind → Decoder Payload
  | .apiSent =>
    (apiSent <$> Sms.record <*> required "requestReceivedAt" Decoder.timestamp).decode
      "MessageApiSentPayload"
  | .phoneSending => (phoneSending <$> Sms.record).decode "MessagePhoneSendingPayload"
  | .phoneSent =>
    (phoneSent <$> Sms.record <*> required "timestamp" Decoder.timestamp).decode
      "MessagePhoneSentPayload"
  | .phoneReceived =>
    (phoneReceived <$> Sms.record <*> required "timestamp" Decoder.timestamp).decode
      "MessagePhoneReceivedPayload"

end Payload

end SmsTracking
