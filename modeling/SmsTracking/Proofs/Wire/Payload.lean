import SmsTracking.Event.Envelope
import SmsTracking.Proofs.Wire.Leaves
import SmsTracking.Proofs.Wire.Records

/-!
A payload is read back from the data of its event, with its time as it is written. The data are an
object with sorted members, but their order does not matter, and each is read back by the reader of
its field. Main statement: an event that was made from a payload has this payload
(`payloadAs_ofPayload`).
-/

namespace SmsTracking

open Json Record

theorem Sms.accepts {get : String → Option Draft} (sms : Sms)
    (id : get "id" = some (.ofValue (.ofUuid sms.id)))
    (owner : get "owner" = some (.ofValue (.string sms.owner)))
    (contact : get "contact" = some (.ofValue (.string sms.contact)))
    (content : get "content" = some (.ofValue (.string sms.content))) :
    Sms.record.Accepts .value get sms := by
  cases sms
  refine .seq ?_ (.required content (Decoder.string_ofValue ..))
  refine .seq ?_ (.required contact (Decoder.string_ofValue ..))
  refine .seq ?_ (.required owner (Decoder.string_ofValue ..))
  exact .map (.required id (Decoder.uuid_ofUuid ..)) Sms.mk

namespace Payload

/-- The time that the payload tells. -/
def time? : Payload → Option Timestamp
  | apiSent _ t | phoneSent _ t | phoneReceived _ t => some t
  | phoneSending _ => none

/-- The payload with the time that the text of its own denotes. -/
def written : Payload → Payload
  | apiSent sms t => apiSent sms t.written
  | phoneSending sms => phoneSending sms
  | phoneSent sms t => phoneSent sms t.written
  | phoneReceived sms t => phoneReceived sms t.written

@[simp] theorem kind_written (p : Payload) : p.written.kind = p.kind := by
  cases p <;> rfl

@[simp] theorem sms_written (p : Payload) : p.written.sms = p.sms := by
  cases p <;> rfl

@[simp] theorem messageId_written (p : Payload) : p.written.messageId = p.messageId := by
  rw [messageId, sms_written, messageId]

theorem written_eq_self_iff {p : Payload} : p.written = p ↔ ∀ t ∈ p.time?, t.IsWritten := by
  cases p <;> simp [written, time?]

/-- The names under which a payload tells a time. -/
def timeNames : List String := ["requestReceivedAt", "timestamp"]

theorem decodeValue_timed {name : String} (h : name ∈ timeNames) (make : Sms → Timestamp → Payload)
    (text : String) (sms : Sms) (t : Timestamp) :
    decodeValue ((make <$> Sms.record <*> required name Decoder.timestamp).decode text)
      (.object (Value.sortMembers (sms.members ++ [(name, .ofTimestamp t)]))) =
      .ok (make sms t.written) := by
  have names : (make <$> Sms.record <*> required name Decoder.timestamp).fields.map (·.name) =
      ["id", "owner", "contact", "content", name] := rfl
  simp only [timeNames, List.mem_cons, List.not_mem_nil, or_false] at h
  refine decode_rearranged text rfl (rearranged_sortMembers ?_) ?_ ?_
  · rcases h with rfl | rfl <;> simp [Sms.members]
  · rw [names]
    simp [Sms.members]
  · refine ((sms.accepts rfl rfl rfl rfl).map make).seq (.required ?_
      (Decoder.timestamp_ofTimestamp ..))
    rcases h with rfl | rfl <;> rfl

theorem decodeValue_data (p : Payload) :
    decodeValue (decode p.kind) p.data = .ok p.written := by
  cases p with
  | apiSent sms t => exact decodeValue_timed (by decide) apiSent _ sms t
  | phoneSent sms t => exact decodeValue_timed (by decide) phoneSent _ sms t
  | phoneReceived sms t => exact decodeValue_timed (by decide) phoneReceived _ sms t
  | phoneSending sms =>
      have names : (phoneSending <$> Sms.record).fields.map (·.name) =
          ["id", "owner", "contact", "content"] := rfl
      refine decode_rearranged "MessagePhoneSendingPayload" rfl (rearranged_sortMembers ?_) ?_
        ((sms.accepts rfl rfl rfl rfl).map phoneSending)
      · simp [members, Sms.members]
      · rw [names]
        simp [members, Sms.members]

end Payload

theorem Envelope.payloadAs_ofPayload (id : Uuid) (now : Timestamp) (source : String) (p : Payload) :
    (Envelope.ofPayload id now source p).payloadAs p.kind = .ok p.written := by
  simp [payloadAs, ofPayload, new, Payload.decodeValue_data]

end SmsTracking
