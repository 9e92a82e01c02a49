import SmsTracking.Event.Envelope
import SmsTracking.Proofs.Wire.Records

/-!
What a record reads is built from what its fields read, whatever else is given. Main statement: the
payload that is read from an event belongs to the kind that the event names (`kind_of_payloadAs`).
-/

namespace SmsTracking

namespace Json.Record

variable {α β : Type}

/-- What is read is built from what was given inside. -/
theorem build_of_decode {r : Record α} {name : String} {source : Source} {d : Draft} {a : α}
    (read : r.decode name source d = .ok a) :
    ∃ g, source.enter = .ok g.source ∧ r.build g = .ok a := by
  unfold decode at read
  split at read
  · obtain ⟨inside, entered, read⟩ := ok_of_bind read
    obtain ⟨_, _, read⟩ := ok_of_bind read
    obtain ⟨_, _, read⟩ := ok_of_bind read
    exact ⟨_, entered, read⟩
  · obtain ⟨inside, entered, read⟩ := ok_of_bind read
    obtain ⟨_, _, read⟩ := ok_of_bind read
    obtain ⟨_, built, read⟩ := ok_of_bind read
    obtain ⟨_, _, read⟩ := ok_of_bind read
    cases read
    exact ⟨_, entered, built⟩
  · obtain ⟨_, _, read⟩ := ok_of_bind read
    cases read

theorem build_map_iff {r : Record α} {f : α → β} {g : Given} {b : β} :
    (f <$> r).build g = .ok b ↔ ∃ a, r.build g = .ok a ∧ f a = b := by
  constructor
  · intro built
    obtain ⟨_, made, built⟩ := ok_of_bind built
    obtain ⟨a, filled, built⟩ := ok_of_bind built
    cases made
    cases built
    exact ⟨a, filled, rfl⟩
  · rintro ⟨a, filled, rfl⟩
    exact ok_bind_iff.mpr ⟨f, rfl, ok_bind_iff.mpr ⟨a, filled, rfl⟩⟩

theorem build_seq_iff {r : Record (α → β)} {s : Record α} {g : Given} {b : β} :
    (r <*> s).build g = .ok b ↔ ∃ f a, r.build g = .ok f ∧ s.build g = .ok a ∧ f a = b := by
  constructor
  · intro built
    obtain ⟨f, made, built⟩ := ok_of_bind built
    obtain ⟨a, filled, built⟩ := ok_of_bind built
    cases built
    exact ⟨f, a, made, filled, rfl⟩
  · rintro ⟨f, a, made, filled, rfl⟩
    exact ok_bind_iff.mpr ⟨f, made, ok_bind_iff.mpr ⟨a, filled, rfl⟩⟩

theorem build_required {name : String} {decode : Decoder α} {g : Given} {a : α}
    (built : (required name decode).build g = .ok a) : ∃ d, decode g.source d = .ok a := by
  simp only [required, field] at built
  split at built
  · exact ⟨_, built⟩
  · cases built

end Json.Record

/-- A text that is read is the text of one value, with nothing after it. -/
theorem Json.decode_of_decodeSymbols {α : Type} {decode : Decoder α} {xs : List Text.Symbol} {a : α}
    (read : decodeSymbols decode xs = .ok a) :
    ∃ d, Draft.ofSymbols xs = (d, false) ∧ decode (.text maxDepth) d = .ok a := by
  rw [decodeSymbols] at read
  cases drawn : Draft.ofSymbols xs with
  | mk d excess =>
      rw [drawn] at read
      obtain ⟨b, decoded, ends⟩ := ok_of_bind read
      cases excess with
      | true => cases ends
      | false =>
          cases ends
          exact ⟨d, rfl, decoded⟩

open Json Record

namespace Payload

theorem kind_of_timed (make : Sms → Timestamp → Payload) {k : EventKind}
    (kind : ∀ sms t, (make sms t).kind = k) {name member : String} {source : Source} {d : Draft}
    {p : Payload}
    (read : (make <$> Sms.record <*> required member Decoder.timestamp).decode name source d =
      .ok p) : p.kind = k := by
  obtain ⟨g, _, built⟩ := build_of_decode read
  obtain ⟨_, t, made, _, rfl⟩ := build_seq_iff.mp built
  obtain ⟨sms, _, rfl⟩ := build_map_iff.mp made
  exact kind sms t

theorem kind_of_decodeValue {k : EventKind} {v : Value} {p : Payload}
    (read : decodeValue (decode k) v = .ok p) : p.kind = k := by
  cases k with
  | apiSent => exact kind_of_timed apiSent (fun _ _ => rfl) read
  | phoneSent => exact kind_of_timed phoneSent (fun _ _ => rfl) read
  | phoneReceived => exact kind_of_timed phoneReceived (fun _ _ => rfl) read
  | phoneSending =>
      obtain ⟨g, _, built⟩ := build_of_decode read
      obtain ⟨sms, _, rfl⟩ := build_map_iff.mp built
      rfl

end Payload

theorem Envelope.kind_of_payloadAs {e : Envelope} {k : EventKind} {p : Payload}
    (read : e.payloadAs k = .ok p) : p.kind = k := by
  unfold payloadAs at read
  split at read
  · cases read
  · split at read
    · cases read
    · split at read
      · rename_i decoded
        cases read
        exact Payload.kind_of_decodeValue decoded
      · cases read

end SmsTracking
