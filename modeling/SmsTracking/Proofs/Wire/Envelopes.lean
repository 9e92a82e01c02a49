import SmsTracking.Proofs.Wire.Kinds
import SmsTracking.Proofs.Wire.Payload
import SmsTracking.Proofs.Wire.Scanning

/-!
Events on the wire. Main statements: an event comes out of its bytes as it is written if its data are
not nested too deep, and whatever comes out of some bytes goes through once more unchanged
(`envelope_roundTrip`); an event that is made from a payload brings this payload as it is written, and
no event can be read as a payload of a kind that it does not name (`payload_roundTrip`). To be written
changes nothing but a leap second that does not end its minute.
-/

namespace SmsTracking

open Json Record

namespace Envelope

/-- The envelope with the time that the text of its own denotes. The data hold texts already. -/
def written (e : Envelope) : Envelope := { e with time := e.time.written }

theorem written_eq_self_iff {e : Envelope} : e.written = e ↔ e.time.IsWritten := by
  cases e
  simp [written]

/-! The members of an envelope -/

/-- What stands before the data. -/
def front (e : Envelope) : List (String × Value) :=
  [("id", .string e.id), ("type", .string e.type), ("source", .string e.source),
    ("time", .ofTimestamp e.time), ("datacontenttype", .string e.contentType)]

def frontRecord : Record (Value → Envelope) :=
  Envelope.mk <$> required "id" Decoder.string <*> required "type" Decoder.string
    <*> required "source" Decoder.string <*> required "time" Decoder.timestamp
    <*> required "datacontenttype" Decoder.string

theorem encode_eq (e : Envelope) : e.encode = .object (e.front ++ [("data", e.data)]) := rfl

theorem decode_eq :
    decode = (frontRecord <*> required "data" Decoder.value).decode "EventEnvelope" := rfl

variable {e : Envelope}

theorem isFloatFree_encode (whole : e.data.isFloatFree = true) : e.encode.isFloatFree = true := by
  rw [encode_eq, Value.isFloatFree_object, List.forall_mem_append, List.forall_mem_singleton]
  refine ⟨fun m mem => Value.isFloatFree_of_isScalar ?_, whole⟩
  revert m
  simp [front]

theorem frontRecord_accepts {source : Source} {get : String → Option Draft} (e : Envelope)
    (id : get "id" = some (.ofValue (.string e.id)))
    (type : get "type" = some (.ofValue (.string e.type)))
    (origin : get "source" = some (.ofValue (.string e.source)))
    (time : get "time" = some (.ofValue (.ofTimestamp e.time)))
    (content : get "datacontenttype" = some (.ofValue (.string e.contentType))) :
    frontRecord.Accepts source get
      (Envelope.mk e.id e.type e.source e.time.written e.contentType) := by
  refine .seq ?_ (.required content (Decoder.string_ofValue ..))
  refine .seq ?_ (.required time (Decoder.timestamp_ofTimestamp ..))
  refine .seq ?_ (.required origin (Decoder.string_ofValue ..))
  refine .seq ?_ (.required type (Decoder.string_ofValue ..))
  exact .map (.required id (Decoder.string_ofValue ..)) _

theorem nodup_front (e : Envelope) : (e.front.map (·.1)).Nodup := by
  simp [front]

theorem names_frontRecord :
    frontRecord.fields.map (·.name) = ["id", "type", "source", "time", "datacontenttype"] := rfl

theorem known_front (e : Envelope) : e.front.map (·.1) ⊆ frontRecord.fields.map (·.name) := by
  rw [names_frontRecord]
  simp [front]

/-! Reading an envelope -/

theorem decode_encode_of_ok {v : Value} (read : Decoder.value (.text 126) (.ofValue e.data) = .ok v) :
    decode (.text maxDepth) (.ofValue e.encode) = .ok { e.written with data := v } := by
  rw [decode_eq, encode_eq]
  refine decode_ofValue _ rfl (by simp [front]) ?_
    ((e.frontRecord_accepts rfl rfl rfl rfl rfl).seq (.required rfl read))
  have names : (frontRecord <*> required "data" Decoder.value).fields.map (·.name) =
      ["id", "type", "source", "time", "datacontenttype", "data"] := rfl
  rw [names]
  simp [front]

theorem decode_encode_of_error {reason : Error}
    (refused : Decoder.value (.text 126) (.ofValue e.data) = .error reason) :
    decode (.text maxDepth) (.ofValue e.encode) = .error reason := by
  rw [decode_eq, encode_eq]
  refine decode_ofValue_of_error _ rfl e.nodup_front ?_ e.known_front
    (e.frontRecord_accepts rfl rfl rfl rfl rfl) refused
  rw [names_frontRecord]
  simp

/-- The limit counts the envelope itself. -/
theorem ofBytes_toBytes (whole : e.data.isFloatFree = true) :
    ofBytes e.toBytes =
      if e.data.depth ≤ 126 then .ok { e.written with data := e.data.sorted }
      else .error (.serialization (.text .syntaxError)) := by
  have read : Decoder.value (.text 126) (.ofValue e.data) =
      lift (if e.data.depth ≤ 126 then .ok e.data.sorted else .error .syntaxError) :=
    congrArg lift (Draft.value_ofValue e.data 126)
  rw [ofBytes, toBytes, decodeBytes_toBytes decode (isFloatFree_encode whole)]
  by_cases shallow : e.data.depth ≤ 126
  · rw [if_pos shallow] at read ⊢
    rw [decode_encode_of_ok read]
  · rw [if_neg shallow] at read ⊢
    rw [decode_encode_of_error read]

theorem ofBytes_toBytes_of_shallow (whole : e.data.isFloatFree = true)
    (sorted : e.data.isSorted = true) (depth : e.data.depth ≤ 126) :
    ofBytes e.toBytes = .ok e.written := by
  rw [ofBytes_toBytes whole, if_pos depth, Value.sorted_of_isSorted sorted]
  rfl

/-- Data that were read from a text are sorted and not nested too deep, and the time has a text. -/
theorem parts_of_ofBytes {bytes : ByteArray} (read : ofBytes bytes = .ok e) :
    (e.data.isSorted = true ∧ e.data.depth ≤ 126) ∧ e.time.IsWritten := by
  unfold ofBytes at read
  split at read
  · rename_i f decoded
    cases read
    obtain ⟨_, _, decoded⟩ := decode_of_decodeSymbols decoded
    obtain ⟨g, entered, built⟩ := build_of_decode decoded
    -- Only the data, the last field, and the time are looked at.
    obtain ⟨f, v, upToContent, filled, rfl⟩ := build_seq_iff.mp built
    obtain ⟨f, _, upToTime, _, rfl⟩ := build_seq_iff.mp upToContent
    obtain ⟨f, t, upToSource, timed, rfl⟩ := build_seq_iff.mp upToTime
    obtain ⟨f, _, upToType, _, rfl⟩ := build_seq_iff.mp upToSource
    obtain ⟨f, _, upToId, _, rfl⟩ := build_seq_iff.mp upToType
    obtain ⟨_, _, rfl⟩ := build_map_iff.mp upToId
    obtain ⟨d, given⟩ := build_required filled
    have inside : g.source = .text 126 := (Except.ok.inj entered).symm
    rw [inside] at given
    obtain ⟨_, parsed⟩ := build_required timed
    exact ⟨Draft.tree_of_value (ok_of_lift given), Decoder.isWritten_of_timestamp _ parsed⟩
  · cases read

end Envelope

/-- The data of a payload are an object that holds no other. -/
theorem Payload.flat_data (p : Payload) :
    p.data.isFloatFree = true ∧ p.data.isSorted = true ∧ p.data.depth ≤ 1 := by
  have scalars : ∀ m ∈ p.members, m.2.isScalar = true := by
    cases p <;> simp [members, Sms.members]
  have placed : ∀ m ∈ Value.sortMembers p.members, m.2.isScalar = true := fun m mem =>
    scalars m (Value.mem_sortMembers mem)
  exact ⟨Value.isFloatFree_of_scalars placed, Value.isSorted_of_scalars scalars,
    Value.depth_of_scalars placed⟩

namespace Envelope

variable {e : Envelope}

/-! Kinds -/

theorem payloadAs_of_other {k : EventKind} (other : e.type ≠ k.name) :
    ∃ reason, e.payloadAs k = .error (.decode e.id e.type reason) :=
  ⟨_, if_pos other⟩

theorem payloadAs_of_foreign (foreign : e.contentType ≠ jsonContent) (k : EventKind) :
    ∃ reason, e.payloadAs k = .error (.decode e.id e.type reason) := by
  by_cases named : e.type = k.name
  · exact ⟨_, (if_neg (not_not_intro named)).trans (if_pos foreign)⟩
  · exact payloadAs_of_other named

theorem named_of_payloadAs {k : EventKind} {p : Payload} (read : e.payloadAs k = .ok p) :
    e.type = k.name ∧ e.contentType = jsonContent := by
  constructor
  · by_contra other
    obtain ⟨_, refused⟩ := payloadAs_of_other other
    rw [refused] at read
    cases read
  · by_contra foreign
    obtain ⟨_, refused⟩ := payloadAs_of_foreign foreign k
    rw [refused] at read
    cases read

end Envelope

open Envelope

/-- Of data without floats those come back that are nested at most 126 deep. The members of their
objects come back sorted. The time comes back unless it is a leap second within a minute. -/
theorem envelope_roundTrip (e : Envelope) (whole : e.data.isFloatFree = true) :
    (e.data.depth ≤ 126 → ofBytes e.toBytes = .ok { e.written with data := e.data.sorted }) ∧
      (e.data.isSorted = true → e.data.depth ≤ 126 → ofBytes e.toBytes = .ok e.written) ∧
      (126 < e.data.depth → ofBytes e.toBytes = .error (.serialization (.text .syntaxError))) ∧
      (∀ bytes, ofBytes bytes = .ok e → ofBytes e.toBytes = .ok e) ∧
      (e.written = e ↔ e.time.IsWritten) := by
  refine ⟨?_, ofBytes_toBytes_of_shallow whole, ?_, ?_, written_eq_self_iff⟩
  · intro shallow
    rw [ofBytes_toBytes whole, if_pos shallow]
  · intro deep
    rw [ofBytes_toBytes whole, if_neg (Nat.not_le_of_lt deep)]
  · intro bytes read
    obtain ⟨⟨sorted, depth⟩, timely⟩ := parts_of_ofBytes read
    rw [ofBytes_toBytes_of_shallow whole sorted depth, written_eq_self_iff.mpr timely]

/-- Empty and escaped keys, both ends of the integers, and one array that reaches the limit or goes
beyond it. -/
theorem envelope_roundTrip_limit :
    let tree (v : Value) : Value :=
      .object [("", v), ("\"\\\u0001", .array [.number (.whole ⟨-9223372036854775808, by decide⟩),
        .number (.whole ⟨18446744073709551615, by decide⟩), .object []]), ("é", .string "\n😀")]
    let nested (n : Nat) : Value := Nat.repeat (fun v => .array [v]) n .null
    let e (n : Nat) : Envelope := ⟨"", "\t", "é", .epoch, "text", tree (nested n)⟩
    ((e 125).data.isFloatFree = true ∧ (e 125).data.isSorted = true ∧ (e 125).data.depth ≤ 126 ∧
      ofBytes (e 125).toBytes = .ok (e 125)) ∧
    (e 126).data.isFloatFree = true ∧ 126 < (e 126).data.depth ∧
      ofBytes (e 126).toBytes = .error (.serialization (.text .syntaxError)) := by
  intro tree nested e
  have whole : (e 125).data.isFloatFree = true := by decide +kernel
  have sorted : (e 125).data.isSorted = true := by decide +kernel
  have depth : (e 125).data.depth ≤ 126 := by decide +kernel
  have wholeToo : (e 126).data.isFloatFree = true := by decide +kernel
  have deep : 126 < (e 126).data.depth := by decide +kernel
  exact ⟨⟨whole, sorted, depth, (envelope_roundTrip (e 125) whole).2.1 sorted depth⟩,
    wholeToo, deep, (envelope_roundTrip (e 126) wholeToo).2.2.1 deep⟩

/-- Four seconds past the minute there is no leap second to write. -/
theorem envelope_shifted :
    let e : Envelope := ⟨"", "", "", { day := 19844, second := 86164, nano := 1333333333 }, "", .null⟩
    e.data.isFloatFree = true ∧ e.data.isSorted = true ∧ e.data.depth ≤ 126 ∧
      ofBytes e.toBytes ≠ .ok e := by
  intro e
  refine ⟨rfl, rfl, Nat.zero_le _, ?_⟩
  rw [ofBytes_toBytes_of_shallow rfl rfl (Nat.zero_le _)]
  intro same
  have late : ¬ e.time.IsWritten := by decide
  exact late (written_eq_self_iff.mp (Except.ok.inj same))

/-- The event comes out of its bytes as it is written, and the payload with it. -/
structure Envelope.Brings (e : Envelope) (p : Payload) : Prop where
  bytes : ofBytes e.toBytes = .ok e.written
  payload : (ofBytes e.toBytes >>= fun f => f.payloadAs p.kind) = .ok p.written
  messageId : (ofBytes e.toBytes >>= fun f => Payload.messageId <$> f.payloadAs p.kind) =
    .ok p.messageId

/-- The event can be read as a payload of the kind that it names, and of no other. -/
structure Envelope.BoundToKind (e : Envelope) : Prop where
  named : ∀ k p, e.payloadAs k = .ok p →
    e.type = k.name ∧ e.contentType = jsonContent ∧ p.kind = k
  unique : ∀ k l p q, e.payloadAs k = .ok p → e.payloadAs l = .ok q → k = l
  other : ∀ k, e.type ≠ k.name → ∃ reason, e.payloadAs k = .error (.decode e.id e.type reason)
  foreign : e.contentType ≠ jsonContent →
    ∀ k, ∃ reason, e.payloadAs k = .error (.decode e.id e.type reason)

theorem Envelope.brings_ofPayload (id : Uuid) (now : Timestamp) (source : String) (p : Payload) :
    (ofPayload id now source p).Brings p := by
  obtain ⟨whole, sorted, depth⟩ := p.flat_data
  have bytes : ofBytes (ofPayload id now source p).toBytes =
      .ok (ofPayload id now.written source p) :=
    ofBytes_toBytes_of_shallow whole sorted (Nat.le_trans depth (by decide))
  have read := payloadAs_ofPayload id now.written source p
  refine ⟨bytes, ?_, ?_⟩
  · rw [bytes]
    exact read
  · rw [bytes]
    exact (congrArg (Except.map Payload.messageId) read).trans (congrArg _ p.messageId_written)

theorem Envelope.boundToKind (e : Envelope) : e.BoundToKind where
  named k p read := by
    obtain ⟨type, content⟩ := named_of_payloadAs read
    exact ⟨type, content, kind_of_payloadAs read⟩
  unique k l p q read again :=
    EventKind.name_inj.mp ((named_of_payloadAs read).1.symm.trans (named_of_payloadAs again).1)
  other k other := payloadAs_of_other other
  foreign foreign k := payloadAs_of_foreign foreign k

/-- What is written is what was given, but for a leap second within a minute. The last part is what
the binding to a kind is for: the data alone would not tell. -/
theorem payload_roundTrip :
    (∀ id now source p, (ofPayload id now source p).Brings p) ∧
      (∀ e : Envelope, e.written = e ↔ e.time.IsWritten) ∧
      (∀ p : Payload, p.written = p ↔ ∀ t ∈ p.time?, t.IsWritten) ∧
      (∀ e : Envelope, e.BoundToKind) ∧
      ∀ sms t, (Payload.phoneSent sms t).data = (Payload.phoneReceived sms t).data :=
  ⟨brings_ofPayload, fun _ => Envelope.written_eq_self_iff, fun _ => Payload.written_eq_self_iff,
    boundToKind, fun _ _ => rfl⟩

/-- The phone reports a leap second four seconds past the minute, and the next second is read. -/
theorem payload_shifted :
    let t : Timestamp := { day := 19844, second := 86164, nano := 1333333333 }
    let p : Payload := .phoneSent ⟨default, "", "", ""⟩ t
    (ofBytes (ofPayload default .epoch "" p).toBytes >>= fun f => f.payloadAs p.kind) ≠ .ok p := by
  intro t p
  rw [(brings_ofPayload default .epoch "" p).payload]
  intro same
  have late : ¬ t.IsWritten := by decide
  exact late (Payload.written_eq_self_iff.mp (Except.ok.inj same) t rfl)

end SmsTracking
