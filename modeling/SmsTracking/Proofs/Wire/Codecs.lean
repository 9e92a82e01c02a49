import SmsTracking.Event.Handled
import SmsTracking.Proofs.Wire.Leaves
import SmsTracking.Proofs.Wire.Records
import SmsTracking.Proofs.Wire.Scanning
import SmsTracking.Service.Config
import SmsTracking.Service.Params

/-!
The JSON forms of records. A record that writes its fields in their order, each as a scalar that its
own reader reads back, is read back from its text and from its value (`Codec.roundTrips`), and so is
one that holds the fields of another (`FlatCodec.roundTrips`). Timestamps come back as they are
written. Main statement: everything that the service stores, is configured with or is asked with is
read back (`codecs_roundTrip`).
-/

namespace SmsTracking

namespace Json

variable {α β : Type}

/-- What is written is read back, from the text and from the value, with each of its times as it is
written. A value has its members sorted. -/
structure RoundTrips (encode : α → Value) (decode : Decoder α) (times : α → List Timestamp)
    (written : α → α) : Prop where
  text : ∀ a, decodeText decode (toString (encode a)) = .ok (written a)
  value : ∀ a, decodeValue decode (encode a).sorted = .ok (written a)
  exact : ∀ a, written a = a ↔ ∀ t ∈ times a, t.IsWritten

/-- What holds no times comes back as it is. -/
abbrev RoundTripsExactly (encode : α → Value) (decode : Decoder α) : Prop :=
  RoundTrips encode decode (fun _ => []) id

def Value.members : Value → List (String × Value)
  | .object members => members
  | _ => []

namespace Record

theorem Accepts.optional {source : Source} {get : String → Option Draft} {name : String}
    {decode : Decoder β} {encode : β → Value} {o : Option β}
    (given : get name = some (.ofValue (.ofOption encode o))) (present : ∀ b, encode b ≠ .null)
    (reads : ∀ b, decode source (.ofValue (encode b)) = .ok b) :
    (optional name decode).Accepts source get o :=
  .field given (Decoder.optional_ofOption source present reads o)

theorem Accepts.optionalTime {source : Source} {get : String → Option Draft} {name : String}
    {o : Option Timestamp} (given : get name = some (.ofValue (.ofOption .ofTimestamp o))) :
    (Record.optional name Decoder.timestamp).Accepts source get (o.map Timestamp.written) :=
  .field given (Decoder.optional_ofTimestamp source o)

theorem Accepts.withDefault {source : Source} {get : String → Option Draft} {name : String}
    {decode : Decoder β} {d : Draft} {default b : β} (given : get name = some d)
    (reads : decode source d = .ok b) : (withDefault name decode default).Accepts source get b :=
  .field given reads

/-- Both ways back lead over an object with the members that were written. -/
theorem roundTrips_of_rearranged {encode : α → Value} {decode : Decoder α}
    {times : α → List Timestamp} {written : α → α}
    (object : ∀ a, encode a = .object (encode a).members)
    (distinct : ∀ a, ((encode a).members.map (·.1)).Nodup)
    (scalars : ∀ a, ∀ m ∈ (encode a).members, m.2.isScalar = true)
    (reads : ∀ a ms outside source, outside.enter = .ok source → Rearranged ms (encode a).members →
      decode outside (.ofValue (.object ms)) = .ok (written a))
    (exact : ∀ a, written a = a ↔ ∀ t ∈ times a, t.IsWritten) :
    RoundTrips encode decode times written where
  text a := by
    rw [object a, decodeText_toString _ (Value.isFloatFree_of_scalars (scalars a))]
    exact reads a _ _ _ rfl (.refl (distinct a))
  value a := by
    rw [object a, Value.sorted_of_scalars (scalars a)]
    exact reads a _ _ _ rfl (rearranged_sortMembers (distinct a))
  exact := exact

/-- The record is written field by field, and each field is read back. -/
structure Codec (r : Record α) (encode : α → Value) (written : α → α) : Prop where
  object : ∀ a, encode a = .object (encode a).members
  names : ∀ a, (encode a).members.map (·.1) = r.fields.map (·.name)
  distinct : (r.fields.map (·.name)).Nodup
  scalars : ∀ a, ∀ m ∈ (encode a).members, m.2.isScalar = true
  accepts : ∀ a source,
    r.Accepts source (fun key => ((encode a).members.lookup key).map Draft.ofValue) (written a)

theorem Codec.roundTrips {r : Record α} {encode : α → Value} {times : α → List Timestamp}
    {written : α → α} (codec : r.Codec encode written) (name : String)
    (exact : ∀ a, written a = a ↔ ∀ t ∈ times a, t.IsWritten) :
    RoundTrips encode (r.decode name) times written := by
  refine roundTrips_of_rearranged codec.object (fun a => codec.names a ▸ codec.distinct)
    codec.scalars (fun a ms outside source enters rearranged => ?_) exact
  exact decode_rearranged name enters rearranged (codec.names a ▸ List.Subset.refl _)
    (codec.accepts a source)

/-- The same of a record that holds the fields of another one beside its own. -/
structure FlatCodec (outer : Record (β → α)) (inner : Record β) (encode : α → Value)
    (written : α → α) : Prop where
  object : ∀ a, encode a = .object (encode a).members
  names : ∀ a, (encode a).members.map (·.1) = (outer.fields ++ inner.fields).map (·.name)
  distinct : ((outer.fields ++ inner.fields).map (·.name)).Nodup
  scalars : ∀ a, ∀ m ∈ (encode a).members, m.2.isScalar = true
  accepts : ∀ a source, ∃ f b, f b = written a ∧
    outer.Accepts source
      (fun key => ((named outer.fields (encode a).members).lookup key).map Draft.ofValue) f ∧
    inner.Accepts .value
      (fun key => ((unnamed outer.fields (encode a).members).lookup key).map Draft.ofValue) b

theorem FlatCodec.roundTrips {outer : Record (β → α)} {inner : Record β} {encode : α → Value}
    {times : α → List Timestamp} {written : α → α} (codec : FlatCodec outer inner encode written)
    (name : String) (exact : ∀ a, written a = a ↔ ∀ t ∈ times a, t.IsWritten) :
    RoundTrips encode (decodeFlat name outer inner) times written := by
  refine roundTrips_of_rearranged codec.object (fun a => codec.names a ▸ codec.distinct)
    codec.scalars (fun a ms outside source enters rearranged => ?_) exact
  obtain ⟨f, b, whole, first, second⟩ := codec.accepts a source
  rw [← whole]
  refine decodeFlat_ofValue name enters rearranged.distinct ?_ ?_ ?_ ?_
  · intro m mem
    obtain ⟨among, other⟩ := List.mem_filter.mp mem
    have listed : m.1 ∈ (outer.fields ++ inner.fields).map (·.name) :=
      codec.names a ▸ List.mem_map_of_mem (rearranged.subset among)
    rw [List.map_append] at listed
    rcases List.mem_append.mp listed with own | held
    · rw [isNamed_iff.mpr own] at other
      cases other
    · exact isNamed_iff.mpr held
  · exact fun m mem =>
      ⟨m.2, Decoder.value_of_isScalar source (codec.scalars a m (rearranged.subset mem))⟩
  · simp only [named, lookup_filter, rearranged.lookup] at first ⊢
    exact first
  · simp only [unnamed, lookup_filter (!isNamed outer.fields ·), rearranged.lookup] at second ⊢
    exact second

end Record

end Json

open Json Record

/-! The records of the service -/

def Message.times (m : Message) : List Timestamp :=
  [m.requestReceivedAt, m.createdAt, m.updatedAt, m.orderTimestamp] ++
    m.lastAttemptedAt.toList ++ m.sentAt.toList ++ m.receivedAt.toList

def Message.written (m : Message) : Message :=
  { m with
    requestReceivedAt := m.requestReceivedAt.written
    createdAt := m.createdAt.written
    updatedAt := m.updatedAt.written
    orderTimestamp := m.orderTimestamp.written
    lastAttemptedAt := m.lastAttemptedAt.map Timestamp.written
    sentAt := m.sentAt.map Timestamp.written
    receivedAt := m.receivedAt.map Timestamp.written }

theorem Timestamp.map_written_eq_self_iff {o : Option Timestamp} :
    o.map written = o ↔ ∀ t ∈ o, t.IsWritten := by
  cases o <;> simp

theorem Message.written_eq_self_iff {m : Message} :
    m.written = m ↔ ∀ t ∈ m.times, t.IsWritten := by
  cases m
  simp [written, times, Timestamp.map_written_eq_self_iff, or_imp, forall_and]

theorem Message.roundTrips : RoundTrips encode decode times written := by
  refine Codec.roundTrips ⟨fun _ => rfl, fun _ => rfl, by decide, ?_, ?_⟩ _
    fun _ => written_eq_self_iff
  · simp [encode, Value.members, Value.isScalar_ofOption Value.isScalar_ofTimestamp,
      Value.isScalar_ofOption Value.isScalar_ofInt64]
  · -- Here and below the fields are taken from the last one to the first.
    rintro ⟨⟩ source
    refine .seq ?_ (.withDefault rfl (Decoder.uint64Of_ofUInt64 ..))
    refine .seq ?_ (.optional rfl (fun _ => nofun) (Decoder.int64_ofInt64 _))
    refine .seq ?_ (.optionalTime rfl)
    refine .seq ?_ (.optionalTime rfl)
    refine .seq ?_ (.required rfl (Decoder.uint32_ofUInt32 ..))
    refine .seq ?_ (.optionalTime rfl)
    refine .seq ?_ (.required rfl (Decoder.timestamp_ofTimestamp ..))
    refine .seq ?_ (.required rfl (Decoder.timestamp_ofTimestamp ..))
    refine .seq ?_ (.required rfl (Decoder.timestamp_ofTimestamp ..))
    refine .seq ?_ (.required rfl (Decoder.timestamp_ofTimestamp ..))
    refine .seq ?_ (.required rfl (Status.decode_name ..))
    refine .seq ?_ (.required rfl (Direction.decode_name ..))
    refine .seq ?_ (.required rfl (Decoder.string_ofValue ..))
    refine .seq ?_ (.required rfl (Decoder.string_ofValue ..))
    refine .seq ?_ (.required rfl (Decoder.string_ofValue ..))
    exact .map (.required rfl (Decoder.uuid_ofUuid ..)) _

def HandledEvent.times (e : HandledEvent) : List Timestamp := [e.handledAt, e.createdAt]

def HandledEvent.written (e : HandledEvent) : HandledEvent :=
  { e with handledAt := e.handledAt.written, createdAt := e.createdAt.written }

theorem HandledEvent.roundTrips : RoundTrips encode decode times written := by
  refine Codec.roundTrips ⟨fun _ => rfl, fun _ => rfl, by decide, ?_, ?_⟩ _ fun e => by
    cases e
    simp [written, times]
  · simp [encode, Value.members]
  · rintro ⟨⟩ source
    refine .seq ?_ (.required rfl (Decoder.timestamp_ofTimestamp ..))
    refine .seq ?_ (.required rfl (Decoder.timestamp_ofTimestamp ..))
    refine .seq ?_ (.required rfl (Decoder.int64_ofInt64 ..))
    refine .seq ?_ (.required rfl (Decoder.string_ofValue ..))
    refine .seq ?_ (.required rfl (Decoder.string_ofValue ..))
    refine .seq ?_ (.required rfl (Decoder.string_ofValue ..))
    exact .map (.required rfl (Decoder.uuid_ofUuid ..)) _

theorem ServiceConfig.roundTrips : RoundTripsExactly encode decode := by
  refine Codec.roundTrips ⟨fun _ => rfl, fun _ => rfl, by decide, ?_, ?_⟩ _ (by simp)
  · simp [encode, Value.members]
  · rintro ⟨⟩ source
    refine .seq ?_ (.withDefault rfl (Decoder.uint64Of_ofUInt64 ..))
    refine .seq ?_ (.withDefault rfl (Decoder.uint32_ofUInt32 ..))
    refine .seq ?_ (.withDefault rfl (Decoder.uint64Of_ofUInt64 ..))
    refine .seq ?_ (.withDefault rfl (Decoder.uint32_ofUInt32 ..))
    refine .seq ?_ (.withDefault rfl (Decoder.uint64Of_ofUInt64 ..))
    exact .map (.withDefault rfl (Decoder.uint64Of_ofUInt64 ..)) _

theorem Page.accepts {source : Source} {get : String → Option Draft} {skip limit : UInt64}
    {query : Option String} (givenSkip : get "skip" = some (.ofValue (.ofUInt64 skip)))
    (givenLimit : get "limit" = some (.ofValue (.ofUInt64 limit)))
    (givenQuery : get "query" = some (.ofValue (.ofOption .string query))) :
    record.Accepts source get ⟨skip, limit, query⟩ := by
  have reads : ∀ s, Decoder.string source (.ofValue (.string s)) = .ok s :=
    Decoder.string_ofValue source
  refine .seq ?_ (.withDefault givenQuery (Decoder.optional_ofOption _ nofun reads _))
  refine .seq ?_ (.withDefault givenLimit (Decoder.uint64Of_ofUInt64 ..))
  exact .map (.withDefault givenSkip (Decoder.uint64Of_ofUInt64 ..)) _

theorem Page.roundTrips : RoundTripsExactly encode decode := by
  refine Codec.roundTrips ⟨fun _ => rfl, fun _ => rfl, by decide, ?_, ?_⟩ _ (by simp)
  · simp [encode, members, Value.members, Value.isScalar_ofOption Value.isScalar_string]
  · exact fun _ _ => accepts rfl rfl rfl

def NewMessage.times (p : NewMessage) : List Timestamp := [p.timestamp]

def NewMessage.written (p : NewMessage) : NewMessage := { p with timestamp := p.timestamp.written }

theorem NewMessage.roundTrips : RoundTrips encode decode times written := by
  refine Codec.roundTrips ⟨fun _ => rfl, fun _ => rfl, by decide, ?_, ?_⟩ _ fun p => by
    cases p
    simp [written, times]
  · simp [encode, Value.members]
  · rintro ⟨⟩ source
    refine .seq ?_ (.required rfl (Decoder.timestamp_ofTimestamp ..))
    refine .seq ?_ (.required rfl (Decoder.string_ofValue ..))
    refine .seq ?_ (.required rfl (Decoder.string_ofValue ..))
    refine .seq ?_ (.required rfl (Decoder.string_ofValue ..))
    exact .map (.required rfl (Decoder.uuid_ofUuid ..)) _

def Progress.times (p : Progress) : List Timestamp := [p.timestamp]

def Progress.written (p : Progress) : Progress := { p with timestamp := p.timestamp.written }

theorem Progress.roundTrips : RoundTrips encode decode times written := by
  refine Codec.roundTrips ⟨fun _ => rfl, fun _ => rfl, by decide, ?_, ?_⟩ _ fun p => by
    cases p
    simp [written, times]
  · simp [encode, Value.members]
  · rintro ⟨⟩ source
    refine .seq ?_ (.required rfl (Decoder.timestamp_ofTimestamp ..))
    exact .map (.required rfl (Decoder.uuid_ofUuid ..)) _

def SendRequest.times (p : SendRequest) : List Timestamp := [p.requestReceivedAt]

def SendRequest.written (p : SendRequest) : SendRequest :=
  { p with requestReceivedAt := p.requestReceivedAt.written }

theorem SendRequest.roundTrips : RoundTrips encode decode times written := by
  refine Codec.roundTrips ⟨fun _ => rfl, fun _ => rfl, by decide, ?_, ?_⟩ _ fun p => by
    cases p
    simp [written, times]
  · simp [encode, Value.members]
  · rintro ⟨⟩ source
    refine .seq ?_ (.required rfl (Decoder.timestamp_ofTimestamp ..))
    refine .seq ?_ (.required rfl (Decoder.string_ofValue ..))
    refine .seq ?_ (.required rfl (Decoder.string_ofValue ..))
    refine .seq ?_ (.required rfl (Decoder.string_ofValue ..))
    exact .map (.required rfl (Decoder.string_ofValue ..)) _

def Receipt.times (p : Receipt) : List Timestamp := [p.timestamp]

def Receipt.written (p : Receipt) : Receipt := { p with timestamp := p.timestamp.written }

theorem Receipt.roundTrips : RoundTrips encode decode times written := by
  refine Codec.roundTrips ⟨fun _ => rfl, fun _ => rfl, by decide, ?_, ?_⟩ _ fun p => by
    cases p
    simp [written, times]
  · simp [encode, Value.members]
  · rintro ⟨⟩ source
    refine .seq ?_ (.required rfl (Decoder.timestamp_ofTimestamp ..))
    refine .seq ?_ (.required rfl (Decoder.string_ofValue ..))
    refine .seq ?_ (.required rfl (Decoder.string_ofValue ..))
    refine .seq ?_ (.required rfl (Decoder.string_ofValue ..))
    exact .map (.required rfl (Decoder.string_ofValue ..)) _

theorem Poll.roundTrips : RoundTripsExactly encode decode := by
  refine Codec.roundTrips ⟨fun _ => rfl, fun _ => rfl, by decide, ?_, ?_⟩ _ (by simp)
  · simp [encode, Value.members, Value.isScalar_ofOption Value.isScalar_ofUInt64]
  · rintro ⟨⟩ source
    have reads : ∀ n, Decoder.size source (.ofValue (.ofUInt64 n)) = .ok n :=
      Decoder.uint64Of_ofUInt64 source "usize"
    have present : ∀ n, Value.ofUInt64 n ≠ .null := fun _ => nofun
    refine .seq ?_ (.withDefault rfl (Decoder.optional_ofOption _ present reads _))
    exact .map (.required rfl (Decoder.string_ofValue ..)) _

def PhoneReport.times (p : PhoneReport) : List Timestamp := [p.timestamp]

def PhoneReport.written (p : PhoneReport) : PhoneReport :=
  { p with timestamp := p.timestamp.written }

theorem PhoneReport.roundTrips : RoundTrips encode decode times written := by
  refine Codec.roundTrips ⟨fun _ => rfl, fun _ => rfl, by decide, ?_, ?_⟩ _ fun p => by
    cases p
    simp [written, times]
  · simp [encode, Value.members]
  · rintro ⟨⟩ source
    refine .seq ?_ (.required rfl (Decoder.string_ofValue ..))
    refine .seq ?_ (.required rfl (Decoder.timestamp_ofTimestamp ..))
    refine .seq ?_ (.required rfl (Report.decode_name ..))
    exact .map (.required rfl (Decoder.uuid_ofUuid ..)) _

theorem ThreadQuery.roundTrips : RoundTripsExactly encode decode := by
  refine FlatCodec.roundTrips ⟨fun _ => rfl, fun _ => rfl, by decide, ?_, ?_⟩ _ (by simp)
  · simp [encode, Page.members, Value.members, Value.isScalar_ofOption Value.isScalar_string]
  · rintro ⟨owner, contact, page⟩ source
    refine ⟨ThreadQuery.mk owner contact, page, rfl, ?_, Page.accepts rfl rfl rfl⟩
    refine .seq ?_ (.required rfl (Decoder.string_ofValue ..))
    exact .map (.required rfl (Decoder.string_ofValue ..)) _

/-- A leap second within a minute comes back as the second after it, and nothing else is changed. -/
theorem codecs_roundTrip :
    RoundTrips Message.encode Message.decode Message.times Message.written ∧
      RoundTrips HandledEvent.encode HandledEvent.decode HandledEvent.times HandledEvent.written ∧
      RoundTripsExactly ServiceConfig.encode ServiceConfig.decode ∧
      RoundTripsExactly Page.encode Page.decode ∧
      RoundTrips NewMessage.encode NewMessage.decode NewMessage.times NewMessage.written ∧
      RoundTrips Progress.encode Progress.decode Progress.times Progress.written ∧
      RoundTrips SendRequest.encode SendRequest.decode SendRequest.times SendRequest.written ∧
      RoundTrips Receipt.encode Receipt.decode Receipt.times Receipt.written ∧
      RoundTripsExactly Poll.encode Poll.decode ∧
      RoundTripsExactly ThreadQuery.encode ThreadQuery.decode ∧
      RoundTrips PhoneReport.encode PhoneReport.decode PhoneReport.times PhoneReport.written :=
  ⟨Message.roundTrips, HandledEvent.roundTrips, ServiceConfig.roundTrips, Page.roundTrips,
    NewMessage.roundTrips, Progress.roundTrips, SendRequest.roundTrips, Receipt.roundTrips,
    Poll.roundTrips, ThreadQuery.roundTrips, PhoneReport.roundTrips⟩

/-- Neither way back gives the leap second four seconds past the minute. -/
theorem codec_shifts :
    let p : Progress := ⟨default, { day := 19844, second := 86164, nano := 1333333333 }⟩
    decodeText Progress.decode (toString p.encode) ≠ .ok p ∧
      decodeValue Progress.decode p.encode.sorted ≠ .ok p := by
  intro p
  have late : ¬ p.timestamp.IsWritten := by decide
  have changed : p.written ≠ p := fun same =>
    late ((Progress.roundTrips.exact p).mp same _ List.mem_cons_self)
  rw [Progress.roundTrips.text, Progress.roundTrips.value]
  exact ⟨fun same => changed (Except.ok.inj same), fun same => changed (Except.ok.inj same)⟩

end SmsTracking
