import Mathlib.Data.List.Nodup
import SmsTracking.Proofs.Wire.Envelopes
import SmsTracking.Proofs.Wire.Kinds
import SmsTracking.Proofs.Wire.Objects

/-!
A text and the value that it stands for. The text keeps its members in the order in which they are
written and has a limit on its nesting, the value has them sorted. A decoder is consistent if
neither matters to what it reads, as long as no object repeats a key; the decoders of single fields
are, and so is a record of consistent fields. Main statement: messages, payloads and events are read
from a text exactly as from its value (`sources_agree`).
-/

namespace SmsTracking.Json

variable {α β : Type}

namespace Draft

/-! Drafts without repeated keys -/

mutual

/-- No object repeats a key. -/
def isDistinct : Draft → Bool
  | .array items _ => distinctItems items
  | .object members _ => decide ((members.map (·.1)).Nodup) && distinctMembers members
  | _ => true

def distinctItems : List Draft → Bool
  | [] => true
  | d :: ds => isDistinct d && distinctItems ds

def distinctMembers : List (Option String × Draft) → Bool
  | [] => true
  | (_, d) :: ds => isDistinct d && distinctMembers ds

end

theorem isDistinct_array {items : List Value} :
    (ofValue (.array items)).isDistinct = true ↔ ∀ v ∈ items, (ofValue v).isDistinct = true := by
  rw [ofValue, isDistinct]
  induction items with
  | nil => simp [ofItems, distinctItems]
  | cons v items ih => rw [ofItems, distinctItems, Bool.and_eq_true, ih, List.forall_mem_cons]

theorem map_fst_ofMembers (members : List (String × Value)) :
    (ofMembers members).map (·.1) = (members.map (·.1)).map some := by
  induction members with
  | nil => rfl
  | cons m members ih => exact congrArg (some m.1 :: ·) ih

theorem isDistinct_object {members : List (String × Value)} :
    (ofValue (.object members)).isDistinct = true ↔
      (members.map (·.1)).Nodup ∧ ∀ m ∈ members, (ofValue m.2).isDistinct = true := by
  have inside : distinctMembers (ofMembers members) = true ↔
      ∀ m ∈ members, (ofValue m.2).isDistinct = true := by
    induction members with
    | nil => simp [ofMembers, distinctMembers]
    | cons m members ih =>
        rw [ofMembers, distinctMembers, Bool.and_eq_true, ih, List.forall_mem_cons]
  rw [ofValue, isDistinct, Bool.and_eq_true, decide_eq_true_iff, map_fst_ofMembers,
    List.nodup_map_iff fun _ _ => Option.some.inj, inside]

/-! The tree of a draft that is read -/

theorem exists_ofItems {limit : Nat} {ds : List Draft} {vs : List Value}
    (read : valueItems limit ds = .ok vs)
    (each : ∀ d ∈ ds, ∀ v, d.value limit = .ok v → ∃ w, d = ofValue w) :
    ∃ ws, ds = ofItems ws := by
  induction ds generalizing vs with
  | nil => exact ⟨[], rfl⟩
  | cons d ds ih =>
      obtain ⟨v, first, read⟩ := ok_of_bind read
      obtain ⟨_, rest, _⟩ := ok_of_bind read
      obtain ⟨each, later⟩ := List.forall_mem_cons.mp each
      obtain ⟨w, rfl⟩ := each v first
      obtain ⟨ws, rfl⟩ := ih rest later
      exact ⟨w :: ws, rfl⟩

theorem exists_ofMembers {limit : Nat} {ds : List (Option String × Draft)}
    {ms : List (String × Value)} (read : valueMembers limit ds = .ok ms)
    (each : ∀ d ∈ ds, ∀ v, d.2.value limit = .ok v → ∃ w, d.2 = ofValue w) :
    ∃ ws, ds = ofMembers ws := by
  induction ds generalizing ms with
  | nil => exact ⟨[], rfl⟩
  | cons d ds ih =>
      obtain ⟨key, d⟩ := d
      cases key with
      | none => cases read
      | some key =>
          obtain ⟨v, first, read⟩ := ok_of_bind read
          obtain ⟨_, rest, _⟩ := ok_of_bind read
          obtain ⟨each, later⟩ := List.forall_mem_cons.mp each
          obtain ⟨w, rfl⟩ := each v first
          obtain ⟨ws, rfl⟩ := ih rest later
          exact ⟨(key, w) :: ws, rfl⟩

/-- A draft that is read strictly is the draft of a value. -/
theorem exists_ofValue {d : Draft} {limit : Nat} {v : Value} (read : d.value limit = .ok v) :
    ∃ w, d = ofValue w := by
  induction d using Draft.induct generalizing limit v with
  | null => exact ⟨.null, rfl⟩
  | bool b => exact ⟨.bool b, rfl⟩
  | number n =>
      cases n with
      | none => cases read
      | some n => exact ⟨.number n, rfl⟩
  | string s =>
      cases s with
      | none => cases read
      | some s => exact ⟨.string s, rfl⟩
  | absent _ | cutString _ _ | cutScalar _ _ => cases read
  | array items stop ih =>
      cases limit with
      | zero => cases read
      | succ limit =>
          obtain ⟨vs, inside, ends⟩ := ok_of_bind read
          cases stop with
          | some _ => cases ends
          | none =>
              obtain ⟨ws, rfl⟩ := exists_ofItems inside fun d mem _ => ih d mem
              exact ⟨.array ws, rfl⟩
  | object members finish ih =>
      cases limit with
      | zero => cases read
      | succ limit =>
          obtain ⟨ms, inside, ends⟩ := ok_of_bind read
          cases finish with
          | «open» _ => cases ends
          | noKey _ _ _ => cases ends
          | closed =>
              obtain ⟨ws, rfl⟩ := exists_ofMembers inside fun d mem _ => ih d mem
              exact ⟨.object ws, rfl⟩

theorem value_eq_ok_iff {d : Draft} {limit : Nat} {v : Value} :
    d.value limit = .ok v ↔ ∃ w, d = ofValue w ∧ w.depth ≤ limit ∧ v = w.sorted := by
  constructor
  · intro read
    obtain ⟨w, rfl⟩ := exists_ofValue read
    rw [value_ofValue] at read
    split at read
    · rename_i shallow
      exact ⟨w, rfl, shallow, (Except.ok.inj read).symm⟩
    · cases read
  · rintro ⟨w, rfl, shallow, rfl⟩
    rw [value_ofValue, if_pos shallow]

theorem depth_ofValue (v : Value) : (ofValue v).depth = v.depth := by
  induction v using Value.induct with
  | null | bool _ | number _ | string _ => rfl
  | array items ih =>
      rw [ofValue, depth, Value.depth]
      congr 1
      induction items with
      | nil => rfl
      | cons v items rest =>
          obtain ⟨first, later⟩ := List.forall_mem_cons.mp ih
          rw [ofItems, depthItems, Value.depthItems, first, rest later]
  | object members ih =>
      rw [ofValue, depth, Value.depth]
      congr 1
      induction members with
      | nil => rfl
      | cons m members rest =>
          obtain ⟨first, later⟩ := List.forall_mem_cons.mp ih
          rw [ofMembers, depthMembers, Value.depthMembers, first, rest later]

end Draft

/-! Single fields -/

namespace Decoder

/-- A value within the limit is read alike out of a text and on its own, where it is sorted. -/
def Consistent (decode : Decoder α) : Prop :=
  ∀ limit v a, (Draft.ofValue v).isDistinct = true → v.depth ≤ limit →
    (decode (.text limit) (.ofValue v) = .ok a ↔ decode .value (.ofValue v.sorted) = .ok a)

theorem stringOf_consistent (expected : String) : (stringOf expected).Consistent := by
  intro limit v a _ _
  cases v with
  | null | bool _ | number _ | string _ => exact Iff.rfl
  | array _ | object _ => exact iff_of_false mismatch_ne_ok mismatch_ne_ok

theorem whole_consistent (low high : Int) (expected : String) :
    (whole low high expected).Consistent := by
  intro limit v a _ _
  cases v with
  | null | bool _ | number _ | string _ => exact Iff.rfl
  | array _ | object _ => exact iff_of_false mismatch_ne_ok mismatch_ne_ok

theorem Consistent.bind {decode : Decoder α} (consistent : decode.Consistent)
    (f : α → Except Error β) : Decoder.Consistent fun source d => decode source d >>= f := by
  intro limit v b distinct shallow
  simp only [ok_bind_iff, consistent limit v _ distinct shallow]

theorem uint64Of_consistent (expected : String) : (uint64Of expected).Consistent :=
  (whole_consistent _ _ _).bind _

theorem uint32_consistent : uint32.Consistent := (whole_consistent _ _ _).bind _

theorem int64_consistent : int64.Consistent := (whole_consistent _ _ _).bind _

theorem uuid_consistent : uuid.Consistent := (stringOf_consistent _).bind _

theorem timestamp_consistent : timestamp.Consistent := (stringOf_consistent _).bind _

theorem Consistent.optional {decode : Decoder α} (consistent : decode.Consistent) :
    decode.optional.Consistent := by
  intro limit v o distinct shallow
  have present := consistent.bind (fun a => pure (some a)) limit v o distinct shallow
  cases v with
  | null => exact Iff.rfl
  | _ => exact present

theorem value_consistent : value.Consistent := by
  intro limit v a _ shallow
  have sorted : v.sorted.isSorted = true :=
    (Draft.tree_of_value (Draft.value_eq_ok_iff.mpr ⟨v, rfl, shallow, rfl⟩)).1
  have inText : value (.text limit) (.ofValue v) = .ok v.sorted := by
    rw [value, Draft.value_ofValue, if_pos shallow]
    rfl
  have alone : value .value (.ofValue v.sorted) = .ok v.sorted := by
    rw [value, Draft.value_ofValue, if_pos (Draft.depth_ofValue _).ge,
      Value.sorted_of_isSorted sorted]
    rfl
  rw [inText, alone]

theorem unit_eq_ok_iff {source : Source} {v : Value} {u : Unit} :
    unit source (.ofValue v) = .ok u ↔ v = .null := by
  cases v with
  | null => exact iff_of_true rfl rfl
  | _ => exact iff_of_false mismatch_ne_ok nofun

theorem sorted_eq_null_iff {v : Value} : v.sorted = .null ↔ v = .null := by
  cases v with
  | null => exact Iff.rfl
  | _ => exact iff_of_false nofun nofun

section Object

variable {names : List (String × α)} {outside source : Source}
  (enters : outside.enter = .ok source)

include enters

theorem oneOf_single (key : String) (v : Value) :
    oneOf names outside (.ofValue (.object [(key, v)])) =
      pick names key >>= fun a => unit outside (.ofValue v) >>= fun _ => pure a := by
  cases outside with
  | value => rfl
  | text limit =>
      cases limit with
      | zero => cases enters
      | succ limit => rfl

/-- Of the objects only those with one member, which is `null`, stand for a name. -/
theorem oneOf_object_eq_ok_iff {ms : List (String × Value)} {a : α} :
    oneOf names outside (.ofValue (.object ms)) = .ok a ↔
      ∃ key, ms = [(key, .null)] ∧ pick names key = .ok a := by
  constructor
  · intro read
    cases ms with
    | nil =>
        cases outside with
        | value => cases read
        | text limit =>
            cases limit with
            | zero => cases enters
            | succ limit => cases read
    | cons m ms =>
        cases ms with
        | nil =>
            rw [oneOf_single enters] at read
            obtain ⟨_, picked, read⟩ := ok_of_bind read
            obtain ⟨_, empty, read⟩ := ok_of_bind read
            cases read
            exact ⟨m.1, congrArg (fun v => [(m.1, v)]) (unit_eq_ok_iff.mp empty), picked⟩
        | cons n ms =>
            cases outside with
            | value => cases read
            | text limit =>
                cases limit with
                | zero => cases enters
                | succ limit =>
                    obtain ⟨_, _, read⟩ := ok_of_bind read
                    obtain ⟨_, _, read⟩ := ok_of_bind read
                    cases read
  · rintro ⟨key, rfl, picked⟩
    rw [oneOf_single enters]
    exact ok_bind_iff.mpr ⟨a, picked, rfl⟩

end Object

theorem oneOf_consistent (names : List (String × α)) : (oneOf names).Consistent := by
  intro limit v a distinct shallow
  cases v with
  | string s => exact Iff.rfl
  | null | bool _ | number _ | array _ => exact iff_of_false nofun mismatch_ne_ok
  | object ms =>
      cases limit with
      | zero => cases shallow
      | succ limit =>
          obtain ⟨keys, _⟩ := Draft.isDistinct_object.mp distinct
          have perm := Value.sortMembers_perm (Value.map_fst_sortedMembers ms ▸ keys)
          rw [Value.sortedMembers_eq_map] at perm
          rw [Value.sorted, Value.sortedMembers_eq_map, oneOf_object_eq_ok_iff rfl,
            oneOf_object_eq_ok_iff rfl]
          refine exists_congr fun key => and_congr_left fun _ => ?_
          constructor
          · rintro rfl
            exact List.perm_singleton.mp perm
          · intro single
            rw [single] at perm
            obtain ⟨m, rfl, same⟩ := List.map_eq_singleton_iff.mp (List.perm_singleton.mp perm.symm)
            rw [← (Prod.mk.inj same).1, ← sorted_eq_null_iff.mp (Prod.mk.inj same).2]

end Decoder

/-! Records -/

namespace Record

/-- What is given in a text, and the same given on its own. -/
structure Alike (limit : Nat) (g h : Given) : Prop where
  text : g.source = .text limit
  value : h.source = .value
  position : g.byPosition = h.byPosition
  get : ∀ name, (g.get name = none ∧ h.get name = none) ∨
    ∃ v : Value, (Draft.ofValue v).isDistinct = true ∧ v.depth ≤ limit ∧
      g.get name = some (.ofValue v) ∧ h.get name = some (.ofValue v.sorted)

structure Consistent (r : Record α) : Prop where
  checks : ∀ field ∈ r.fields, Decoder.Consistent field.check
  builds : ∀ limit g h, Alike limit g h → ∀ a, r.build g = .ok a ↔ r.build h = .ok a

section Field

variable {name : String} {decode : Decoder α} (consistent : decode.Consistent)

include consistent

/-- It has to mean the same in both places that the field is absent. -/
theorem Consistent.field {absent : Given → Except Error α}
    (same : ∀ limit g h, Alike limit g h → ∀ a, absent g = .ok a ↔ absent h = .ok a) :
    (field name decode absent).Consistent where
  checks := by
    intro field mem
    rw [List.mem_singleton.mp mem]
    exact consistent.bind fun _ => pure ()
  builds := by
    intro limit g h alike a
    rcases alike.get name with ⟨missing, missing'⟩ | ⟨v, distinct, shallow, given, given'⟩
    · simp only [Record.field, missing, missing']
      exact same limit g h alike a
    · simp only [Record.field, given, given', alike.text, alike.value]
      exact consistent limit v a distinct shallow

theorem Consistent.required : (required name decode).Consistent :=
  .field consistent fun _ _ _ _ _ => iff_of_false nofun nofun

theorem Consistent.optional : (optional name decode).Consistent := by
  refine .field consistent.optional fun limit g h alike o => ?_
  rw [alike.position]
  split
  · exact iff_of_false nofun nofun
  · exact Iff.rfl

theorem Consistent.withDefault (a : α) : (withDefault name decode a).Consistent :=
  .field consistent fun _ _ _ _ _ => Iff.rfl

end Field

theorem Consistent.map {r : Record α} (consistent : r.Consistent) (f : α → β) :
    (f <$> r).Consistent where
  checks field mem := consistent.checks field mem
  builds limit g h alike b := by
    simp only [build_map_iff, consistent.builds limit g h alike]

theorem Consistent.seq {r : Record (α → β)} {s : Record α} (first : r.Consistent)
    (second : s.Consistent) : (r <*> s).Consistent where
  checks := by
    intro field mem
    rcases List.mem_append.mp mem with mem | mem
    · exact first.checks field mem
    · exact second.checks field mem
  builds limit g h alike b := by
    simp only [build_seq_iff, first.builds limit g h alike, second.builds limit g h alike]

/-! Objects and arrays -/

theorem lookup_sortedMembers (members : List (String × Value)) (key : String) :
    (Value.sortedMembers members).lookup key = (members.lookup key).map Value.sorted := by
  rw [Value.sortedMembers_eq_map, Entries.lookup_map]

theorem checked_sorted_iff {fields : List Field} {source : Source} {members : List (String × Value)}
    (distinct : (members.map (·.1)).Nodup) :
    Checked fields source (Value.sortMembers (Value.sortedMembers members)) ↔
      ∀ m ∈ members, ∀ field, fields.find? (·.name = m.1) = some field →
        field.check source (.ofValue m.2.sorted) = .ok () := by
  have perm := Value.sortMembers_perm (Value.map_fst_sortedMembers members ▸ distinct)
  rw [Value.sortedMembers_eq_map] at perm ⊢
  constructor
  · intro all m mem
    exact all (m.1, m.2.sorted) (perm.mem_iff.mpr (List.mem_map_of_mem mem))
  · intro each m mem
    obtain ⟨n, among, rfl⟩ := List.mem_map.mp (perm.mem_iff.mp mem)
    exact each n among

/-- Members and the same members sorted, each read where it stands. -/
theorem alike_of_lookup {limit : Nat} {ms ns : List (String × Value)}
    (distinct : ∀ m ∈ ms, (Draft.ofValue m.2).isDistinct = true)
    (shallow : ∀ m ∈ ms, m.2.depth ≤ limit)
    (sorted : ∀ key, ns.lookup key = (ms.lookup key).map Value.sorted)
    (absent absent' : String → Error) (byPosition : Bool) :
    Alike limit ⟨.text limit, fun key => (ms.lookup key).map Draft.ofValue, absent, byPosition⟩
      ⟨.value, fun key => (ns.lookup key).map Draft.ofValue, absent', byPosition⟩ where
  text := rfl
  value := rfl
  position := rfl
  get key := by
    simp only [sorted]
    cases found : ms.lookup key with
    | none => exact .inl ⟨rfl, rfl⟩
    | some v =>
        obtain ⟨before, after, split, _⟩ := List.lookup_eq_some_iff.mp found
        have mem : (key, v) ∈ ms := split ▸ List.mem_append_right _ List.mem_cons_self
        exact .inr ⟨v, distinct _ mem, shallow _ mem, rfl, rfl⟩

theorem positioned_map_sorted (fields : List Field) (items : List Value) :
    positioned fields (items.map Value.sorted) = Value.sortedMembers (positioned fields items) := by
  rw [positioned, positioned, Value.sortedMembers_eq_map, List.zip_map_right, List.map_map,
    List.map_map]
  rfl

theorem mem_items_of_mem_positioned {fields : List Field} {items : List Value} {m : String × Value}
    (mem : m ∈ positioned fields items) : m.2 ∈ items := by
  obtain ⟨p, zipped, rfl⟩ := List.mem_map.mp mem
  exact (List.of_mem_zip zipped).2

/-- A record of consistent fields is consistent, as an object and as an array. -/
theorem Consistent.decode {r : Record α} (consistent : r.Consistent) (name : String) :
    (r.decode name).Consistent := by
  intro limit v a distinct shallow
  cases v with
  | null | bool _ | number _ | string _ => exact iff_of_false mismatch_ne_ok mismatch_ne_ok
  | array items =>
      cases limit with
      | zero => cases shallow
      | succ limit =>
          have parts := Draft.isDistinct_array.mp distinct
          have depths := Value.depthItems_le_iff.mp (Nat.le_of_succ_le_succ shallow)
          rw [Value.sorted, Value.sortedItems_eq_map, decode_array_iff r name rfl,
            decode_array_iff r name rfl, List.length_map, List.zip_map_right, List.forall_mem_map,
            positioned_map_sorted]
          refine and_congr (forall₂_congr fun p zipped => ?_) (and_congr_right fun _ => ?_)
          · obtain ⟨field, item⟩ := List.of_mem_zip zipped
            exact consistent.checks p.1 field limit p.2 () (parts _ item) (depths _ item)
          · refine consistent.builds limit _ _ (alike_of_lookup ?_ ?_ (lookup_sortedMembers _) ..) a
            · exact fun m mem => parts _ (mem_items_of_mem_positioned mem)
            · exact fun m mem => depths _ (mem_items_of_mem_positioned mem)
  | object members =>
      cases limit with
      | zero => cases shallow
      | succ limit =>
          obtain ⟨keys, parts⟩ := Draft.isDistinct_object.mp distinct
          have depths := Value.depthMembers_le_iff.mp (Nat.le_of_succ_le_succ shallow)
          have sortedKeys : ((Value.sortedMembers members).map (·.1)).Nodup :=
            Value.map_fst_sortedMembers members ▸ keys
          have sorted := rearranged_sortMembers sortedKeys
          rw [Value.sorted, decode_object_iff keys r name rfl,
            decode_object_iff sorted.distinct r name rfl]
          refine and_congr ?_ (consistent.builds limit _ _ (alike_of_lookup ?_ ?_ ?_ ..) a)
          · rw [checked_sorted_iff keys]
            refine forall₂_congr fun m mem => forall₂_congr fun field found => ?_
            exact consistent.checks field (List.mem_of_find?_eq_some found) limit m.2 ()
              (parts m mem) (depths m mem)
          · exact fun m mem => parts m (List.mem_filter.mp mem).1
          · exact fun m mem => depths m (List.mem_filter.mp mem).1
          · intro key
            rw [named, named, lookup_filter, lookup_filter, sorted.lookup, lookup_sortedMembers]
            split <;> rfl

end Record

/-! Texts -/

/-- The text and the value are read alike. -/
def Agree (decode : Decoder α) (xs : List Text.Symbol) (v : Value) : Prop :=
  ∀ a, decodeSymbols decode xs = .ok a ↔ decodeValue decode v = .ok a

theorem Decoder.Consistent.agree {decode : Decoder α} (consistent : decode.Consistent)
    {xs : List Text.Symbol} {v : Value} (parsed : decodeSymbols Decoder.value xs = .ok v)
    (distinct : (Draft.ofSymbols xs).1.isDistinct = true) : Agree decode xs v := by
  intro a
  obtain ⟨d, drawn, read⟩ := decode_of_decodeSymbols parsed
  obtain ⟨w, rfl, shallow, rfl⟩ := Draft.value_eq_ok_iff.mp (ok_of_lift read)
  rw [drawn] at distinct
  rw [decodeSymbols_of_drawn drawn]
  exact consistent maxDepth w a distinct shallow

end SmsTracking.Json

namespace SmsTracking

open Json Record

theorem Message.decode_consistent : decode.Consistent := by
  refine Consistent.decode ?_ _
  refine .seq ?_ (.withDefault (Decoder.uint64Of_consistent _) _)
  refine .seq ?_ (.optional Decoder.int64_consistent)
  refine .seq ?_ (.optional Decoder.timestamp_consistent)
  refine .seq ?_ (.optional Decoder.timestamp_consistent)
  refine .seq ?_ (.required Decoder.uint32_consistent)
  refine .seq ?_ (.optional Decoder.timestamp_consistent)
  refine .seq ?_ (.required Decoder.timestamp_consistent)
  refine .seq ?_ (.required Decoder.timestamp_consistent)
  refine .seq ?_ (.required Decoder.timestamp_consistent)
  refine .seq ?_ (.required Decoder.timestamp_consistent)
  refine .seq ?_ (.required (Decoder.oneOf_consistent _))
  refine .seq ?_ (.required (Decoder.oneOf_consistent _))
  refine .seq ?_ (.required (Decoder.stringOf_consistent _))
  refine .seq ?_ (.required (Decoder.stringOf_consistent _))
  refine .seq ?_ (.required (Decoder.stringOf_consistent _))
  exact .map (.required Decoder.uuid_consistent) _

theorem Sms.record_consistent : record.Consistent := by
  refine .seq ?_ (.required (Decoder.stringOf_consistent _))
  refine .seq ?_ (.required (Decoder.stringOf_consistent _))
  refine .seq ?_ (.required (Decoder.stringOf_consistent _))
  exact .map (.required Decoder.uuid_consistent) _

theorem Payload.decode_consistent (k : EventKind) : (decode k).Consistent := by
  have timed (make : Sms → Timestamp → Payload) (name : String) :
      (make <$> Sms.record <*> required name Decoder.timestamp).Consistent :=
    .seq (.map Sms.record_consistent make) (.required Decoder.timestamp_consistent)
  cases k with
  | apiSent => exact (timed apiSent "requestReceivedAt").decode _
  | phoneSending => exact (Sms.record_consistent.map phoneSending).decode _
  | phoneSent => exact (timed phoneSent "timestamp").decode _
  | phoneReceived => exact (timed phoneReceived "timestamp").decode _

theorem Envelope.decode_consistent : decode.Consistent := by
  refine Consistent.decode ?_ _
  refine .seq ?_ (.required Decoder.value_consistent)
  refine .seq ?_ (.required (Decoder.stringOf_consistent _))
  refine .seq ?_ (.required Decoder.timestamp_consistent)
  refine .seq ?_ (.required (Decoder.stringOf_consistent _))
  refine .seq ?_ (.required (Decoder.stringOf_consistent _))
  exact .map (.required (Decoder.stringOf_consistent _)) _

theorem Envelope.payloadAs_eq_ok_iff {e : Envelope} {k : EventKind} {p : Payload} :
    e.payloadAs k = .ok p ↔ e.type = k.name ∧ e.contentType = jsonContent ∧
      decodeValue (Payload.decode k) e.data = .ok p := by
  constructor
  · intro read
    obtain ⟨type, content⟩ := named_of_payloadAs read
    refine ⟨type, content, ?_⟩
    rw [payloadAs, if_neg (not_not_intro type), if_neg (not_not_intro content)] at read
    split at read
    · rename_i decoded
      rw [decoded, Except.ok.inj read]
    · cases read
  · rintro ⟨type, content, decoded⟩
    rw [payloadAs, if_neg (not_not_intro type), if_neg (not_not_intro content), decoded]

/-- The last part is about an event with the value as its data. -/
theorem sources_agree {xs : List Text.Symbol} {v : Value}
    (parsed : decodeSymbols Decoder.value xs = .ok v)
    (distinct : (Draft.ofSymbols xs).1.isDistinct = true) :
    Agree Message.decode xs v ∧ (∀ k, Agree (Payload.decode k) xs v) ∧ Agree Envelope.decode xs v ∧
      ∀ (e : Envelope) k p, e.data = v → (e.payloadAs k = .ok p ↔
        e.type = k.name ∧ e.contentType = Envelope.jsonContent ∧
          decodeSymbols (Payload.decode k) xs = .ok p) := by
  have payload (k : EventKind) := (Payload.decode_consistent k).agree parsed distinct
  refine ⟨Message.decode_consistent.agree parsed distinct, payload,
    Envelope.decode_consistent.agree parsed distinct, ?_⟩
  rintro e k p rfl
  rw [Envelope.payloadAs_eq_ok_iff, payload k p]

/-- The members are out of order, a key has an escape, and one member is not named by a field. -/
theorem sources_agree_unsorted :
    let text : String := "\x7b \"owner\":\"+1\", \"zone\":[\x7b\"b\":1, \"a\":null\x7d], " ++
      "\"\\u0069d\":\"00000000-0000-0000-0000-000000000000\", " ++
      "\"content\":\"\", \"contact\":\"+2\" \x7d"
    let p : Payload := .phoneSending ⟨⟨0⟩, "+1", "+2", ""⟩
    (Draft.ofSymbols (text.toList.map some)).1.isDistinct = true ∧
      ∃ v, decodeSymbols Decoder.value (text.toList.map some) = .ok v ∧
        decodeSymbols (Payload.decode .phoneSending) (text.toList.map some) = .ok p ∧
        decodeValue (Payload.decode .phoneSending) v = .ok p := by
  intro text p
  have distinct : (Draft.ofSymbols (text.toList.map some)).1.isDistinct = true := by decide +kernel
  have parses : (decodeSymbols Decoder.value (text.toList.map some)).isOk = true := by
    decide +kernel
  have direct : decodeSymbols (Payload.decode .phoneSending) (text.toList.map some) = .ok p := by
    decide +kernel
  cases parsed : decodeSymbols Decoder.value (text.toList.map some) with
  | error e =>
      rw [parsed] at parses
      cases parses
  | ok v =>
      obtain ⟨_, payload, _⟩ := sources_agree parsed distinct
      exact ⟨distinct, v, rfl, direct, (payload .phoneSending p).mp direct⟩

end SmsTracking
