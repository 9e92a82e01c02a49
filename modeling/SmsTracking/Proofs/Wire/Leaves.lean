import SmsTracking.Message.Codec
import SmsTracking.Proofs.Wire.Records
import SmsTracking.Proofs.Wire.Timestamp
import SmsTracking.Proofs.Wire.Trees
import SmsTracking.Proofs.Wire.Uuid

/-!
What stands under a key is a scalar, and the reader of that field reads it back: identifiers, times
as they are written, whole numbers of each width up to their ends, names out of a list, and values
that may be missing.
-/

namespace SmsTracking

namespace Json

/-! Scalars -/

namespace Value

@[simp] theorem isScalar_string (s : String) : (Value.string s).isScalar = true := rfl

@[simp] theorem isScalar_ofUuid (id : Uuid) : (Value.ofUuid id).isScalar = true := rfl

@[simp] theorem isScalar_ofTimestamp (t : Timestamp) : (Value.ofTimestamp t).isScalar = true := rfl

@[simp] theorem isScalar_ofUInt64 (n : UInt64) : (ofUInt64 n).isScalar = true := rfl

@[simp] theorem isScalar_ofUInt32 (n : UInt32) : (ofUInt32 n).isScalar = true := rfl

@[simp] theorem isScalar_ofInt64 (n : Int64) : (ofInt64 n).isScalar = true := rfl

theorem isScalar_ofOption {α : Type} {encode : α → Value}
    (each : ∀ a, (encode a).isScalar = true) (o : Option α) :
    (ofOption encode o).isScalar = true := by
  cases o with
  | none => rfl
  | some a => exact each a

end Value

/-! Readers -/

namespace Decoder

variable (source : Source)

theorem string_ofValue (s : String) : string source (.ofValue (.string s)) = .ok s := rfl

theorem uuid_ofUuid (id : Uuid) : uuid source (.ofValue (.ofUuid id)) = .ok id := by
  simp [uuid, stringOf, Draft.ofValue, Value.ofUuid, Uuid.ofString?_toString, pure, Except.pure,
    bind, Except.bind]

theorem timestamp_ofTimestamp (t : Timestamp) :
    timestamp source (.ofValue (.ofTimestamp t)) = .ok t.written := by
  simp [timestamp, stringOf, Draft.ofValue, Value.ofTimestamp, Timestamp.ofString?_toString, pure,
    Except.pure, bind, Except.bind]

theorem isWritten_of_timestamp {d : Draft} {t : Timestamp} (read : timestamp source d = .ok t) :
    t.IsWritten := by
  obtain ⟨s, _, read⟩ := ok_of_bind read
  split at read
  · rename_i parsed
    cases read
    exact Timestamp.isWritten_of_parse? parsed
  · cases read

theorem whole_ofNumber {low high n : Int} (expected : String)
    {inRange : -9223372036854775808 ≤ n ∧ n < 18446744073709551616} (least : low ≤ n)
    (greatest : n < high) :
    whole low high expected source (.ofValue (.number (.whole ⟨n, inRange⟩))) = .ok n :=
  if_pos ⟨least, greatest⟩

theorem uint64Of_ofUInt64 (expected : String) (n : UInt64) :
    uint64Of expected source (.ofValue (.ofUInt64 n)) = .ok n := by
  have small : (n.toNat : Int) < 18446744073709551616 := Int.ofNat_lt.mpr n.toNat_lt
  rw [uint64Of, Value.ofUInt64, Number.ofUInt64, whole_ofNumber source expected (by omega) small]
  simp [bind, Except.bind, pure, Except.pure]

theorem uint32_ofUInt32 (n : UInt32) : uint32 source (.ofValue (.ofUInt32 n)) = .ok n := by
  have small : (n.toUInt64.toNat : Int) < 4294967296 := Int.ofNat_lt.mpr n.toNat_lt
  rw [uint32, Value.ofUInt32, Number.ofUInt64, whole_ofNumber source "u32" (by omega) small]
  simp [bind, Except.bind, pure, Except.pure]

theorem int64_ofInt64 (n : Int64) : int64 source (.ofValue (.ofInt64 n)) = .ok n := by
  have least : -9223372036854775808 ≤ n.toInt := n.le_toInt
  have greatest : n.toInt < 9223372036854775808 := n.toInt_lt
  rw [int64, Value.ofInt64, Number.ofInt64, whole_ofNumber source "i64" least greatest]
  simp [bind, Except.bind, pure, Except.pure]

theorem optional_ofOption {α : Type} {decode : Decoder α} {encode : α → Value}
    (present : ∀ a, encode a ≠ .null) (reads : ∀ a, decode source (.ofValue (encode a)) = .ok a)
    (o : Option α) : decode.optional source (.ofValue (.ofOption encode o)) = .ok o := by
  cases o with
  | none => rfl
  | some a =>
      have draft : Draft.ofValue (encode a) ≠ .null := by
        cases shape : encode a with
        | null => exact absurd shape (present a)
        | _ => exact nofun
      simp [optional, Value.ofOption, reads a, bind, Except.bind, pure, Except.pure]

theorem optional_ofTimestamp (o : Option Timestamp) :
    timestamp.optional source (.ofValue (.ofOption .ofTimestamp o)) =
      .ok (o.map Timestamp.written) := by
  cases o with
  | none => rfl
  | some t => exact ok_bind_iff.mpr ⟨_, timestamp_ofTimestamp source t, rfl⟩

theorem oneOf_string {α : Type} {names : List (String × α)} {name : String} {a : α}
    (listed : names.lookup name = some a) :
    oneOf names source (.ofValue (.string name)) = .ok a := by
  simp [oneOf, Draft.ofValue, pick, listed, pure, Except.pure]

/-- A scalar is read as it is. -/
theorem value_of_isScalar {v : Value} (h : v.isScalar = true) :
    value source (.ofValue v) = .ok v := by
  have read (limit : Nat) : (Draft.ofValue v).value limit = .ok v := by
    rw [Draft.value_ofValue, if_pos (by rw [Value.depth_of_isScalar h]; exact Nat.zero_le limit),
      Value.sorted_of_isSorted (Value.isSorted_of_isScalar h)]
  cases source with
  | value => simp only [value, read, lift]
  | text limit => simp only [value, read, lift]

end Decoder

end Json

open Json

theorem Direction.decode_name (source : Source) (d : Direction) :
    decode source (.ofValue (.string d.name)) = .ok d :=
  Decoder.oneOf_string source (by cases d <;> decide)

theorem Status.decode_name (source : Source) (s : Status) :
    decode source (.ofValue (.string s.name)) = .ok s :=
  Decoder.oneOf_string source (by cases s <;> decide)

theorem Report.decode_name (source : Source) (r : Report) :
    decode source (.ofValue (.string r.name)) = .ok r :=
  Decoder.oneOf_string source (by cases r <;> decide)

end SmsTracking
