import SmsTracking.Proofs.Wire.Documents
import SmsTracking.Proofs.Wire.Leaves
import SmsTracking.Proofs.Wire.Objects
import SmsTracking.Service.Config

/-!
The configuration of the service, setting by setting. An object with distinct keys is read as the
configuration in which each setting has the number that stands under its name, or its default if the
object does not have the name. Main statement: that is how it is for every object, from a value and
from a text, and a document of assignments is read as the object with the same entries, or refused
if the object is (`settings_overlaid`).
-/

namespace SmsTracking

open Json Record

/-! Whole numbers -/

namespace Json.Decoder

variable {source : Source} {v : Value}

theorem whole_eq_ok_iff {low high n : Int} {expected : String} :
    whole low high expected source (.ofValue v) = .ok n ↔
      ∃ w : Whole, v = .number (.whole w) ∧ w.val = n ∧ low ≤ n ∧ n < high := by
  constructor
  · intro read
    cases v with
    | number m =>
        cases m with
        | float x => exact absurd read mismatch_ne_ok
        | whole w =>
            simp only [whole, Draft.ofValue] at read
            split at read
            · rename_i inRange
              cases read
              exact ⟨w, rfl, rfl, inRange⟩
            · cases read
    | null | bool _ | string _ | array _ | object _ => exact absurd read mismatch_ne_ok
  · rintro ⟨w, rfl, rfl, inRange⟩
    exact if_pos inRange

theorem uint64Of_eq_ok_iff {expected : String} {n : UInt64} :
    uint64Of expected source (.ofValue v) = .ok n ↔ v = .ofNat n.toNat := by
  rw [Value.ofNat, UInt64.ofNat_toNat]
  refine ⟨fun read => ?_, fun same => same ▸ uint64Of_ofUInt64 source expected n⟩
  obtain ⟨i, read, made⟩ := ok_of_bind read
  obtain ⟨w, rfl, rfl, least, greatest⟩ := whole_eq_ok_iff.mp read
  cases made
  have back : (UInt64.ofNat w.val.toNat).toNat = w.val.toNat :=
    UInt64.toNat_ofNat_of_lt' (by rw [UInt64.size]; omega)
  simp [Value.ofUInt64, Number.ofUInt64, back, least]

theorem uint32_eq_ok_iff {n : UInt32} :
    uint32 source (.ofValue v) = .ok n ↔ v = .ofNat n.toNat := by
  rw [Value.ofNat, UInt64.ofNat_uInt32ToNat]
  refine ⟨fun read => ?_, fun same => same ▸ uint32_ofUInt32 source n⟩
  obtain ⟨i, read, made⟩ := ok_of_bind read
  obtain ⟨w, rfl, rfl, least, greatest⟩ := whole_eq_ok_iff.mp read
  cases made
  have back : (UInt32.ofNat w.val.toNat).toNat = w.val.toNat :=
    UInt32.toNat_ofNat_of_lt' (by rw [UInt32.size]; omega)
  simp [Value.ofUInt64, Number.ofUInt64, back, least]

end Json.Decoder

namespace ServiceConfig

/-- What can be set. -/
inductive Key where
  | outstandingConcurrency
  | outstandingLimit
  | reloadAttempts
  | reloadIntervalMs
  | updateRetries
  | claimTtlMs
deriving DecidableEq

namespace Key

def name : Key → String
  | outstandingConcurrency => "outstanding_concurrency"
  | outstandingLimit => "outstanding_limit"
  | reloadAttempts => "reload_attempts"
  | reloadIntervalMs => "reload_interval_ms"
  | updateRetries => "update_retries"
  | claimTtlMs => "claim_ttl_ms"

/-- The numbers of the setting are below. -/
def size : Key → Nat
  | reloadAttempts | updateRetries => UInt32.size
  | _ => UInt64.size

theorem isNamed_name (k : Key) : isNamed record.fields k.name = true := by
  cases k <;> decide

end Key

variable {c : ServiceConfig}

def get (c : ServiceConfig) : Key → Nat
  | .outstandingConcurrency => c.outstandingConcurrency.toNat
  | .outstandingLimit => c.outstandingLimit.toNat
  | .reloadAttempts => c.reloadAttempts.toNat
  | .reloadIntervalMs => c.reloadIntervalMs.toNat
  | .updateRetries => c.updateRetries.toNat
  | .claimTtlMs => c.claimTtlMs.toNat

def ofNumbers (number : Key → Nat) : ServiceConfig where
  outstandingConcurrency := .ofNat (number .outstandingConcurrency)
  outstandingLimit := .ofNat (number .outstandingLimit)
  reloadAttempts := .ofNat (number .reloadAttempts)
  reloadIntervalMs := .ofNat (number .reloadIntervalMs)
  updateRetries := .ofNat (number .updateRetries)
  claimTtlMs := .ofNat (number .claimTtlMs)

theorem get_lt (c : ServiceConfig) (k : Key) : c.get k < k.size := by
  cases k with
  | reloadAttempts => exact c.reloadAttempts.toNat_lt
  | updateRetries => exact c.updateRetries.toNat_lt
  | outstandingConcurrency => exact c.outstandingConcurrency.toNat_lt
  | outstandingLimit => exact c.outstandingLimit.toNat_lt
  | reloadIntervalMs => exact c.reloadIntervalMs.toNat_lt
  | claimTtlMs => exact c.claimTtlMs.toNat_lt

theorem ofNumbers_get (c : ServiceConfig) : ofNumbers c.get = c := by
  simp [ofNumbers, get]

theorem get_ofNumbers {number : Key → Nat} {k : Key} (small : number k < k.size) :
    (ofNumbers number).get k = number k := by
  cases k with
  | reloadAttempts | updateRetries => exact UInt32.toNat_ofNat_of_lt' small
  | _ => exact UInt64.toNat_ofNat_of_lt' small

/-- What a setting becomes: the number that is given for it, or else the default. -/
def Sets (given : Option Value) (default n : Nat) : Prop :=
  match given with
  | none => n = default
  | some v => v = .ofNat n

/-- The settings that are given are taken, the others have their defaults. -/
def Overlays (given : String → Option Value) (c : ServiceConfig) : Prop :=
  ∀ k : Key, Sets (given k.name) (({} : ServiceConfig).get k) (c.get k)

theorem build_withDefault_iff {α : Type} {decode : Decoder α} {toNat : α → Nat}
    (reads : ∀ source v a, decode source (.ofValue v) = .ok a ↔ v = .ofNat (toNat a))
    (injective : ∀ a b, toNat a = toNat b → a = b) {name : String} {default a : α}
    {source : Source} {given : String → Option Value} {absent : String → Error}
    {byPosition : Bool} :
    (withDefault name decode default).build
        ⟨source, fun key => (given key).map Draft.ofValue, absent, byPosition⟩ = .ok a ↔
      Sets (given name) (toNat default) (toNat a) := by
  cases found : given name with
  | none =>
      simp only [withDefault, field, found, Option.map_none]
      exact ⟨fun same => congrArg toNat (Except.ok.inj same).symm,
        fun same => congrArg Except.ok (injective _ _ same).symm⟩
  | some v =>
      simp only [withDefault, field, found, Option.map_some]
      exact reads source v a

theorem build_eq_ok_iff {g : Given} :
    record.build g = .ok c ↔
      (withDefault "outstanding_concurrency" Decoder.size 8).build g =
        .ok c.outstandingConcurrency ∧
      (withDefault "outstanding_limit" Decoder.size 100).build g = .ok c.outstandingLimit ∧
      (withDefault "reload_attempts" Decoder.uint32 3).build g = .ok c.reloadAttempts ∧
      (withDefault "reload_interval_ms" Decoder.uint64 50).build g = .ok c.reloadIntervalMs ∧
      (withDefault "update_retries" Decoder.uint32 3).build g = .ok c.updateRetries ∧
      (withDefault "claim_ttl_ms" Decoder.uint64 30000).build g = .ok c.claimTtlMs := by
  constructor
  · intro built
    obtain ⟨_, _, upToRetries, ttl, rfl⟩ := build_seq_iff.mp built
    obtain ⟨_, _, upToInterval, retries, rfl⟩ := build_seq_iff.mp upToRetries
    obtain ⟨_, _, upToAttempts, interval, rfl⟩ := build_seq_iff.mp upToInterval
    obtain ⟨_, _, upToLimit, attempts, rfl⟩ := build_seq_iff.mp upToAttempts
    obtain ⟨_, _, upToConcurrency, limit, rfl⟩ := build_seq_iff.mp upToLimit
    obtain ⟨_, concurrency, rfl⟩ := build_map_iff.mp upToConcurrency
    exact ⟨concurrency, limit, attempts, interval, retries, ttl⟩
  · rintro ⟨concurrency, limit, attempts, interval, retries, ttl⟩
    have upToConcurrency := (build_map_iff (f := mk)).mpr ⟨_, concurrency, rfl⟩
    have upToLimit := build_seq_iff.mpr ⟨_, _, upToConcurrency, limit, rfl⟩
    have upToAttempts := build_seq_iff.mpr ⟨_, _, upToLimit, attempts, rfl⟩
    have upToInterval := build_seq_iff.mpr ⟨_, _, upToAttempts, interval, rfl⟩
    have upToRetries := build_seq_iff.mpr ⟨_, _, upToInterval, retries, rfl⟩
    exact build_seq_iff.mpr ⟨_, _, upToRetries, ttl, rfl⟩

theorem record_isThorough : record.IsThorough := by
  refine .seq ?_ .field
  refine .seq ?_ .field
  refine .seq ?_ .field
  refine .seq ?_ .field
  refine .seq ?_ .field
  exact .map .field _

theorem decode_object_eq_ok_iff {members : List (String × Value)}
    (distinct : (members.map (·.1)).Nodup) {outside source : Source}
    (enters : outside.enter = .ok source) :
    decode outside (.ofValue (.object members)) = .ok c ↔ Overlays (members.lookup ·) c := by
  have same : Overlays ((named record.fields members).lookup ·) c ↔
      Overlays (members.lookup ·) c := by
    refine forall_congr' fun k => ?_
    simp only [named, lookup_filter, k.isNamed_name, if_true]
  rw [decode, decode_object_iff_of_isThorough distinct record_isThorough _ enters, build_eq_ok_iff,
    ← same]
  simp only [Decoder.size, Decoder.uint64,
    build_withDefault_iff (fun _ _ _ => Decoder.uint64Of_eq_ok_iff) fun _ _ => UInt64.toNat_inj.mp,
    build_withDefault_iff (fun _ _ _ => Decoder.uint32_eq_ok_iff) fun _ _ => UInt32.toNat_inj.mp]
  constructor
  · rintro ⟨concurrency, limit, attempts, interval, retries, ttl⟩ k
    cases k <;> assumption
  · intro overlays
    exact ⟨overlays .outstandingConcurrency, overlays .outstandingLimit, overlays .reloadAttempts,
      overlays .reloadIntervalMs, overlays .updateRetries, overlays .claimTtlMs⟩

theorem exists_overlays_iff {given : String → Option Value} :
    (∃ c, Overlays given c) ↔
      ∀ (k : Key) v, given k.name = some v → ∃ n < k.size, v = .ofNat n := by
  constructor
  · rintro ⟨c, overlays⟩ k v found
    have sets := overlays k
    rw [found] at sets
    exact ⟨c.get k, c.get_lt k, sets⟩
  · intro each
    have possible (k : Key) :
        ∃ n < k.size, Sets (given k.name) (({} : ServiceConfig).get k) n := by
      cases found : given k.name with
      | none => exact ⟨_, get_lt _ k, rfl⟩
      | some v => exact each k v found
    choose number small sets using possible
    refine ⟨ofNumbers number, fun k => ?_⟩
    rw [get_ofNumbers (small k)]
    exact sets k

/-! Settings of a document -/

theorem setting?_lt {v : Option Toml.Value} {size default n : Nat} (small : default < size)
    (set : setting? v size default = some n) : n < size := by
  unfold setting? at set
  split at set
  · cases set
    exact small
  · split at set
    · cases set
      omega
    · cases set
  · cases set

theorem ofSettings?_eq_some_iff {given : String → Option Toml.Value} :
    ofSettings? (fun name _ => given name) = some c ↔
      ∀ k : Key, setting? (given k.name) k.size (({} : ServiceConfig).get k) = some (c.get k) := by
  constructor
  · intro set
    simp only [ofSettings?, Option.bind_eq_bind, Option.bind_eq_some_iff] at set
    obtain ⟨concurrency, one, limit, two, attempts, three, interval, four, retries, five, ttl, six,
      set⟩ := set
    cases set
    let number : Key → Nat
      | .outstandingConcurrency => concurrency
      | .outstandingLimit => limit
      | .reloadAttempts => attempts
      | .reloadIntervalMs => interval
      | .updateRetries => retries
      | .claimTtlMs => ttl
    have sets (k : Key) : setting? (given k.name) k.size (({} : ServiceConfig).get k) =
        some (number k) := by
      cases k <;> assumption
    intro k
    have back := get_ofNumbers (setting?_lt (get_lt _ k) (sets k))
    exact (sets k).trans (congrArg some back.symm)
  · intro sets
    simp only [ofSettings?, Option.bind_eq_bind, Option.bind_eq_some_iff]
    exact ⟨_, sets .outstandingConcurrency, _, sets .outstandingLimit, _, sets .reloadAttempts, _,
      sets .reloadIntervalMs, _, sets .updateRetries, _, sets .claimTtlMs,
      congrArg some c.ofNumbers_get⟩

theorem setting?_eq_some_iff {given : Option Int64} {size default n : Nat} (small : n < size)
    (fits : size ≤ UInt64.size) :
    setting? (given.map (.integer ·.toInt)) size default = some n ↔
      Sets (given.map .ofInt64) default n := by
  cases given with
  | none => exact ⟨fun same => (Option.some.inj same).symm, fun same => congrArg some same.symm⟩
  | some i =>
      have back : (UInt64.ofNat n).toNat = n := UInt64.toNat_ofNat_of_lt' (by omega)
      have number : Sets (some (.ofInt64 i)) default n ↔ i.toInt = n := by
        simp [Sets, Value.ofInt64, Value.ofNat, Value.ofUInt64, Number.ofInt64, Number.ofUInt64,
          back]
      rw [Option.map_some, Option.map_some, number, setting?]
      split
      · rw [Option.some.injEq]
        omega
      · exact iff_of_false (Option.some_ne_none n).symm (by omega)

theorem ofSettings?_integers_iff {given : String → Option Int64} :
    ofSettings? (fun name _ => (given name).map (.integer ·.toInt)) = some c ↔
      Overlays (fun name => (given name).map .ofInt64) c := by
  rw [ofSettings?_eq_some_iff]
  refine forall_congr' fun k => setting?_eq_some_iff (c.get_lt k) ?_
  cases k <;> decide

/-! Documents and objects -/

theorem ofDocument_eq_ok_iff {s : String} :
    ofDocument s = .ok c ↔ (Toml.ofString? s).bind ofToml? = some c := by
  unfold ofDocument
  cases (Toml.ofString? s).bind ofToml? with
  | none => exact iff_of_false nofun nofun
  | some d => exact ⟨fun same => congrArg some (Except.ok.inj same),
      fun same => congrArg Except.ok (Option.some.inj same)⟩

theorem ofDocument_cases (s : String) :
    (∃ c, ofDocument s = .ok c) ∨ ∃ reason, ofDocument s = .error (.validation reason) := by
  unfold ofDocument
  split
  · exact .inl ⟨_, rfl⟩
  · exact .inr ⟨_, rfl⟩

/-- The assignments of a document as the members of an object. -/
def members (as : List Toml.Assignment) : List (String × Value) :=
  as.map fun a => (a.key, .ofInt64 a.value)

theorem ofDocument_of_written {as : List Toml.Assignment} {s : String}
    (written : Toml.Written as s.toList) (distinct : (as.map (·.key)).Nodup) :
    ofDocument s = .ok c ↔ Overlays ((members as).lookup ·) c := by
  let entries : List (String × Int64) := as.map fun a => (a.key, a.value)
  have table : (as.map fun a => (a.key, Toml.Value.integer a.value.toInt)) =
      entries.map fun e => (e.1, .integer e.2.toInt) := by
    rw [List.map_map]
    rfl
  have object : members as = entries.map fun e => (e.1, .ofInt64 e.2) := by
    rw [List.map_map]
    rfl
  have looked (name : String) := Entries.lookup_map (Toml.Value.integer ·.toInt) entries name
  rw [ofDocument_eq_ok_iff, Toml.ofString?_of_written written distinct, table, object]
  simp only [Option.bind_some, ofToml?, looked, Entries.lookup_map]
  exact ofSettings?_integers_iff

/-- What is read is the configuration that the members overlay, if they are numbers that fit. -/
structure Reads (members : List (String × Value)) (read : Except Error ServiceConfig) : Prop where
  result : ∀ c, read = .ok c ↔ Overlays (members.lookup ·) c
  succeeds : (∃ c, read = .ok c) ↔
    ∀ (k : Key) v, members.lookup k.name = some v → ∃ n < k.size, v = .ofNat n

theorem Reads.of_result {members : List (String × Value)} {read : Except Error ServiceConfig}
    (result : ∀ c, read = .ok c ↔ Overlays (members.lookup ·) c) : Reads members read where
  result := result
  succeeds := (exists_congr result).trans exists_overlays_iff

/-- The members stand in any order, and keys that are no settings may be among them. -/
theorem settings_overlaid :
    (∀ ms : List (String × Value), (ms.map (·.1)).Nodup →
      Reads ms (decodeValue decode (.object ms)) ∧
      ∀ xs, Draft.ofSymbols xs = (.ofValue (.object ms), false) →
        Reads ms (decodeSymbols decode xs)) ∧
    ∀ as (s : String), Toml.Written as s.toList → (as.map (·.key)).Nodup →
      (∀ c, ofDocument s = .ok c ↔ decodeValue decode (.object (members as)) = .ok c) ∧
      ((∀ c, decodeValue decode (.object (members as)) ≠ .ok c) →
        ∃ reason, ofDocument s = .error (.validation reason) ∧
          (AppError.validation reason).isRetriable = false) := by
  refine ⟨fun ms distinct => ⟨?_, fun xs drawn => ?_⟩, fun as s written distinct => ?_⟩
  · exact .of_result fun c => decode_object_eq_ok_iff distinct rfl
  · rw [decodeSymbols_of_drawn drawn]
    exact .of_result fun c => decode_object_eq_ok_iff distinct rfl
  · have keys : ((members as).map (·.1)).Nodup := by
      rw [members, List.map_map]
      exact distinct
    have agree (c : ServiceConfig) : ofDocument s = .ok c ↔
        decodeValue decode (.object (members as)) = .ok c :=
      (ofDocument_of_written written distinct).trans (decode_object_eq_ok_iff keys rfl).symm
    refine ⟨agree, fun refused => ?_⟩
    rcases ofDocument_cases s with ⟨c, read⟩ | ⟨reason, read⟩
    · exact absurd ((agree c).mp read) (refused c)
    · exact ⟨reason, read, rfl⟩

/-- The number of the last line has one bit too many for its setting. -/
theorem settings_overlaid_mixed :
    let ms : List (String × Value) := [("zone", .null), ("update_retries", .ofNat 5)]
    let s := "\nclaim_ttl_ms=+1_0 \r\nzone = -1\nreload_attempts = 4294967296"
    decodeValue decode (.object ms) = .ok { updateRetries := 5 } ∧
      ∃ as, Toml.Written as s.toList ∧
        members as = [("claim_ttl_ms", .ofInt64 10), ("zone", .ofInt64 (-1)),
          ("reload_attempts", .ofInt64 4294967296)] ∧
        ∃ reason, ofDocument s = .error (.validation reason) := by
  intro ms s
  let ttl : Toml.Assignment :=
    { key := "claim_ttl_ms", value := 10, numeral := ['+', '1', '_', '0'], indent := []
      before := [], after := [], trail := [' '], nonempty := by decide
      bare := List.all_eq_true.mp (by decide +kernel)
      written := .plus (n := 10) (.apart '1' (.last '0'))
      blank := List.all_eq_true.mp (by decide +kernel) }
  let zone : Toml.Assignment :=
    .plain "zone" (-1) (by decide) (List.all_eq_true.mp (by decide +kernel))
  let attempts : Toml.Assignment :=
    .plain "reload_attempts" 4294967296 (by decide) (List.all_eq_true.mp (by decide +kernel))
  have lines : s.toList = [] ++ '\n' :: (ttl.text ++ '\r' :: '\n' ::
      (zone.text ++ '\n' :: (attempts.text ++ []))) := by
    decide +kernel
  have written : Toml.Written [ttl, zone, attempts] s.toList := by
    rw [lines]
    exact .blank nofun (.lf _) (.line ttl (.crlf _) (.line zone (.lf _) (.line attempts .eof .nil)))
  have fails : (decodeValue decode (.object (members [ttl, zone, attempts]))).isOk = false := by
    decide +kernel
  obtain ⟨object, document⟩ := settings_overlaid
  obtain ⟨_, refused⟩ := document [ttl, zone, attempts] s written (by decide)
  refine ⟨((object ms (by decide)).1.result _).mpr ?_, _, written, rfl, ?_⟩
  · intro k
    cases k <;> rfl
  · obtain ⟨reason, read, _⟩ := refused fun c read => by
      rw [read] at fails
      cases fails
    exact ⟨reason, read⟩

end ServiceConfig

end SmsTracking
