import SmsTracking.Proofs.Wire.Settings

/-!
Which configurations a document can give to the service. Integers of a document have a sign and 64
bits. No setting of a document is beyond them, and each configuration within them has a document of
its own, which says every setting. Main statement: `ServiceConfig.exists_document_iff`.
-/

namespace SmsTracking

namespace Toml

theorem prefixed?_lt {base : Nat} {isDigit : Char → Bool} {cs : List Char} {n : Int}
    (read : prefixed? base isDigit cs = some n) : n < integerLimit := by
  simp only [prefixed?, Option.bind_eq_bind, Option.bind_eq_some_iff] at read
  obtain ⟨ds, _, read⟩ := read
  split at read
  · cases read
    omega
  · cases read

theorem integer?_lt {cs : List Char} {n : Int} (read : integer? cs = some n) :
    n < integerLimit := by
  unfold integer? at read
  split at read
  · exact prefixed?_lt read
  · exact prefixed?_lt read
  · exact prefixed?_lt read
  · simp only [Option.bind_eq_bind, Option.bind_eq_some_iff] at read
    obtain ⟨ds, _, read⟩ := read
    have positive : 0 < integerLimit := by decide
    split at read
    · split at read
      · cases read
        omega
      · cases read
    · split at read
      · cases read
        omega
      · cases read

theorem scalar?_lt {cs : List Char} {n : Int} (read : scalar? cs = some (.integer n)) :
    n < integerLimit := by
  unfold scalar? at read
  split at read
  · cases read
  · split at read
    · cases read
    · split at read
      · rename_i found
        cases read
        exact integer?_lt found
      · split at read
        · cases read
        · split at read <;> cases read

theorem takeScalar?_lt {cs rest : List Char} {n : Int}
    (read : takeScalar? cs = some (.integer n, rest)) : n < integerLimit := by
  unfold takeScalar? at read
  extract_lets run after tail joined at read
  split at read
  · cases read
  · obtain ⟨v, found, same⟩ := Option.map_eq_some_iff.mp read
    have number : v = .integer n := congrArg Prod.fst same
    rw [number] at found
    exact scalar?_lt found

/-- Arrays and tables are values of their own, whatever numbers they hold. -/
theorem value?_lt {fuel depth : Nat} {cs rest : List Char} {n : Int}
    (read : value? fuel depth cs = some (.integer n, rest)) : n < integerLimit := by
  cases fuel with
  | zero => simp [value?] at read
  | succ fuel =>
      unfold value? at read
      split at read
      · split at read
        · cases read
        · obtain ⟨items, _, read⟩ := Option.bind_eq_some_iff.mp read
          cases read
      · split at read
        · cases read
        · obtain ⟨⟨t, cs⟩, _, read⟩ := Option.bind_eq_some_iff.mp read
          cases t
          cases read
      · obtain ⟨s, _, read⟩ := Option.bind_eq_some_iff.mp read
        cases read
      · obtain ⟨s, _, read⟩ := Option.bind_eq_some_iff.mp read
        cases read
      · exact takeScalar?_lt read

/-- An integer is one that a document can hold. -/
def Item.Fits (item : Item) : Prop :=
  ∀ n : Int, item = .value (.integer n) → n < integerLimit

theorem Item.fits_table (t : Table) : (Item.table t).Fits := by
  intro n same
  cases same

theorem Item.fits_tables (earlier : List Table) (last : Table) :
    (Item.tables earlier last).Fits := by
  intro n same
  cases same

namespace Table

/-- The integers that stand in the table itself are those that a document can hold. -/
def Bounded (t : Table) : Prop :=
  ∀ e ∈ t.entries, e.2.Fits

variable {t t' : Table} {key : String} {item : Item}

theorem Bounded.add (bounded : t.Bounded) (fits : item.Fits) : (t.add key item).Bounded := by
  intro e mem
  rcases List.mem_append.mp mem with before | new
  · exact bounded e before
  · cases List.mem_singleton.mp new
    exact fits

theorem Bounded.replace (bounded : t.Bounded) (fits : item.Fits) :
    (t.replace key item).Bounded := by
  intro e mem
  obtain ⟨old, before, rfl⟩ := List.mem_map.mp mem
  split
  · exact fits
  · exact bounded old before

/-- Only the change of the table itself can put an integer there. -/
theorem Bounded.change? {throughDots : Bool} {f : Table → Option Table} {path : List String}
    (bounded : t.Bounded) (keeps : ∀ u, t.Bounded → f t = some u → u.Bounded)
    (changed : t.change? throughDots f path = some t') : t'.Bounded := by
  cases path with
  | nil => exact keeps t' bounded changed
  | cons first path =>
      simp only [Table.change?] at changed
      split at changed
      · obtain ⟨child, _, made⟩ := Option.bind_eq_some_iff.mp changed
        cases made
        exact bounded.add (Item.fits_table child)
      · cases changed
      · obtain ⟨last, _, made⟩ := Option.bind_eq_some_iff.mp changed
        cases made
        exact bounded.replace (Item.fits_tables _ last)
      · split at changed
        · cases changed
        · obtain ⟨child, _, made⟩ := Option.bind_eq_some_iff.mp changed
          cases made
          exact bounded.replace (Item.fits_table child)

theorem Bounded.put? {path : List String} {v : Value} (bounded : t.Bounded)
    (fits : ∀ n : Int, v = .integer n → n < integerLimit) (put : t.put? path key v = some t') :
    t'.Bounded := by
  refine bounded.change? (fun u bounded made => ?_) put
  split at made
  · cases made
  · cases made
    exact bounded.add fun n same => fits n (Item.value.inj same)

theorem Bounded.define? {path : List String} (bounded : t.Bounded)
    (defined : t.define? path key = some t') : t'.Bounded := by
  refine bounded.change? (fun u bounded made => ?_) defined
  split at made
  · cases made
    exact bounded.add (Item.fits_table _)
  · split at made
    · cases made
      exact bounded.replace (Item.fits_table _)
    · cases made
  · cases made

theorem Bounded.append? {path : List String} (bounded : t.Bounded)
    (appended : t.append? path key = some t') : t'.Bounded := by
  refine bounded.change? (fun u bounded made => ?_) appended
  split at made
  · cases made
    exact bounded.add (Item.fits_tables _ _)
  · cases made
    exact bounded.replace (Item.fits_tables _ _)
  · cases made

end Table

theorem line?_bounded {p q : Progress} {cs rest : List Char} (bounded : p.root.Bounded)
    (read : line? p cs = some (q, rest)) : q.root.Bounded := by
  unfold line? at read
  split at read
  · simp only [Option.bind_eq_bind, Option.bind_eq_some_iff] at read
    obtain ⟨_, _, root, appended, _, _, read⟩ := read
    cases read
    exact bounded.append? appended
  · simp only [Option.bind_eq_bind, Option.bind_eq_some_iff] at read
    obtain ⟨_, _, root, defined, _, _, read⟩ := read
    cases read
    exact bounded.define? defined
  · split at read
    · cases read
      exact bounded
    · obtain ⟨⟨⟨path, key⟩, cs⟩, _, read⟩ := Option.bind_eq_some_iff.mp read
      simp only at read
      split at read
      · simp only [Option.bind_eq_bind, Option.bind_eq_some_iff] at read
        obtain ⟨⟨v, cs⟩, found, root, changed, _, _, read⟩ := read
        cases read
        refine bounded.change? (fun u bounded put => bounded.put? (fun n same => ?_) put) changed
        cases same
        exact value?_lt found
      · cases read

theorem lines?_bounded {fuel : Nat} {p : Progress} {cs : List Char} {t : Table}
    (bounded : p.root.Bounded) (read : lines? fuel p cs = some t) : t.Bounded := by
  induction fuel generalizing p cs with
  | zero =>
      cases cs with
      | nil =>
          cases read
          exact bounded
      | cons c cs => cases read
  | succ fuel ih =>
      cases cs with
      | nil =>
          cases read
          exact bounded
      | cons c cs =>
          obtain ⟨⟨q, rest⟩, line, read⟩ := Option.bind_eq_some_iff.mp read
          exact ih (line?_bounded bounded line) read

theorem toMembers_eq_map (es : List (String × Item)) :
    Table.toMembers es = es.map fun e => (e.1, e.2.toValue) := by
  induction es with
  | nil => rfl
  | cons e es ih => rw [Table.toMembers, ih, List.map_cons]

theorem eq_value_of_toValue {item : Item} {n : Int} (same : item.toValue = .integer n) :
    item = .value (.integer n) := by
  cases item with
  | value v => exact congrArg _ same
  | table t =>
      cases t
      cases same
  | tables earlier last => cases same

/-- A document is read as a table, and an integer that stands at its top has a sign and 64 bits. -/
theorem exists_members_of_ofString? {s : String} {v : Value} (read : ofString? s = some v) :
    ∃ members, v = .table members ∧
      ∀ (key : String) (n : Int), members.lookup key = some (.integer n) → n < integerLimit := by
  obtain ⟨t, parsed, same⟩ := Option.map_eq_some_iff.mp read
  have bounded : t.Bounded := lines?_bounded (p := ⟨.empty, []⟩) (List.forall_mem_nil _) parsed
  cases t with
  | mk implicit dotted entries =>
      refine ⟨_, same.symm, fun key n found => ?_⟩
      rw [toMembers_eq_map, Entries.lookup_map] at found
      obtain ⟨item, stands, number⟩ := Option.map_eq_some_iff.mp found
      obtain ⟨before, after, split, _⟩ := List.lookup_eq_some_iff.mp stands
      have mem : (key, item) ∈ entries := by
        rw [split]
        exact List.mem_append_right before List.mem_cons_self
      exact bounded _ mem n (eq_value_of_toValue number)

theorem exists_written (as : List Assignment) : ∃ s : String, Written as s.toList := by
  induction as with
  | nil => exact ⟨"", .nil⟩
  | cons a as ih =>
      obtain ⟨s, written⟩ := ih
      refine ⟨.ofList (a.text ++ '\n' :: s.toList), ?_⟩
      rw [String.toList_ofList]
      exact .line a (.lf _) written

end Toml

namespace ServiceConfig

open Json

variable {config : ServiceConfig}

theorem Key.default_lt (k : Key) : ({} : ServiceConfig).get k < Toml.integerLimit := by
  cases k <;> decide

/-- What a document sets is within its integers, and so are the defaults. -/
theorem get_lt_of_ofDocument {s : String} (read : ofDocument s = .ok config) (k : Key) :
    config.get k < Toml.integerLimit := by
  obtain ⟨v, parsed, given⟩ := Option.bind_eq_some_iff.mp (ofDocument_eq_ok_iff.mp read)
  obtain ⟨members, rfl, bounded⟩ := Toml.exists_members_of_ofString? parsed
  have settings : ofSettings? (fun name _ => members.lookup name) = some config := given
  have set := ofSettings?_eq_some_iff.mp settings k
  unfold setting? at set
  split at set
  · rw [← Option.some.inj set]
    exact k.default_lt
  · rename_i n found
    have small := bounded k.name n found
    split at set
    · rw [← Option.some.inj set]
      omega
    · cases set
  · cases set

/-- Every setting, with the number that the configuration has for it. -/
def assignments (config : ServiceConfig) : List Toml.Assignment :=
  [.outstandingConcurrency, .outstandingLimit, .reloadAttempts, .reloadIntervalMs, .updateRetries,
    .claimTtlMs].map fun k : Key => .plain k.name (.ofNat (config.get k)) (by cases k <;> decide)
      (by cases k <;> exact List.all_eq_true.mp (by decide +kernel))

theorem nodup_assignments (config : ServiceConfig) : (config.assignments.map (·.key)).Nodup := by
  have names : config.assignments.map (·.key) = ["outstanding_concurrency", "outstanding_limit",
      "reload_attempts", "reload_interval_ms", "update_retries", "claim_ttl_ms"] := rfl
  rw [names]
  decide

theorem ofInt64_ofNat {n : Nat} (small : n < Toml.integerLimit) :
    Value.ofInt64 (.ofNat n) = .ofNat n := by
  have signed : (Int64.ofNat n).toInt = n := Int64.toInt_ofNat_of_lt small
  have unsigned : (UInt64.ofNat n).toNat = n := UInt64.toNat_ofNat_of_lt' (by
    have : Toml.integerLimit < UInt64.size := by decide
    omega)
  simp [Value.ofInt64, Value.ofNat, Value.ofUInt64, Number.ofInt64, Number.ofUInt64, signed,
    unsigned]

theorem overlays_assignments (small : ∀ k : Key, config.get k < Toml.integerLimit) :
    Overlays ((members config.assignments).lookup ·) config := by
  intro k
  have found : (members config.assignments).lookup k.name =
      some (.ofInt64 (.ofNat (config.get k))) := by
    cases k <;> rfl
  have sets : Sets (some (Value.ofInt64 (.ofNat (config.get k)))) (({} : ServiceConfig).get k)
      (config.get k) := ofInt64_ofNat (small k)
  rwa [← found] at sets

/-- The configurations of documents are those whose settings are within the integers there. -/
theorem exists_document_iff :
    (∃ s, ofDocument s = .ok config) ↔ ∀ k : Key, config.get k < Toml.integerLimit := by
  constructor
  · intro ⟨s, read⟩ k
    exact get_lt_of_ofDocument read k
  · intro small
    obtain ⟨s, written⟩ := Toml.exists_written config.assignments
    exact ⟨s, (ofDocument_of_written written config.nodup_assignments).mpr
      (overlays_assignments small)⟩

end ServiceConfig

end SmsTracking
