import SmsTracking.Json.Decode
import SmsTracking.Repository.Entries

/-!
Reading a structure from an object that has its members. A record accepts what it finds under its
names if each of its fields reads its own, so that this can be told field by field. Main statements:
an object with distinct keys whose members the record accepts is read (`decode_ofValue`), in whatever
order they stand (`decode_rearranged`), and so is one that holds the fields of two records
(`decodeFlat_ofValue`).
-/

namespace SmsTracking

theorem ok_of_bind {ε α β : Type} {x : Except ε α} {f : α → Except ε β} {b : β}
    (h : (x >>= f) = .ok b) : ∃ a, x = .ok a ∧ f a = .ok b := by
  cases x with
  | error e => cases h
  | ok a => exact ⟨a, rfl, h⟩

theorem ok_bind_iff {ε α β : Type} {x : Except ε α} {f : α → Except ε β} {b : β} :
    (x >>= f) = .ok b ↔ ∃ a, x = .ok a ∧ f a = .ok b := by
  refine ⟨ok_of_bind, ?_⟩
  rintro ⟨a, rfl, h⟩
  exact h

theorem ok_then_iff {ε β : Type} {x : Except ε Unit} {y : Except ε β} {b : β} :
    (x >>= fun _ => y) = .ok b ↔ x = .ok () ∧ y = .ok b :=
  ok_bind_iff.trans ⟨fun ⟨_, first, rest⟩ => ⟨first, rest⟩, fun ⟨first, rest⟩ => ⟨_, first, rest⟩⟩

theorem Json.ok_of_lift {α : Type} {x : Except Break α} {a : α} (h : lift x = .ok a) : x = .ok a := by
  cases x with
  | error reason => cases h
  | ok b => exact congrArg Except.ok (Except.ok.inj h)

theorem Json.mismatch_ne_ok {α : Type} {d : Draft} {expected : String} {a : α} :
    mismatch d expected ≠ .ok a := by
  intro read
  obtain ⟨_, _, read⟩ := ok_of_bind read
  cases read

namespace Json.Record

variable {α β : Type} {source : Source} {get : String → Option Draft}

/-- The record reads this from what is given under its names. -/
structure Accepts (r : Record α) (source : Source) (get : String → Option Draft) (a : α) :
    Prop where
  checks : ∀ field ∈ r.fields, ∀ d, get field.name = some d → field.check source d = .ok ()
  builds : ∀ absent byPosition, r.build ⟨source, get, absent, byPosition⟩ = .ok a

section Field

variable {name : String} {decode : Decoder α} {d : Draft} {a : α}

/-- What it would mean for the field to be absent does not matter. -/
theorem Accepts.field {otherwise : Given → Except Error α} (given : get name = some d)
    (reads : decode source d = .ok a) : (field name decode otherwise).Accepts source get a where
  checks := by
    intro field mem d' found
    rw [List.mem_singleton.mp mem] at found ⊢
    rw [given] at found
    cases found
    simp only [reads]
    rfl
  builds := by
    intro absent byPosition
    simp only [Record.field, given, reads]

theorem Accepts.required (given : get name = some d) (reads : decode source d = .ok a) :
    (required name decode).Accepts source get a :=
  .field given reads

end Field

theorem Accepts.map {r : Record α} {a : α} (h : r.Accepts source get a) (f : α → β) :
    (f <$> r).Accepts source get (f a) where
  checks := fun field mem => h.checks field mem
  builds := by
    intro absent byPosition
    have built := h.builds absent byPosition
    simp only [Functor.map, Pure.pure, Except.pure, Bind.bind, Except.bind, built]

theorem Accepts.seq {r : Record (α → β)} {s : Record α} {f : α → β} {a : α}
    (hf : r.Accepts source get f) (ha : s.Accepts source get a) :
    (r <*> s).Accepts source get (f a) where
  checks := by
    intro field mem
    rcases List.mem_append.mp mem with mem | mem
    · exact hf.checks field mem
    · exact ha.checks field mem
  builds := by
    intro absent byPosition
    have first := hf.builds absent byPosition
    have second := ha.builds absent byPosition
    simp only [Seq.seq, Pure.pure, Except.pure, Bind.bind, Except.bind, first, second]

/-! Visiting the members of an object -/

def drafts (members : List (String × Value)) : List (String × Draft) :=
  members.map fun m => (m.1, Draft.ofValue m.2)

theorem lookup_drafts (members : List (String × Value)) (key : String) :
    (drafts members).lookup key = (members.lookup key).map Draft.ofValue :=
  Entries.lookup_map Draft.ofValue members key

theorem visit_ofMembers {fields : List Field} {members : List (String × Value)}
    {given : List (String × Draft)} (distinct : (members.map (·.1)).Nodup)
    (new : ∀ m ∈ members, given.lookup m.1 = none)
    (known : members.map (·.1) ⊆ fields.map (·.name))
    (checks : ∀ m ∈ members, ∀ field ∈ fields, field.name = m.1 →
      field.check source (Draft.ofValue m.2) = .ok ()) :
    visit fields source given (Draft.ofMembers members) =
      .ok ((drafts members).reverse ++ given) := by
  induction members generalizing given with
  | nil => rfl
  | cons m members ih =>
      obtain ⟨key, v⟩ := m
      obtain ⟨absent, rest⟩ := List.nodup_cons.mp distinct
      have vacant : given.lookup key = none := new (key, v) List.mem_cons_self
      have after : visit fields source ((key, Draft.ofValue v) :: given) (Draft.ofMembers members) =
          .ok ((drafts members).reverse ++ (key, Draft.ofValue v) :: given) := by
        refine ih rest ?_ ?_ ?_
        · intro m mem
          have other : (m.1 == key) = false := by
            rw [beq_eq_false_iff_ne]
            exact fun same => absent (List.mem_map.mpr ⟨m, mem, same⟩)
          rw [List.lookup_cons, other]
          exact new m (List.mem_cons_of_mem _ mem)
        · exact fun key mem => known (List.mem_cons_of_mem _ mem)
        · exact fun m mem => checks m (List.mem_cons_of_mem _ mem)
      cases found : fields.find? (·.name = key) with
      | none =>
          obtain ⟨field, mem, named⟩ := List.mem_map.mp (known List.mem_cons_self)
          have := List.find?_eq_none.mp found field mem
          exact absurd named (by simpa using this)
      | some field =>
          have named : field.name = key := by simpa using List.find?_some found
          have checked := checks (key, v) List.mem_cons_self field
            (List.mem_of_find?_eq_some found) named
          simp only [Draft.ofMembers, visit, found, vacant, checked, Option.isSome_none, Bind.bind,
            Except.bind, after]
          simp [drafts]

theorem lookup_reverse {β : Type} {ms : List (String × β)} (distinct : (ms.map (·.1)).Nodup)
    (key : String) : ms.reverse.lookup key = ms.lookup key := by
  induction ms with
  | nil => rfl
  | cons m ms ih =>
      obtain ⟨k, v⟩ := m
      obtain ⟨absent, rest⟩ := List.nodup_cons.mp distinct
      rw [List.reverse_cons, List.lookup_append, ih rest, Entries.lookup_pair, Entries.lookup_pair]
      by_cases same : key = k
      · have none : ms.lookup key = none := by
          refine List.lookup_eq_none_iff.mpr fun n mem => ?_
          simp only [bne_iff_ne]
          exact fun other => absent (List.mem_map.mpr ⟨n, mem, other.symm.trans same⟩)
        rw [none, if_pos same, if_pos same]
        rfl
      · rw [if_neg same, if_neg same]
        exact Option.or_none

/-- Members that a record accepts are all taken, whatever other fields there are. -/
theorem visit_accepted {r : Record α} {members : List (String × Value)} {a : α} {more : List Field}
    (distinct : (members.map (·.1)).Nodup)
    (known : members.map (·.1) ⊆ r.fields.map (·.name))
    (apart : ∀ field ∈ more, field.name ∉ members.map (·.1))
    (accepts : r.Accepts source (fun key => (members.lookup key).map Draft.ofValue) a) :
    visit (r.fields ++ more) source [] (Draft.ofMembers members) =
      .ok (drafts members).reverse := by
  rw [← List.append_nil (drafts members).reverse]
  refine visit_ofMembers distinct (fun _ _ => rfl) ?_ ?_
  · rw [List.map_append]
    exact fun key mem => List.mem_append_left _ (known mem)
  · intro m mem field inside named
    rcases List.mem_append.mp inside with inside | other
    · refine accepts.checks field inside _ ?_
      rw [named, Entries.lookup_of_mem distinct mem]
      rfl
    · exact absurd (named ▸ List.mem_map_of_mem mem) (apart field other)

theorem visit_of_accepts {r : Record α} {members : List (String × Value)} {a : α}
    (distinct : (members.map (·.1)).Nodup)
    (known : members.map (·.1) ⊆ r.fields.map (·.name))
    (accepts : r.Accepts source (fun key => (members.lookup key).map Draft.ofValue) a) :
    visit r.fields source [] (Draft.ofMembers members) = .ok (drafts members).reverse := by
  rw [← List.append_nil r.fields]
  exact visit_accepted distinct known (by simp) accepts

theorem lookup_reverse_drafts {members : List (String × Value)}
    (distinct : (members.map (·.1)).Nodup) (key : String) :
    (drafts members).reverse.lookup key = (members.lookup key).map Draft.ofValue := by
  have keys : (drafts members).map (·.1) = members.map (·.1) := by
    simp [drafts]
  rw [lookup_reverse (keys ▸ distinct), lookup_drafts]

theorem decode_ofValue {r : Record α} {members : List (String × Value)} {a : α} (name : String)
    {outside : Source} (enters : outside.enter = .ok source)
    (distinct : (members.map (·.1)).Nodup)
    (known : members.map (·.1) ⊆ r.fields.map (·.name))
    (accepts : r.Accepts source (fun key => (members.lookup key).map Draft.ofValue) a) :
    r.decode name outside (Draft.ofValue (.object members)) = .ok a := by
  simp only [Record.decode, Draft.ofValue, enters, Bind.bind, Except.bind,
    visit_of_accepts distinct known accepts, visitEnd, Pure.pure, Except.pure,
    lookup_reverse_drafts distinct, accepts.builds]

theorem visit_append {fields : List Field} {given : List (String × Draft)}
    (ms ns : List (Option String × Draft)) :
    visit fields source given (ms ++ ns) =
      visit fields source given ms >>= fun given => visit fields source given ns := by
  induction ms generalizing given with
  | nil => rfl
  | cons m ms ih =>
      obtain ⟨key, d⟩ := m
      cases key with
      | none => rfl
      | some key =>
          simp only [List.cons_append, visit]
          split
          · cases lift d.skip with
            | error e => rfl
            | ok _ => exact ih
          · rename_i field _
            split
            · rfl
            · cases field.check source d with
              | error e => rfl
              | ok _ => exact ih

theorem ofMembers_append (ms ns : List (String × Value)) :
    Draft.ofMembers (ms ++ ns) = Draft.ofMembers ms ++ Draft.ofMembers ns := by
  induction ms with
  | nil => rfl
  | cons m ms ih => simp only [List.cons_append, Draft.ofMembers, ih]

/-- An object is refused with its last member. -/
theorem decode_ofValue_of_error {r : Record (β → α)} {members : List (String × Value)}
    {read : Decoder β} {key : String} {v : Value} {f : β → α} {e : Error} (name : String)
    {outside : Source} (enters : outside.enter = .ok source)
    (distinct : (members.map (·.1)).Nodup) (new : key ∉ r.fields.map (·.name))
    (known : members.map (·.1) ⊆ r.fields.map (·.name))
    (accepts : r.Accepts source (fun key => (members.lookup key).map Draft.ofValue) f)
    (refuses : read source (Draft.ofValue v) = .error e) :
    (r <*> required key read).decode name outside (Draft.ofValue (.object (members ++ [(key, v)]))) =
      .error e := by
  have fields : (r <*> required key read).fields = r.fields ++ (required key read).fields := rfl
  have visited : visit (r <*> required key read).fields source [] (Draft.ofMembers members) =
      .ok (drafts members).reverse := by
    refine visit_accepted distinct known (fun field mem => ?_) accepts
    rw [List.mem_singleton.mp mem]
    exact fun inside => new (known inside)
  have vacant : (drafts members).reverse.lookup key = none := by
    rw [lookup_reverse_drafts distinct, Option.map_eq_none_iff, List.lookup_eq_none_iff]
    simp only [bne_iff_ne]
    exact fun m mem same => new (same ▸ known (List.mem_map_of_mem mem))
  have found : (r <*> required key read).fields.find? (·.name = key) =
      some ⟨key, fun source d => do let _ ← read source d⟩ := by
    have absent : r.fields.find? (·.name = key) = none := by
      refine List.find?_eq_none.mpr fun field mem => ?_
      simpa using fun named => new (List.mem_map.mpr ⟨field, mem, named⟩)
    rw [fields, List.find?_append, absent]
    simp [required, Record.field]
  simp only [Record.decode, Draft.ofValue, enters, ofMembers_append, visit_append, visited, visit,
    Draft.ofMembers, Bind.bind, Except.bind, found, vacant, Option.isSome_none, refuses]
  rfl

/-! The order of members -/

/-- Members with distinct keys in some other order. -/
structure Rearranged (ms ns : List (String × Value)) : Prop where
  distinct : (ms.map (·.1)).Nodup
  subset : ms ⊆ ns
  lookup : ∀ key, ms.lookup key = ns.lookup key

theorem Rearranged.refl {ms : List (String × Value)} (distinct : (ms.map (·.1)).Nodup) :
    Rearranged ms ms := ⟨distinct, List.Subset.refl ms, fun _ => rfl⟩

theorem decode_rearranged {r : Record α} {ms ns : List (String × Value)} {a : α} (name : String)
    {outside : Source} (enters : outside.enter = .ok source) (rearranged : Rearranged ms ns)
    (known : ns.map (·.1) ⊆ r.fields.map (·.name))
    (accepts : r.Accepts source (fun key => (ns.lookup key).map Draft.ofValue) a) :
    r.decode name outside (Draft.ofValue (.object ms)) = .ok a := by
  refine decode_ofValue name enters rearranged.distinct ?_ ?_
  · exact fun key mem => known (List.map_subset _ rearranged.subset mem)
  · simp only [rearranged.lookup]
    exact accepts

/-! A structure that holds the fields of another one beside its own -/

section Flat

variable {fields : List Field} {members : List (String × Value)}

def isNamed (fields : List Field) (key : String) : Bool := fields.any (·.name = key)

def named (fields : List Field) (members : List (String × Value)) : List (String × Value) :=
  members.filter fun m => isNamed fields m.1

def unnamed (fields : List Field) (members : List (String × Value)) : List (String × Value) :=
  members.filter fun m => !isNamed fields m.1

theorem isNamed_iff {key : String} :
    isNamed fields key = true ↔ key ∈ fields.map (·.name) := by
  simp [isNamed]

theorem lookup_filter (p : String → Bool) (members : List (String × Value)) (key : String) :
    (members.filter fun m => p m.1).lookup key = if p key then members.lookup key else none := by
  induction members with
  | nil => exact (ite_self none).symm
  | cons m members ih =>
      obtain ⟨k, v⟩ := m
      rw [List.filter_cons]
      by_cases kept : p k = true
      · rw [if_pos kept, Entries.lookup_pair, Entries.lookup_pair, ih]
        by_cases same : key = k
        · subst same
          rw [if_pos rfl, if_pos rfl, if_pos kept]
        · rw [if_neg same, if_neg same]
      · rw [if_neg kept, ih, Entries.lookup_pair]
        by_cases same : key = k
        · subst same
          rw [if_neg kept, if_neg kept]
        · rw [if_neg same]

/-- The members that are named go to one side, the others to the other one. -/
theorem visitRest_ofMembers {given rest : List (String × Draft)}
    (distinct : (members.map (·.1)).Nodup) (new : ∀ m ∈ members, given.lookup m.1 = none)
    (checks : ∀ m ∈ members, ∀ field ∈ fields, field.name = m.1 →
      field.check source (Draft.ofValue m.2) = .ok ())
    (others : ∀ m ∈ members, ∃ v, Decoder.value source (Draft.ofValue m.2) = .ok v) :
    visitRest fields source given rest (Draft.ofMembers members) =
      .ok ((drafts (named fields members)).reverse ++ given,
        rest.reverse ++ drafts (unnamed fields members)) := by
  unfold named unnamed
  induction members generalizing given rest with
  | nil => simp [Draft.ofMembers, visitRest, drafts, pure, Except.pure]
  | cons m members ih =>
      obtain ⟨key, v⟩ := m
      obtain ⟨absent, later⟩ := List.nodup_cons.mp distinct
      obtain ⟨vacant, new⟩ := List.forall_mem_cons.mp new
      obtain ⟨check, checks⟩ := List.forall_mem_cons.mp checks
      obtain ⟨⟨w, read⟩, others⟩ := List.forall_mem_cons.mp others
      cases found : fields.find? (·.name = key) with
      | none =>
          have named : isNamed fields key = false := by
            simpa [isNamed] using List.find?_eq_none.mp found
          simp only [Draft.ofMembers, visitRest, found, read, Bind.bind, Except.bind,
            ih later new checks others, List.filter_cons, named]
          simp [drafts]
      | some field =>
          have mem := List.mem_of_find?_eq_some found
          have own : field.name = key := by simpa using List.find?_some found
          have named : isNamed fields key = true :=
            List.any_eq_true.mpr ⟨field, mem, decide_eq_true own⟩
          have still : ∀ m ∈ members, ((key, Draft.ofValue v) :: given).lookup m.1 = none := by
            intro m among
            have other : m.1 ≠ key := fun same => absent (List.mem_map.mpr ⟨m, among, same⟩)
            rw [Entries.lookup_pair, if_neg other]
            exact new m among
          simp only [Draft.ofMembers, visitRest, found, vacant, check field mem own,
            Option.isSome_none, Bind.bind, Except.bind, ih later still checks others,
            List.filter_cons, named]
          simp [drafts]

theorem map_drafts (members : List (String × Value)) :
    (drafts members).map (fun m => (some m.1, m.2)) = Draft.ofMembers members := by
  induction members with
  | nil => rfl
  | cons m members ih => exact congrArg (_ :: ·) ih

/-- The outer record takes the members that it names, the inner one takes the others. -/
theorem decodeFlat_ofValue {outer : Record (β → α)} {inner : Record β} {f : β → α} {b : β}
    (name : String) {outside : Source} (enters : outside.enter = .ok source)
    (distinct : (members.map (·.1)).Nodup)
    (known : ∀ m ∈ unnamed outer.fields members, isNamed inner.fields m.1 = true)
    (others : ∀ m ∈ members, ∃ v, Decoder.value source (Draft.ofValue m.2) = .ok v)
    (first : outer.Accepts source
      (fun key => ((named outer.fields members).lookup key).map Draft.ofValue) f)
    (second : inner.Accepts .value
      (fun key => ((unnamed outer.fields members).lookup key).map Draft.ofValue) b) :
    decodeFlat name outer inner outside (Draft.ofValue (.object members)) = .ok (f b) := by
  have distinctNamed : ((named outer.fields members).map (·.1)).Nodup :=
    distinct.sublist (List.filter_sublist.map _)
  have distinctUnnamed : ((unnamed outer.fields members).map (·.1)).Nodup :=
    distinct.sublist (List.filter_sublist.map _)
  have parted : visitRest outer.fields source [] [] (Draft.ofMembers members) =
      .ok ((drafts (named outer.fields members)).reverse ++ [],
        [].reverse ++ drafts (unnamed outer.fields members)) := by
    refine visitRest_ofMembers distinct (fun _ _ => rfl) (fun m mem field inside own => ?_) others
    have taken : m ∈ named outer.fields members :=
      List.mem_filter.mpr ⟨mem, isNamed_iff.mpr (own ▸ List.mem_map_of_mem inside)⟩
    refine first.checks field inside _ ?_
    rw [own, Entries.lookup_of_mem distinctNamed taken]
    rfl
  have kept : (drafts (unnamed outer.fields members)).filter
      (fun m => inner.fields.any (·.name = m.1)) = drafts (unnamed outer.fields members) := by
    refine List.filter_eq_self.mpr fun m mem => ?_
    obtain ⟨n, among, rfl⟩ := List.mem_map.mp mem
    exact known n among
  have visited : visit inner.fields .value [] (Draft.ofMembers (unnamed outer.fields members)) =
      .ok (drafts (unnamed outer.fields members)).reverse := by
    refine visit_of_accepts distinctUnnamed (fun key mem => ?_) second
    obtain ⟨m, among, rfl⟩ := List.mem_map.mp mem
    exact isNamed_iff.mp (known m among)
  simp only [decodeFlat, Draft.ofValue, enters, Bind.bind, Except.bind, parted, visitEnd, Pure.pure,
    Except.pure, List.append_nil, List.reverse_nil, List.nil_append, kept, map_drafts, visited,
    lookup_reverse_drafts distinctNamed, lookup_reverse_drafts distinctUnnamed, first.builds,
    second.builds]

end Flat

end Json.Record

end SmsTracking
