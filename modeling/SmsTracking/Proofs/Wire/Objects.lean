import SmsTracking.Proofs.Wire.Kinds
import SmsTracking.Proofs.Wire.Trees

/-!
What a record makes of any object and of any array. Of an object it takes the members that it names
and passes over the others, of an array as many items as it has fields. Main statements: an object
with distinct keys is read exactly if each of the members that are named passes the check of its
field and the record can be built from them (`decode_object_iff`), and an array under the same
condition on its items if it has no more of them than there are fields (`decode_array_iff`).
-/

namespace SmsTracking.Json

namespace Draft

theorem skipItems_ofItems {items : List Value} (each : ∀ v ∈ items, (ofValue v).skip = .ok ()) :
    skipItems (ofItems items) = .ok () := by
  induction items with
  | nil => rfl
  | cons v items ih =>
      obtain ⟨first, rest⟩ := List.forall_mem_cons.mp each
      rw [ofItems, skipItems, first]
      exact ih rest

theorem skipMembers_ofMembers {members : List (String × Value)}
    (each : ∀ m ∈ members, (ofValue m.2).skip = .ok ()) :
    skipMembers (ofMembers members) = .ok () := by
  induction members with
  | nil => rfl
  | cons m members ih =>
      obtain ⟨first, rest⟩ := List.forall_mem_cons.mp each
      rw [ofMembers, skipMembers, first]
      exact ih rest

/-- A value can always be passed over. -/
theorem skip_ofValue (v : Value) : (ofValue v).skip = .ok () := by
  induction v using Value.induct with
  | null | bool _ | number _ | string _ => rfl
  | array items ih =>
      rw [ofValue, skip, skipItems_ofItems ih]
      rfl
  | object members ih =>
      rw [ofValue, skip, skipMembers_ofMembers ih]
      rfl

theorem length_ofItems (items : List Value) : (ofItems items).length = items.length := by
  induction items with
  | nil => rfl
  | cons v items ih => rw [ofItems, List.length_cons, List.length_cons, ih]

end Draft

namespace Record

variable {α β : Type} {fields : List Field} {outside source : Source}

/-! Checks -/

/-- Whatever is built from has passed the checks of the fields. -/
def IsThorough (r : Record α) : Prop :=
  ∀ g a, r.build g = .ok a →
    ∀ field ∈ r.fields, ∀ d, g.get field.name = some d → field.check g.source d = .ok ()

theorem IsThorough.field {name : String} {decode : Decoder α}
    {absent : Given → Except Error α} : (field name decode absent).IsThorough := by
  intro g a built field mem d given
  rw [List.mem_singleton.mp mem] at given ⊢
  simp only [Record.field, given] at built
  exact ok_bind_iff.mpr ⟨a, built, rfl⟩

theorem IsThorough.map {r : Record α} (thorough : r.IsThorough) (f : α → β) :
    (f <$> r).IsThorough := by
  intro g b built field mem
  obtain ⟨a, built, _⟩ := build_map_iff.mp built
  exact thorough g a built field mem

theorem IsThorough.seq {r : Record (α → β)} {s : Record α} (first : r.IsThorough)
    (second : s.IsThorough) : (r <*> s).IsThorough := by
  intro g b built field mem
  obtain ⟨f, a, made, filled, _⟩ := build_seq_iff.mp built
  rcases List.mem_append.mp mem with mem | mem
  · exact first g f made field mem
  · exact second g a filled field mem

/-! Objects -/

/-- Each member that a field names passes its check. -/
def Checked (fields : List Field) (source : Source) (members : List (String × Value)) : Prop :=
  ∀ m ∈ members, ∀ field, fields.find? (·.name = m.1) = some field →
    field.check source (.ofValue m.2) = .ok ()

section Object

variable {members : List (String × Value)} (distinct : (members.map (·.1)).Nodup)

include distinct

theorem visit_ofMembers_iff {given out : List (String × Draft)}
    (new : ∀ m ∈ members, given.lookup m.1 = none) :
    visit fields source given (Draft.ofMembers members) = .ok out ↔
      Checked fields source members ∧
        out = (drafts (named fields members)).reverse ++ given := by
  unfold Checked named
  induction members generalizing given with
  | nil =>
      simp only [Draft.ofMembers, visit, List.not_mem_nil, false_imp_iff, implies_true, true_and,
        List.filter_nil, drafts, List.map_nil, List.reverse_nil, List.nil_append]
      exact ⟨fun same => (Except.ok.inj same).symm, fun same => congrArg Except.ok same.symm⟩
  | cons m members ih =>
      obtain ⟨key, v⟩ := m
      obtain ⟨absent, later⟩ := List.nodup_cons.mp distinct
      obtain ⟨vacant, new⟩ := List.forall_mem_cons.mp new
      rw [List.forall_mem_cons, List.filter_cons]
      cases found : fields.find? (·.name = key) with
      | none =>
          have other : isNamed fields key = false := by
            simpa [isNamed] using List.find?_eq_none.mp found
          have passed : visit fields source given (Draft.ofMembers ((key, v) :: members)) =
              visit fields source given (Draft.ofMembers members) := by
            rw [Draft.ofMembers, visit, found]
            simp only [Draft.skip_ofValue]
            rfl
          rw [passed, ih later new, other]
          simp only [reduceCtorEq, false_imp_iff, implies_true, true_and, Bool.false_eq_true,
            if_false]
      | some field =>
          have own : field.name = key := by simpa using List.find?_some found
          have inside : isNamed fields key = true :=
            List.any_eq_true.mpr ⟨field, List.mem_of_find?_eq_some found, decide_eq_true own⟩
          have still : ∀ m ∈ members, ((key, Draft.ofValue v) :: given).lookup m.1 = none := by
            intro m among
            have other : m.1 ≠ key := fun same => absent (List.mem_map.mpr ⟨m, among, same⟩)
            rw [Entries.lookup_pair, if_neg other]
            exact new m among
          rw [Draft.ofMembers, visit, found]
          simp only [vacant, Option.isSome_none, Bool.false_eq_true, if_false, ok_then_iff,
            ih later still, Option.some.injEq, forall_eq', inside, if_true, and_assoc]
          simp [drafts]

/-- What is built from is what stands under the names. -/
theorem decode_object_iff (r : Record α) (name : String) (enters : outside.enter = .ok source)
    {a : α} :
    r.decode name outside (.ofValue (.object members)) = .ok a ↔
      Checked r.fields source members ∧
        r.build
          { source, byPosition := false, absent := fun f => .data (.missingField f)
            get := fun key => ((named r.fields members).lookup key).map Draft.ofValue } = .ok a := by
  have keys : ((named r.fields members).map (·.1)).Nodup :=
    distinct.sublist (List.filter_sublist.map _)
  have visited (out : List (String × Draft)) :
      visit r.fields source [] (Draft.ofMembers members) = .ok out ↔
        Checked r.fields source members ∧ out = (drafts (named r.fields members)).reverse := by
    rw [visit_ofMembers_iff distinct fun _ _ => rfl, List.append_nil]
  have given : (fun key => (drafts (named r.fields members)).reverse.lookup key) =
      fun key => ((named r.fields members).lookup key).map Draft.ofValue :=
    funext (lookup_reverse_drafts keys)
  rw [Draft.ofValue, Record.decode]
  constructor
  · intro read
    obtain ⟨_, entered, read⟩ := ok_of_bind read
    cases enters.symm.trans entered
    obtain ⟨out, taken, read⟩ := ok_of_bind read
    obtain ⟨checked, rfl⟩ := (visited out).mp taken
    rw [given] at read
    exact ⟨checked, read⟩
  · rintro ⟨checked, built⟩
    refine ok_bind_iff.mpr ⟨_, enters, ok_bind_iff.mpr ⟨_, (visited _).mpr ⟨checked, rfl⟩, ?_⟩⟩
    rw [given]
    exact built

/-- The checks are no condition of their own where they are those of the fields that are built. -/
theorem decode_object_iff_of_isThorough {r : Record α} (thorough : r.IsThorough) (name : String)
    (enters : outside.enter = .ok source) {a : α} :
    r.decode name outside (.ofValue (.object members)) = .ok a ↔
      r.build
        { source, byPosition := false, absent := fun f => .data (.missingField f)
          get := fun key => ((named r.fields members).lookup key).map Draft.ofValue } = .ok a := by
  rw [decode_object_iff distinct r name enters]
  refine and_iff_right_of_imp fun built m mem field found => ?_
  have own : field.name = m.1 := by simpa using List.find?_some found
  have inside := List.mem_of_find?_eq_some found
  refine thorough _ a built field inside _ ?_
  have given : members.lookup m.1 = some m.2 := Entries.lookup_of_mem distinct mem
  have isNamed : isNamed r.fields m.1 = true := isNamed_iff.mpr (own ▸ List.mem_map_of_mem inside)
  simp only [own, named, lookup_filter, isNamed, if_true, given, Option.map_some]

end Object

/-! Arrays -/

/-- The items as members under the names of the fields, as far as both go. -/
def positioned (fields : List Field) (items : List Value) : List (String × Value) :=
  (fields.zip items).map fun p => (p.1.name, p.2)

theorem visitItems_ofItems_iff {items : List Value} {out : List (String × Draft)} :
    visitItems source none fields (Draft.ofItems items) = .ok out ↔
      (∀ p ∈ fields.zip items, p.1.check source (.ofValue p.2) = .ok ()) ∧
        out = drafts (positioned fields items) := by
  induction fields generalizing items out with
  | nil =>
      rw [visitItems, List.zip_nil_left]
      exact ⟨fun same => ⟨nofun, (Except.ok.inj same).symm⟩,
        fun ⟨_, same⟩ => congrArg Except.ok same.symm⟩
  | cons field fields ih =>
      cases items with
      | nil =>
          rw [List.zip_nil_right]
          exact ⟨fun same => ⟨nofun, (Except.ok.inj same).symm⟩,
            fun ⟨_, same⟩ => congrArg Except.ok same.symm⟩
      | cons v items =>
          rw [Draft.ofItems, visitItems, ok_then_iff, ok_bind_iff, List.zip_cons_cons,
            List.forall_mem_cons]
          constructor
          · rintro ⟨checked, given, taken, same⟩
            obtain ⟨rest, rfl⟩ := ih.mp taken
            exact ⟨⟨checked, rest⟩, (Except.ok.inj same).symm⟩
          · rintro ⟨⟨checked, rest⟩, rfl⟩
            exact ⟨checked, _, ih.mpr ⟨rest, rfl⟩, rfl⟩

theorem surplus_eq_ok_iff {length given : Nat} :
    surplus source length given none = .ok () ↔ given ≤ length := by
  unfold surplus
  split
  · rename_i less
    refine ⟨fun fits => ?_, fun fits => absurd fits (Nat.not_le_of_lt less)⟩
    cases source <;> cases fits
  · rename_i fits
    exact ⟨fun _ => Nat.le_of_not_lt fits, fun _ => rfl⟩

theorem decode_array_iff (r : Record α) (name : String) (enters : outside.enter = .ok source)
    {items : List Value} {a : α} :
    r.decode name outside (.ofValue (.array items)) = .ok a ↔
      (∀ p ∈ r.fields.zip items, p.1.check source (.ofValue p.2) = .ok ()) ∧
        items.length ≤ r.fields.length ∧
        r.build
          { source, byPosition := true
            absent := fun _ => .data (.wrongLength items.length
              ("struct " ++ name ++ " with " ++ toString r.fields.length ++ " elements"))
            get := fun key => ((positioned r.fields items).lookup key).map Draft.ofValue } =
          .ok a := by
  have given : (fun key => (drafts (positioned r.fields items)).lookup key) =
      fun key => ((positioned r.fields items).lookup key).map Draft.ofValue :=
    funext (lookup_drafts _)
  rw [Draft.ofValue, Record.decode, Draft.length_ofItems]
  constructor
  · intro read
    obtain ⟨_, entered, read⟩ := ok_of_bind read
    cases enters.symm.trans entered
    obtain ⟨out, taken, read⟩ := ok_of_bind read
    obtain ⟨checked, rfl⟩ := visitItems_ofItems_iff.mp taken
    obtain ⟨b, built, read⟩ := ok_of_bind read
    obtain ⟨fits, read⟩ := ok_then_iff.mp read
    cases read
    rw [given] at built
    exact ⟨checked, surplus_eq_ok_iff.mp fits, built⟩
  · rintro ⟨checked, fits, built⟩
    rw [← given] at built
    exact ok_bind_iff.mpr ⟨_, enters, ok_bind_iff.mpr ⟨_,
      visitItems_ofItems_iff.mpr ⟨checked, rfl⟩, ok_bind_iff.mpr ⟨a, built,
      ok_then_iff.mpr ⟨surplus_eq_ok_iff.mpr fits, rfl⟩⟩⟩⟩

end Record

end SmsTracking.Json
