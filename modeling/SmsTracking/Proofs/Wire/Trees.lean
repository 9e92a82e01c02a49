import Mathlib.Data.List.Induction
import Mathlib.Data.String.Basic
import SmsTracking.Json.Draft
import SmsTracking.Proofs.Wire.Records

/-!
Values as trees. A value whose objects have their members sorted is the one that its own draft is read
as, within the limit on nesting (`value_ofValue`), and whatever a draft is read as has its members
sorted and keeps to the limit (`tree_of_value`).
-/

namespace SmsTracking.Json

namespace Value

/-- Induction over a tree, with the hypothesis for each item of an array and each member of an object. -/
theorem induct {motive : Value → Prop} (null : motive .null) (bool : ∀ b, motive (.bool b))
    (number : ∀ n, motive (.number n)) (string : ∀ s, motive (.string s))
    (array : ∀ items, (∀ v ∈ items, motive v) → motive (.array items))
    (object : ∀ members, (∀ m ∈ members, motive m.2) → motive (.object members)) (v : Value) :
    motive v :=
  @Value.rec motive (fun items => ∀ v ∈ items, motive v) (fun ms => ∀ m ∈ ms, motive m.2)
    (fun m => motive m.2) null bool number string array object (by simp)
    (fun _ _ first rest => List.forall_mem_cons.mpr ⟨first, rest⟩) (by simp)
    (fun _ _ first rest => List.forall_mem_cons.mpr ⟨first, rest⟩) (fun _ _ h => h) v

/-! What is true at every place of a tree -/

mutual

def all (p : Value → Bool) : Value → Bool
  | .array xs => p (.array xs) && allItems p xs
  | .object ms => p (.object ms) && allMembers p ms
  | v => p v

def allItems (p : Value → Bool) : List Value → Bool
  | [] => true
  | x :: xs => all p x && allItems p xs

def allMembers (p : Value → Bool) : List (String × Value) → Bool
  | [] => true
  | (_, x) :: ms => all p x && allMembers p ms

end

def isFloatFree (v : Value) : Bool :=
  v.all fun
    | .number (.float _) => false
    | _ => true

/-- Every object has its members sorted, each key once. -/
def isSorted (v : Value) : Bool :=
  v.all fun
    | .object ms => (ms.map (·.1)).Pairwise (· < ·)
    | _ => true

mutual

/-- The same tree with the members of every object sorted. -/
def sorted : Value → Value
  | .array xs => .array (sortedItems xs)
  | .object ms => .object (sortMembers (sortedMembers ms))
  | v => v

def sortedItems : List Value → List Value
  | [] => []
  | x :: xs => sorted x :: sortedItems xs

def sortedMembers : List (String × Value) → List (String × Value)
  | [] => []
  | (k, x) :: ms => (k, sorted x) :: sortedMembers ms

end

theorem allItems_iff {p : Value → Bool} {xs : List Value} :
    allItems p xs = true ↔ ∀ x ∈ xs, x.all p = true := by
  induction xs with
  | nil => simp [allItems]
  | cons x xs ih => simp [allItems, ih]

theorem allMembers_iff {p : Value → Bool} {ms : List (String × Value)} :
    allMembers p ms = true ↔ ∀ m ∈ ms, m.2.all p = true := by
  induction ms with
  | nil => simp [allMembers]
  | cons m ms ih => simp [allMembers, ih]

theorem isFloatFree_array {xs : List Value} :
    (Value.array xs).isFloatFree = true ↔ ∀ x ∈ xs, x.isFloatFree = true := by
  simp [isFloatFree, all, allItems_iff]

theorem isFloatFree_object {ms : List (String × Value)} :
    (Value.object ms).isFloatFree = true ↔ ∀ m ∈ ms, m.2.isFloatFree = true := by
  simp [isFloatFree, all, allMembers_iff]

theorem isSorted_array {xs : List Value} :
    (Value.array xs).isSorted = true ↔ ∀ x ∈ xs, x.isSorted = true := by
  simp [isSorted, all, allItems_iff]

theorem isSorted_object {ms : List (String × Value)} :
    (Value.object ms).isSorted = true ↔
      (ms.map (·.1)).Pairwise (· < ·) ∧ ∀ m ∈ ms, m.2.isSorted = true := by
  simp [isSorted, all, allMembers_iff]

theorem depthItems_le_iff {xs : List Value} {n : Nat} :
    depthItems xs ≤ n ↔ ∀ x ∈ xs, x.depth ≤ n := by
  induction xs with
  | nil => simp [depthItems]
  | cons x xs ih => simp [depthItems, ih]

theorem depthMembers_le_iff {ms : List (String × Value)} {n : Nat} :
    depthMembers ms ≤ n ↔ ∀ m ∈ ms, m.2.depth ≤ n := by
  induction ms with
  | nil => simp [depthMembers]
  | cons m ms ih => simp [depthMembers, ih]

/-! Sorting the members of an object -/

section Sorting

variable {key : String} {v : Value} {ms : List (String × Value)}

theorem mem_putMember {m : String × Value} (mem : m ∈ putMember key v ms) :
    m = (key, v) ∨ m ∈ ms := by
  induction ms with
  | nil => exact .inl (List.mem_singleton.mp mem)
  | cons n ms ih =>
      obtain ⟨k, w⟩ := n
      simp only [putMember] at mem
      split at mem
      · exact List.mem_cons.mp mem
      · split at mem
        · rcases List.mem_cons.mp mem with new | old
          · exact .inl new
          · exact .inr (List.mem_cons_of_mem _ old)
        · rcases List.mem_cons.mp mem with here | later
          · exact .inr (here ▸ List.mem_cons_self)
          · exact (ih later).imp_right (List.mem_cons_of_mem _)

theorem pairwise_putMember (sorted : (ms.map (·.1)).Pairwise (· < ·)) :
    ((putMember key v ms).map (·.1)).Pairwise (· < ·) := by
  induction ms with
  | nil => simp [putMember]
  | cons n ms ih =>
      obtain ⟨k, w⟩ := n
      rw [List.map_cons, List.pairwise_cons] at sorted
      obtain ⟨least, rest⟩ := sorted
      simp only [putMember]
      split
      · rename_i smaller
        rw [List.map_cons, List.map_cons, List.pairwise_cons, List.pairwise_cons]
        refine ⟨fun l mem => ?_, least, rest⟩
        rcases List.mem_cons.mp mem with rfl | mem
        · exact smaller
        · exact lt_trans smaller (least l mem)
      · split
        · rename_i same
          subst same
          rw [List.map_cons, List.pairwise_cons]
          exact ⟨least, rest⟩
        · rename_i notSmaller other
          rw [List.map_cons, List.pairwise_cons]
          refine ⟨fun l mem => ?_, ih rest⟩
          obtain ⟨m, placed, rfl⟩ := List.mem_map.mp mem
          rcases mem_putMember placed with rfl | old
          · exact lt_of_le_of_ne (not_lt.mp notSmaller) (Ne.symm other)
          · exact least m.1 (List.mem_map_of_mem old)

theorem lookup_putMember (l : String) :
    (putMember key v ms).lookup l = if l = key then some v else ms.lookup l := by
  induction ms with
  | nil => rw [putMember, Entries.lookup_pair]
  | cons n ms ih =>
      obtain ⟨k, w⟩ := n
      simp only [putMember]
      split
      · rw [Entries.lookup_pair]
      · split
        · rename_i same
          subst same
          simp only [Entries.lookup_pair]
          split <;> rfl
        · rename_i other
          simp only [Entries.lookup_pair, ih]
          by_cases own : l = k
          · subst own
            rw [if_pos rfl, if_neg (Ne.symm other), if_pos rfl]
          · rw [if_neg own, if_neg own]

theorem putMember_of_greatest (greatest : ∀ m ∈ ms, m.1 < key) :
    putMember key v ms = ms ++ [(key, v)] := by
  induction ms with
  | nil => rfl
  | cons n ms ih =>
      obtain ⟨k, w⟩ := n
      obtain ⟨smaller, rest⟩ := List.forall_mem_cons.mp greatest
      simp only [putMember, if_neg (not_lt_of_gt smaller), if_neg (ne_of_gt smaller), ih rest,
        List.cons_append]

theorem sortMembers_append (m : String × Value) :
    sortMembers (ms ++ [m]) = putMember m.1 m.2 (sortMembers ms) := by
  simp [sortMembers]

theorem mem_sortMembers {m : String × Value} (mem : m ∈ sortMembers ms) : m ∈ ms := by
  induction ms using List.reverseRecOn with
  | nil => exact mem
  | append_singleton ms n ih =>
      rw [sortMembers_append] at mem
      rcases mem_putMember mem with rfl | mem
      · exact List.mem_append_right _ (List.mem_singleton_self n)
      · exact List.mem_append_left _ (ih mem)

theorem pairwise_sortMembers (ms : List (String × Value)) :
    ((sortMembers ms).map (·.1)).Pairwise (· < ·) := by
  induction ms using List.reverseRecOn with
  | nil => exact List.Pairwise.nil
  | append_singleton ms n ih =>
      rw [sortMembers_append]
      exact pairwise_putMember ih

/-- Of members with the same key the last one counts. -/
theorem lookup_sortMembers (ms : List (String × Value)) (key : String) :
    (sortMembers ms).lookup key = ms.reverse.lookup key := by
  induction ms using List.reverseRecOn with
  | nil => rfl
  | append_singleton ms n ih =>
      rw [sortMembers_append, lookup_putMember, ih, List.reverse_append, List.reverse_singleton,
        List.singleton_append, Entries.lookup_pair]

theorem sortMembers_of_pairwise (sorted : (ms.map (·.1)).Pairwise (· < ·)) : sortMembers ms = ms := by
  induction ms using List.reverseRecOn with
  | nil => rfl
  | append_singleton ms n ih =>
      rw [List.map_append, List.pairwise_append] at sorted
      rw [sortMembers_append, ih sorted.1]
      refine putMember_of_greatest fun m mem => ?_
      exact sorted.2.2 m.1 (List.mem_map_of_mem mem) n.1 (List.mem_singleton_self _)

theorem putMember_perm (new : key ∉ ms.map (·.1)) :
    (putMember key v ms).Perm ((key, v) :: ms) := by
  induction ms with
  | nil => exact .refl _
  | cons n ms ih =>
      obtain ⟨k, w⟩ := n
      simp only [putMember]
      split
      · exact .refl _
      · split
        · rename_i same
          exact absurd (same ▸ List.mem_cons_self) new
        · have absent : key ∉ ms.map (·.1) := fun mem => new (List.mem_cons_of_mem _ mem)
          exact ((ih absent).cons _).trans (.swap ..)

theorem sortMembers_perm (distinct : (ms.map (·.1)).Nodup) : (sortMembers ms).Perm ms := by
  induction ms using List.reverseRecOn with
  | nil => exact .refl _
  | append_singleton ms n ih =>
      rw [List.map_append, List.nodup_append] at distinct
      obtain ⟨earlier, _, apart⟩ := distinct
      have sorted := ih earlier
      rw [sortMembers_append]
      refine (putMember_perm fun mem => ?_).trans ((sorted.cons n).trans ?_)
      · rw [(sorted.map _).mem_iff] at mem
        exact apart _ mem _ (List.mem_singleton_self _) rfl
      · exact (List.perm_append_singleton n ms).symm

end Sorting

theorem sortedMembers_eq_map (ms : List (String × Value)) :
    sortedMembers ms = ms.map fun m => (m.1, m.2.sorted) := by
  induction ms with
  | nil => rfl
  | cons m ms ih => rw [sortedMembers, ih, List.map_cons]

theorem sortedItems_eq_map (xs : List Value) : sortedItems xs = xs.map sorted := by
  induction xs with
  | nil => rfl
  | cons x xs ih => rw [sortedItems, ih, List.map_cons]

theorem map_fst_sortedMembers (ms : List (String × Value)) :
    (sortedMembers ms).map (·.1) = ms.map (·.1) := by
  rw [sortedMembers_eq_map, List.map_map]
  rfl

theorem sortedItems_of_forall {xs : List Value} (each : ∀ x ∈ xs, x.sorted = x) :
    sortedItems xs = xs := by
  rw [sortedItems_eq_map]
  exact (List.map_congr_left each).trans (List.map_id' xs)

theorem sortedMembers_of_forall {ms : List (String × Value)} (each : ∀ m ∈ ms, m.2.sorted = m.2) :
    sortedMembers ms = ms := by
  have same : ∀ m ∈ ms, (m.1, m.2.sorted) = m := fun m mem => Prod.ext rfl (each m mem)
  rw [sortedMembers_eq_map]
  exact (List.map_congr_left same).trans (List.map_id' ms)

theorem sorted_of_isSorted {v : Value} (h : v.isSorted = true) : v.sorted = v := by
  induction v using Value.induct with
  | null | bool _ | number _ | string _ => rfl
  | array items ih =>
      rw [sorted, sortedItems_of_forall fun x mem => ih x mem (isSorted_array.mp h x mem)]
  | object members ih =>
      obtain ⟨keys, inside⟩ := isSorted_object.mp h
      rw [sorted, sortedMembers_of_forall fun m mem => ih m mem (inside m mem),
        sortMembers_of_pairwise keys]

/-! Values with nothing inside -/

/-- Neither an array nor an object, and no float either. -/
def isScalar : Value → Bool
  | null | bool _ | number (.whole _) | string _ => true
  | number (.float _) | array _ | object _ => false

theorem isFloatFree_of_isScalar {v : Value} (h : v.isScalar = true) : v.isFloatFree = true := by
  cases v with
  | null | bool _ | string _ => rfl
  | array _ | object _ => cases h
  | number n =>
      cases n with
      | whole _ => rfl
      | float _ => cases h

theorem isSorted_of_isScalar {v : Value} (h : v.isScalar = true) : v.isSorted = true := by
  cases v with
  | null | bool _ | number _ | string _ => rfl
  | array _ | object _ => cases h

theorem depth_of_isScalar {v : Value} (h : v.isScalar = true) : v.depth = 0 := by
  cases v with
  | null | bool _ | number _ | string _ => rfl
  | array _ | object _ => cases h

section Flat

variable {ms : List (String × Value)} (scalars : ∀ m ∈ ms, m.2.isScalar = true)

include scalars

theorem isFloatFree_of_scalars : (object ms).isFloatFree = true :=
  isFloatFree_object.mpr fun m mem => isFloatFree_of_isScalar (scalars m mem)

theorem sorted_of_scalars : (object ms).sorted = .object (sortMembers ms) := by
  rw [sorted, sortedMembers_of_forall fun m mem =>
    sorted_of_isSorted (isSorted_of_isScalar (scalars m mem))]

theorem isSorted_of_scalars : (object (sortMembers ms)).isSorted = true :=
  isSorted_object.mpr ⟨pairwise_sortMembers ms,
    fun m mem => isSorted_of_isScalar (scalars m (mem_sortMembers mem))⟩

theorem depth_of_scalars : (object ms).depth ≤ 1 :=
  Nat.succ_le_succ (depthMembers_le_iff.mpr fun m mem => (depth_of_isScalar (scalars m mem)).le)

end Flat

end Value

theorem Record.rearranged_sortMembers {ms : List (String × Value)}
    (distinct : (ms.map (·.1)).Nodup) : Rearranged (Value.sortMembers ms) ms where
  distinct := (Value.pairwise_sortMembers ms).imp ne_of_lt
  subset _ := Value.mem_sortMembers
  lookup key := by rw [Value.lookup_sortMembers, lookup_reverse distinct]

namespace Draft

theorem induct {motive : Draft → Prop} (null : motive .null) (bool : ∀ b, motive (.bool b))
    (number : ∀ n, motive (.number n)) (string : ∀ s, motive (.string s))
    (array : ∀ items stop, (∀ d ∈ items, motive d) → motive (.array items stop))
    (object : ∀ members finish, (∀ m ∈ members, motive m.2) → motive (.object members finish))
    (absent : ∀ reason, motive (.absent reason))
    (cutString : ∀ strict loose, motive (.cutString strict loose))
    (cutScalar : ∀ strict loose, motive (.cutScalar strict loose)) (d : Draft) : motive d :=
  @Draft.rec motive (fun items => ∀ d ∈ items, motive d) (fun ms => ∀ m ∈ ms, motive m.2)
    (fun m => motive m.2) null bool number string (fun items stop h => array items stop h)
    (fun members finish h => object members finish h) absent cutString cutScalar (by simp)
    (fun _ _ first rest => List.forall_mem_cons.mpr ⟨first, rest⟩) (by simp)
    (fun _ _ first rest => List.forall_mem_cons.mpr ⟨first, rest⟩) (fun _ _ h => h) d

/-! What a draft is read as -/

theorem value_of_mem_items {limit : Nat} {ds : List Draft} {vs : List Value}
    (read : valueItems limit ds = .ok vs) {v : Value} (mem : v ∈ vs) :
    ∃ d ∈ ds, d.value limit = .ok v := by
  induction ds generalizing vs with
  | nil =>
      cases read
      cases mem
  | cons d ds ih =>
      obtain ⟨w, first, read⟩ := ok_of_bind read
      obtain ⟨ws, rest, read⟩ := ok_of_bind read
      cases read
      rcases List.mem_cons.mp mem with rfl | mem
      · exact ⟨d, List.mem_cons_self, first⟩
      · obtain ⟨e, among, made⟩ := ih rest mem
        exact ⟨e, List.mem_cons_of_mem _ among, made⟩

theorem value_of_mem_members {limit : Nat} {ds : List (Option String × Draft)}
    {ms : List (String × Value)} (read : valueMembers limit ds = .ok ms) {m : String × Value}
    (mem : m ∈ ms) : ∃ d ∈ ds, d.2.value limit = .ok m.2 := by
  induction ds generalizing ms with
  | nil =>
      cases read
      cases mem
  | cons d ds ih =>
      obtain ⟨key, d⟩ := d
      cases key with
      | none => cases read
      | some k =>
          obtain ⟨w, first, read⟩ := ok_of_bind read
          obtain ⟨ws, rest, read⟩ := ok_of_bind read
          cases read
          rcases List.mem_cons.mp mem with rfl | mem
          · exact ⟨(some k, d), List.mem_cons_self, first⟩
          · obtain ⟨e, among, made⟩ := ih rest mem
            exact ⟨e, List.mem_cons_of_mem _ among, made⟩

/-- What is read has its members sorted and is not nested deeper than the limit allows. -/
theorem tree_of_value {d : Draft} {limit : Nat} {v : Value} (read : d.value limit = .ok v) :
    v.isSorted = true ∧ v.depth ≤ limit := by
  induction d using Draft.induct generalizing limit v with
  | null | bool _ =>
      cases read
      exact ⟨rfl, Nat.zero_le _⟩
  | number n | string n =>
      cases n with
      | none => cases read
      | some n =>
          cases read
          exact ⟨rfl, Nat.zero_le _⟩
  | absent _ | cutString _ _ | cutScalar _ _ => cases read
  | array items stop ih =>
      cases limit with
      | zero => cases read
      | succ limit =>
          obtain ⟨vs, inside, read⟩ := ok_of_bind read
          cases stop with
          | some b => cases read
          | none =>
              cases read
              have each : ∀ x ∈ vs, x.isSorted = true ∧ x.depth ≤ limit := by
                intro x mem
                obtain ⟨d, among, made⟩ := value_of_mem_items inside mem
                exact ih d among made
              refine ⟨Value.isSorted_array.mpr fun x mem => (each x mem).1, Nat.succ_le_succ ?_⟩
              exact Value.depthItems_le_iff.mpr fun x mem => (each x mem).2
  | object members finish ih =>
      cases limit with
      | zero => cases read
      | succ limit =>
          obtain ⟨ms, inside, read⟩ := ok_of_bind read
          cases finish with
          | «open» reason => cases read
          | noKey strict loose found => cases read
          | closed =>
              cases read
              have each : ∀ m ∈ Value.sortMembers ms, m.2.isSorted = true ∧ m.2.depth ≤ limit := by
                intro m mem
                obtain ⟨d, among, made⟩ := value_of_mem_members inside (Value.mem_sortMembers mem)
                exact ih d among made
              refine ⟨Value.isSorted_object.mpr ⟨Value.pairwise_sortMembers ms,
                fun m mem => (each m mem).1⟩, Nat.succ_le_succ ?_⟩
              exact Value.depthMembers_le_iff.mpr fun m mem => (each m mem).2

theorem valueItems_ofItems {limit : Nat} {xs : List Value}
    (each : ∀ x ∈ xs, (ofValue x).value limit =
      if x.depth ≤ limit then .ok x.sorted else .error .syntaxError) :
    valueItems limit (ofItems xs) =
      if Value.depthItems xs ≤ limit then .ok (Value.sortedItems xs) else .error .syntaxError := by
  induction xs with
  | nil => rfl
  | cons x xs ih =>
      obtain ⟨first, rest⟩ := List.forall_mem_cons.mp each
      simp only [ofItems, valueItems, first, ih rest, Value.depthItems, Nat.max_le]
      by_cases here : x.depth ≤ limit
      · by_cases later : Value.depthItems xs ≤ limit
        · simp only [here, later, and_self, if_true]
          rfl
        · simp only [here, later, and_false, if_true, if_false]
          rfl
      · simp only [here, false_and, if_false]
        rfl

theorem valueMembers_ofMembers {limit : Nat} {ms : List (String × Value)}
    (each : ∀ m ∈ ms, (ofValue m.2).value limit =
      if m.2.depth ≤ limit then .ok m.2.sorted else .error .syntaxError) :
    valueMembers limit (ofMembers ms) =
      if Value.depthMembers ms ≤ limit then .ok (Value.sortedMembers ms) else .error .syntaxError := by
  induction ms with
  | nil => rfl
  | cons m ms ih =>
      obtain ⟨first, rest⟩ := List.forall_mem_cons.mp each
      simp only [ofMembers, valueMembers, first, ih rest, Value.depthMembers, Nat.max_le]
      by_cases here : m.2.depth ≤ limit
      · by_cases later : Value.depthMembers ms ≤ limit
        · simp only [here, later, and_self, if_true]
          rfl
        · simp only [here, later, and_false, if_true, if_false]
          rfl
      · simp only [here, false_and, if_false]
        rfl

/-- A value is read from its own draft if it is not nested too deep. -/
theorem value_ofValue (v : Value) (limit : Nat) :
    (ofValue v).value limit = if v.depth ≤ limit then .ok v.sorted else .error .syntaxError := by
  induction v using Value.induct generalizing limit with
  | null | bool _ | number _ | string _ => exact (if_pos (Nat.zero_le limit)).symm
  | array items ih =>
      cases limit with
      | zero => rfl
      | succ limit =>
          simp only [ofValue, value, valueItems_ofItems fun x mem => ih x mem limit, Value.depth,
            Nat.add_le_add_iff_right]
          split <;> rfl
  | object members ih =>
      cases limit with
      | zero => rfl
      | succ limit =>
          simp only [ofValue, value, valueMembers_ofMembers fun m mem => ih m mem limit,
            Value.depth, Nat.add_le_add_iff_right]
          split <;> rfl

end Draft

end SmsTracking.Json
