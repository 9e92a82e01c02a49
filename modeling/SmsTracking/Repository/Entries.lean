/-!
Finite maps whose keys keep the order in which they came in. A value put under a key that is already
there takes the place of the old one. Main statements: what is found after `insert` and `erase`
(`find?_insert`, `find?_erase`).
-/

namespace SmsTracking

structure Entries (κ ν : Type) where
  toList : List (κ × ν) := []
  nodup_keys : (toList.map (·.1)).Nodup := by simp

namespace Entries

variable {κ ν : Type}

def keys (m : Entries κ ν) : List κ := m.toList.map (·.1)

def values (m : Entries κ ν) : List ν := m.toList.map (·.2)

def size (m : Entries κ ν) : Nat := m.toList.length

instance : EmptyCollection (Entries κ ν) := ⟨{}⟩

instance : Inhabited (Entries κ ν) := ⟨∅⟩

variable [DecidableEq κ]

def find? (m : Entries κ ν) (k : κ) : Option ν := m.toList.lookup k

def put (k : κ) (v : ν) : List (κ × ν) → List (κ × ν)
  | [] => [(k, v)]
  | (l, w) :: es => if l = k then (k, v) :: es else (l, w) :: put k v es

theorem keys_put (k : κ) (v : ν) (es : List (κ × ν)) :
    (put k v es).map (·.1) =
      if k ∈ es.map (·.1) then es.map (·.1) else es.map (·.1) ++ [k] := by
  induction es with
  | nil => simp [put]
  | cons e es ih =>
    obtain ⟨l, w⟩ := e
    by_cases h : l = k
    · simp [put, h]
    · have hk : ¬ k = l := fun e => h e.symm
      simp only [put, if_neg h, List.map_cons, ih, List.mem_cons, hk, false_or]
      split <;> simp

def insert (m : Entries κ ν) (k : κ) (v : ν) : Entries κ ν where
  toList := put k v m.toList
  nodup_keys := by
    rw [keys_put]
    split
    · exact m.nodup_keys
    · rename_i h
      refine List.nodup_append.2 ⟨m.nodup_keys, by simp, fun a ha b hb => ?_⟩
      rintro rfl
      simp only [List.mem_singleton] at hb
      exact h (hb ▸ ha)

def erase (m : Entries κ ν) (k : κ) : Entries κ ν where
  toList := m.toList.filter (·.1 ≠ k)
  nodup_keys := m.nodup_keys.sublist (List.filter_sublist.map _)

theorem lookup_pair (k l : κ) (v : ν) (es : List (κ × ν)) :
    ((l, v) :: es).lookup k = if k = l then some v else es.lookup k := by
  by_cases h : k = l
  · simp [h]
  · have : (k == l) = false := by simpa using h
    simp [List.lookup_cons, this, h]

theorem lookup_put (k l : κ) (v : ν) (es : List (κ × ν)) :
    (put k v es).lookup l = if l = k then some v else es.lookup l := by
  induction es with
  | nil => simp [put, lookup_pair]
  | cons e es ih =>
    obtain ⟨l', w⟩ := e
    by_cases hk : l' = k
    · subst hk
      by_cases h : l = l' <;> simp [put, lookup_pair, h]
    · simp only [put, if_neg hk, lookup_pair, ih]
      by_cases h : l = l'
      · subst h; simp [hk]
      · simp [h]

theorem lookup_of_mem {es : List (κ × ν)} (distinct : (es.map (·.1)).Nodup) {e : κ × ν}
    (mem : e ∈ es) : es.lookup e.1 = some e.2 := by
  induction es with
  | nil => cases mem
  | cons d es ih =>
    obtain ⟨absent, rest⟩ := List.nodup_cons.mp distinct
    rw [lookup_pair]
    rcases List.mem_cons.mp mem with rfl | later
    · rw [if_pos rfl]
    · have ne : e.1 ≠ d.1 := fun same => absent (List.mem_map.mpr ⟨e, later, same⟩)
      rw [if_neg ne]
      exact ih rest later

theorem lookup_map {μ : Type} (f : ν → μ) (es : List (κ × ν)) (k : κ) :
    (es.map fun e => (e.1, f e.2)).lookup k = (es.lookup k).map f := by
  induction es with
  | nil => rfl
  | cons e es ih =>
    rw [List.map_cons, lookup_pair, lookup_pair, ih]
    split <;> rfl

@[simp]
theorem find?_empty (k : κ) : (∅ : Entries κ ν).find? k = none := rfl

@[simp]
theorem find?_insert (m : Entries κ ν) (k l : κ) (v : ν) :
    (m.insert k v).find? l = if l = k then some v else m.find? l :=
  lookup_put k l v m.toList

theorem lookup_filter_ne (k l : κ) (es : List (κ × ν)) :
    (es.filter (·.1 ≠ k)).lookup l = if l = k then none else es.lookup l := by
  induction es with
  | nil => simp
  | cons e es ih =>
    obtain ⟨l', w⟩ := e
    by_cases hk : l' = k
    · rw [List.filter_cons_of_neg (by simp [hk]), ih, lookup_pair, hk]
      split <;> rfl
    · rw [List.filter_cons_of_pos (by simp [hk]), lookup_pair, ih, lookup_pair]
      by_cases h : l = l'
      · subst h; simp [hk]
      · simp [h]

@[simp]
theorem find?_erase (m : Entries κ ν) (k l : κ) :
    (m.erase k).find? l = if l = k then none else m.find? l :=
  lookup_filter_ne k l m.toList

theorem find?_eq_none_iff (m : Entries κ ν) (k : κ) : m.find? k = none ↔ k ∉ m.keys := by
  simp only [find?, keys, List.lookup_eq_none_iff]
  simp
  grind

end Entries

end SmsTracking
