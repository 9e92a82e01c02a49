import Mathlib.Data.List.Induction
import SmsTracking.Proofs.Stores
import SmsTracking.Routing.Registry

/-!
Where events go, by what was registered before. Of the handlers that name a type, the last one of
each name is bound to it, and these stand in the order in which they were bound; of those that ask
for all events, the last one of each name counts as well. Main statement: so it is after any
registrations in any order, and a further one concerns its own name and types only
(`registry_routes`).
-/

namespace SmsTracking

variable {m : Type → Type}

namespace Handler

/-- Names the type as one that it asks for. -/
def asksFor (type : String) (h : Handler m) : Bool :=
  match h.interest with
  | .one t => t = type
  | .many ts => type ∈ ts
  | .all => false

def asksForAll (h : Handler m) : Bool :=
  match h.interest with
  | .one _ | .many _ => false
  | .all => true

/-- Gives a list of types that is empty. -/
def asksForNone (h : Handler m) : Bool :=
  match h.interest with
  | .many ts => ts.isEmpty
  | .one _ | .all => false

/-- Of each name the last one, in the order in which these came. -/
def latest : List (Handler m) → List (Handler m)
  | [] => []
  | h :: hs => if hs.any (·.name = h.name) then latest hs else h :: latest hs

/-- Asks in this way, and none that comes later and does so has its name. -/
def LastOf (hs : List (Handler m)) (asks : Handler m → Bool) (h : Handler m) : Prop :=
  ∃ before after, hs = before ++ h :: after ∧ asks h = true ∧
    ∀ g ∈ after, asks g = true → g.name ≠ h.name

variable {h : Handler m}

theorem latest_sublist (hs : List (Handler m)) : (latest hs).Sublist hs := by
  induction hs with
  | nil => exact .slnil
  | cons h hs ih =>
      rw [latest]
      split
      · exact ih.cons h
      · exact ih.cons_cons h

theorem nodup_latest (hs : List (Handler m)) : ((latest hs).map (·.name)).Nodup := by
  induction hs with
  | nil => exact .nil
  | cons h hs ih =>
      rw [latest]
      split
      · exact ih
      · rename_i single
        refine List.nodup_cons.mpr ⟨fun again => single ?_, ih⟩
        obtain ⟨g, mem, same⟩ := List.mem_map.mp again
        exact List.any_eq_true.mpr ⟨g, (latest_sublist hs).subset mem, by simpa using same⟩

/-- A handler that comes last takes the place of the one that had its name. -/
theorem latest_append_singleton (hs : List (Handler m)) (h : Handler m) :
    latest (hs ++ [h]) = Registry.rebind (latest hs) h := by
  induction hs with
  | nil => rfl
  | cons g hs ih =>
      rw [List.cons_append, latest, latest, List.any_append, ih, Registry.rebind, Registry.rebind]
      by_cases same : g.name = h.name
      · simp only [List.any_cons, List.any_nil, same, decide_true, Bool.true_or, Bool.or_true,
          if_true]
        split
        · rfl
        · rw [List.filter_cons_of_neg (by simp [same])]
      · have other : ¬ h.name = g.name := fun eq => same eq.symm
        simp only [List.any_cons, List.any_nil, other, decide_false, Bool.or_false]
        split
        · rfl
        · rw [List.filter_cons_of_pos (by simp [same]), List.cons_append]

theorem mem_latest_iff {hs : List (Handler m)} :
    h ∈ latest hs ↔ ∃ before after, hs = before ++ h :: after ∧ ∀ g ∈ after, g.name ≠ h.name := by
  constructor
  · induction hs with
    | nil => exact nofun
    | cons g hs ih =>
        intro mem
        rw [latest] at mem
        split at mem
        · obtain ⟨before, after, rfl, last⟩ := ih mem
          exact ⟨g :: before, after, rfl, last⟩
        · rename_i single
          cases mem with
          | head => exact ⟨[], hs, rfl, by simpa using single⟩
          | tail _ later =>
              obtain ⟨before, after, rfl, last⟩ := ih later
              exact ⟨g :: before, after, rfl, last⟩
  · rintro ⟨before, after, rfl, last⟩
    induction before with
    | nil =>
        have single : ¬ after.any (·.name = h.name) = true := by simpa using last
        rw [List.nil_append, latest, if_neg single]
        exact List.mem_cons_self
    | cons g before ih =>
        rw [List.cons_append, latest]
        split
        · exact ih
        · exact List.mem_cons_of_mem _ ih

theorem mem_latest_filter_iff {hs : List (Handler m)} {asks : Handler m → Bool} :
    h ∈ latest (hs.filter asks) ↔ h.LastOf hs asks := by
  rw [mem_latest_iff, LastOf]
  constructor
  · rintro ⟨before, after, split, last⟩
    obtain ⟨front, back, rfl, rfl, rest⟩ := List.filter_eq_append_iff.mp split
    obtain ⟨skipped, behind, rfl, _, asking, rfl⟩ := List.filter_eq_cons_iff.mp rest
    refine ⟨front ++ skipped, behind, (List.append_assoc ..).symm, asking, fun g mem asks => ?_⟩
    exact last g (List.mem_filter.mpr ⟨mem, asks⟩)
  · rintro ⟨before, after, rfl, asking, last⟩
    refine ⟨before.filter asks, after.filter asks, ?_, fun g mem => ?_⟩
    · rw [List.filter_append, List.filter_cons_of_pos asking]
    · exact last g (List.mem_filter.mp mem).1 (List.mem_filter.mp mem).2

/-- One handler that comes again and again counts once. -/
theorem latest_of_forall_eq {hs : List (Handler m)} (same : ∀ g ∈ hs, g = h) (some : hs ≠ []) :
    latest hs = [h] := by
  induction hs with
  | nil => exact absurd rfl some
  | cons g hs ih =>
      obtain ⟨rfl, others⟩ := List.forall_mem_cons.mp same
      cases hs with
      | nil => rfl
      | cons f hs =>
          have again : (f :: hs).any (·.name = g.name) = true := by
            simp [others f List.mem_cons_self]
          rw [latest, if_pos again]
          exact ih others (List.cons_ne_nil f hs)

end Handler

namespace Entries

variable {κ ν : Type} [DecidableEq κ]

/-- A new value takes the place of the one that had its key, wherever that was. -/
theorem put_perm {k : κ} {v : ν} {es : List (κ × ν)} (distinct : (es.map (·.1)).Nodup) :
    (put k v es).Perm (es.filter (·.1 ≠ k) ++ [(k, v)]) := by
  induction es with
  | nil => exact .refl _
  | cons e es ih =>
      obtain ⟨absent, rest⟩ := List.nodup_cons.mp distinct
      rw [put]
      by_cases own : e.1 = k
      · have others : es.filter (·.1 ≠ k) = es := by
          refine List.filter_eq_self.mpr fun d mem => ?_
          have other : d.1 ≠ k := fun same =>
            absent (List.mem_map.mpr ⟨d, mem, same.trans own.symm⟩)
          simpa using other
        rw [if_pos own, List.filter_cons_of_neg (by simp [own]), others]
        exact @List.perm_append_comm _ [(k, v)] es
      · rw [if_neg own, List.filter_cons_of_pos (by simp [own])]
        exact (ih rest).cons e

theorem size_insert_ne_zero (es : Entries κ ν) (k : κ) (v : ν) : (es.insert k v).size ≠ 0 := by
  rw [size, insert, (put_perm es.nodup_keys).length_eq]
  simp

end Entries

namespace Registry

open Handler

theorem rebind_rebind (hs : List (Handler m)) (h : Handler m) :
    rebind (rebind hs h) h = rebind hs h := by
  simp [rebind, List.filter_append]

theorem boundTo_bind (r : Registry m) (h : Handler m) (type other : String) :
    (r.bind h type).boundTo other =
      if other = type then rebind (r.boundTo type) h else r.boundTo other := by
  simp only [boundTo, bind, Entries.find?_insert]
  split <;> rfl

/-- A type that is given more than once counts once. -/
theorem boundTo_bindAll (r : Registry m) (h : Handler m) (types : List String) (type : String) :
    (types.foldl (fun r type => r.bind h type) r).boundTo type =
      if type ∈ types then rebind (r.boundTo type) h else r.boundTo type := by
  induction types generalizing r with
  | nil => rfl
  | cons t ts ih =>
      rw [List.foldl_cons, ih, boundTo_bind]
      by_cases own : type = t
      · simp [own, rebind_rebind]
      · simp [own]

theorem general_bindAll (r : Registry m) (h : Handler m) (types : List String) :
    (types.foldl (fun r type => r.bind h type) r).general = r.general := by
  induction types generalizing r with
  | nil => rfl
  | cons t ts ih => exact ih (r.bind h t)

theorem boundTo_register (r : Registry m) (h : Handler m) (type : String) :
    (r.register h).boundTo type =
      if h.asksFor type then rebind (r.boundTo type) h else r.boundTo type := by
  cases asked : h.interest with
  | one t =>
      simp only [register, asksFor, asked, boundTo_bind, decide_eq_true_eq]
      by_cases own : type = t
      · rw [if_pos own, if_pos own.symm, own]
      · rw [if_neg own, if_neg (Ne.symm own)]
  | many ts => simp only [register, asksFor, asked, boundTo_bindAll, decide_eq_true_eq]
  | all =>
      simp only [register, asksFor, asked]
      rfl

theorem general_register (r : Registry m) (h : Handler m) :
    (r.register h).general =
      if h.asksForAll then r.general.insert h.name h else r.general := by
  cases asked : h.interest with
  | one t =>
      simp only [register, asksForAll, asked]
      rfl
  | many ts =>
      simp only [register, asksForAll, asked, general_bindAll]
      rfl
  | all =>
      simp only [register, asksForAll, asked]
      rfl

theorem isEmpty_bind (r : Registry m) (h : Handler m) (type : String) :
    (r.bind h type).isEmpty = false := by
  simp [isEmpty, bind, Entries.size_insert_ne_zero]

theorem isEmpty_bindAll (r : Registry m) (h : Handler m) (types : List String) :
    (types.foldl (fun r type => r.bind h type) r).isEmpty = (r.isEmpty && types.isEmpty) := by
  induction types generalizing r with
  | nil => exact (Bool.and_true _).symm
  | cons t ts ih => rw [List.foldl_cons, ih, isEmpty_bind, List.isEmpty_cons, Bool.and_false,
      Bool.false_and]

theorem isEmpty_register (r : Registry m) (h : Handler m) :
    (r.register h).isEmpty = (r.isEmpty && h.asksForNone) := by
  cases asked : h.interest with
  | one t => simp only [register, asksForNone, asked, isEmpty_bind, Bool.and_false]
  | many ts => simp only [register, asksForNone, asked, isEmpty_bindAll]
  | all =>
      simp only [register, asksForNone, asked, Bool.and_false]
      simp [isEmpty, Entries.size_insert_ne_zero]

theorem ofList_append_singleton (hs : List (Handler m)) (h : Handler m) :
    ofList (hs ++ [h]) = (ofList hs).register h := by
  rw [ofList, List.foldl_append]
  rfl

theorem boundTo_ofList (hs : List (Handler m)) (type : String) :
    (ofList hs).boundTo type = latest (hs.filter (·.asksFor type)) := by
  induction hs using List.reverseRecOn with
  | nil => rfl
  | append_singleton hs h ih =>
      rw [ofList_append_singleton, boundTo_register, ih, List.filter_append]
      cases asked : h.asksFor type with
      | true =>
          rw [List.filter_cons_of_pos asked, List.filter_nil, latest_append_singleton, if_pos rfl]
      | false =>
          rw [List.filter_cons_of_neg (by simp [asked]), List.filter_nil, List.append_nil]
          rfl

/-- Each handler that asks for all events stands under its own name. -/
theorem name_of_mem_general {hs : List (Handler m)} {e : String × Handler m}
    (mem : e ∈ (ofList hs).general.toList) : e.2.name = e.1 := by
  induction hs using List.reverseRecOn with
  | nil => cases mem
  | append_singleton hs h ih =>
      rw [ofList_append_singleton, general_register] at mem
      split at mem
      · have placed := (Entries.put_perm (ofList hs).general.nodup_keys).mem_iff.mp mem
        rcases List.mem_append.mp placed with before | new
        · exact ih (List.mem_filter.mp before).1
        · obtain rfl := List.mem_singleton.mp new
          rfl
      · exact ih mem

theorem general_ofList (hs : List (Handler m)) :
    (ofList hs).general.values.Perm (latest (hs.filter (·.asksForAll))) := by
  induction hs using List.reverseRecOn with
  | nil => exact .nil
  | append_singleton hs h ih =>
      rw [ofList_append_singleton, general_register, List.filter_append]
      cases asked : h.asksForAll with
      | false =>
          rw [List.filter_cons_of_neg (by simp [asked]), List.filter_nil, List.append_nil]
          exact ih
      | true =>
          rw [List.filter_cons_of_pos asked, List.filter_nil, latest_append_singleton, if_pos rfl]
          have others : ((ofList hs).general.toList.filter (·.1 ≠ h.name)).map (·.2) =
              (ofList hs).general.values.filter (·.name ≠ h.name) := by
            rw [Entries.values, List.filter_map]
            refine congrArg _ (List.filter_congr fun e mem => ?_)
            simp [name_of_mem_general mem]
          have placed := (Entries.put_perm (v := h) (k := h.name)
            (ofList hs).general.nodup_keys).map (·.2)
          rw [List.map_append, others] at placed
          exact placed.trans ((ih.filter _).append_right [h])

theorem isEmpty_ofList (hs : List (Handler m)) :
    (ofList hs).isEmpty = true ↔ ∀ h ∈ hs, h.asksForNone = true := by
  induction hs using List.reverseRecOn with
  | nil => exact ⟨fun _ => nofun, fun _ => rfl⟩
  | append_singleton hs h ih =>
      rw [ofList_append_singleton, isEmpty_register, Bool.and_eq_true, ih]
      simp [or_imp, forall_and]

/-- Where the events go after these registrations. -/
structure Routes (hs : List (Handler m)) (r : Registry m) : Prop where
  /-- Those that are bound to the type come first, and those that ask for all events come in some
  order. -/
  matching : ∀ type, ∃ general,
    r.matching type = latest (hs.filter (·.asksFor type)) ++ general ∧
      general.Perm (latest (hs.filter (·.asksForAll)))
  mem_boundTo : ∀ type h, h ∈ r.boundTo type ↔ h.LastOf hs (·.asksFor type)
  mem_general : ∀ h, h ∈ r.general.values ↔ h.LastOf hs (·.asksForAll)
  names : ∀ type, ((r.boundTo type).map (·.name)).Nodup ∧ (r.general.values.map (·.name)).Nodup
  isEmpty : r.isEmpty = true ↔ ∀ h ∈ hs, h.asksForNone = true
  /-- One more registration leaves the handlers of other names as they are. -/
  others : ∀ h : Handler m,
    (∀ type, ((r.register h).boundTo type).filter (·.name ≠ h.name) =
      (r.boundTo type).filter (·.name ≠ h.name)) ∧
    ∀ name, name ≠ h.name → (r.register h).general.find? name = r.general.find? name
  /-- It leaves those of its own name where it does not ask. -/
  elsewhere : ∀ h : Handler m,
    (∀ type, h.asksFor type = false → (r.register h).boundTo type = r.boundTo type) ∧
    (h.asksForAll = false → (r.register h).general = r.general)

theorem registry_routes (hs : List (Handler m)) : Routes hs (ofList hs) where
  matching type := ⟨_, congrArg (· ++ _) (boundTo_ofList hs type), general_ofList hs⟩
  mem_boundTo type h := by rw [boundTo_ofList, mem_latest_filter_iff]
  mem_general h := by rw [(general_ofList hs).mem_iff, mem_latest_filter_iff]
  names type := by
    rw [boundTo_ofList, ((general_ofList hs).map _).nodup_iff]
    exact ⟨nodup_latest _, nodup_latest _⟩
  isEmpty := isEmpty_ofList hs
  others h := by
    constructor
    · intro type
      rw [boundTo_register]
      split
      · simp [rebind, List.filter_append]
      · rfl
    · intro name other
      rw [general_register]
      split
      · rw [Entries.find?_insert, if_neg other]
      · rfl
  elsewhere h := by
    constructor
    · intro type silent
      rw [boundTo_register, silent]
      rfl
    · intro silent
      rw [general_register, silent]
      rfl

/-- A name that is registered again, for fewer types, moves to the end where it asks and stays where
it does not. -/
example :
    let handler (name : String) (interest : Interest) : Handler Id :=
      ⟨name, interest, fun _ => .ok ()⟩
    let r := ofList [handler "a" (.many ["s", "t", "s"]), handler "log" .all,
      handler "b" (.one "s"), handler "a" (.one "s")]
    (r.matching "s").map (·.name) = ["b", "a", "log"] ∧
      (r.matching "t").map (·.name) = ["a", "log"] ∧
      (r.matching "u").map (·.name) = ["log"] := by
  decide

end Registry

end SmsTracking
