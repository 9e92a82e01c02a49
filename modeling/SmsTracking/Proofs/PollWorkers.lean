import Mathlib.Data.List.Nodup
import Mathlib.Data.List.Perm.Subperm
import SmsTracking.Proofs.PollParts

/-!
The workers that polls set going. A poll selects once, and then a worker of its own goes to each
message of the batch. Main statements: what a poll selects adds its workers (`Crewed.select`), the
workers of a poll have different messages (`Crewed.nodup_messages`), and the workers of a message
come from different polls that have selected it (`Crewed.length_le_selections`).
-/

namespace SmsTracking

/-- The messages that an answer has brought a poll. -/
def Exchange.selected : Exchange → Option (List Message)
  | ⟨.outstanding _, .ok ms⟩ => some ms
  | _ => none

/-- The batches that were selected, each with the number of the poll. -/
def selections (es : List (Nat × Exchange)) : List (Nat × List Message) :=
  es.filterMap fun e => e.2.selected.map fun ms => (e.1, ms)

theorem selections_append (es : List (Nat × Exchange)) (place : Nat) (x : Exchange) :
    selections (es ++ [(place, x)]) =
      selections es ++ (x.selected.map fun ms => (place, ms)).toList := by
  cases h : x.selected <;> simp [selections, h]

theorem Exchange.selected_of_isAside {r : Request} (answer : r.Answer) (aside : r.isAside = true) :
    selected ⟨r, answer⟩ = none := by
  cases r with
  | store | update | load | outstanding => cases aside
  | _ => rfl

namespace Role

/-- The poll and the message of a worker. -/
def worker? : Role → Option (Nat × Uuid)
  | working poll id _ => some (poll, id)
  | asking _ | answered _ _ => none

end Role

def crew (roles : List Role) : List (Nat × Uuid) := roles.filterMap Role.worker?

theorem crew_cons (role : Role) (roles : List Role) :
    crew (role :: roles) = role.worker?.toList ++ crew roles := by
  cases h : role.worker? <;> simp [crew, h]

theorem crew_hired (poll : Nat) (ids : List Uuid) :
    crew (ids.map fun id => .working poll id .idle) = ids.map fun id => (poll, id) := by
  rw [crew, List.filterMap_map]
  exact congrFun List.filterMap_eq_map ids

/-- The workers that are there have been set going by polls, each by the one that selected its
message. -/
structure Crewed (es : List (Nat × Exchange)) (roles : List Role) : Prop where
  asking : ∀ place poll : Nat, roles[place]? = some (.asking poll) → poll = place
  answered : ∀ s ∈ selections es, roles[s.1]? = some (.answered s.1 s.2)
  calls : ((selections es).map (·.1)).Nodup
  once : (crew roles).Nodup
  selected : ∀ x ∈ crew roles, ∃ ms, (x.1, ms) ∈ selections es ∧ x.2 ∈ ms.map (·.id)

theorem filterMap_set_of_eq {α β : Type} (f : α → Option β) {l : List α} {i : Nat} {x y : α}
    (found : l[i]? = some x) (same : f y = f x) : (l.set i y).filterMap f = l.filterMap f := by
  induction l generalizing i with
  | nil => rfl
  | cons z l ih =>
      cases i with
      | zero =>
          cases found
          simp [List.filterMap_cons, same]
      | succ i => simp only [List.set_cons_succ, List.filterMap_cons, ih found]

theorem nodup_map_filter {α β γ : Type} [DecidableEq β] {f : α → β} {g : α → γ} {l : List α}
    (distinct : l.Nodup) (pair : ∀ x y, f x = f y → g x = g y → x = y) (b : β) :
    ((l.filter (f · = b)).map g).Nodup := by
  refine List.Nodup.map_on (fun x first y second same => ?_) (distinct.filter _)
  have ofFirst := of_decide_eq_true (List.mem_filter.mp first).2
  have ofSecond := of_decide_eq_true (List.mem_filter.mp second).2
  exact pair x y (ofFirst.trans ofSecond.symm) same

namespace Crewed

variable {es : List (Nat × Exchange)} {roles : List Role} {place : Nat}

theorem asking_set (crewed : Crewed es roles) {role : Role} (busy : ∀ poll, role ≠ .asking poll)
    {other poll : Nat} (asks : (roles.set place role)[other]? = some (.asking poll)) :
    poll = other := by
  rw [List.getElem?_set] at asks
  split at asks
  · split at asks
    · exact absurd (Option.some.inj asks) (busy poll)
    · cases asks
  · exact crewed.asking other poll asks

theorem answered_set (crewed : Crewed es roles) {before : Role} (found : roles[place]? = some before)
    (unanswered : ∀ poll ms, before ≠ .answered poll ms) (role : Role) {s : Nat × List Message}
    (mem : s ∈ selections es) : (roles.set place role)[s.1]? = some (.answered s.1 s.2) := by
  have answered := crewed.answered s mem
  have other : s.1 ≠ place := by
    rintro rfl
    rw [found] at answered
    exact unanswered _ _ (Option.some.inj answered)
  rwa [List.getElem?_set_ne (Ne.symm other)]

/-- Who still asks has selected nothing. -/
theorem not_selected (crewed : Crewed es roles) {poll : Nat}
    (found : roles[place]? = some (.asking poll)) : place ∉ (selections es).map (·.1) := by
  intro mem
  obtain ⟨s, listed, rfl⟩ := List.mem_map.mp mem
  have answered := crewed.answered s listed
  rw [found] at answered
  cases answered

/-- A worker that goes on with its errand is the same worker. -/
theorem errand (crewed : Crewed es roles) {poll : Nat} {id : Uuid} {errand errand' : Errand}
    (found : roles[place]? = some (.working poll id errand)) {x : Exchange}
    (nothing : x.selected = none) :
    Crewed (es ++ [(place, x)]) (roles.set place (.working poll id errand')) := by
  have same : selections (es ++ [(place, x)]) = selections es := by
    rw [selections_append, nothing]
    exact List.append_nil _
  have kept : crew (roles.set place (.working poll id errand')) = crew roles :=
    filterMap_set_of_eq _ found rfl
  refine ⟨fun _ _ asks => crewed.asking_set (by exact nofun) asks, ?_, ?_, ?_, ?_⟩
  · rw [same]
    exact fun s mem => crewed.answered_set found nofun _ mem
  · rw [same]
    exact crewed.calls
  · rw [kept]
    exact crewed.once
  · rw [same, kept]
    exact crewed.selected

/-- A poll that has selected its batch sets its workers going, or breaks off. -/
theorem select (crewed : Crewed es roles) {poll : Nat} (found : roles[place]? = some (.asking poll))
    {x : Exchange} {ms : List Message} (selected : x.selected = some ms)
    (distinct : (ms.map (·.id)).Nodup) {ids : List Uuid} (new : ids.Sublist (ms.map (·.id))) :
    Crewed (es ++ [(place, x)])
      (roles.set place (.answered poll ms) ++ ids.map fun id => .working poll id .idle) := by
  obtain rfl : poll = place := crewed.asking place poll found
  have inside : poll < roles.length := (List.getElem?_eq_some_iff.mp found).1
  have more : selections (es ++ [(poll, x)]) = selections es ++ [(poll, ms)] := by
    rw [selections_append, selected]
    rfl
  have fresh : poll ∉ (selections es).map (·.1) := crewed.not_selected found
  have grown :
      crew (roles.set poll (.answered poll ms) ++ ids.map fun id => .working poll id .idle) =
        crew roles ++ ids.map fun id => (poll, id) := by
    have kept : crew (roles.set poll (.answered poll ms)) = crew roles :=
      filterMap_set_of_eq _ found rfl
    rw [crew, List.filterMap_append]
    exact congrArg₂ (· ++ ·) kept (crew_hired poll ids)
  refine ⟨fun other poll' asks => ?_, ?_, ?_, ?_, ?_⟩
  · rw [List.getElem?_append] at asks
    split at asks
    · exact crewed.asking_set (by exact nofun) asks
    · obtain ⟨id, _, works⟩ := List.mem_map.mp (List.mem_of_getElem? asks)
      cases works
  · rw [more]
    intro s mem
    rcases List.mem_append.mp mem with old | mem
    · have answered := crewed.answered_set found nofun (.answered poll ms) old
      rw [List.getElem?_append_left (List.getElem?_eq_some_iff.mp answered).1]
      exact answered
    · obtain rfl := List.mem_singleton.mp mem
      rw [List.getElem?_append_left (by rwa [List.length_set]), List.getElem?_set_self inside]
  · rw [more, List.map_append, List.nodup_append]
    refine ⟨crewed.calls, List.nodup_singleton _, ?_⟩
    rintro call old _ same rfl
    obtain rfl := List.mem_singleton.mp same
    exact fresh old
  · rw [grown, List.nodup_append]
    refine ⟨crewed.once, ?_, ?_⟩
    · exact (distinct.sublist new).map fun i j same => (Prod.mk.inj same).2
    · rintro worker old _ mem rfl
      obtain ⟨id, _, rfl⟩ := List.mem_map.mp mem
      obtain ⟨_, selected, _⟩ := crewed.selected _ old
      exact fresh (List.mem_map_of_mem selected)
  · rw [grown, more]
    intro worker mem
    rcases List.mem_append.mp mem with old | mem
    · obtain ⟨ms', selected, listed⟩ := crewed.selected worker old
      exact ⟨ms', List.mem_append_left _ selected, listed⟩
    · obtain ⟨id, listed, rfl⟩ := List.mem_map.mp mem
      exact ⟨ms, List.mem_append_right _ (List.mem_singleton_self _), new.subset listed⟩

/-- The workers of a poll have different messages. -/
theorem nodup_messages (crewed : Crewed es roles) (poll : Nat) :
    (((crew roles).filter (·.1 = poll)).map (·.2)).Nodup :=
  nodup_map_filter crewed.once (fun _ _ poll message => Prod.ext poll message) poll

/-- The workers of a message come from different polls, which have selected it. -/
theorem length_le_selections (crewed : Crewed es roles) (id : Uuid) :
    ((crew roles).filter (·.2 = id)).length ≤
      ((selections es).filter fun s => id ∈ s.2.map (·.id)).length := by
  have distinct : (((crew roles).filter (·.2 = id)).map (·.1)).Nodup :=
    nodup_map_filter crewed.once (fun _ _ message poll => Prod.ext poll message) id
  have included : ((crew roles).filter (·.2 = id)).map (·.1) ⊆
      ((selections es).filter fun s => id ∈ s.2.map (·.id)).map (·.1) := by
    intro poll mem
    obtain ⟨worker, works, rfl⟩ := List.mem_map.mp mem
    obtain ⟨hired, named⟩ := List.mem_filter.mp works
    obtain rfl := of_decide_eq_true named
    obtain ⟨ms, selected, listed⟩ := crewed.selected worker hired
    exact List.mem_map_of_mem (List.mem_filter.mpr ⟨selected, decide_eq_true listed⟩)
  simpa only [List.length_map] using (List.subperm_of_subset distinct included).length_le

end Crewed

end SmsTracking
