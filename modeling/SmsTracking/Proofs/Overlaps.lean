import SmsTracking.Proofs.Courses
import SmsTracking.Proofs.TryCounts
import SmsTracking.Proofs.Waiting

/-!
Polls that overlap. A poll selects the messages that wait, and only later are they tried, so that
another poll can select them too in the meantime; once a message has been tried no poll selects it
any more. Main statement: whatever the schedule, only polls that have selected a message hand it
out, and it is tried at most so many times as there are such polls (`polls_overlap`).
-/

namespace SmsTracking

/-- The workers are where they should be, and the store tells of their tries. -/
structure Overlap (w₀ w : World) (es : List (Nat × Exchange)) (roles : List Role) : Prop where
  crewed : Crewed es roles
  tallied : Tallied w₀ w es roles

namespace Overlap

variable {w₀ w : World} {es : List (Nat × Exchange)} {roles : List Role} {place : Nat}

theorem update (overlap : Overlap w₀ w es roles) (a : Ambient) {poll : Nat} {id : Uuid}
    {m m' : Message} {now time : Timestamp}
    (found : roles[place]? = some (.working poll id (.ready m now)))
    (made : (Move.attempt time).apply m now = .done m') :
    let answer := (w.answer a (.update m')).1
    Overlap w₀ (w.answer a (.update m')).2 (es ++ [(place, ⟨.update m', answer⟩)])
      (roles.set place (Role.next (.working poll id (.ready m now)) ⟨.update m', answer⟩)) := by
  obtain ⟨_, room, rfl⟩ := Move.apply_eq_done_iff.mp made
  obtain ⟨named, n, stored, _, same⟩ :=
    overlap.tallied.held _ _ _ m (List.mem_of_getElem? found) rfl
  refine ⟨overlap.crewed.errand found rfl, ?_⟩
  rcases w.messages.update_cases ((Move.attempt time).result m now) with
    ⟨n', stored', next, done⟩ | ⟨refused, kept⟩
  · rw [Move.result_id, stored] at stored'
    cases stored'
    rw [Move.result_version] at next
    obtain rfl : m = n := same (by simpa using next.symm)
    simp only [World.answer, done]
    exact overlap.tallied.write found rfl (named ▸ stored) room rfl rfl
  · have unwritten : ∀ answer : Update, answer ≠ .done →
        let x : Exchange := ⟨.update ((Move.attempt time).result m now), answer⟩
        x.written = none ∧ (Errand.ready m now).next x = .idle := by
      intro answer failed
      cases answer with
      | done => exact absurd rfl failed
      | refused | overflow => exact ⟨rfl, rfl⟩
    obtain ⟨nothing, idle⟩ := unwritten _ refused
    simp only [World.answer, Role.next, idle]
    refine overlap.tallied.errand found rfl nothing kept rfl fun m loaded => ?_
    cases loaded

theorem go (overlap : Overlap w₀ w es roles) (a : Ambient) {role : Role} {r : Request}
    {more : List Role} (found : roles[place]? = some role) (may : Role.May role r)
    (bears : Turns.Bears Role.conduct Role.workers (role.next ⟨r, (w.answer a r).1⟩) more) :
    Overlap w₀ (w.answer a r).2 (es ++ [(place, ⟨r, (w.answer a r).1⟩)])
      (roles.set place (role.next ⟨r, (w.answer a r).1⟩) ++ more) := by
  cases may with
  | @outstanding poll limit =>
      obtain ⟨ids, new, rfl⟩ := Role.bears_answered bears
      have selected : Exchange.selected ⟨.outstanding limit, .ok (w.messages.outstanding limit)⟩ =
        some (w.messages.outstanding limit) := rfl
      refine ⟨overlap.crewed.select found selected (w.messages.nodup_outstanding limit) new, ?_⟩
      refine overlap.tallied.select found selected rfl (fun m mem => ?_) rfl ids
      exact MessageStore.mem_waiting_iff.mp (w.messages.outstanding_subset limit mem)
  | aside aside =>
      rw [Role.bears_working bears, List.append_nil]
      have unselected := Exchange.selected_of_isAside (w.answer a r).1 aside
      have unwritten := Exchange.written_of_isAside (w.answer a r).1 aside
      refine ⟨overlap.crewed.errand found unselected, ?_⟩
      refine overlap.tallied.errand found unselected unwritten
        (w.answer_messages_of_isAside a aside) (Errand.isWritten_next_of_isAside _ _ aside) ?_
      intro m loaded
      rw [Errand.message?_next_of_isAside _ _ aside] at loaded
      exact overlap.tallied.held _ _ _ m (List.mem_of_getElem? found) loaded
  | load =>
      rw [Role.bears_working bears, List.append_nil]
      refine ⟨overlap.crewed.errand found rfl, ?_⟩
      refine overlap.tallied.errand found rfl rfl rfl (Errand.isWritten_next_load ..) ?_
      intro m loaded
      rcases Errand.message?_next_load loaded with answered | before
      · have stored := MessageStore.find?_of_load answered
        have named := MessageStore.id_of_find? stored
        exact ⟨named, m, named.symm ▸ stored, Nat.le_refl _, fun _ => rfl⟩
      · exact overlap.tallied.held _ _ _ m (List.mem_of_getElem? found) before
  | update made =>
      rw [Role.bears_working bears, List.append_nil]
      exact overlap.update a found made

end Overlap

/-- Polls that begin together, none of which has selected anything. -/
def Turns.ofPolls (s : Service) (polls : List Poll) (w : World) : Turns Part where
  world := w
  programs := polls.zipIdx.map fun p => Part.select s p.2 p.1

/-- The message of a worker of the poll that has ended. -/
def Part.handedOut? (poll : Nat) : Program Part → Option Message
  | .done (.handed poll' m) => if poll' = poll then m else none
  | _ => none

/-- The messages that a poll has handed out. -/
def Turns.handedOut (t : Turns Part) (poll : Nat) : List Message :=
  t.programs.filterMap (Part.handedOut? poll)

theorem Part.eq_of_handedOut? {poll : Nat} {p : Program Part} {m : Message}
    (handed : handedOut? poll p = some m) : p = .done (.handed poll (some m)) := by
  unfold handedOut? at handed
  split at handed
  · split at handed
    · subst handed
      subst_vars
      rfl
    · cases handed
  · cases handed

theorem overlap_ofPolls (config : ServiceConfig) (polls : List Poll) (w : World) :
    let roles := polls.zipIdx.map fun p => Role.asking p.2
    Turns.Keeps Role.conduct (Turns.ofPolls (.inPlace config) polls w).programs roles ∧
      Overlap w w [] roles := by
  have asks : ∀ role ∈ polls.zipIdx.map fun p => Role.asking p.2, ∃ poll, role = .asking poll := by
    intro role mem
    obtain ⟨p, _, rfl⟩ := List.mem_map.mp mem
    exact ⟨p.2, rfl⟩
  have nobody : crew (polls.zipIdx.map fun p => Role.asking p.2) = [] := by
    refine List.filterMap_eq_nil_iff.mpr fun role mem => ?_
    obtain ⟨poll, rfl⟩ := asks role mem
    rfl
  refine ⟨?_, ⟨?_, ?_, ?_, ?_, ?_⟩, ?_, ?_, ?_, ?_, ?_⟩
  · refine List.forall₂_map_left_iff.mpr (List.forall₂_map_right_iff.mpr ?_)
    exact List.forall₂_same.mpr fun p _ => Part.select_follows config p.2 p.1
  · intro place poll found
    rw [List.getElem?_map, List.getElem?_zipIdx] at found
    cases asked : polls[place]? with
    | none => simp [asked] at found
    | some p => simpa [asked] using found.symm
  · exact nofun
  · exact List.nodup_nil
  · rw [nobody]
    exact List.nodup_nil
  · rw [nobody]
    exact nofun
  · exact .nil
  · refine fun id => (List.countP_eq_zero.mpr fun role mem => ?_).symm
    obtain ⟨poll, rfl⟩ := asks role mem
    exact Bool.false_ne_true
  · exact fun id vacant => vacant
  · intro id m₀ began
    exact ⟨m₀, began, rfl, fun tried => absurd rfl tried⟩
  · intro poll id errand m mem
    obtain ⟨_, same⟩ := asks _ mem
    cases same

theorem overlap_run (a : Ambient) (config : ServiceConfig) (polls : List Poll) (w : World)
    (schedule : List Turn) :
    let t := (Turns.ofPolls (.inPlace config) polls w).run a
      (Part.workers (.inPlace config)) schedule
    ∃ roles, Turns.Keeps Role.conduct t.programs roles ∧ Overlap w t.world t.exchanges roles := by
  obtain ⟨keeps, overlap⟩ := overlap_ofPolls config polls w
  refine Turns.run_keeps_offspring (Part.begets config) keeps overlap ?_ ?_ ?_ schedule
  · intro w' es roles place role r more overlap found may bears
    exact overlap.go a found may bears
  · intro w' es roles s overlap
    exact ⟨overlap.crewed, { overlap.tallied with }⟩
  · intro w' es roles overlap
    exact ⟨overlap.crewed, { overlap.tallied with }⟩

/-- What polls that overlap have in common. -/
structure Overlapping (w : World) (t : Turns Part) : Prop where
  /-- A poll selects once. -/
  calls : ((selections t.exchanges).map (·.1)).Nodup
  /-- A poll hands out what it has selected, each message once. -/
  once : ∀ poll, ((t.handedOut poll).map (·.id)).Nodup
  selected : ∀ poll, ∀ m ∈ t.handedOut poll,
    ∃ ms, (poll, ms) ∈ selections t.exchanges ∧ m.id ∈ ms.map (·.id)
  /-- What has been tried is not selected any more. -/
  beforehand : t.exchanges.Pairwise fun x y => ∀ m ms,
    x.2.written = some m → y.2.selected = some ms → m.id ∉ ms.map (·.id)
  /-- A message is not tried more often than it was selected. -/
  tries : ∀ id, (triesOf id t.exchanges).length ≤
    ((selections t.exchanges).filter fun s => id ∈ s.2.map (·.id)).length
  counted : ∀ id m₀, w.messages.find? id = some m₀ → ∃ m, t.world.messages.find? id = some m ∧
    m.sendAttemptCount.toNat = m₀.sendAttemptCount.toNat + (triesOf id t.exchanges).length

/-- What a poll has handed out are the messages of workers of its own. -/
theorem Turns.Keeps.handedOut {programs : List (Program Part)} {roles : List Role}
    (keeps : Keeps Role.conduct programs roles) (poll : Nat) :
    ((programs.filterMap (Part.handedOut? poll)).map (·.id)).Sublist
      (((crew roles).filter (·.1 = poll)).map (·.2)) := by
  induction keeps with
  | nil => exact List.Sublist.refl _
  | @cons p role programs roles follows _ ih =>
      rw [crew_cons, List.filter_append, List.map_append]
      cases handed : Part.handedOut? poll p with
      | none =>
          rw [List.filterMap_cons_none handed]
          exact ih.trans (List.sublist_append_right ..)
      | some m =>
          obtain rfl := Part.eq_of_handedOut? handed
          cases follows with
          | @handed _ id errand _ own =>
              have worker : ((Role.working poll id errand).worker?.toList.filter
                  (·.1 = poll)).map (·.2) = [m.id] := by
                simp [Role.worker?, own m rfl]
              rw [List.filterMap_cons_some handed, List.map_cons, worker]
              exact ih.cons_cons m.id

theorem polls_overlap (a : Ambient) (config : ServiceConfig) (polls : List Poll) (w : World)
    (schedule : List Turn) :
    Overlapping w ((Turns.ofPolls (.inPlace config) polls w).run a
      (Part.workers (.inPlace config)) schedule) := by
  obtain ⟨roles, keeps, crewed, tallied⟩ := overlap_run a config polls w schedule
  refine ⟨crewed.calls, fun poll => ?_, fun poll m mem => ?_, tallied.beforehand, fun id => ?_, ?_⟩
  · exact (crewed.nodup_messages poll).sublist (keeps.handedOut poll)
  · have hired := (keeps.handedOut poll).subset (List.mem_map_of_mem mem)
    obtain ⟨worker, works, named⟩ := List.mem_map.mp hired
    obtain ⟨listed, own⟩ := List.mem_filter.mp works
    obtain rfl := of_decide_eq_true own
    exact named ▸ crewed.selected worker listed
  · rw [tallied.tries id]
    exact Nat.le_trans (countP_hasWritten_le roles id) (crewed.length_le_selections id)
  · intro id m₀ began
    obtain ⟨m, found, counted, _⟩ := tallied.stored id m₀ began
    exact ⟨m, found, counted⟩

/-- Two polls select a message before either tries it, and both hand it out. -/
theorem polls_overlap_twice :
    let a : Ambient := ⟨fun _ => .epoch, fun n => ⟨n⟩⟩
    let send : Step :=
      { command := .send ⟨"+1000", "+2000", "one", "api", .epoch⟩, distinct := trivial }
    let w := (Course.run a {} [send]).world
    let schedule : List Turn :=
      [.go 0, .go 1] ++ List.replicate 30 (.go 2) ++ List.replicate 30 (.go 3)
    let t := (Turns.ofPolls (.inPlace {}) [⟨"phone", none⟩, ⟨"tablet", none⟩] w).run a
      (Part.workers (.inPlace {})) schedule
    ∃ id, id ∈ (t.handedOut 0).map (·.id) ∧ id ∈ (t.handedOut 1).map (·.id) ∧
      (triesOf id t.exchanges).length = 2 := by
  refine ⟨⟨0⟩, ?_⟩
  decide +kernel

end SmsTracking
