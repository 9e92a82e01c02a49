import Mathlib.Data.List.Perm.Subperm
import SmsTracking.Proofs.Contention
import SmsTracking.Proofs.Stores

/-!
What callers who move one message side by side have committed. What is stored is at any time what
the committed moves make of the message, one after the other, and every caller works on a message
that was stored at some time. Main statement: every request that a caller may make preserves this
(`Serial.answer`).
-/

namespace SmsTracking

structure Contender where
  move : Move
  retries : Nat

namespace Contention

/-- The committed writes, in order, each with the place of its caller. -/
def commits (es : List (Nat × Exchange)) : List (Nat × Message) :=
  es.filterMap fun e => e.2.written.map fun m => (e.1, m)

/-- The message that was written last. -/
def last (m₀ : Message) (cs : List (Nat × Message)) : Message := (cs.getLast?.map (·.2)).getD m₀

/-- The moves of the committed writes. -/
def movesOf (callers : List Contender) (cs : List (Nat × Message)) : List Move :=
  cs.filterMap fun c => callers[c.1]?.map (·.move)

/-- The counters of the message have room for all callers. -/
structure Roomy (callers : List Contender) (m₀ : Message) : Prop where
  version : m₀.version.toNat + callers.length < UInt64.size
  attempts : m₀.sendAttemptCount.toNat + callers.countP (·.move.isAttempt) < UInt32.size

/-- The message was stored after some of the committed writes, in the end or before. -/
def Seen (callers : List Contender) (m₀ : Message) (cs : List (Nat × Message)) (m : Message) :
    Prop :=
  ∃ k ≤ cs.length,
    Move.applyAll m₀.updatedAt (movesOf callers (cs.take k)) m₀ = some (m.dated m₀.updatedAt) ∧
      (k = cs.length → m = last m₀ cs)

/-- What is true of a caller in this standing, after these committed writes. -/
def Fits (callers : List Contender) (m₀ : Message) (cs : List (Nat × Message)) (place : Nat) :
    Bid → Prop
  | .idle => True
  | .loaded m | .ready m _ => Seen callers m₀ cs m
  | .committed m => (place, m) ∈ cs
  | .beaten e => ∃ id expected actual, e = .versionConflict id expected actual
  | .missing _ | .full => False

def conducts (id : Uuid) (callers : List Contender) (place : Nat) :
    Conduct Bid (Except AppError Message) :=
  Bid.conduct id (callers[place]?.map (·.move))

/-- What is true of the callers and of the store at any time. -/
structure Serial (id : Uuid) (callers : List Contender) (m₀ : Message) (w : World)
    (es : List (Nat × Exchange)) : Prop where
  stored : w.messages.find? id = some (last m₀ (commits es))
  replay : Move.applyAll m₀.updatedAt (movesOf callers (commits es)) m₀ =
    some ((last m₀ (commits es)).dated m₀.updatedAt)
  known : ∀ c ∈ commits es, (callers[c.1]?).isSome = true
  once : ((commits es).map (·.1)).Nodup
  fits : ∀ place, Fits callers m₀ (commits es) place
    (Turns.standings (conducts id callers) es place)
  committed : ∀ c ∈ commits es, Turns.standings (conducts id callers) es c.1 = .committed c.2

variable {callers : List Contender} {m₀ m : Message} {cs : List (Nat × Message)}

theorem commits_append (es : List (Nat × Exchange)) (place : Nat) (x : Exchange) :
    commits (es ++ [(place, x)]) = commits es ++ (x.written.map fun m => (place, m)).toList := by
  cases h : x.written <;> simp [commits, h]

theorem last_append (m₀ : Message) (cs : List (Nat × Message)) (place : Nat) (m : Message) :
    last m₀ (cs ++ [(place, m)]) = m := by
  simp [last]

theorem movesOf_append {place : Nat} {c : Contender} (called : callers[place]? = some c)
    (cs : List (Nat × Message)) (m : Message) :
    movesOf callers (cs ++ [(place, m)]) = movesOf callers cs ++ [c.move] := by
  simp [movesOf, called]

theorem length_movesOf (known : ∀ c ∈ cs, (callers[c.1]?).isSome = true) :
    (movesOf callers cs).length = cs.length := by
  induction cs with
  | nil => rfl
  | cons c cs ih =>
      obtain ⟨caller, called⟩ := Option.isSome_iff_exists.mp (known c (by simp))
      have rest := ih fun c h => known c (List.mem_cons_of_mem _ h)
      simp only [movesOf] at rest ⊢
      simp only [List.filterMap_cons, called, Option.map_some, List.length_cons, rest]

theorem countP_movesOf (callers : List Contender) (cs : List (Nat × Message)) :
    (movesOf callers cs).countP Move.isAttempt =
      cs.countP fun c => callers[c.1]?.any (·.move.isAttempt) := by
  induction cs with
  | nil => rfl
  | cons c cs ih =>
      simp only [movesOf] at ih ⊢
      cases called : callers[c.1]? <;>
        simp [called, ih, List.countP_cons]

/-- Callers of some sort who have written are fewer than all callers of the sort, as long as one of
them has not written. -/
theorem countP_lt (callers : List Contender) (p : Contender → Bool)
    (once : (cs.map (·.1)).Nodup) {place : Nat} (fresh : place ∉ cs.map (·.1))
    (called : callers[place]?.any p = true) :
    cs.countP (fun c => callers[c.1]?.any p) < callers.countP p := by
  have distinct : (place :: ((cs.filter fun c => callers[c.1]?.any p).map (·.1))).Nodup := by
    refine List.nodup_cons.mpr ⟨fun h => fresh ?_, once.sublist (List.filter_sublist.map _)⟩
    exact (List.filter_sublist.map _).subset h
  have callable : ∀ i, callers[i]?.any p = true → i ∈ callers.findIdxs p := by
    intro i h
    rw [Option.any_eq_true] at h
    obtain ⟨c, found, sort⟩ := h
    obtain ⟨inside, rfl⟩ := List.getElem?_eq_some_iff.mp found
    exact List.mem_findIdxs_iff_exists_getElem_pos.mpr ⟨inside, sort⟩
  have among : (place :: ((cs.filter fun c => callers[c.1]?.any p).map (·.1))) ⊆
      callers.findIdxs p := by
    intro i h
    rcases List.mem_cons.mp h with rfl | h
    · exact callable _ called
    · obtain ⟨c, written, rfl⟩ := List.mem_map.mp h
      exact callable _ (List.mem_filter.mp written).2
  have fewer := (List.subperm_of_subset distinct among).length_le
  rw [List.length_findIdxs, List.length_cons, List.length_map, ← List.countP_eq_length_filter]
    at fewer
  exact fewer

theorem Seen.append (seen : Seen callers m₀ cs m) (c : Nat × Message) :
    Seen callers m₀ (cs ++ [c]) m := by
  obtain ⟨k, le, made, _⟩ := seen
  refine ⟨k, ?_, ?_, ?_⟩
  · rw [List.length_append]
    omega
  · rw [List.take_append_of_le_length le]
    exact made
  · intro h
    rw [List.length_append, List.length_singleton] at h
    omega

/-- A caller that stays as it is fits in with one more committed write. -/
theorem Fits.append {place : Nat} {b : Bid} (fits : Fits callers m₀ cs place b)
    (c : Nat × Message) : Fits callers m₀ (cs ++ [c]) place b := by
  cases b with
  | idle => trivial
  | loaded m => exact Seen.append fits c
  | ready m now => exact Seen.append fits c
  | committed m => exact List.mem_append_left _ fits
  | beaten e => exact fits
  | missing e => exact fits
  | full => exact fits

/-- With every write the version has grown by one. -/
theorem Seen.version (known : ∀ c ∈ cs, (callers[c.1]?).isSome = true)
    (seen : Seen callers m₀ cs m) :
    ∃ k ≤ cs.length, m.version.toNat = m₀.version.toNat + k ∧ (k = cs.length → m = last m₀ cs) := by
  obtain ⟨k, le, made, latest⟩ := seen
  refine ⟨k, le, ?_, latest⟩
  have grown := Move.applyAll_version made
  rw [length_movesOf fun c h => known c (List.mem_of_mem_take h), List.length_take_of_le le]
    at grown
  exact grown

theorem Seen.attempts (seen : Seen callers m₀ cs m) :
    m.sendAttemptCount.toNat ≤ m₀.sendAttemptCount.toNat +
      cs.countP fun c => callers[c.1]?.any (·.move.isAttempt) := by
  obtain ⟨k, le, made, _⟩ := seen
  have grown := Move.applyAll_sendAttemptCount made
  rw [countP_movesOf] at grown
  have part := (List.take_sublist k cs).countP_le (p := fun c =>
    callers[c.1]?.any (·.move.isAttempt))
  simp only [Message.dated] at grown
  omega

/-- As long as a caller has not written there is room for its move. -/
theorem Seen.hasRoom (roomy : Roomy callers m₀)
    (known : ∀ c ∈ cs, (callers[c.1]?).isSome = true) (once : (cs.map (·.1)).Nodup) {place : Nat}
    {c : Contender} (called : callers[place]? = some c) (fresh : place ∉ cs.map (·.1))
    (seen : Seen callers m₀ cs m) :
    m.version.toNat + 1 < UInt64.size ∧ c.move.HasRoom m := by
  have fewer := countP_lt callers (fun _ => true) once fresh (by simp [called])
  have all : cs.countP (fun c => callers[c.1]?.any fun _ => true) = cs.length := by
    refine List.countP_eq_length.mpr fun c h => ?_
    obtain ⟨caller, called⟩ := Option.isSome_iff_exists.mp (known c h)
    simp [called]
  rw [all, List.countP_true] at fewer
  obtain ⟨k, le, version, _⟩ := seen.version known
  have room := roomy.version
  have counted : m.version.toNat + 1 < UInt64.size := by omega
  refine ⟨counted, ?_⟩
  cases move : c.move with
  | confirm time => exact counted
  | attempt time =>
      have fewer := countP_lt callers (·.move.isAttempt) once fresh
        (by simp [called, move, Move.isAttempt])
      have attempts := seen.attempts
      have room := roomy.attempts
      refine ⟨counted, ?_⟩
      omega

/-- What is stored at the end of the committed writes was seen by whoever loads it. -/
theorem Serial.seen_last {id : Uuid} {w : World} {es : List (Nat × Exchange)}
    (serial : Serial id callers m₀ w es) :
    Seen callers m₀ (commits es) (last m₀ (commits es)) := by
  refine ⟨(commits es).length, Nat.le_refl _, ?_, fun _ => rfl⟩
  rw [List.take_length]
  exact serial.replay

theorem Serial.version_last {id : Uuid} {w : World} {es : List (Nat × Exchange)}
    (serial : Serial id callers m₀ w es) :
    (last m₀ (commits es)).version.toNat = m₀.version.toNat + (commits es).length := by
  have grown := Move.applyAll_version serial.replay
  rw [length_movesOf serial.known] at grown
  exact grown

theorem Serial.id_last {id : Uuid} {w : World} {es : List (Nat × Exchange)}
    (serial : Serial id callers m₀ w es) : (last m₀ (commits es)).id = id :=
  MessageStore.id_of_find? serial.stored

/-- A message that a caller has seen has the identifier of the one that is stored. -/
theorem Serial.id_of_seen {id : Uuid} {w : World} {es : List (Nat × Exchange)}
    (serial : Serial id callers m₀ w es) (seen : Seen callers m₀ (commits es) m) : m.id = id := by
  obtain ⟨k, _, made, _⟩ := seen
  have same : m.id = m₀.id := Move.applyAll_id (n := m.dated m₀.updatedAt) made
  have start : (last m₀ (commits es)).id = m₀.id :=
    Move.applyAll_id (n := (last m₀ (commits es)).dated m₀.updatedAt) serial.replay
  rw [same, ← start, serial.id_last]

/-- A caller that has not committed is not among those that have. -/
theorem Serial.fresh {id : Uuid} {w : World} {es : List (Nat × Exchange)} {place : Nat}
    (serial : Serial id callers m₀ w es)
    (undecided : ∀ m, Turns.standings (conducts id callers) es place ≠ .committed m) :
    place ∉ (commits es).map (·.1) := by
  intro h
  obtain ⟨c, written, rfl⟩ := List.mem_map.mp h
  exact undecided c.2 (serial.committed c written)

section Step

variable {id : Uuid} {w : World} {es : List (Nat × Exchange)} {place : Nat}

/-- A caller takes a step that writes nothing. -/
theorem Serial.step (serial : Serial id callers m₀ w es) {w' : World} {x : Exchange}
    (same : w'.messages = w.messages) (unwritten : x.written = none)
    (undecided : ∀ m, Turns.standings (conducts id callers) es place ≠ .committed m)
    (fits : Fits callers m₀ (commits es) place
      ((Turns.standings (conducts id callers) es place).next x)) :
    Serial id callers m₀ w' (es ++ [(place, x)]) := by
  have written : commits (es ++ [(place, x)]) = commits es := by
    rw [commits_append, unwritten]
    exact List.append_nil _
  refine ⟨?_, ?_, ?_, ?_, ?_, ?_⟩
  · rw [written, same]
    exact serial.stored
  · rw [written]
    exact serial.replay
  · rw [written]
    exact serial.known
  · rw [written]
    exact serial.once
  · intro other
    rw [written, Turns.standings_append]
    by_cases h : other = place
    · subst h
      rw [Function.update_self]
      exact fits
    · rw [Function.update_of_ne h]
      exact serial.fits other
  · intro c h
    rw [written] at h
    rw [Turns.standings_append]
    have stands := serial.committed c h
    have ne : c.1 ≠ place := by
      rintro rfl
      exact undecided _ stands
    rw [Function.update_of_ne ne]
    exact stands

/-- A caller writes what its move makes of the message that is stored. -/
theorem Serial.commit (serial : Serial id callers m₀ w es) {w' : World} {c : Contender}
    {m' : Message} {now : Timestamp} (called : callers[place]? = some c)
    (put : w'.messages = w.messages.put m')
    (stands : Turns.standings (conducts id callers) es place = .ready m now)
    (made : c.move.apply (last m₀ (commits es)) now = .done m') :
    Serial id callers m₀ w' (es ++ [(place, ⟨.update m', .done⟩)]) := by
  have written : commits (es ++ [(place, ⟨.update m', .done⟩)]) =
      commits es ++ [(place, m')] := commits_append ..
  have named : m'.id = id := by
    obtain ⟨_, _, rfl⟩ := Move.apply_eq_done_iff.mp made
    rw [Move.result_id, serial.id_last]
  have fresh : place ∉ (commits es).map (·.1) := serial.fresh (by simp [stands])
  refine ⟨?_, ?_, ?_, ?_, ?_, ?_⟩
  · rw [written, last_append, put, MessageStore.find?_put, if_pos named.symm]
  · rw [written, last_append, movesOf_append called, Move.applyAll_append_eq_some_iff]
    exact ⟨_, serial.replay,
      Move.applyAll_cons_eq_some_iff.mpr ⟨_, Move.apply_dated made _, rfl⟩⟩
  · intro d h
    rw [written] at h
    rcases List.mem_append.mp h with h | h
    · exact serial.known d h
    · rw [List.mem_singleton.mp h, called]
      rfl
  · rw [written, List.map_append, List.nodup_append]
    refine ⟨serial.once, by simp, fun a ha b hb => ?_⟩
    rintro rfl
    simp only [List.map_cons, List.map_nil, List.mem_singleton] at hb
    exact fresh (hb ▸ ha)
  · intro other
    rw [written, Turns.standings_append]
    by_cases h : other = place
    · subst h
      rw [Function.update_self, stands]
      exact List.mem_append_right _ List.mem_cons_self
    · rw [Function.update_of_ne h]
      exact (serial.fits other).append _
  · intro d h
    rw [written] at h
    rw [Turns.standings_append]
    rcases List.mem_append.mp h with before | new
    · have ne : d.1 ≠ place := fun same => fresh (same ▸ List.mem_map_of_mem before)
      rw [Function.update_of_ne ne]
      exact serial.committed d before
    · rw [List.mem_singleton.mp new, Function.update_self]
      rw [stands]
      rfl

theorem Serial.answer (serial : Serial id callers m₀ w es) (roomy : Roomy callers m₀)
    (a : Ambient) {r : Request}
    (may : (conducts id callers place).may (Turns.standings (conducts id callers) es place) r) :
    Serial id callers m₀ (w.answer a r).2 (es ++ [(place, ⟨r, (w.answer a r).1⟩)]) := by
  have may : Bid.May id (callers[place]?.map (·.move))
    (Turns.standings (conducts id callers) es place) r := may
  have fits := serial.fits place
  generalize stands : Turns.standings (conducts id callers) es place = b at may fits
  have loads : w.messages.load id = .ok (last m₀ (commits es)) :=
    MessageStore.load_of_find? serial.stored
  cases may with
  | load =>
      refine serial.step rfl rfl (by simp [stands]) ?_
      simp only [World.answer, loads, Bid.next_load]
      exact serial.seen_last
  | reload e =>
      refine serial.step rfl rfl (by simp [stands]) ?_
      simp only [World.answer, loads, Bid.next_load]
      exact serial.seen_last
  | now m =>
      refine serial.step rfl rfl (by simp [stands]) ?_
      rw [stands]
      exact fits
  | @update move m m' now called made =>
      obtain ⟨c, inside, rfl⟩ := Option.map_eq_some_iff.mp called
      have undecided : ∀ m,
          Turns.standings (conducts id callers) es place ≠ .committed m := by
        simp [stands]
      have seen : Seen callers m₀ (commits es) m := fits
      obtain ⟨_, _, rfl⟩ := Move.apply_eq_done_iff.mp made
      have found : w.messages.find? (c.move.result m now).id = some (last m₀ (commits es)) := by
        rw [Move.result_id, serial.id_of_seen seen]
        exact serial.stored
      have room := (serial.seen_last.hasRoom roomy serial.known serial.once inside
        (serial.fresh undecided)).1
      simp only [World.answer, MessageStore.update, found, if_neg (Nat.ne_of_lt room),
        Move.result_version]
      by_cases same : (last m₀ (commits es)).version + 1 = m.version + 1
      · have latest : m = last m₀ (commits es) := by
          obtain ⟨k, le, version, latest⟩ := seen.version serial.known
          have grown := serial.version_last
          have equal : (last m₀ (commits es)).version = m.version := by simpa using same
          rw [equal] at grown
          exact latest (by omega)
        subst latest
        simp only [ite_true]
        exact serial.commit inside rfl stands made
      · simp only [if_neg same]
        refine serial.step rfl rfl undecided ?_
        rw [stands]
        exact ⟨_, _, _, rfl⟩

end Step

end Contention

end SmsTracking
