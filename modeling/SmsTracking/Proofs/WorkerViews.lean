import Mathlib.Algebra.GroupWithZero.Nat
import Mathlib.Data.List.Nodup
import SmsTracking.Proofs.FirstTries
import SmsTracking.Proofs.PollWorkers
import SmsTracking.Proofs.TryCounts
import SmsTracking.Proofs.WorkerSteps

/-!
What can be seen of workers from outside, and how the world tells of all of them together. Each
worker draws its own identifiers (`Numbered`), has its own key in the log (`Logged`), writes its own
message at most once, at the time of its event (`Stocked`), and announces one event and writes one
line at most (`Told`). Each of these four is kept by a step that has nothing to do with it
(`of_same`), and by each other step.
-/

namespace SmsTracking

/-- What stands under a key of the log. -/
inductive KeyState where
  | vacant
  | claimed
  | handled
deriving DecidableEq

def ListenerLog.stateOf (log : ListenerLog) (key : ListenerKey) : KeyState :=
  match log.slots.find? key with
  | none => .vacant
  | some (.inProgress _) => .claimed
  | some (.handled _) => .handled

namespace ListenerLog

variable {log : ListenerLog} {key : ListenerKey}

theorem stateOf_congr {log' : ListenerLog} (same : log.slots.find? key = log'.slots.find? key) :
    log.stateOf key = log'.stateOf key := by
  rw [stateOf, stateOf, same]

theorem vacant_of_stateOf (entry : log.stateOf key = .vacant) : log.slots.find? key = none := by
  unfold stateOf at entry
  split at entry
  · assumption
  · cases entry
  · cases entry

theorem stateOf_release (claimed : log.stateOf key = .claimed) :
    (log.release key).stateOf key = .vacant := by
  unfold stateOf at claimed
  split at claimed
  · cases claimed
  · rename_i slot
    simp [release, slot, stateOf]
  · cases claimed

theorem record_of_claimed {h : HandledEvent} (claimed : log.stateOf (keyOf h) = .claimed) :
    log.record h = (true, { log with slots := log.slots.insert (keyOf h) (.handled h) }) := by
  unfold stateOf at claimed
  split at claimed
  · cases claimed
  · rename_i slot
    simp only [record, slot]
  · cases claimed

end ListenerLog

/-- The key of an attempt, by the identifier of its event. -/
def attemptKey (eventId : String) : ListenerKey := ⟨eventId, Listener.signature .phoneSending⟩

def World.errors (w : World) : List LogLine := w.lines.filter (·.severity = .error)

/-- What can be seen of a worker. -/
structure Face where
  /-- The message that it tries. -/
  id : Uuid
  /-- How many identifiers it has drawn. -/
  drawn : Nat := 0
  eventId : Option String := none
  entry : KeyState := .vacant
  hasWritten : Bool := false
  announced : Option Envelope := none
  line : Option LogLine := none

namespace Post

def hasWritten : Bid → Bool
  | .committed _ => true
  | _ => false

def face (p : Post) : Face :=
  let id := p.sms.id
  match p.duty with
  | .begun | .stray => { id }
  | .drawn event => { id, drawn := 1, eventId := toString event }
  | .made e | .dropped e | .cleared e => { id, drawn := 1, eventId := e.id }
  | .announced e | .released e _ => { id, drawn := 1, eventId := e.id, announced := e }
  | .working e bid =>
      { id
        drawn := 1, eventId := e.id, entry := .claimed, hasWritten := hasWritten bid
        announced := e }
  | .numbered e =>
      { id, drawn := 2, eventId := e.id, entry := .claimed, hasWritten := true, announced := e }
  | .recorded e | .loaded e _ =>
      { id, drawn := 2, eventId := e.id, entry := .handled, hasWritten := true, announced := e }
  | .failed e _ line => { id, drawn := 1, eventId := e.id, announced := e, line }

theorem drawn_face_le (p : Post) : p.face.drawn ≤ 2 := by
  unfold face
  split <;> simp

end Post

/-- So many workers of the message have written. -/
def writers (fs : List Face) (id : Uuid) : Nat := fs.countP fun f => f.id = id && f.hasWritten

/-- A message that has one worker was written once or not at all. -/
theorem writers_of_nodup {fs : List Face} (once : (fs.map (·.id)).Nodup) {f : Face} (mem : f ∈ fs) :
    writers fs f.id = if f.hasWritten then 1 else 0 := by
  induction fs with
  | nil => cases mem
  | cons g fs ih =>
      obtain ⟨new, rest⟩ := List.nodup_cons.mp once
      rw [writers, List.countP_cons]
      rcases List.mem_cons.mp mem with rfl | later
      · have nobody : fs.countP (fun g => g.id = f.id && g.hasWritten) = 0 := by
          refine List.countP_eq_zero.mpr fun g listed counted => new ?_
          simp only [Bool.and_eq_true, decide_eq_true_eq] at counted
          exact List.mem_map.mpr ⟨g, listed, counted.1⟩
        rw [nobody, Nat.zero_add]
        simp
      · have other : ¬ g.id = f.id := fun same => new (List.mem_map.mpr ⟨f, later, same.symm⟩)
        have found := ih rest later
        rw [writers] at found
        simp [found, other]

theorem writers_of_absent {fs : List Face} {id : Uuid} (absent : id ∉ fs.map (·.id)) :
    writers fs id = 0 := by
  refine List.countP_eq_zero.mpr fun f mem counted => absent ?_
  simp only [Bool.and_eq_true, decide_eq_true_eq] at counted
  exact List.mem_map.mpr ⟨f, mem, counted.1⟩

/-! One face of a list is another one -/

section Lists

variable {α β : Type} {l : List α} {i : Nat} {x y : α}

theorem map_set_of_eq (f : α → β) (found : l[i]? = some x) (same : f y = f x) :
    (l.set i y).map f = l.map f := by
  induction l generalizing i with
  | nil => rfl
  | cons z l ih =>
      cases i with
      | zero =>
          cases found
          rw [List.set_cons_zero, List.map_cons, List.map_cons, same]
      | succ i => rw [List.set_cons_succ, List.map_cons, List.map_cons, ih found]

theorem sum_map_set (f : α → Nat) (found : l[i]? = some x) (y : α) :
    ((l.set i y).map f).sum + f x = (l.map f).sum + f y := by
  induction l generalizing i with
  | nil => cases found
  | cons z l ih =>
      cases i with
      | zero =>
          cases found
          simp only [List.set_cons_zero, List.map_cons, List.sum_cons]
          omega
      | succ i =>
          have rest := ih found
          simp only [List.set_cons_succ, List.map_cons, List.sum_cons]
          omega

theorem filterMap_set_perm (f : α → Option β) {b : β} (found : l[i]? = some x)
    (before : f x = none) (after : f y = some b) :
    ((l.set i y).filterMap f).Perm (b :: l.filterMap f) := by
  induction l generalizing i with
  | nil => cases found
  | cons z l ih =>
      cases i with
      | zero =>
          cases found
          simp [before, after]
      | succ i =>
          have rest := ih found
          rw [List.set_cons_succ]
          cases shown : f z with
          | none => simpa [List.filterMap_cons, shown] using rest
          | some c =>
              simp only [List.filterMap_cons, shown]
              exact (rest.cons c).trans (.swap b c _)

/-- What is true of some of a list is true of some of it when one was replaced. -/
theorem exists_mem_set {P : α → Prop} (found : l[i]? = some x) (kept : P x → P y)
    (some : ∃ z ∈ l, P z) : ∃ z ∈ l.set i y, P z := by
  obtain ⟨z, mem, holds⟩ := some
  obtain ⟨j, here⟩ := List.getElem?_of_mem mem
  by_cases same : j = i
  · subst same
    rw [here] at found
    cases found
    have inside := (List.getElem?_eq_some_iff.mp here).1
    exact ⟨y, List.mem_set inside y, kept holds⟩
  · refine ⟨z, List.mem_of_getElem? (i := j) ?_, holds⟩
    rw [List.getElem?_set_ne (Ne.symm same), here]

/-- What is shown only once is shown at one place. -/
theorem place_of_nodup_filterMap (f : α → Option β) {b : β} {j : Nat}
    (once : (l.filterMap f).Nodup) (here : l[i]? = some x) (there : l[j]? = some y)
    (shown : f x = some b) (shown' : f y = some b) : i = j := by
  induction l generalizing i j with
  | nil => cases here
  | cons z l ih =>
      have rest : (l.filterMap f).Nodup :=
        once.sublist ((List.sublist_cons_self z l).filterMap f)
      have apart : ∀ {u : α} {k : Nat}, l[k]? = some u → f u = some b → f z ≠ some b := by
        intro u k found shows own
        rw [List.filterMap_cons_some own] at once
        refine (List.nodup_cons.mp once).1 ?_
        exact List.mem_filterMap.mpr ⟨u, List.mem_of_getElem? found, shows⟩
      match i, j with
      | 0, 0 => rfl
      | 0, j + 1 =>
          cases here
          exact absurd shown (apart there shown')
      | i + 1, 0 =>
          cases there
          exact absurd shown' (apart here shown)
      | i + 1, j + 1 => rw [ih rest here there]

end Lists

/-- All identifiers that were drawn are new, and each worker has its own. -/
structure Numbered (a : Ambient) (w₀ w : World) (fs : List Face) : Prop where
  draws : w.draws = w₀.draws + (fs.map (·.drawn)).sum
  few : ∀ f ∈ fs, f.drawn ≤ 2
  distinct : (fs.filterMap (·.eventId)).Nodup
  known : ∀ id ∈ fs.filterMap (·.eventId),
    ∃ i, i < (fs.map (·.drawn)).sum ∧ id = toString (a.ids (w₀.draws + i))

namespace Numbered

variable {a : Ambient} {w₀ w w' : World} {fs : List Face} {place : Nat} {f f' : Face}

theorem sum_le {fs : List Face} (few : ∀ f ∈ fs, f.drawn ≤ 2) :
    (fs.map (·.drawn)).sum ≤ 2 * fs.length := by
  induction fs with
  | nil => exact Nat.le_refl 0
  | cons f fs ih =>
      have first := few f List.mem_cons_self
      have rest := ih fun f mem => few f (List.mem_cons_of_mem _ mem)
      simp only [List.map_cons, List.sum_cons, List.length_cons]
      omega

theorem of_same (numbered : Numbered a w₀ w fs) (found : fs[place]? = some f)
    (draws : w'.draws = w.draws) (drawn : f'.drawn = f.drawn) (eventId : f'.eventId = f.eventId) :
    Numbered a w₀ w' (fs.set place f') := by
  have sums : ((fs.set place f').map (·.drawn)) = fs.map (·.drawn) := map_set_of_eq _ found drawn
  have ids : (fs.set place f').filterMap (·.eventId) = fs.filterMap (·.eventId) :=
    filterMap_set_of_eq _ found eventId
  refine ⟨?_, ?_, ?_, ?_⟩
  · rw [draws, sums]
    exact numbered.draws
  · intro g mem
    rcases List.mem_or_eq_of_mem_set mem with old | rfl
    · exact numbered.few g old
    · rw [drawn]
      exact numbered.few f (List.mem_of_getElem? found)
  · rw [ids]
    exact numbered.distinct
  · rw [ids, sums]
    exact numbered.known

/-- The identifiers of the workers were not used before. -/
theorem vacant (numbered : Numbered a w₀ w fs) (fresh : w₀.Fresh a (2 * fs.length)) {id : String}
    (mem : id ∈ fs.filterMap (·.eventId)) : w₀.log.slots.find? (attemptKey id) = none := by
  obtain ⟨i, less, rfl⟩ := numbered.known id mem
  exact fresh.vacant i (Nat.lt_of_lt_of_le less (sum_le numbered.few)) .phoneSending

/-- Who has drawn less than he may, still finds a new identifier. -/
theorem sum_lt (numbered : Numbered a w₀ w fs) (found : fs[place]? = some f)
    (less : f.drawn < 2) : (fs.map (·.drawn)).sum < 2 * fs.length := by
  have most : ∀ g ∈ fs.set place { f with drawn := 2 }, g.drawn ≤ 2 := by
    intro g mem
    rcases List.mem_or_eq_of_mem_set mem with old | rfl
    · exact numbered.few g old
    · exact Nat.le_refl 2
  have bound := sum_le most
  have counted := sum_map_set (·.drawn) found { f with drawn := 2 }
  rw [List.length_set] at bound
  simp only at counted
  omega

/-- The first identifier of a worker is that of its event. -/
theorem draw (numbered : Numbered a w₀ w fs) (fresh : w₀.Fresh a (2 * fs.length))
    (found : fs[place]? = some f) (idle : f.drawn = 0) (none : f.eventId = none)
    (draws : w'.draws = w.draws + 1) (drawn : f'.drawn = 1)
    (eventId : f'.eventId = some (toString (a.ids w.draws))) :
    Numbered a w₀ w' (fs.set place f') ∧
      toString (a.ids w.draws) ∉ fs.filterMap (·.eventId) := by
  have counted := sum_map_set (·.drawn) found f'
  have less := numbered.sum_lt found (by omega)
  have ids := filterMap_set_perm (·.eventId) found none eventId
  have new : toString (a.ids w.draws) ∉ fs.filterMap (·.eventId) := by
    intro mem
    obtain ⟨i, before, same⟩ := numbered.known _ mem
    rw [numbered.draws] at same
    exact fresh.distinct _ less i before (Uuid.toString_inj.mp same).symm
  refine ⟨⟨?_, ?_, ?_, ?_⟩, new⟩
  · have before := numbered.draws
    omega
  · intro g mem
    rcases List.mem_or_eq_of_mem_set mem with old | rfl
    · exact numbered.few g old
    · omega
  · rw [ids.nodup_iff]
    exact List.nodup_cons.mpr ⟨new, numbered.distinct⟩
  · intro id mem
    rcases List.mem_cons.mp (ids.subset mem) with rfl | old
    · exact ⟨(fs.map (·.drawn)).sum, by omega, by rw [numbered.draws]⟩
    · obtain ⟨i, before, named⟩ := numbered.known id old
      exact ⟨i, by omega, named⟩

/-- The second one is that of its record. -/
theorem again (numbered : Numbered a w₀ w fs) (found : fs[place]? = some f)
    (once : f.drawn = 1) (draws : w'.draws = w.draws + 1) (drawn : f'.drawn = 2)
    (eventId : f'.eventId = f.eventId) : Numbered a w₀ w' (fs.set place f') := by
  have counted := sum_map_set (·.drawn) found f'
  have ids : (fs.set place f').filterMap (·.eventId) = fs.filterMap (·.eventId) :=
    filterMap_set_of_eq _ found eventId
  refine ⟨?_, ?_, ?_, ?_⟩
  · have before := numbered.draws
    omega
  · intro g mem
    rcases List.mem_or_eq_of_mem_set mem with old | rfl
    · exact numbered.few g old
    · omega
  · rw [ids]
    exact numbered.distinct
  · rw [ids]
    intro id mem
    obtain ⟨i, before, named⟩ := numbered.known id mem
    exact ⟨i, by omega, named⟩

end Numbered

/-- The log tells of each worker what is to be seen of it, and of other keys what it told before. -/
structure Logged (w₀ w : World) (fs : List Face) : Prop where
  own : ∀ (place : Nat) (f : Face) (id : String), fs[place]? = some f → f.eventId = some id →
    w.log.stateOf (attemptKey id) = f.entry
  others : ∀ key : ListenerKey, (∀ id ∈ fs.filterMap (·.eventId), key ≠ attemptKey id) →
    w.log.slots.find? key = w₀.log.slots.find? key

theorem attemptKey_inj {i j : String} : attemptKey i = attemptKey j ↔ i = j := by
  simp [attemptKey]

namespace Logged

variable {w₀ w w' : World} {fs : List Face} {place : Nat} {f f' : Face}

theorem of_same (logged : Logged w₀ w fs) (found : fs[place]? = some f) (log : w'.log = w.log)
    (eventId : f'.eventId = f.eventId) (entry : f'.entry = f.entry) :
    Logged w₀ w' (fs.set place f') := by
  have ids : (fs.set place f').filterMap (·.eventId) = fs.filterMap (·.eventId) :=
    filterMap_set_of_eq _ found eventId
  refine ⟨?_, ?_⟩
  · intro other g id shown named
    rw [log]
    rw [List.getElem?_set] at shown
    split at shown
    · split at shown
      · cases shown
        rw [entry]
        exact logged.own place f id found (eventId ▸ named)
      · cases shown
    · exact logged.own other g id shown named
  · intro key apart
    rw [ids] at apart
    rw [log]
    exact logged.others key apart

/-- A worker changes what stands under its own key. -/
theorem change (logged : Logged w₀ w fs) (distinct : (fs.filterMap (·.eventId)).Nodup)
    (found : fs[place]? = some f) {id : String} (named : f.eventId = some id)
    (eventId : f'.eventId = some id) (own : w'.log.stateOf (attemptKey id) = f'.entry)
    (log : ∀ key, key ≠ attemptKey id → w'.log.slots.find? key = w.log.slots.find? key) :
    Logged w₀ w' (fs.set place f') := by
  have ids : (fs.set place f').filterMap (·.eventId) = fs.filterMap (·.eventId) :=
    filterMap_set_of_eq _ found (eventId.trans named.symm)
  refine ⟨?_, ?_⟩
  · intro other g id' shown named'
    rw [List.getElem?_set] at shown
    split at shown
    · split at shown
      · cases shown
        rw [eventId] at named'
        cases named'
        exact own
      · cases shown
    · rename_i elsewhere
      have apart : attemptKey id' ≠ attemptKey id := by
        intro same
        rw [attemptKey_inj] at same
        subst same
        exact elsewhere (place_of_nodup_filterMap _ distinct found shown named named')
      rw [ListenerLog.stateOf_congr (log _ apart)]
      exact logged.own other g id' shown named'
  · intro key apart
    rw [ids] at apart
    rw [log key (apart id (List.mem_filterMap.mpr ⟨f, List.mem_of_getElem? found, named⟩))]
    exact logged.others key apart

/-- A worker has found a key of its own, under which nothing stands. -/
theorem draw (logged : Logged w₀ w fs) (found : fs[place]? = some f) (none : f.eventId = none)
    {id : String} (eventId : f'.eventId = some id) (entry : f'.entry = .vacant)
    (new : id ∉ fs.filterMap (·.eventId))
    (vacant : w₀.log.slots.find? (attemptKey id) = Option.none) (log : w'.log = w.log) :
    Logged w₀ w' (fs.set place f') := by
  have ids := filterMap_set_perm (·.eventId) found none eventId
  refine ⟨?_, ?_⟩
  · intro other g id' shown named
    rw [log]
    rw [List.getElem?_set] at shown
    split at shown
    · split at shown
      · cases shown
        rw [eventId] at named
        cases named
        have still := logged.others (attemptKey id) fun id' mem same =>
          new (attemptKey_inj.mp same ▸ mem)
        rw [ListenerLog.stateOf, still, vacant, entry]
      · cases shown
    · exact logged.own other g id' shown named
  · intro key apart
    rw [log]
    exact logged.others key fun id' mem =>
      apart id' (ids.symm.subset (List.mem_cons_of_mem _ mem))

end Logged

/-- What so many tries have made of a message, at times of the clock. -/
inductive Message.Tries (a : Ambient) (m₀ : Message) : Nat → Message → Prop
  | none : Tries a m₀ 0 m₀
  | more {k i j : Nat} {m : Message} (tries : Tries a m₀ k m)
      (allowed : m.status ∈ Status.attemptAllowed)
      (room : (Move.attempt (a.clock i)).HasRoom m) :
      Tries a m₀ (k + 1) ((Move.attempt (a.clock i)).result m (a.clock j))

namespace Message.Tries

variable {a : Ambient} {m₀ m m' : Message} {k : Nat}

theorem id (tries : m₀.Tries a k m) : m.id = m₀.id := by
  induction tries with
  | none => rfl
  | more _ _ _ ih => rw [Move.result_id, ih]

theorem version (tries : m₀.Tries a k m) : m.version.toNat = m₀.version.toNat + k := by
  induction tries with
  | none => rfl
  | more _ _ room ih =>
      rw [Move.toNat_version_result room, ih]
      omega

theorem sendAttemptCount (tries : m₀.Tries a k m) :
    m.sendAttemptCount.toNat = m₀.sendAttemptCount.toNat + k := by
  induction tries with
  | none => rfl
  | more _ _ room ih =>
      rw [Move.toNat_sendAttemptCount_result room, ih, Move.isAttempt, if_pos rfl]
      omega

theorem status (tries : m₀.Tries a k m) (tried : 0 < k) : m.status = .sending := by
  cases tries with
  | none => cases tried
  | more => rfl

end Message.Tries

/-- The worker has written this message, by this event. -/
structure Face.Wrote (f : Face) (id : Uuid) (e : Envelope) : Prop where
  own : f.id = id
  hasWritten : f.hasWritten = true
  announced : f.announced = some e

/-- What is stored tells how many workers have written, and bears the time of an event by which one
of them has. -/
structure Stocked (a : Ambient) (w₀ w : World) (fs : List Face) : Prop where
  vacant : ∀ id, w₀.messages.find? id = none →
    w.messages.find? id = none ∧ writers fs id = 0
  stored : ∀ id m₀, w₀.messages.find? id = some m₀ →
    ∃ m, w.messages.find? id = some m ∧ m₀.Tries a (writers fs id) m
  stamped : ∀ id m, w.messages.find? id = some m → 0 < writers fs id →
    ∃ e, (∃ f ∈ fs, f.Wrote id e) ∧ m.lastAttemptedAt = some e.time

namespace Stocked

variable {a : Ambient} {w₀ w w' : World} {fs : List Face} {place : Nat} {f f' : Face}

/-- What nobody has written is stored as before. -/
theorem find?_of_unwritten (stocked : Stocked a w₀ w fs) {id : Uuid}
    (unwritten : writers fs id = 0) : w.messages.find? id = w₀.messages.find? id := by
  cases began : w₀.messages.find? id with
  | none => exact (stocked.vacant id began).1
  | some m₀ =>
      obtain ⟨m, stored, tries⟩ := stocked.stored id m₀ began
      rw [unwritten] at tries
      cases tries
      exact stored

theorem writers_set (found : fs[place]? = some f) (same : f'.id = f.id)
    (written : f'.hasWritten = f.hasWritten) (id : Uuid) :
    writers (fs.set place f') id = writers fs id := by
  have counted := countP_set_add (fun f : Face => f.id = id && f.hasWritten) found f'
  simp only [same, written] at counted
  simp only [writers]
  omega

theorem of_same (stocked : Stocked a w₀ w fs) (found : fs[place]? = some f)
    (messages : w'.messages = w.messages) (same : f'.id = f.id)
    (written : f'.hasWritten = f.hasWritten)
    (announced : f.hasWritten = true → f'.announced = f.announced) :
    Stocked a w₀ w' (fs.set place f') := by
  refine ⟨?_, ?_, ?_⟩
  · intro id vacant
    rw [messages, writers_set found same written]
    exact stocked.vacant id vacant
  · intro id m₀ began
    rw [messages, writers_set found same written]
    exact stocked.stored id m₀ began
  · intro id m stored
    rw [messages] at stored
    rw [writers_set found same written]
    intro tried
    obtain ⟨e, wrote, dated⟩ := stocked.stamped id m stored tried
    refine ⟨e, exists_mem_set found (fun wrote => ?_) wrote, dated⟩
    exact ⟨same.trans wrote.own, written.trans wrote.hasWritten,
      (announced wrote.hasWritten).trans wrote.announced⟩

theorem writers_write (found : fs[place]? = some f) (same : f'.id = f.id)
    (unwritten : f.hasWritten = false) (written : f'.hasWritten = true) (id : Uuid) :
    writers (fs.set place f') id = writers fs id + if f.id = id then 1 else 0 := by
  have counted := countP_set_add (fun f : Face => f.id = id && f.hasWritten) found f'
  simp only [same, unwritten, written, Bool.and_false, Bool.and_true, Bool.false_eq_true,
    if_false, decide_eq_true_eq] at counted
  simpa [writers] using counted

/-- A worker writes what its try makes of the message that is stored. -/
theorem write (stocked : Stocked a w₀ w fs) (found : fs[place]? = some f) (same : f'.id = f.id)
    (unwritten : f.hasWritten = false) (written : f'.hasWritten = true) {m : Message} {i j : Nat}
    (stored : w.messages.find? f.id = some m) (allowed : m.status ∈ Status.attemptAllowed)
    (room : (Move.attempt (a.clock i)).HasRoom m)
    (messages : w'.messages =
      w.messages.put ((Move.attempt (a.clock i)).result m (a.clock j)))
    {e : Envelope} (announced : f'.announced = some e) (dated : e.time = a.clock i) :
    Stocked a w₀ w' (fs.set place f') := by
  have own : ((Move.attempt (a.clock i)).result m (a.clock j)).id = f.id := by
    rw [Move.result_id, MessageStore.id_of_find? stored]
  refine ⟨?_, ?_, ?_⟩
  · intro id vacant
    have other : id ≠ f.id := by
      rintro rfl
      rw [(stocked.vacant _ vacant).1] at stored
      cases stored
    rw [messages, MessageStore.find?_put, own, if_neg other,
      writers_write found same unwritten written, if_neg (Ne.symm other)]
    exact stocked.vacant id vacant
  · intro id m₀ began
    obtain ⟨n, found', tries⟩ := stocked.stored id m₀ began
    rw [messages, MessageStore.find?_put, own, writers_write found same unwritten written]
    by_cases mine : id = f.id
    · subst mine
      rw [stored] at found'
      cases found'
      rw [if_pos rfl, if_pos rfl]
      exact ⟨_, rfl, .more tries allowed room⟩
    · rw [if_neg mine, if_neg (Ne.symm mine)]
      exact ⟨n, found', tries⟩
  · intro id n stored'
    rw [messages, MessageStore.find?_put, own] at stored'
    rw [writers_write found same unwritten written]
    intro tried
    by_cases mine : id = f.id
    · rw [if_pos mine] at stored'
      cases stored'
      have inside := (List.getElem?_eq_some_iff.mp found).1
      refine ⟨e, ⟨f', List.mem_set inside f', same.trans mine.symm, written, announced⟩, ?_⟩
      rw [dated]
      rfl
    · rw [if_neg mine] at stored'
      rw [if_neg (Ne.symm mine)] at tried
      obtain ⟨e', wrote, dated⟩ := stocked.stamped id n stored' tried
      exact ⟨e', exists_mem_set found (fun wrote => absurd wrote.own.symm mine) wrote, dated⟩

end Stocked

/-- What was announced and what was written into the journal as errors. -/
structure Told (w₀ w : World) (fs : List Face) : Prop where
  announced : w.announced.Perm (w₀.announced ++ fs.filterMap (·.announced))
  errors : w.errors.Perm (w₀.errors ++ fs.filterMap (·.line))

namespace Told

variable {w₀ w w' : World} {fs : List Face} {place : Nat} {f f' : Face}

theorem of_same (told : Told w₀ w fs) (found : fs[place]? = some f)
    (announced : w'.announced = w.announced) (errors : w'.errors = w.errors)
    (event : f'.announced = f.announced) (line : f'.line = f.line) :
    Told w₀ w' (fs.set place f') := by
  have events : (fs.set place f').filterMap (·.announced) = fs.filterMap (·.announced) :=
    filterMap_set_of_eq _ found event
  have lines : (fs.set place f').filterMap (·.line) = fs.filterMap (·.line) :=
    filterMap_set_of_eq _ found line
  refine ⟨?_, ?_⟩
  · rw [announced, events]
    exact told.announced
  · rw [errors, lines]
    exact told.errors

theorem perm_insert {α : Type} {xs ys zs zs' : List α} {x : α} (before : xs.Perm (ys ++ zs))
    (after : zs'.Perm (x :: zs)) : (xs ++ [x]).Perm (ys ++ zs') := by
  have last : (xs ++ [x]).Perm (x :: (ys ++ zs)) :=
    List.perm_append_comm.trans (before.cons x)
  exact last.trans (List.perm_middle.symm.trans (after.symm.append_left ys))

theorem announce (told : Told w₀ w fs) (found : fs[place]? = some f) {e : Envelope}
    (quiet : f.announced = none) (event : f'.announced = some e) (line : f'.line = f.line)
    (announced : w'.announced = w.announced ++ [e]) (errors : w'.errors = w.errors) :
    Told w₀ w' (fs.set place f') := by
  have lines : (fs.set place f').filterMap (·.line) = fs.filterMap (·.line) :=
    filterMap_set_of_eq _ found line
  refine ⟨?_, ?_⟩
  · rw [announced]
    exact perm_insert told.announced (filterMap_set_perm _ found quiet event)
  · rw [errors, lines]
    exact told.errors

theorem fail (told : Told w₀ w fs) (found : fs[place]? = some f) {line : LogLine}
    (quiet : f.line = none) (tells : f'.line = some line) (event : f'.announced = f.announced)
    (announced : w'.announced = w.announced) (errors : w'.errors = w.errors ++ [line]) :
    Told w₀ w' (fs.set place f') := by
  have events : (fs.set place f').filterMap (·.announced) = fs.filterMap (·.announced) :=
    filterMap_set_of_eq _ found event
  refine ⟨?_, ?_⟩
  · rw [announced, events]
    exact told.announced
  · rw [errors]
    exact perm_insert told.errors (filterMap_set_perm _ found quiet tells)

end Told

end SmsTracking
