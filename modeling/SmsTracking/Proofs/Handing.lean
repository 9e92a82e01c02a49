import SmsTracking.Proofs.Books
import SmsTracking.Proofs.Isolation

/-!
Workers that hand out waiting messages side by side. Since each message waits and has only one
worker, no worker can fail, whoever goes on when. Main statement: once all have ended, the books
tell of each message as one try has made it, and of one record more for each (`Books.run_workers`).
-/

namespace SmsTracking

namespace MessageStore

/-- Some of what a store has held was replaced, message by message. -/
theorem perm_of_replaced {s s' : MessageStore} {ns ms rest : List Message}
    (held : s.toList.Perm (ns ++ rest))
    (each : List.Forall₂ (fun n m => m.id = n.id ∧ s'.find? n.id = some m) ns ms)
    (others : ∀ id, id ∉ ns.map (·.id) → s'.find? id = s.find? id) :
    s'.toList.Perm (ms ++ rest) := by
  have ids : ms.map (·.id) = ns.map (·.id) := map_eq_of_forall₂ (each.imp fun _ _ => And.left)
  have once := nodup_of_perm held
  rw [List.map_append] at once
  refine perm_of_mem_iff (by rwa [List.map_append, ids]) fun m => ?_
  rw [List.mem_append]
  by_cases named : m.id ∈ ns.map (·.id)
  · have apart : m ∉ rest := fun mem =>
      (List.nodup_append.mp once).2.2 _ named _ (List.mem_map_of_mem mem) rfl
    rw [or_iff_left apart]
    constructor
    · intro found
      obtain ⟨n, listed, same⟩ := List.mem_map.mp named
      obtain ⟨m', mem, _, found'⟩ := exists_of_mem_right each.flip listed
      rw [same, found] at found'
      cases found'
      exact mem
    · intro mem
      obtain ⟨n, _, same, found⟩ := exists_of_mem_right each mem
      rwa [same]
  · have absent : m ∉ ms := fun mem => named (ids ▸ List.mem_map_of_mem mem)
    have absent' : m ∉ ns := fun mem => named (List.mem_map_of_mem mem)
    rw [others _ named, find?_iff_of_perm held, List.mem_append, or_iff_right absent,
      or_iff_right absent']

end MessageStore

/-- The message was handed out, and is stored as one try has made it, at the time of the event. -/
structure Ticket.HandsOut (a : Ambient) (w' : World) (n : Message) (t : Ticket) (m : Message) :
    Prop where
  own : t.sms = .ofMessage n
  answer : t.answer = some m
  tries : n.Tries a 1 m
  stored : w'.messages.find? n.id = some m
  stamped : m.lastAttemptedAt = some t.event.time

/-- The only worker of a message that waits has handed it out. -/
theorem Ticket.answer_of_waiting {a : Ambient} {w₀ w : World} {p : Post} {t : Ticket} {k : Nat}
    {n : Message} (of : Of p t) (sound : Post.Sound a w₀ w k p.sms p.duty)
    (stored : w₀.messages.find? p.sms.id = some n) (waits : n.isOutstanding = true)
    (only : k = if t.answer.isSome then 1 else 0) :
    ∃ m, t.answer = some m ∧ n.Tries a 1 m ∧ w.messages.find? p.sms.id = some m := by
  have allowed := Message.attemptAllowed_of_isOutstanding waits
  obtain ⟨source, sms, duty⟩ := p
  simp only at sound stored ⊢
  cases sound with
  | loaded own seen tried =>
      cases of
      obtain rfl : k = 1 := only
      obtain ⟨m₀, began, tries, most, last⟩ := seen
      rw [stored] at began
      cases began
      obtain rfl := Nat.le_antisymm most tried
      exact ⟨_, rfl, tries, last rfl⟩
  | failed own knows fails =>
      cases of
      obtain rfl : k = 0 := only
      have agrees : Agrees (w₀.verdict .epoch sms.id) _ := agrees_of_failed knows fails
      rw [World.verdict_of_allowed stored allowed] at agrees
      cases agrees
  | _ => cases of

/-- The time at which a message was tried last is that of the event of its only worker. -/
theorem Manned.stamped {a : Ambient} {w₀ w : World} {ps : List Post} {ts : List Ticket}
    (manned : Manned a w₀ w ps) (faces : ps.map Post.face = ts.map Ticket.face)
    (once : (ts.map (·.sms.id)).Nodup) {t : Ticket} (mem : t ∈ ts)
    (answered : t.answer.isSome = true) {m : Message}
    (stored : w.messages.find? t.sms.id = some m) : m.lastAttemptedAt = some t.event.time := by
  have written : 0 < writers (ps.map Post.face) t.sms.id := by
    rw [faces, Ticket.writers_eq_handed, Ticket.handed_of_nodup once mem, if_pos answered]
    exact Nat.one_pos
  obtain ⟨e, ⟨f, shown, wrote⟩, dated⟩ := manned.stocked.stamped _ m stored written
  rw [faces] at shown
  obtain ⟨t', listed, rfl⟩ := List.mem_map.mp shown
  have same : t' = t := List.inj_on_of_nodup_map once listed mem wrote.own
  subst same
  have own : t'.event = e := Option.some.inj wrote.announced
  rw [own]
  exact dated

/-- What is left of the workers of messages that wait, once all have ended. -/
structure Batch.HandsOutAll (a : Ambient) (b : Batch) (w w' : World) (ts : List Ticket) : Prop where
  each : List.Forall₂ (fun n t => ∃ m, Ticket.HandsOut a w' n t m) b.messages ts
  draws : w'.draws = w.draws + 2 * ts.length
  events : ∀ t ∈ ts, ∃ i < 2 * ts.length, t.event.id = toString (a.ids (w.draws + i))
  new : ∀ t ∈ ts, w.log.slots.find? t.event.key = none

section Workers

variable {a : Ambient} {b : Batch} {w w' : World} {ts : List Ticket} {ps : List Post}

theorem Manned.handsOutAll (manned : Manned a w w' ps) (all : List.Forall₂ Ticket.Of ps ts)
    (messages : ps.map (·.sms) = b.messages.map .ofMessage)
    (once : (b.messages.map (·.id)).Nodup)
    (waiting : ∀ n ∈ b.messages, w.messages.find? n.id = some n ∧ n.isOutstanding = true) :
    b.HandsOutAll a w w' ts := by
  have faces := Ticket.map_face all
  have leaves := manned.leaves all messages
  have ids := map_id_of_messages leaves.messages
  have once : (ts.map (·.sms.id)).Nodup := ids ▸ once
  have each : List.Forall₂ (fun n t => ∃ m, Ticket.HandsOut a w' n t m) b.messages ts := by
    refine forall₂_of_map_eq leaves.messages fun n listed t mem own => ?_
    obtain ⟨p, manning, of⟩ := exists_of_mem_right all mem
    have sound := manned.sound p manning
    rw [faces, Ticket.writers_eq_handed] at sound
    have named : p.sms.id = n.id := by
      rw [of.sms_eq, own]
      rfl
    obtain ⟨stored, waits⟩ := waiting n listed
    rw [← named] at stored
    obtain ⟨m, answered, tries, found⟩ := Ticket.answer_of_waiting of sound stored waits (by
      rw [of.sms_eq]
      exact Ticket.handed_of_nodup once mem)
    refine ⟨m, own, answered, tries, named ▸ found, ?_⟩
    refine manned.stamped faces once mem (by rw [answered]; rfl) ?_
    rw [← of.sms_eq]
    exact found
  have drawn : ((ps.map Post.face).map Face.drawn).sum = 2 * ts.length := by
    have two : ∀ t ∈ ts, (Face.drawn ∘ Ticket.face) t = 2 := by
      intro t mem
      obtain ⟨n, _, m, handed⟩ := exists_of_mem_right each mem
      simp [Ticket.face, handed.answer]
    rw [faces, List.map_map, List.map_congr_left two, List.map_const', List.sum_replicate_nat]
    exact Nat.mul_comm ..
  have listed : ∀ t ∈ ts, t.event.id ∈ (ps.map Post.face).filterMap (·.eventId) := by
    intro t mem
    rw [faces, List.filterMap_map]
    exact List.mem_filterMap.mpr ⟨t, mem, rfl⟩
  refine ⟨each, by rw [manned.numbered.draws, drawn], fun t mem => ?_, fun t mem => ?_⟩
  · rw [← drawn]
    exact manned.numbered.known _ (listed t mem)
  · rw [Manned.attemptKey_of_tries (leaves.settled t mem).own]
    exact manned.numbered.vacant manned.fresh (listed t mem)

theorem Batch.Leaves.find?_of_absent (leaves : b.Leaves a w w' ts) {id : Uuid}
    (absent : id ∉ b.messages.map (·.id)) : w'.messages.find? id = w.messages.find? id := by
  have nobody : Ticket.handed ts id = 0 := by
    rw [← Ticket.writers_eq_handed]
    refine writers_of_absent ?_
    rw [List.map_map]
    exact map_id_of_messages leaves.messages ▸ absent
  cases began : w.messages.find? id with
  | none => exact leaves.vacant id began
  | some m₀ =>
      obtain ⟨m, found, tries⟩ := leaves.stored id m₀ began
      rw [nobody] at tries
      cases tries
      exact found

namespace Batch.HandsOutAll

theorem known (all : b.HandsOutAll a w w' ts) (leaves : b.Leaves a w w' ts) (known : w.Known a) :
    w'.Known a := by
  refine known.later (by rw [all.draws]; omega) ?_ ?_
  · intro id m found
    refine .inl fun vacant => ?_
    rw [leaves.vacant id vacant] at found
    cases found
  · intro key slot found
    by_cases own : ∃ t ∈ ts, key = t.event.key
    · obtain ⟨t, mem, rfl⟩ := own
      obtain ⟨i, few, named⟩ := all.events t mem
      exact .inr ⟨w.draws + i, by rw [all.draws]; omega, named⟩
    · rw [leaves.log key fun t mem _ same => own ⟨t, mem, same⟩] at found
      exact .inl (Option.ne_none_iff_exists'.mpr ⟨slot, found⟩)

/-- Of the identifiers that come next, those that the workers have not drawn stay new. -/
theorem fresh (all : b.HandsOutAll a w w' ts) (leaves : b.Leaves a w w' ts) {k : Nat}
    (fresh : w.Fresh a (k + 2 * ts.length)) : w'.Fresh a k := by
  have shift : ∀ i, w'.draws + i = w.draws + (2 * ts.length + i) := by
    intro i
    rw [all.draws, Nat.add_assoc]
  refine ⟨fun j inside i before => ?_, fun i inside kind => ?_⟩
  · rw [shift, shift]
    exact fresh.distinct _ (by omega) _ (by omega)
  · rw [shift, leaves.log]
    · exact fresh.vacant _ (by omega) kind
    · intro t mem _ same
      obtain ⟨j, drawn, named⟩ := all.events t mem
      have drawnAgain := (congrArg ListenerKey.eventId same).trans named
      exact fresh.distinct _ (by omega) j (by omega) (Uuid.toString_inj.mp drawnAgain).symm

/-- There is a record more for each worker. -/
theorem size (all : b.HandsOutAll a w w' ts) (leaves : b.Leaves a w w' ts) :
    w'.log.size = w.log.size + ts.length := by
  rw [← List.length_map (f := fun t : Ticket => t.event.key)]
  refine ListenerLog.size_of_settled ?_ ?_ fun key => ?_
  · refine List.Nodup.of_map ListenerKey.eventId ?_
    rw [List.map_map]
    exact leaves.events
  · intro key mem
    obtain ⟨t, listed, rfl⟩ := List.mem_map.mp mem
    simp only [ListenerLog.has, all.new t listed]
  · by_cases own : key ∈ ts.map (fun t => t.event.key)
    · obtain ⟨t, listed, rfl⟩ := List.mem_map.mp own
      obtain ⟨n, _, m, handed⟩ := exists_of_mem_right all.each listed
      rw [leaves.recorded t listed, handed.answer]
      simp [own]
    · have same := leaves.log key fun t mem _ same => own (List.mem_map.mpr ⟨t, mem, same.symm⟩)
      rw [or_iff_left own, ListenerLog.has_iff, ListenerLog.has_iff, same]

end Batch.HandsOutAll

/-- Workers of messages that wait, in whatever order they run. -/
theorem Turns.handsOutAll_run (config : ServiceConfig) (running : w.cancelled = false)
    (fresh : w.Fresh a (2 * b.messages.length)) (room : w.RoomFor (b.messages.map (·.id)))
    (once : (b.messages.map (·.id)).Nodup)
    (waiting : ∀ n ∈ b.messages, w.messages.find? n.id = some n ∧ n.isOutstanding = true)
    {schedule : List Turn} (calm : .cancel ∉ schedule) :
    let t := (ofBatch (.inPlace config) b w).run a alone schedule
    t.Over → t.world.cancelled = false ∧ ∃ ts, b.Leaves a w t.world ts ∧
      b.HandsOutAll a w t.world ts ∧ t.answers = ts.filterMap (·.answer) := by
  intro t ended
  have still : t.world.cancelled = false := (cancelled_run a _ calm).trans running
  obtain ⟨ps, keeps, staffed⟩ := staffed_run config fresh room schedule
  obtain ⟨ts, all, programs⟩ := Post.exists_tickets keeps (fun p mem => ended.exists_outcome mem)
    (fun p mem => ⟨_, staffed.manned.sound p mem⟩) still
  refine ⟨still, ts, staffed.manned.leaves all staffed.messages,
    staffed.manned.handsOutAll all staffed.messages once waiting, ?_⟩
  rw [answers, programs, List.filterMap_map]
  rfl

/-- What comes of a batch of waiting messages in the books. -/
theorem Books.of_handsOutAll {rest : List Message} {records draws : Nat}
    (books : Books a w (b.messages ++ rest) records draws) (still : w'.cancelled = false)
    (leaves : b.Leaves a w w' ts) (all : b.HandsOutAll a w w' ts) :
    Books a w' (ts.filterMap (·.answer) ++ rest) (records + b.messages.length)
      (draws + 2 * b.messages.length) := by
  have count : b.messages.length = ts.length := all.each.length_eq
  refine ⟨still, all.known leaves books.known, ?_, ?_, ?_⟩
  · refine MessageStore.perm_of_replaced books.messages ?_ fun id => leaves.find?_of_absent
    refine forall₂_filterMap (all.each.imp ?_)
    intro n t found
    obtain ⟨m, handed⟩ := found
    exact ⟨m, handed.answer, handed.tries.id, handed.stored⟩
  · rw [all.size leaves, books.records, count]
  · rw [all.draws, books.draws, count]

end Workers

/-- Whoever goes on when, all messages that wait have been handed out in the end. -/
theorem Books.run_workers {a : Ambient} {k : Nat}
    (distinct : ∀ j < k, ∀ i < j, a.ids i ≠ a.ids j) (config : ServiceConfig) {b : Batch}
    {w : World} {rest : List Message} {records draws : Nat}
    (books : Books a w (b.messages ++ rest) records draws)
    (few : draws + 2 * b.messages.length ≤ k)
    (waiting : ∀ n ∈ b.messages, n.isOutstanding = true ∧ n.Untried) {schedule : List Turn}
    (calm : .cancel ∉ schedule) :
    let t := (Turns.ofBatch (.inPlace config) b w).run a Turns.alone schedule
    t.Over → List.Forall₂ (fun n m => n.Tries a 1 m) b.messages t.answers ∧
      Books a t.world (t.answers ++ rest) (records + b.messages.length)
        (draws + 2 * b.messages.length) := by
  intro t ended
  have once : (b.messages.map (·.id)).Nodup := by
    have all := MessageStore.nodup_of_perm books.messages
    rw [List.map_append] at all
    exact (List.nodup_append.mp all).1
  have stored : ∀ n ∈ b.messages, w.messages.find? n.id = some n :=
    fun n mem => books.find? (List.mem_append_left _ mem)
  have room := World.roomFor_of_untried once fun n mem => ⟨stored n mem, (waiting n mem).2⟩
  obtain ⟨still, ts, leaves, all, answers⟩ :=
    Turns.handsOutAll_run config books.running (books.fresh distinct few) room once
      (fun n mem => ⟨stored n mem, (waiting n mem).1⟩) calm ended
  rw [answers]
  refine ⟨forall₂_filterMap (all.each.imp ?_), books.of_handsOutAll still leaves all⟩
  intro n t found
  obtain ⟨m, handed⟩ := found
  exact ⟨m, handed.answer, handed.tries⟩

end SmsTracking
