import SmsTracking.Proofs.Handing
import SmsTracking.Proofs.Reachable
import SmsTracking.Proofs.Widths

/-!
How polls drain the messages that wait. A poll selects its batch at once, so many of the messages as
it may, the earliest first; then the workers of the batch go on side by side, and what was not
selected still waits for the next poll. Main statements: a service that polls by itself is one of
the ways in which a poll can go (`Poll.exists_yields_run`), and whoever of the workers goes on when,
each poll hands out its share, and so many polls as it takes hand out every message once
(`polls_drain`).
-/

namespace SmsTracking

/-- What a poll for at most `limit` messages hands out and what it leaves. -/
structure Polled (limit : Nat) (w : World) (ms : List Message) (w' : World) : Prop where
  length : ms.length = min limit w.messages.waiting.length
  once : (ms.map (·.id)).Nodup
  /-- None is later than a message that is left behind. -/
  earliest : ∀ m ∈ ms, ∀ n ∈ w.messages.waiting, n.id ∉ ms.map (·.id) →
    m.orderTimestamp ≤ n.orderTimestamp
  /-- Each was waiting and has been tried, with an event of its own. -/
  events : ∃ es, w'.announced.Perm (w.announced ++ es) ∧ (es.map (·.id)).Nodup ∧
    List.Forall₂ (fun e m => ∃ n ∈ w.messages.waiting, FirstTry e n m) es ms
  stored : ∀ m ∈ ms, w'.messages.find? m.id = some m
  others : ∀ id, id ∉ ms.map (·.id) → w'.messages.find? id = w.messages.find? id

/-- A message that waits has not been tried, so that there is room for its first try. -/
theorem MessageStore.Untried.roomFor {w : World} (untried : w.messages.Untried) (limit : UInt64) :
    w.RoomFor ((w.messages.outstanding limit).map (·.id)) := by
  refine World.roomFor_of_untried (w.messages.nodup_outstanding limit) fun n selected => ?_
  obtain ⟨found, waits⟩ := mem_waiting_iff.mp (w.messages.outstanding_subset limit selected)
  exact ⟨found, untried n.id n found waits⟩

namespace Polled

variable {limit : Nat} {w w' : World} {ms : List Message}

/-- What was handed out was waiting, and does not wait any more. -/
theorem handed (polled : Polled limit w ms w') {m : Message} (mem : m ∈ ms) :
    m.id ∈ w.messages.waiting.map (·.id) ∧ m.isOutstanding = false := by
  obtain ⟨es, _, _, tries⟩ := polled.events
  obtain ⟨e, _, n, waits, first⟩ := exists_of_mem_right tries mem
  refine ⟨?_, first.not_isOutstanding⟩
  rw [first.id]
  exact List.mem_map_of_mem waits

/-- What still waits was not handed out, and is as it was before. -/
theorem left (polled : Polled limit w ms w') {id : Uuid} {n : Message}
    (found : w'.messages.find? id = some n) (waits : n.isOutstanding = true) :
    id ∉ ms.map (·.id) ∧ w.messages.find? id = some n := by
  have absent : id ∉ ms.map (·.id) := by
    intro named
    obtain ⟨m, mem, rfl⟩ := List.mem_map.mp named
    rw [polled.stored m mem] at found
    cases found
    rw [(polled.handed mem).2] at waits
    cases waits
  exact ⟨absent, polled.others id absent ▸ found⟩

/-- Each message that was waiting has been handed out or still waits. -/
theorem waiting (polled : Polled limit w ms w') :
    (ms.map (·.id) ++ w'.messages.waiting.map (·.id)).Perm (w.messages.waiting.map (·.id)) := by
  apply (List.perm_ext_iff_of_nodup ?_ (MessageStore.nodup_waiting _)).mpr
  · intro id
    rw [List.mem_append]
    constructor
    · intro either
      cases either with
      | inl named =>
          obtain ⟨m, mem, rfl⟩ := List.mem_map.mp named
          exact (polled.handed mem).1
      | inr still =>
          obtain ⟨n, found, waits⟩ := MessageStore.mem_map_waiting_iff.mp still
          exact MessageStore.mem_map_waiting_iff.mpr ⟨n, (polled.left found waits).2, waits⟩
    · intro waits
      by_cases named : id ∈ ms.map (·.id)
      · exact .inl named
      · obtain ⟨n, found, still⟩ := MessageStore.mem_map_waiting_iff.mp waits
        rw [← polled.others id named] at found
        exact .inr (MessageStore.mem_map_waiting_iff.mpr ⟨n, found, still⟩)
  · refine List.nodup_append.mpr ⟨polled.once, MessageStore.nodup_waiting _, ?_⟩
    intro id named other still same
    subst same
    obtain ⟨n, found, waits⟩ := MessageStore.mem_map_waiting_iff.mp still
    exact (polled.left found waits).1 named

theorem length_waiting (polled : Polled limit w ms w') :
    w'.messages.waiting.length = w.messages.waiting.length - limit := by
  have lengths := polled.waiting.length_eq
  rw [List.length_append, List.length_map, List.length_map, List.length_map, polled.length]
    at lengths
  omega

theorem untried (polled : Polled limit w ms w') (untried : w.messages.Untried) :
    w'.messages.Untried := by
  intro id m found waits
  exact untried id m (polled.left found waits).2 waits

end Polled

/-- Nothing waits, or nothing was asked for. -/
theorem Polled.nothing {limit : UInt64} {w : World} (idle : w.messages.outstanding limit = []) :
    Polled limit.toNat w [] w where
  length := by rw [← w.messages.length_outstanding, idle]
  once := List.nodup_nil
  earliest m mem := absurd mem List.not_mem_nil
  events := ⟨[], by rw [List.append_nil], List.nodup_nil, .nil⟩
  stored m mem := absurd mem List.not_mem_nil
  others id _ := rfl

/-! What the workers of a batch of waiting messages leave -/

theorem FirstTry.of_tries {a : Ambient} {e : Envelope} {n m : Message}
    (payload : e.payload? = some (.phoneSending (.ofMessage n))) (untried : n.Untried)
    (tries : n.Tries a 1 m) (stamped : m.lastAttemptedAt = some e.time) : FirstTry e n m := by
  cases tries with
  | @more _ i j m tries allowed room =>
      cases tries
      have dated : a.clock i = e.time := Option.some.inj stamped
      rw [dated]
      exact .of_untried payload untried (a.clock j)

section Workers

variable {a : Ambient} {b : Batch} {w w' : World} {ts : List Ticket}

namespace Batch.HandsOutAll

/-- What the worker of each ticket has made of its message. -/
theorem firstTry (all : b.HandsOutAll a w w' ts) (leaves : b.Leaves a w w' ts)
    (untried : ∀ n ∈ b.messages, n.Untried) {t : Ticket} (mem : t ∈ ts) :
    ∃ m, t.answer = some m ∧ (∃ n ∈ b.messages, FirstTry t.event n m) ∧
      w'.messages.find? m.id = some m := by
  obtain ⟨n, listed, m, handed⟩ := exists_of_mem_right all.each mem
  have payload := (leaves.settled t mem).own.carries.payload?
  rw [handed.own] at payload
  have first := FirstTry.of_tries payload (untried n listed) handed.tries handed.stamped
  exact ⟨m, handed.answer, ⟨n, listed, first⟩, first.id ▸ handed.stored⟩

/-- The messages that were handed out are those of the batch. -/
theorem map_id (all : b.HandsOutAll a w w' ts) :
    (ts.filterMap (·.answer)).map (·.id) = b.messages.map (·.id) := by
  apply map_eq_of_forall₂
  apply forall₂_filterMap
  apply all.each.imp
  intro n t found
  obtain ⟨m, handed⟩ := found
  exact ⟨m, handed.answer, handed.tries.id⟩

/-- In whatever order they come, each has an event of its own. -/
theorem events_of_perm (all : b.HandsOutAll a w w' ts) (leaves : b.Leaves a w w' ts)
    (untried : ∀ n ∈ b.messages, n.Untried) {ms : List Message}
    (perm : ms.Perm (ts.filterMap (·.answer))) :
    ∃ es, es.Perm (ts.map (·.event)) ∧
      List.Forall₂ (fun e m => ∃ n ∈ b.messages, FirstTry e n m) es ms := by
  have tries : List.Forall₂ (fun e m => ∃ n ∈ b.messages, FirstTry e n m) (ts.map (·.event))
      (ts.filterMap (·.answer)) := by
    rw [List.forall₂_map_left_iff]
    apply forall₂_filterMap
    apply List.forall₂_same.mpr
    intro t mem
    obtain ⟨m, answered, tried, _⟩ := all.firstTry leaves untried mem
    exact ⟨m, answered, tried⟩
  obtain ⟨es, each, order⟩ := List.perm_comp_forall₂ perm tries.flip
  exact ⟨es, order, each.flip⟩

/-- Workers that have handed out what a poll selects have done what the poll is to do. -/
theorem polled {limit : UInt64} (selected : b.messages = w.messages.outstanding limit)
    (all : b.HandsOutAll a w w' ts) (leaves : b.Leaves a w w' ts) (untried : w.messages.Untried)
    {ms : List Message} (perm : ms.Perm (ts.filterMap (·.answer))) :
    Polled limit.toNat w ms w' := by
  have subset : ∀ n ∈ b.messages, n ∈ w.messages.waiting := by
    intro n mem
    exact w.messages.outstanding_subset limit (selected ▸ mem)
  have fresh : ∀ n ∈ b.messages, n.Untried := by
    intro n mem
    obtain ⟨found, waits⟩ := MessageStore.mem_waiting_iff.mp (subset n mem)
    exact untried n.id n found waits
  have names : (ms.map (·.id)).Perm (b.messages.map (·.id)) := all.map_id ▸ perm.map _
  obtain ⟨es, order, tries⟩ := all.events_of_perm leaves fresh perm
  constructor
  case length =>
    have lengths := names.length_eq
    rw [List.length_map, List.length_map, selected, w.messages.length_outstanding] at lengths
    exact lengths
  case once =>
    rw [names.nodup_iff, selected]
    exact w.messages.nodup_outstanding limit
  case earliest =>
    intro m mem n waits left
    obtain ⟨e, _, n', out, tried⟩ := exists_of_mem_right tries mem
    rw [tried.orderTimestamp]
    apply MessageStore.orderTimestamp_le_of_outstanding (selected ▸ out) waits
    intro out'
    rw [← selected] at out'
    exact left (names.mem_iff.mpr (List.mem_map_of_mem out'))
  case events =>
    refine ⟨es, leaves.announced.trans (order.symm.append_left _), ?_, tries.imp ?_⟩
    · rw [(order.map _).nodup_iff, List.map_map]
      exact leaves.events
    · intro e m found
      obtain ⟨n, mem, tried⟩ := found
      exact ⟨n, subset n mem, tried⟩
  case stored =>
    intro m mem
    obtain ⟨t, listed, answered⟩ := List.mem_filterMap.mp (perm.mem_iff.mp mem)
    obtain ⟨m', answered', _, stored⟩ := all.firstTry leaves fresh listed
    rw [answered] at answered'
    cases answered'
    exact stored
  case others =>
    intro id absent
    apply leaves.find?_of_absent
    intro mem
    exact absent (names.mem_iff.mpr mem)

end Batch.HandsOutAll

/-- Whoever goes on when, the workers of what a poll selects do what the poll is to do, and leave a
world in which the next one can begin. -/
theorem Turns.polled_run (config : ServiceConfig) {limit : UInt64}
    (selected : b.messages = w.messages.outstanding limit)
    (ready : w.Ready a (2 * w.messages.waiting.length)) {schedule : List Turn}
    (calm : .cancel ∉ schedule) :
    let t := (ofBatch (.inPlace config) b w).run a alone schedule
    t.Over → ∀ ms : List Message, ms.Perm t.answers →
      Polled limit.toNat w ms t.world ∧ t.world.Ready a (2 * t.world.messages.waiting.length) := by
  intro t ended ms answers
  have count : b.messages.length = min limit.toNat w.messages.waiting.length := by
    rw [selected, w.messages.length_outstanding]
  have once : (b.messages.map (·.id)).Nodup := by
    rw [selected]
    exact w.messages.nodup_outstanding limit
  have room : w.RoomFor (b.messages.map (·.id)) := by
    rw [selected]
    exact ready.untried.roomFor limit
  have waiting : ∀ n ∈ b.messages, w.messages.find? n.id = some n ∧ n.isOutstanding = true := by
    intro n mem
    rw [selected] at mem
    exact MessageStore.mem_waiting_iff.mp (w.messages.outstanding_subset limit mem)
  obtain ⟨still, ts, leaves, all, same⟩ := handsOutAll_run config ready.running
    (ready.fresh.mono (by omega)) room once waiting calm ended
  have tickets : b.messages.length = ts.length := all.each.length_eq
  rw [same] at answers
  have polled := all.polled selected leaves ready.untried answers
  refine ⟨polled, still, all.fresh leaves ?_, polled.untried ready.untried⟩
  rw [polled.length_waiting]
  exact ready.fresh.mono (by omega)

end Workers

/-! How a poll goes -/

namespace Poll

/-- The batch that the poll gets, if any message waits. -/
def batch? (config : ServiceConfig) (p : Poll) (w : World) : Option Batch :=
  match w.messages.outstanding (p.limit.getD config.outstandingLimit) with
  | [] => none
  | ms => some (.ofMessages p.source config.outstandingConcurrency ms)

/-- What a poll can come to. It selects its batch, and if the batch can begin its workers go on side
by side until each of them has ended. So many of them as the width allows run at a time; which of
them go on is what the schedule says. The answers of those that have handed out their messages come
in any order. -/
inductive Yields (a : Ambient) (config : ServiceConfig) (p : Poll) (schedule : List Turn)
    (w : World) : Outcome (Except AppError (List Message)) → World → Prop
  | failed {w' : World} {reason : AppError}
      (selected : ((Service.inPlace config).poll p).run a w = (.done (.error reason), w')) :
      Yields a config p schedule w (.done (.error reason)) w'
  | nothing {w' : World}
      (selected : ((Service.inPlace config).poll p).run a w = (.done (.ok none), w')) :
      Yields a config p schedule w (.done (.ok [])) w'
  | broken {w₁ w' : World} {b : Batch} {text : String}
      (selected : ((Service.inPlace config).poll p).run a w = (.done (.ok (some b)), w₁))
      (breaks : b.begin.run a w₁ = (.aborted text, w')) :
      Yields a config p schedule w (.aborted text) w'
  | handedOut {w₁ w₂ : World} {b : Batch} {ms : List Message}
      (selected : ((Service.inPlace config).poll p).run a w = (.done (.ok (some b)), w₁))
      (begun : b.begin.run a w₁ = (.done (), w₂))
      (ended : ((Turns.ofBatch (.inPlace config) b w₂).run a Turns.alone schedule).Over)
      (answers : ms.Perm ((Turns.ofBatch (.inPlace config) b w₂).run a Turns.alone
        schedule).answers) :
      Yields a config p schedule w (.done (.ok ms))
        ((Turns.ofBatch (.inPlace config) b w₂).run a Turns.alone schedule).world

end Poll

@[simp]
theorem Service.config_inPlace (config : ServiceConfig) : (inPlace config).config = config := rfl

theorem Service.run_poll (a : Ambient) (config : ServiceConfig) (p : Poll) (w : World) :
    ((inPlace config).poll p).run a w = (.done (.ok (p.batch? config w)), w) := by
  simp only [poll, Program.run_outstanding, config_inPlace, Poll.batch?]
  cases w.messages.outstanding (p.limit.getD config.outstandingLimit) with
  | nil => rfl
  | cons m ms => rfl

theorem Batch.run_begin_of_narrow {a : Ambient} {w : World} {b : Batch}
    (narrow : b.width ≤ maxWidth) : b.begin.run a w = (.done (), w) := by
  rw [begin, if_pos narrow]
  rfl

theorem Batch.run_begin_of_wide {a : Ambient} {w : World} {b : Batch}
    (wide : ¬ b.width ≤ maxWidth) :
    b.begin.run a w = (.aborted tooWide, w) := by
  rw [begin, if_neg wide]
  rfl

namespace Poll

variable {a : Ambient} {config : ServiceConfig} {p : Poll} {w : World} {b : Batch}

theorem outstanding_of_batch? (idle : p.batch? config w = none) :
    w.messages.outstanding (p.limit.getD config.outstandingLimit) = [] := by
  unfold batch? at idle
  split at idle
  · assumption
  · cases idle

theorem eq_of_batch? (selected : p.batch? config w = some b) :
    b = .ofMessages p.source config.outstandingConcurrency
      (w.messages.outstanding (p.limit.getD config.outstandingLimit)) := by
  unfold batch? at selected
  split at selected
  · cases selected
  · exact (Option.some.inj selected).symm

theorem run_poll_eq_iff {got : Option Batch} {w' : World} :
    ((Service.inPlace config).poll p).run a w = (.done (.ok got), w') ↔
      p.batch? config w = got ∧ w = w' := by
  rw [Service.run_poll]
  simp

theorem messages_of_run_poll {w' : World}
    (selected : ((Service.inPlace config).poll p).run a w = (.done (.ok (some b)), w')) :
    b.messages = w.messages.outstanding (p.limit.getD config.outstandingLimit) := by
  rw [eq_of_batch? (run_poll_eq_iff.mp selected).1]
  rfl

/-- The service that polls and hands out one message after the other is one way in which its workers
can take their turns. -/
theorem exists_yields_run (a : Ambient) (config : ServiceConfig) (p : Poll) (picks : List Nat)
    (w : World) :
    ∃ schedule, .cancel ∉ schedule ∧
      p.Yields a config schedule w (((Service.inPlace config).getOutstanding picks p).run a w).1
        (((Service.inPlace config).getOutstanding picks p).run a w).2 := by
  have selected := Service.run_poll a config p w
  simp only [Service.getOutstanding]
  rw [Program.run_bind, selected]
  cases got : p.batch? config w with
  | none =>
      rw [got] at selected
      exact ⟨[], List.not_mem_nil, .nothing selected⟩
  | some b =>
      rw [got] at selected
      simp only
      rw [Program.run_bind]
      by_cases narrow : b.width ≤ Batch.maxWidth
      · obtain ⟨schedule, ms, calm, ran, ended, perm⟩ :=
          Batch.exists_schedule_process a (.inPlace config) narrow picks w
        rw [ran]
        exact ⟨schedule, calm,
          .handedOut selected (Batch.run_begin_of_narrow narrow) ended perm⟩
      · rw [Batch.process_of_wide narrow]
        exact ⟨[], List.not_mem_nil, .broken selected (Batch.run_begin_of_wide narrow)⟩

variable (narrow : max config.outstandingConcurrency.toNat 1 ≤ Batch.maxWidth)

include narrow

/-- A poll comes to an end once each of its workers has had so many turns. -/
theorem exists_yields (a : Ambient) (p : Poll) (w : World) {schedule : List Turn}
    (enough : ∀ place <
      min (p.limit.getD config.outstandingLimit).toNat w.messages.waiting.length,
      Batch.turns config ≤ schedule.count (.go place)) :
    ∃ o w', p.Yields a config schedule w o w' := by
  have selected := Service.run_poll a config p w
  cases got : p.batch? config w with
  | none =>
      rw [got] at selected
      exact ⟨_, _, .nothing selected⟩
  | some b =>
      rw [got] at selected
      have own := eq_of_batch? got
      have begun : b.begin.run a w = (.done (), w) :=
        Batch.run_begin_of_narrow (by rw [own]; exact narrow)
      refine ⟨_, _, .handedOut selected begun (Turns.over_run a config b w ?_) (.refl _)⟩
      rw [own]
      show ∀ place < (w.messages.outstanding _).length, _
      rw [w.messages.length_outstanding]
      exact enough

/-- Whoever of the workers goes on when, a poll hands out its share. -/
theorem Yields.polled {schedule : List Turn} {o : Outcome (Except AppError (List Message))}
    {w' : World} (yields : p.Yields a config schedule w o w') (calm : .cancel ∉ schedule)
    (ready : w.Ready a (2 * w.messages.waiting.length)) :
    ∃ ms, o = .done (.ok ms) ∧
      Polled (p.limit.getD config.outstandingLimit).toNat w ms w' ∧
      w'.Ready a (2 * w'.messages.waiting.length) := by
  cases yields with
  | failed selected =>
      rw [Service.run_poll] at selected
      cases selected
  | nothing selected =>
      obtain ⟨idle, rfl⟩ := run_poll_eq_iff.mp selected
      exact ⟨[], rfl, .nothing (outstanding_of_batch? idle), ready⟩
  | broken selected breaks =>
      obtain ⟨got, rfl⟩ := run_poll_eq_iff.mp selected
      rw [eq_of_batch? got, Batch.run_begin_of_narrow narrow] at breaks
      cases breaks
  | @handedOut _ _ b ms selected begun ended answers =>
      obtain ⟨got, rfl⟩ := run_poll_eq_iff.mp selected
      have own := eq_of_batch? got
      rw [Batch.run_begin_of_narrow (by rw [own]; exact narrow)] at begun
      cases begun
      generalize p.limit.getD config.outstandingLimit = limit at own ⊢
      have batch : b.messages = w.messages.outstanding limit := congrArg Batch.messages own
      obtain ⟨polled, ready'⟩ := Turns.polled_run config batch ready calm ended ms answers
      exact ⟨ms, rfl, polled, ready'⟩

end Poll

/-- Some time later nothing is cancelled, and the messages may be listed in another order. -/
inductive World.Resumes (w : World) : World → Prop
  | intro (elapsed : Span) {s : MessageStore} (relists : w.messages.Relists s) :
      w.Resumes { w with uptime := w.uptime.after elapsed, cancelled := false, messages := s }

theorem World.Resumes.ready {a : Ambient} {w w' : World} (resumes : w.Resumes w')
    (fresh : w.Fresh a (2 * w.messages.waiting.length)) (untried : w.messages.Untried) :
    w'.Ready a (2 * w'.messages.waiting.length) := by
  cases resumes with
  | intro elapsed relists =>
      refine ⟨rfl, ?_, untried.relisted relists⟩
      rw [relists.waiting_perm.length_eq]
      exact ⟨fresh.distinct, fresh.vacant⟩

theorem World.Resumes.waiting_perm {w w' : World} (resumes : w.Resumes w') :
    w'.messages.waiting.Perm w.messages.waiting := by
  cases resumes with
  | intro elapsed relists => exact relists.waiting_perm

/-- Polls one after the other, and what they have come to. -/
inductive Polls (a : Ambient) (config : ServiceConfig) (limit : Option UInt64) (w : World) :
    List (Outcome (Except AppError (List Message))) → World → Prop
  | none : Polls a config limit w [] w
  | next {w₁ w₂ w' : World} {os : List (Outcome (Except AppError (List Message)))}
      {o : Outcome (Except AppError (List Message))} {source : String} {schedule : List Turn}
      (before : Polls a config limit w os w₁) (resumes : w₁.Resumes w₂)
      (calm : .cancel ∉ schedule)
      (yields : Poll.Yields a config ⟨source, limit⟩ schedule w₂ o w') :
      Polls a config limit w (os ++ [o]) w'

/-- How polls for at most `most` messages drain what waits in the world `w`. -/
structure Drains (a : Ambient) (config : ServiceConfig) (limit : Option UInt64) (most : Nat)
    (w : World) : Prop where
  /-- The service that polls by itself is one way in which the workers can take their turns. -/
  alone (v : World) (source : String) (picks : List Nat) : ∃ schedule, .cancel ∉ schedule ∧
    Poll.Yields a config ⟨source, limit⟩ schedule v
      (((Service.inPlace config).getOutstanding picks ⟨source, limit⟩).run a v).1
      (((Service.inPlace config).getOutstanding picks ⟨source, limit⟩).run a v).2
  /-- Whoever of them goes on when, a poll ends once each has had so many turns. -/
  ends (v : World) (source : String) {schedule : List Turn}
    (enough : ∀ place < min most v.messages.waiting.length,
      Batch.turns config ≤ schedule.count (.go place)) :
    ∃ o v', Poll.Yields a config ⟨source, limit⟩ schedule v o v'
  poll {source : String} {schedule : List Turn}
    {o : Outcome (Except AppError (List Message))} {w' : World} (calm : .cancel ∉ schedule)
    (yields : Poll.Yields a config ⟨source, limit⟩ schedule w o w') :
    ∃ ms, o = .done (.ok ms) ∧ Polled most w ms w'
  /-- So many polls as it takes hand out every message once, and one more finds none. -/
  polls {os : List (Outcome (Except AppError (List Message)))} {w' : World}
    (polls : Polls a config limit w os w')
    (enough : os.length = (w.messages.waiting.length + most - 1) / most + 1) :
    ∃ batches : List (List Message),
      os = (batches ++ [[]]).map (fun ms => .done (.ok ms)) ∧
      (batches.flatten.map (·.id)).Perm (w.messages.waiting.map (·.id))

section Draining

variable {a : Ambient} {config : ServiceConfig} {limit : Option UInt64} {w : World}
  (narrow : max config.outstandingConcurrency.toNat 1 ≤ Batch.maxWidth)

include narrow

/-- What all polls so far have handed out and what still waits make up what was waiting. -/
theorem Polls.handedOut {os : List (Outcome (Except AppError (List Message)))} {w' : World}
    (polls : Polls a config limit w os w')
    (fresh : w.Fresh a (2 * w.messages.waiting.length)) (untried : w.messages.Untried) :
    ∃ batches : List (List Message), os = batches.map (fun ms => .done (.ok ms)) ∧
      (batches.flatten.map (·.id) ++ w'.messages.waiting.map (·.id)).Perm
        (w.messages.waiting.map (·.id)) ∧
      w'.messages.waiting.length =
        w.messages.waiting.length - os.length * (limit.getD config.outstandingLimit).toNat ∧
      w'.Fresh a (2 * w'.messages.waiting.length) ∧ w'.messages.Untried := by
  induction polls with
  | none => exact ⟨[], rfl, .refl _, by simp, fresh, untried⟩
  | @next w₁ w₂ w' os o source schedule before resumes calm yields ih =>
      obtain ⟨batches, rfl, handed, left, fresh₁, untried₁⟩ := ih
      obtain ⟨ms, rfl, polled, ready⟩ :=
        yields.polled narrow calm (resumes.ready fresh₁ untried₁)
      refine ⟨batches ++ [ms], by simp, ?_, ?_, ready.fresh, ready.untried⟩
      · have still : (ms.map (·.id) ++ w'.messages.waiting.map (·.id)).Perm
            (w₁.messages.waiting.map (·.id)) :=
          polled.waiting.trans (resumes.waiting_perm.map _)
        rw [List.flatten_append, List.flatten_singleton, List.map_append, List.append_assoc]
        exact (still.append_left _).trans handed
      · rw [polled.length_waiting, resumes.waiting_perm.length_eq, left, List.length_append,
          List.length_singleton, Nat.add_one_mul, Nat.sub_sub]

end Draining

/-- From every world that can have come about, whoever of the workers goes on when, each poll hands
out its share, and so many polls as it takes hand out every message once. -/
theorem polls_drain (a : Ambient) (config : ServiceConfig) {w : World}
    (reachable : w.Reachable a config) (running : w.cancelled = false) (limit : Option UInt64)
    (positive : 0 < (limit.getD config.outstandingLimit).toNat)
    (narrow : max config.outstandingConcurrency.toNat 1 ≤ Batch.maxWidth)
    (fresh : w.Fresh a (2 * w.messages.waiting.length)) :
    Drains a config limit (limit.getD config.outstandingLimit).toNat w where
  alone v source picks := Poll.exists_yields_run a config ⟨source, limit⟩ picks v
  ends v source schedule enough := Poll.exists_yields narrow a ⟨source, limit⟩ v enough
  poll calm yields := by
    obtain ⟨ms, same, polled, _⟩ := yields.polled narrow calm ⟨running, fresh, reachable.untried⟩
    exact ⟨ms, same, polled⟩
  polls polls enough := by
    generalize most : (limit.getD config.outstandingLimit).toNat = L at *
    cases polls with
    | none => cases enough
    | @next w₁ w₂ w' os o source schedule before resumes calm yields =>
        obtain ⟨batches, rfl, handed, left, fresh₁, untried₁⟩ :=
          before.handedOut narrow fresh reachable.untried
        obtain ⟨ms, rfl, polled, _⟩ := yields.polled narrow calm (resumes.ready fresh₁ untried₁)
        have drained : w₁.messages.waiting = [] := by
          have bound := Nat.lt_mul_div_succ (w.messages.waiting.length + L - 1) positive
          rw [List.length_append, List.length_singleton] at enough
          rw [Nat.add_right_cancel enough, most] at left
          rw [Nat.mul_add_one, Nat.mul_comm] at bound
          exact List.eq_nil_of_length_eq_zero (by omega)
        have nothing : ms = [] := by
          have length := polled.length
          rw [resumes.waiting_perm.length_eq, drained, List.length_nil, Nat.min_zero] at length
          exact List.eq_nil_of_length_eq_zero length
        refine ⟨batches, by rw [nothing, List.map_append]; rfl, ?_⟩
        rwa [drained, List.map_nil, List.append_nil] at handed

/-- Two messages wait, and each poll gets one. -/
theorem polls_drain_pair :
    let a : Ambient := ⟨fun _ => .epoch, fun n => ⟨n⟩⟩
    let send (content : String) : Step :=
      { command := .send ⟨"+1000", "+2000", content, "api", .epoch⟩, distinct := trivial }
    let w := (Course.run a {} [send "one", send "two"]).world
    w.messages.waiting.length = 2 ∧ w.Reachable a {} ∧ w.cancelled = false ∧
      w.Fresh a (2 * w.messages.waiting.length) ∧ Drains a {} (some 1) 1 w := by
  intro a send w
  have two : w.messages.waiting.length = 2 := by decide +kernel
  have reachable : w.Reachable a {} := Course.reachable_run a {} [send "one", send "two"]
  have running : w.cancelled = false := by decide +kernel
  have fresh : w.Fresh a (2 * w.messages.waiting.length) := by
    rw [two]
    refine ⟨by decide +kernel, fun i inside kind => ?_⟩
    revert i
    cases kind <;> decide +kernel
  refine ⟨two, reachable, running, fresh, ?_⟩
  exact polls_drain a {} reachable running (some 1) (by decide) (by decide) fresh

end SmsTracking
