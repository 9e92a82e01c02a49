import SmsTracking.Proofs.ExactlyOnce
import SmsTracking.Proofs.Failures
import SmsTracking.Proofs.Wire.Kinds

/-!
Creations of messages that are there already. A claim in progress has a delivery that holds it
(`deliveries_attended`), so that deliveries that have all come to their ends leave none behind. The
one failure after them that is worth a redelivery is then that of a creation whose message is there,
and messages do not go away. Main statement: another event under the same key can make an end of this
failure, as there is always a message left to create, and without such an event it is met again at
every redelivery (`retriable_failure_ends`).
-/

namespace SmsTracking

open Standing

/-- A delivery holds each claim that is in progress. -/
def Attended (events : List Envelope) (w : World) (es : List (Nat × Exchange)) : Prop :=
  ∀ key claimedAt, w.log.slots.find? key = some (.inProgress claimedAt) →
    ∃ place, own events place = some key ∧
      (Turns.standings (conducts events) es place).holds = true

/-- A claim that is in progress after a request of its key is held by the delivery that asked, or
else was in progress before. -/
theorem Standing.May.holds_of_inProgress {key : ListenerKey} {s : Standing} {r : Request}
    (may : May (some key) s r) (a : Ambient) (w : World) {claimedAt : Instant}
    (slot : (w.answer a r).2.log.slots.find? key = some (.inProgress claimedAt)) :
    (s.next ⟨r, (w.answer a r).1⟩).holds = true ∨
      (∃ before, w.log.slots.find? key = some (.inProgress before)) ∧ s.holds = false := by
  cases may with
  | quiet quiet =>
      rw [w.answer_log_of_isQuiet a quiet] at slot
      rw [next_of_isQuiet s _ quiet]
      cases s.holds with
      | true => exact .inl rfl
      | false => exact .inr ⟨⟨_, slot⟩, rfl⟩
  | claim h =>
      cases h
      simp only [World.answer] at slot ⊢
      rcases w.log.slot_cases key w.uptime with ⟨h, before⟩ | ⟨before, found, running⟩ | free
      · rw [ListenerLog.claim_of_handled _ before, before] at slot
        cases slot
      · exact .inr ⟨⟨_, found⟩, rfl⟩
      · rw [ListenerLog.claim_of_free free]
        exact .inl rfl
  | store m | update m =>
      simp only [Standing.next]
      split <;> exact .inl rfl
  | release h =>
      cases h
      simp only [World.answer, ListenerLog.release] at slot
      split at slot
      · simp at slot
      · rename_i other
        exact absurd slot (other _)
  | record h =>
      cases h
      simp only [World.answer, ListenerLog.record] at slot
      split at slot
      · rename_i found
        rw [found] at slot
        cases slot
      · simp at slot

namespace Attended

variable {events : List Envelope} {w : World} {es : List (Nat × Exchange)}

/-- A place that goes on holding what it held takes nothing away from the others. -/
theorem update {key : ListenerKey} {S : Nat → Standing} {place : Nat} {s : Standing}
    (attended : ∃ i, own events i = some key ∧ (S i).holds = true)
    (keeps : own events place = some key → (S place).holds = true → s.holds = true) :
    ∃ i, own events i = some key ∧ (Function.update S place s i).holds = true := by
  obtain ⟨i, mine, holds⟩ := attended
  by_cases same : i = place
  · subst same
    exact ⟨i, mine, by rw [Function.update_self]; exact keeps mine holds⟩
  · exact ⟨i, mine, by rwa [Function.update_of_ne same]⟩

theorem answer (attended : Attended events w es) (a : Ambient) {place : Nat} {r : Request}
    (may : (conducts events place).may (Turns.standings (conducts events) es place) r) :
    Attended events (w.answer a r).2 (es ++ [(place, ⟨r, (w.answer a r).1⟩)]) := by
  intro key claimedAt slot
  rw [Turns.standings_append]
  change May (own events place) _ r at may
  by_cases mine : own events place = some key
  · rcases May.holds_of_inProgress (mine ▸ may) a w slot with holds | ⟨⟨_, before⟩, idle⟩
    · exact ⟨place, mine, by rw [Function.update_self]; exact holds⟩
    · exact update (attended key _ before) fun _ holds => absurd holds (by simp [idle])
  · rw [May.find?_answer_of_ne may a w mine] at slot
    exact update (attended key claimedAt slot) fun own => absurd own mine

end Attended

theorem deliveries_attended (a : Ambient) (retries : Nat) (events : List Envelope) (w : World)
    (vacant : w.log.slots = ∅) (schedule : List Turn) :
    let t := (deliveries retries events w).run a Turns.alone schedule
    t.Follow (conducts events) ∧ Attended events t.world t.exchanges :=
  Turns.run_keeps (deliveries_follow retries events w)
    (fun key claimedAt slot => by simp [deliveries, vacant] at slot)
    (fun _ _ _ _ attended may => attended.answer a may)
    (fun _ _ _ attended => attended) (fun _ _ attended => attended) schedule

/-- All deliveries have come to their ends, and none has broken off. -/
def Completed (events : List Envelope) (t : Turns (Except AppError Unit)) : Prop :=
  ∀ place < events.length, ∃ answer, t.outcome? place = some (.done answer)

theorem Standing.Ends.idle {s : Standing} {answer : Except AppError Unit}
    (ended : Ends s (.done answer)) : s.holds = false := by
  cases ended <;> rfl

/-- No claim stays behind. -/
theorem Completed.not_inProgress {a : Ambient} {retries : Nat} {events : List Envelope} {w : World}
    (vacant : w.log.slots = ∅) {schedule : List Turn}
    (completed : Completed events ((deliveries retries events w).run a Turns.alone schedule))
    (key : ListenerKey) (claimedAt : Instant) :
    ((deliveries retries events w).run a Turns.alone schedule).world.log.slots.find? key ≠
      some (.inProgress claimedAt) := by
  intro slot
  obtain ⟨follow, attended⟩ := deliveries_attended a retries events w vacant schedule
  obtain ⟨place, mine, holds⟩ := attended key claimedAt slot
  have inside : place < events.length := by
    obtain ⟨e, delivered, _⟩ := Option.map_eq_some_iff.mp mine
    exact (List.getElem?_eq_some_iff.mp delivered).1
  obtain ⟨answer, ended⟩ := completed place inside
  rw [(follow.ends ended).idle] at holds
  cases holds

namespace Payload

/-- The payload of the same kind that is about another message. -/
def renamed (id : Uuid) : Payload → Payload
  | apiSent sms time => apiSent { sms with id } time
  | phoneSending sms => phoneSending { sms with id }
  | phoneSent sms time => phoneSent { sms with id } time
  | phoneReceived sms time => phoneReceived { sms with id } time

theorem kind_renamed (id : Uuid) (p : Payload) : (p.renamed id).kind = p.kind := by
  cases p <;> rfl

/-- Whether a payload creates a message depends on its kind. -/
theorem creates_of_kind {p q : Payload} (same : p.kind = q.kind) {time : Timestamp}
    {direction : Direction} {d : NewMessage} (deed : p.deed time = .create direction d)
    (time' : Timestamp) :
    ∃ d', q.deed time' = .create direction d' ∧ d'.id = q.messageId := by
  cases p <;> cases q <;> cases same <;> cases deed <;> exact ⟨_, rfl, rfl⟩

end Payload

namespace Listener

section Usurped

variable (a : Ambient) (retries : Nat) {w : World} {e : Envelope} {k : EventKind} {p : Payload}
  {direction : Direction} {d : NewMessage}

/-- While there is a message that can be created, another event may take the place of this one. -/
theorem usurped_of_vacant (kind : EventKind.ofName? e.type = some k)
    (read : e.payloadAs k = .ok p) (deed : p.deed e.time = .create direction d)
    (vacant : w.log.slots.find? e.key = none) {id : Uuid} (room : w.messages.find? id = none) :
    ∃ ds elapsed, (deliver a retries (deliverAll a retries w ds) ⟨elapsed, e⟩).1 =
      .done (.ok ()) := by
  obtain ⟨q, renamed⟩ : ∃ q, q = p.renamed id := ⟨_, rfl⟩
  have kinds : p.kind = q.written.kind := by rw [renamed, Payload.kind_written, p.kind_renamed]
  obtain ⟨d', created, named⟩ := Payload.creates_of_kind kinds deed .epoch
  have same : (Envelope.carrying e.id .epoch q).key = e.key := by
    refine Envelope.key_eq_iff.mpr ⟨rfl, ?_⟩
    rw [← EventKind.name_of_ofName? kind, ← Envelope.kind_of_payloadAs read, kinds,
      Payload.kind_written]
    rfl
  have about : q.written.messageId = id := by
    rw [q.messageId_written, renamed]
    cases p <;> rfl
  have makes : (q.written.deed .epoch).Makes (a.clock w.readings)
      (w.messages.find? q.written.messageId) (.created direction d' (a.clock w.readings)) := by
    rw [created, about]
    exact ⟨room, rfl⟩
  let d : Delivery := { event := .carrying e.id .epoch q }
  have taken := (deliver_of_makes a retries (w := w) (d := d) (Envelope.carrying_carries _ _ _)
    (same ▸ vacant) makes).1
  have has := (ended_deliver a retries w d).has e.key
  rw [taken] at has
  refine ⟨[d], ⟨0⟩, ?_⟩
  refine ((ended_deliver a retries _ ⟨⟨0⟩, e⟩).of_has kind ?_).1
  exact has.trans (by simp [d, same, Outcome.succeeded])

end Usurped

end Listener

/-- The messages can be counted in a word, as those of any store in memory can. -/
def MessageStore.Fits (s : MessageStore) : Prop := s.size < UInt64.size

instance (s : MessageStore) : Decidable s.Fits := inferInstanceAs (Decidable (_ < _))

/-- There are more identifiers than a word can count. -/
theorem MessageStore.Fits.exists_vacant {s : MessageStore} (fits : s.Fits) :
    ∃ id, s.find? id = none := by
  by_contra none
  have stored (id : Uuid) : id ∈ s.entries.keys := by
    by_contra absent
    exact none ⟨id, (Entries.find?_eq_none_iff ..).mpr absent⟩
  have distinct : ((List.range UInt64.size).map fun i => Uuid.mk (.ofNat 128 i)).Nodup := by
    refine List.nodup_range.map_on fun i mem j mem' same => ?_
    have bound : UInt64.size < 2 ^ 128 := by decide
    have small := Nat.lt_trans (List.mem_range.mp mem) bound
    have small' := Nat.lt_trans (List.mem_range.mp mem') bound
    have bits := congrArg (fun id : Uuid => id.bits.toNat) same
    simpa only [BitVec.toNat_ofNat, Nat.mod_eq_of_lt small, Nat.mod_eq_of_lt small'] using bits
  have fewer := (distinct.subperm fun id _ => stored id).length_le
  rw [List.length_map, List.length_range, Entries.keys, List.length_map] at fewer
  exact absurd fits (Nat.not_lt.mpr fewer)

/-- What becomes of a creation that has failed in the world `w` because its message is there. -/
structure Stuck (a : Ambient) (retries : Nat) (e : Envelope) (reason : AppError) (w : World) :
    Prop where
  /-- It comes to be handled when another event under its key has created another message. -/
  ends : ∃ ds elapsed,
    (Listener.deliver a retries (Listener.deliverAll a retries w ds) ⟨elapsed, e⟩).1 =
      .done (.ok ())
  /-- Without such an event it fails over and over again. -/
  again : ∀ ds, e.SoleIn ds → ∀ elapsed,
    (Listener.deliver a retries (Listener.deliverAll a retries w ds) ⟨elapsed, e⟩).1 =
      .done (.error reason)

theorem Stuck.of_present (a : Ambient) (retries : Nat) {e : Envelope} {k : EventKind} {p : Payload}
    {direction : Direction} {d : NewMessage} {m : Message} {w : World}
    (fits : w.messages.Fits) (kind : EventKind.ofName? e.type = some k)
    (vacant : w.log.slots.find? e.key = none) (read : e.payloadAs k = .ok p)
    (deed : p.deed e.time = .create direction d) (found : w.messages.find? d.id = some m) :
    Stuck a retries e (Listener.unapplied k e
      (.context (Lifecycle.storeContext direction d.id) (.domain (.messageExists d.id)))) w where
  ends := by
    obtain ⟨id, room⟩ := fits.exists_vacant
    exact Listener.usurped_of_vacant a retries kind read deed vacant room
  again ds sole elapsed := by
    have hopeless := Listener.Obstacle.hopeless_of_present kind read deed found
    exact Listener.deliver_fails_again kind vacant hopeless (.present read deed found) sole elapsed

theorem retriable_failure_ends (a : Ambient) (retries : Nat) (events : List Envelope) (w : World)
    (vacant : w.log.slots = ∅) (schedule : List Turn)
    (completed : Completed events ((deliveries retries events w).run a Turns.alone schedule))
    (fits : ((deliveries retries events w).run a Turns.alone schedule).world.messages.Fits)
    (e : Envelope) (reason : AppError)
    (failed : ((Listener.handleEvent retries e).run a
      ((deliveries retries events w).run a Turns.alone schedule).world).1 = .done (.error reason))
    (verdict : reason.isRetriable = true) :
    Stuck a retries e reason ((Listener.handleEvent retries e).run a
      ((deliveries retries events w).run a Turns.alone schedule).world).2 := by
  have unclaimed := completed.not_inProgress vacant
  generalize ((deliveries retries events w).run a Turns.alone schedule).world = v at *
  have ended := Listener.ended_handleEvent a retries e v
  rw [failed] at ended
  generalize ((Listener.handleEvent retries e).run a v).2 = v' at *
  cases ended with
  | unknown => cases verdict
  | refused slot => exact absurd slot (unclaimed _ _)
  | failed kind _ blocked messages log =>
      have vacant : v'.log.slots.find? e.key = none := by
        rw [log, ListenerLog.find?_clear, if_pos rfl]
      have obstacle := Listener.trial_eq_error_iff.mp blocked
      rw [← messages] at obstacle fits
      cases obstacle with
      | undecodable | missing | misplaced => cases verdict
      | present read deed found => exact .of_present a retries fits kind vacant read deed found

/-- A message is created a second time, by an event of its own. -/
theorem retriable_failure_ends_twice :
    let a : Ambient := ⟨fun _ => .epoch, fun n => ⟨n⟩⟩
    let created := Payload.apiSent ⟨⟨1⟩, "+1000", "+2000", "hi"⟩ .epoch
    let events := [Envelope.carrying "1" .epoch created]
    let schedule := List.replicate 9 (.go 0)
    let t := (deliveries 3 events {}).run a Turns.alone schedule
    let e := Envelope.carrying "2" .epoch created
    ∃ reason, Completed events t ∧ t.world.messages.Fits ∧
      ((Listener.handleEvent 3 e).run a t.world).1 = .done (.error reason) ∧
      reason.isRetriable = true ∧
      Stuck a 3 e reason ((Listener.handleEvent 3 e).run a t.world).2 := by
  intro a created events schedule t e
  have ended : (t.outcome? 0).any Outcome.succeeded = true := by
    decide +kernel
  have completed : Completed events t := by
    intro place inside
    obtain rfl : place = 0 := Nat.lt_one_iff.mp inside
    generalize t.outcome? 0 = o at ended ⊢
    match o, ended with
    | some (.done answer), _ => exact ⟨answer, rfl⟩
  have stored : t.world.messages.find? ⟨1⟩ =
      some (.mobileTerminated ⟨⟨1⟩, "+1000", "+2000", "hi", .epoch⟩ .epoch) := by
    decide +kernel
  have vacant : t.world.log.slots.find? e.key = none := by
    decide +kernel
  have fits : t.world.messages.Fits := by
    decide +kernel
  have failed := Listener.outcome_of_obstacle a 3 (k := .apiSent) rfl vacant
    (.present (Envelope.carrying_carries _ _ _).decoded rfl stored)
  exact ⟨_, completed, fits, failed, rfl,
    retriable_failure_ends a 3 events {} rfl schedule completed (by decide +kernel) e _ failed rfl⟩

end SmsTracking
