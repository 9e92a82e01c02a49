import Mathlib.Data.Fintype.EquivFin
import SmsTracking.Proofs.Courses
import SmsTracking.Proofs.Redelivery

/-!
Why deliveries fail, and what a redelivery makes of it. An event that could not be applied met one
of four obstacles. If no deed of the event can ever be done again, the obstacle stays; otherwise a
few other deliveries remove it. Main statement: a failure that is not worth a redelivery is for good
exactly in the first case (`failure_verdict`).
-/

namespace SmsTracking

/-- A message that is not at its end and yet cannot be moved has not been tried. -/
theorem Move.pending_of_refused {step : Move} {s : Status} (refused : s ∉ step.allowed)
    (moves : s.isTerminal = false) : s = .pending := by
  cases step <;> cases s <;>
    simp_all [allowed, Status.attemptAllowed, Status.confirmationAllowed, Status.isTerminal]

namespace Listener

/-- What is in the way of an event, with the error that tells of it. -/
inductive Obstacle (s : MessageStore) (k : EventKind) (e : Envelope) : AppError → Prop
  | undecodable {reason : DomainError} (unread : e.payloadAs k = .error reason) :
      Obstacle s k e (.decode reason.message)
  | present {p : Payload} {direction : Direction} {d : NewMessage} {m : Message}
      (read : e.payloadAs k = .ok p) (deed : p.deed e.time = .create direction d)
      (found : s.find? d.id = some m) :
      Obstacle s k e
        (.context (Lifecycle.storeContext direction d.id) (.domain (.messageExists d.id)))
  | missing {p : Payload} {id : Uuid} {step : Move} (read : e.payloadAs k = .ok p)
      (deed : p.deed e.time = .move id step) (vacant : s.find? id = none) :
      Obstacle s k e (.context (Lifecycle.loadContext id step) (.domain (.noMessage id)))
  | misplaced {p : Payload} {id : Uuid} {step : Move} {m : Message} (read : e.payloadAs k = .ok p)
      (deed : p.deed e.time = .move id step) (found : s.find? id = some m)
      (refused : m.status ∉ step.allowed) :
      Obstacle s k e (.context (Lifecycle.applyContext id step)
        (.domain (.wrongStatus m.id m.status step.allowed)))

theorem trial_eq_error_iff {s : MessageStore} {now : Timestamp} {k : EventKind} {e : Envelope}
    {reason : AppError} :
    trial s now k e = .done (.error reason) ↔ Obstacle s k e reason := by
  constructor
  · intro failed
    unfold trial at failed
    split at failed
    · rename_i p read
      have answered := Deed.answered_effect s now (p.deed e.time)
      rw [failed] at answered
      generalize deed : p.deed e.time = d at answered
      cases answered with
      | present found => exact .present read deed found
      | missing vacant => exact .missing read deed vacant
      | refused found refused => exact .misplaced read deed found refused
    · cases failed
      exact .undecodable ‹_›
  · intro obstacle
    cases obstacle with
    | undecodable unread => simp only [trial, unread]
    | present read deed found =>
        simp only [trial, read, deed, Deed.effect_create_of_present _ _ found]
    | missing read deed vacant =>
        simp only [trial, read, deed, Deed.effect_move_of_vacant _ _ vacant]
    | misplaced read deed found refused =>
        simp only [trial, read, deed, Deed.effect_move_of_not_allowed _ found refused]

end Listener

/-- The event has no deed that could ever be done again: what it creates is there, and what it moves
has come to rest. -/
def Envelope.Hopeless (e : Envelope) (s : MessageStore) : Prop :=
  ∀ p, e.payload? = some p →
    match p.deed e.time with
    | .create _ d => ∃ m, s.find? d.id = some m
    | .move id _ => ∃ m, s.find? id = some m ∧ m.status.isTerminal = true

namespace Envelope.Hopeless

variable {e : Envelope} {s s' : MessageStore}

theorem stays (hopeless : e.Hopeless s) (moved : s.Moved s') : e.Hopeless s' := by
  intro p carried
  have stuck := hopeless p carried
  split at stuck
  · exact moved.present stuck
  · obtain ⟨m, found, final⟩ := stuck
    exact ⟨m, moved.terminal found final, final⟩

end Envelope.Hopeless

namespace Listener

namespace Obstacle

variable {s s' : MessageStore} {k : EventKind} {e : Envelope} {reason : AppError}

theorem stays (obstacle : Obstacle s k e reason) (kind : EventKind.ofName? e.type = some k)
    (hopeless : e.Hopeless s) (moved : s.Moved s') : Obstacle s' k e reason := by
  cases obstacle with
  | undecodable unread => exact .undecodable unread
  | present read deed found =>
      obtain ⟨m, found⟩ := moved.present ⟨_, found⟩
      exact .present read deed found
  | missing read deed vacant =>
      have stuck := hopeless _ (Envelope.payload?_of_payloadAs kind read)
      simp [deed, vacant] at stuck
  | misplaced read deed found refused =>
      have stuck := hopeless _ (Envelope.payload?_of_payloadAs kind read)
      simp only [deed, found, Option.some.injEq] at stuck
      obtain ⟨m, rfl, final⟩ := stuck
      exact .misplaced read deed (moved.terminal found final) refused

theorem hopeless_of_present {p : Payload} {direction : Direction} {d : NewMessage} {m : Message}
    (kind : EventKind.ofName? e.type = some k) (read : e.payloadAs k = .ok p)
    (deed : p.deed e.time = .create direction d) (found : s.find? d.id = some m) :
    e.Hopeless s := by
  intro q carried
  rw [Envelope.payload?_of_payloadAs kind read] at carried
  cases carried
  rw [deed]
  exact ⟨m, found⟩

end Obstacle

section Deliver

variable {a : Ambient} {retries : Nat} {w : World} {e : Envelope} {k : EventKind}
  {reason : AppError}

/-- An event of no kind fails always in the same way. -/
theorem outcome_of_unknown (unknown : EventKind.ofName? e.type = none) (w w' : World) :
    ((handleEvent retries e).run a w).1 = ((handleEvent retries e).run a w').1 := by
  unfold handleEvent
  rw [unknown]
  rfl

/-- An event that meets an obstacle fails with its error. -/
theorem outcome_of_obstacle (a : Ambient) (retries : Nat)
    (kind : EventKind.ofName? e.type = some k) (vacant : w.log.slots.find? e.key = none)
    (obstacle : Obstacle w.messages k e reason) :
    ((handleEvent retries e).run a w).1 = .done (.error (unapplied k e reason)) :=
  ((ended_handleEvent a retries e w).of_error kind vacant (trial_eq_error_iff.mpr obstacle)).1

/-- An event without hope that nobody has claimed fails over and over again. -/
theorem deliver_fails_again (kind : EventKind.ofName? e.type = some k)
    (vacant : w.log.slots.find? e.key = none) (hopeless : e.Hopeless w.messages)
    (obstacle : Obstacle w.messages k e reason) {ds : List Delivery} (sole : e.SoleIn ds)
    (elapsed : Span) :
    (deliver a retries (deliverAll a retries w ds) ⟨elapsed, e⟩).1 =
      .done (.error (unapplied k e reason)) := by
  obtain ⟨slot, _, still⟩ := deliverAll_keeps a retries
    (I := fun w => w.log.slots.find? e.key = none ∧ e.Hopeless w.messages ∧
      Obstacle w.messages k e reason)
    (fun w d mem ⟨slot, hopeless, obstacle⟩ => by
      have ended := ended_deliver a retries w d
      refine ⟨?_, hopeless.stays ended.moved, obstacle.stays kind hopeless ended.moved⟩
      by_cases own : d.event.key = e.key
      · obtain ⟨elapsed, f⟩ := d
        obtain rfl : f = e := sole _ mem own
        exact (ended.of_error kind slot (trial_eq_error_iff.mpr obstacle)).2.2
      · exact (ended.slot_of_ne (Ne.symm own)).trans slot)
    ⟨vacant, hopeless, obstacle⟩
  exact ((ended_deliver a retries _ ⟨elapsed, e⟩).of_error kind slot
    (trial_eq_error_iff.mpr still)).1

end Deliver

end Listener

/-- There are always identifiers that no event in the log has. -/
theorem ListenerLog.exists_unused (log : ListenerLog) (taken : String) :
    ∃ id, id ≠ taken ∧ ∀ handler, log.slots.find? ⟨id, handler⟩ = none := by
  obtain ⟨id, fresh⟩ :=
    Infinite.exists_notMem_finset (taken :: log.slots.keys.map (·.eventId)).toFinset
  simp only [List.mem_toFinset, List.mem_cons, List.mem_map, not_or, not_exists, not_and] at fresh
  refine ⟨id, fresh.1, fun handler => (Entries.find?_eq_none_iff ..).mpr fun mem => ?_⟩
  exact fresh.2 _ mem rfl

namespace Delivery

/-- A creation of the message under a given event identifier. -/
def creating (event : String) (id : Uuid) : Delivery :=
  { event := .carrying event .epoch (.apiSent ⟨id, "", "", ""⟩ .epoch) }

/-- An attempt on the message under a given event identifier. -/
def attempting (event : String) (id : Uuid) : Delivery :=
  { event := .carrying event .epoch (.phoneSending ⟨id, "", "", ""⟩) }

theorem key_creating (event : String) (id : Uuid) :
    (creating event id).event.key = ⟨event, Listener.signature .apiSent⟩ := rfl

theorem key_attempting (event : String) (id : Uuid) :
    (attempting event id).event.key = ⟨event, Listener.signature .phoneSending⟩ := rfl

end Delivery

namespace Listener

variable (a : Ambient) (retries : Nat) {w : World} {event : String} {id : Uuid}

theorem deliver_creating
    (unused : w.log.slots.find? (Delivery.creating event id).event.key = none)
    (vacant : w.messages.find? id = none) :
    ∃ d m, (deliver a retries w (.creating event id)).2.messages.find? id = some m ∧
      Outgoing d [] none m := by
  have carries := Envelope.carrying_carries event .epoch (.apiSent ⟨id, "", "", ""⟩ .epoch)
  obtain ⟨_, messages⟩ := deliver_of_makes a retries (w := w) (d := .creating event id) carries
    unused ⟨vacant, rfl⟩
  refine ⟨⟨id, "", "", "", .epoch⟩, _, ?_, .created _ (a.clock w.readings)⟩
  rw [messages, MessageStore.find?_put]
  exact if_pos rfl

theorem deliver_attempting {d : NewMessage} {m : Message}
    (unused : w.log.slots.find? (Delivery.attempting event id).event.key = none)
    (found : w.messages.find? id = some m) (h : Outgoing d [] none m) :
    ∃ m, (deliver a retries w (.attempting event id)).2.messages.find? id = some m ∧
      Outgoing d [.epoch] none m := by
  have carries := Envelope.carrying_carries event .epoch (.phoneSending ⟨id, "", "", ""⟩)
  have allowed : m.status ∈ (Move.attempt .epoch).allowed := by
    rw [h.status]
    exact List.mem_cons_self
  have room := h.hasRoom_attempt .epoch
  obtain ⟨_, messages⟩ := deliver_of_makes a retries (w := w) (d := .attempting event id) carries
    unused ⟨m, found, Move.apply_of_hasRoom allowed room _⟩
  refine ⟨(Move.attempt .epoch).result m (a.clock w.readings), ?_, h.attempt room⟩
  rw [messages, MessageStore.find?_put, Move.result_id, MessageStore.id_of_find? found, if_pos rfl]

/-- With some deliveries under the event identifier, the move can be made on the message. -/
def Clears (w : World) (event : String) (id : Uuid) (step : Move) :
    Prop :=
  ∃ ds : List Delivery, (∀ d ∈ ds, d.event.id = event) ∧
    ∃ m, (deliverAll a retries w ds).messages.find? id = some m ∧ m.status ∈ step.allowed ∧
      step.HasRoom m

theorem clears_of_waiting {d : NewMessage} {m : Message}
    (unused : w.log.slots.find? (Delivery.attempting event id).event.key = none)
    (found : w.messages.find? id = some m) (h : Outgoing d [] none m) (step : Move) :
    Clears a retries w event id step := by
  cases step with
  | attempt time =>
      refine ⟨[], by simp, m, found, ?_, h.hasRoom_attempt time⟩
      rw [h.status]
      exact List.mem_cons_self
  | confirm time =>
      obtain ⟨m', found', tried⟩ := deliver_attempting a retries unused found h
      refine ⟨[.attempting event id], by simp [Delivery.attempting, Envelope.carrying], m', found',
        ?_, tried.hasRoom_confirm time⟩
      rw [tried.status]
      exact List.mem_cons_self

theorem clears_of_vacant (unused : ∀ handler, w.log.slots.find? ⟨event, handler⟩ = none)
    (vacant : w.messages.find? id = none) (step : Move) : Clears a retries w event id step := by
  obtain ⟨d, m, found, created⟩ := deliver_creating a retries (unused _) vacant
  have ended := ended_deliver a retries w (.creating event id)
  have other :
      (Delivery.attempting event id).event.key ≠ (Delivery.creating event id).event.key := by
    simp [Delivery.key_creating, Delivery.key_attempting, signature_inj]
  have unused' := (ended.slot_of_ne other).trans (unused _)
  obtain ⟨ds, own, cleared⟩ := clears_of_waiting a retries unused' found created step
  refine ⟨.creating event id :: ds, ?_, cleared⟩
  intro d mem
  rcases List.mem_cons.mp mem with rfl | mem
  · rfl
  · exact own d mem

/-- An event for whose move the way can be cleared is taken afterwards. -/
theorem deliver_of_clears {e : Envelope} {k : EventKind} {p : Payload} {step : Move}
    (clears : Clears a retries w event id step) (other : event ≠ e.id) (carries : e.Carries k p)
    (deed : p.deed e.time = .move id step) (vacant : w.log.slots.find? e.key = none) :
    ∃ ds, e.SoleIn ds ∧
      ∀ elapsed, (deliver a retries (deliverAll a retries w ds) ⟨elapsed, e⟩).1 =
        .done (.ok ()) := by
  obtain ⟨ds, own, m, found, allowed, room⟩ := clears
  have apart : ∀ d ∈ ds, d.event.key ≠ e.key := by
    intro d mem same
    exact other ((own d mem).symm.trans (Envelope.key_eq_iff.mp same).1)
  have slot : (deliverAll a retries w ds).log.slots.find? e.key = none :=
    deliverAll_keeps a retries (I := fun w => w.log.slots.find? e.key = none)
      (fun w d mem slot =>
        ((ended_deliver a retries w d).slot_of_ne (Ne.symm (apart d mem))).trans slot)
      vacant
  refine ⟨ds, fun d mem same => absurd same (apart d mem), fun elapsed => ?_⟩
  have named := Payload.deed_messageId e.time p
  rw [deed] at named
  have makes (now : Timestamp) : (p.deed e.time).Makes now
      ((deliverAll a retries w ds).messages.find? p.messageId) (step.result m now) := by
    rw [deed, ← named]
    exact ⟨m, found, Move.apply_eq_done_iff.mpr ⟨allowed, room, rfl⟩⟩
  exact (deliver_of_makes a retries (d := ⟨elapsed, e⟩) carries slot (makes _)).1

/-- An obstacle that is not for good and not worth a redelivery can be cleared away. -/
theorem clears_of_obstacle {e : Envelope} {k : EventKind} {reason : AppError}
    (obstacle : Obstacle w.messages k e reason) (kind : EventKind.ofName? e.type = some k)
    (verdict : reason.isRetriable = false) (hope : ¬ e.Hopeless w.messages)
    (begun : ∀ id m, w.messages.find? id = some m → m.status = .pending →
      ∃ d, Outgoing d [] none m)
    (unused : ∀ handler, w.log.slots.find? ⟨event, handler⟩ = none) :
    ∃ p id step, e.Carries k p ∧ p.deed e.time = .move id step ∧
      Clears a retries w event id step := by
  have named := (EventKind.name_of_ofName? kind).symm
  cases obstacle with
  | undecodable unread =>
      refine absurd (fun p carried => ?_) hope
      simp [Envelope.payload?, kind, unread, Except.toOption] at carried
  | present => cases verdict
  | missing read deed vacant =>
      exact ⟨_, _, _, ⟨named, read⟩, deed, clears_of_vacant a retries unused vacant _⟩
  | @misplaced p id step m read deed found refused =>
      refine ⟨_, _, _, ⟨named, read⟩, deed, ?_⟩
      have moves : m.status.isTerminal = false := by
        by_contra final
        refine hope fun q carried => ?_
        rw [Envelope.Carries.payload? ⟨named, read⟩] at carried
        cases carried
        rw [deed]
        exact ⟨m, found, by simpa using final⟩
      have waits := Move.pending_of_refused refused moves
      obtain ⟨d, h⟩ := begun _ _ found waits
      exact clears_of_waiting a retries (unused _) found h step

end Listener

/-- What becomes of an event that has failed in the world `w` with the reason, by whether it has any
hope left. -/
structure Verdict (a : Ambient) (retries : Nat) (e : Envelope) (reason : AppError) (w : World) :
    Prop where
  /-- Without hope, it fails over and over again. -/
  permanent : e.Hopeless w.messages → ∀ ds, e.SoleIn ds → ∀ elapsed,
    (Listener.deliver a retries (Listener.deliverAll a retries w ds) ⟨elapsed, e⟩).1 =
      .done (.error reason)
  /-- With hope, there are deliveries after which it is taken. -/
  passing : ¬ e.Hopeless w.messages → ∃ ds, e.SoleIn ds ∧ ∀ elapsed,
    (Listener.deliver a retries (Listener.deliverAll a retries w ds) ⟨elapsed, e⟩).1 =
      .done (.ok ())

theorem failure_verdict (a : Ambient) (config : ServiceConfig) (steps : List Step) (retries : Nat)
    (e : Envelope) (reason : AppError)
    (failed : ((Listener.handleEvent retries e).run a (Course.run a config steps).world).1 =
      .done (.error reason))
    (verdict : reason.isRetriable = false) :
    Verdict a retries e reason
      ((Listener.handleEvent retries e).run a (Course.run a config steps).world).2 := by
  have begun : ∀ id m, (Course.run a config steps).world.messages.find? id = some m →
      m.status = .pending → ∃ d, Outgoing d [] none m := by
    intro id m found waits
    have form := (Course.tells_run a config steps).messages id
    obtain ⟨d, tries, _, h⟩ := (found ▸ form).outgoing_of_moves (by rw [waits]; rfl)
    exact ⟨d, h.eq_nil_of_pending waits ▸ h⟩
  have ended := Listener.ended_handleEvent a retries e (Course.run a config steps).world
  rw [failed] at ended
  generalize ((Listener.handleEvent retries e).run a (Course.run a config steps).world).2 = w at *
  cases ended with
  | unknown unknown =>
      refine ⟨fun _ ds _ elapsed => ?_, fun hope => absurd (fun p carried => ?_) hope⟩
      · exact (Listener.outcome_of_unknown unknown _ _).trans failed
      · simp [Envelope.payload?, unknown] at carried
  | refused => cases verdict
  | failed kind _ blocked messages log =>
      have obstacle := Listener.trial_eq_error_iff.mp blocked
      rw [← messages] at obstacle begun
      have vacant : w.log.slots.find? e.key = none := by
        rw [log, ListenerLog.find?_clear, if_pos rfl]
      constructor
      · intro hopeless ds sole elapsed
        exact Listener.deliver_fails_again kind vacant hopeless obstacle sole elapsed
      · intro hope
        obtain ⟨event, other, unused⟩ := w.log.exists_unused e.id
        obtain ⟨p, id, step, carries, deed, clears⟩ :=
          Listener.clears_of_obstacle a retries obstacle kind verdict hope begun unused
        exact Listener.deliver_of_clears a retries clears other carries deed vacant

/-- A confirmation comes in before the attempt that it confirms. -/
theorem failure_verdict_early :
    let a : Ambient := ⟨fun _ => .epoch, fun n => ⟨n⟩⟩
    let steps : List Step :=
      [{ command := .storeSent ⟨⟨1⟩, "+1000", "+2000", "hi", .epoch⟩, distinct := trivial }]
    let e := Envelope.carrying "1" .epoch (.phoneSent ⟨⟨1⟩, "+1000", "+2000", "hi"⟩ .epoch)
    let w := (Course.run a {} steps).world
    ∃ reason, ((Listener.handleEvent 3 e).run a w).1 = .done (.error reason) ∧
      reason.isRetriable = false ∧
      Verdict a 3 e reason ((Listener.handleEvent 3 e).run a w).2 := by
  intro a steps e w
  have stored : w.messages.find? ⟨1⟩ =
      some (.mobileTerminated ⟨⟨1⟩, "+1000", "+2000", "hi", .epoch⟩ .epoch) := rfl
  have failed := Listener.outcome_of_obstacle a 3 (e := e) (k := .phoneSent) (w := w) rfl rfl
    (.misplaced (Envelope.carrying_carries _ _ _).decoded rfl stored (by decide))
  exact ⟨_, failed, rfl, failure_verdict a {} steps 3 e _ failed rfl⟩

/-- The confirmation that fails before the attempt is taken after it. -/
theorem failure_not_permanent :
    let a : Ambient := ⟨fun _ => .epoch, fun n => ⟨n⟩⟩
    let sms : Sms := ⟨⟨1⟩, "+1000", "+2000", "hi"⟩
    let steps : List Step :=
      [{ command := .deliver (.carrying "1" .epoch (.apiSent sms .epoch)), distinct := trivial }]
    let e := Envelope.carrying "2" .epoch (.phoneSent sms .epoch)
    let w := (Course.run a {} steps).world
    let ds : List Delivery := [{ event := .carrying "3" .epoch (.phoneSending sms) }]
    (∃ reason, ((Listener.handleEvent 3 e).run a w).1 = .done (.error reason) ∧
      reason.isRetriable = false) ∧
      (Listener.deliver a 3 (Listener.deliverAll a 3 ((Listener.handleEvent 3 e).run a w).2 ds)
        { event := e }).1.succeeded = true := by
  intro a sms steps e w ds
  have stored : w.messages.find? ⟨1⟩ =
      some (.mobileTerminated ⟨⟨1⟩, "+1000", "+2000", "hi", .epoch⟩ .epoch) := by
    decide +kernel
  have vacant : w.log.slots.find? e.key = none := by
    decide +kernel
  have failed := Listener.outcome_of_obstacle a 3 (k := .phoneSent) rfl vacant
    (.misplaced (Envelope.carrying_carries _ _ _).decoded rfl stored (by decide))
  exact ⟨⟨_, failed, rfl⟩, by decide +kernel⟩

end SmsTracking
