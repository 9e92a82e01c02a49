import SmsTracking.Proofs.Deliveries

/-!
A delivery is all or nothing. Main statement: whatever the stores hold and whatever the event is,
the listener turns it away and changes nothing, or does the one deed of its payload and records it,
or fails and leaves neither a change nor a claim (`handleEvent_atomic`).
-/

namespace SmsTracking

/-- No stored counter is at its maximum. -/
def MessageStore.HasRoom (s : MessageStore) : Prop :=
  ∀ id m, s.find? id = some m →
    m.version.toNat + 1 < UInt64.size ∧ m.sendAttemptCount.toNat + 1 < UInt32.size

theorem Move.hasRoom_of_counters {m : Message} (move : Move)
    (room : m.version.toNat + 1 < UInt64.size ∧ m.sendAttemptCount.toNat + 1 < UInt32.size) :
    move.HasRoom m := by
  cases move with
  | attempt _ => exact room
  | confirm _ => exact room.1

theorem MessageStore.HasRoom.deed {s : MessageStore} (room : s.HasRoom) (d : Deed) :
    d.HasRoom s := by
  cases d with
  | create _ _ => trivial
  | move id step => exact fun m found _ => step.hasRoom_of_counters (room id m found)

namespace Listener

theorem trial_ne_aborted {s : MessageStore} (room : s.HasRoom) (now : Timestamp) (k : EventKind)
    (e : Envelope) (text : String) : trial s now k e ≠ .aborted text := by
  unfold trial
  split
  · exact (room.deed _).effect_ne_aborted now text
  · exact nofun

/-- The deed of the event is done and recorded: one message, one record, and nothing else. -/
structure Accomplished (now : Timestamp) (k : EventKind) (e : Envelope) (w w' : World) : Prop where
  recorded : ∃ h, IsRecordOf k e h ∧ w'.log.slots.find? (keyOf k e) = some (.handled h) ∧
    w'.log.handled.Perm (h :: w.log.handled)
  otherKeys : ∀ key, key ≠ keyOf k e → w'.log.slots.find? key = w.log.slots.find? key
  done : ∃ p m, e.payloadAs k = .ok p ∧
    (p.deed e.time).Makes now (w.messages.find? p.messageId) m ∧
    w'.messages.find? p.messageId = some m ∧
    ∀ id, id ≠ p.messageId → w'.messages.find? id = w.messages.find? id

/-- There is no deed that could be done, and neither the messages nor the log tell of the try. -/
structure Undone (now : Timestamp) (k : EventKind) (e : Envelope) (w w' : World) : Prop where
  impossible : ∀ p m, e.payloadAs k = .ok p →
    ¬ (p.deed e.time).Makes now (w.messages.find? p.messageId) m
  messages : w'.messages = w.messages
  vacant : w'.log.slots.find? (keyOf k e) = none
  otherKeys : ∀ key, key ≠ keyOf k e → w'.log.slots.find? key = w.log.slots.find? key
  log : w.log.slots.find? (keyOf k e) = none → w'.log = w.log

def Tried (now : Timestamp) (k : EventKind) (e : Envelope) (w : World)
    (o : Outcome (Except AppError Unit)) (w' : World) : Prop :=
  (o = .done (.ok ()) ∧ Accomplished now k e w w') ∨
    (∃ reason, o = .done (.error reason)) ∧ Undone now k e w w'

/-- How a delivery that finds the world `w` ends, and the world `w'` that it leaves. -/
def Delivered (now : Timestamp) (e : Envelope) (w : World) (o : Outcome (Except AppError Unit))
    (w' : World) : Prop :=
  match EventKind.ofName? e.type with
  | none => (∃ reason, o = .done (.error (.decode reason))) ∧ w' = w
  | some k =>
      match w.log.slots.find? (keyOf k e) with
      | some (.handled _) => o = .done (.ok ()) ∧ w' = w
      | some (.inProgress claimedAt) =>
          if w.log.expired claimedAt w.uptime then Tried now k e w o w'
          else
            (∃ reason, o = .done (.error (.conflict reason)) ∧
              (AppError.conflict reason).isRetriable = true) ∧ w' = w
      | none => Tried now k e w o w'

theorem tried_handle (a : Ambient) (retries : Nat) {k : EventKind} {e : Envelope} {w : World}
    (room : w.messages.HasRoom) (free : w.log.Free (keyOf k e) w.uptime) :
    Tried (a.clock w.readings) k e w ((handle retries k e).run a w).1
      ((handle retries k e).run a w).2 := by
  cases outcome : trial w.messages (a.clock w.readings) k e with
  | aborted text => exact absurd outcome (trial_ne_aborted room _ k e text)
  | done answer =>
      cases answer with
      | error reason =>
          obtain ⟨lines, readings, ran⟩ := run_handle_of_error a retries free outcome
          rw [ran]
          refine .inr ⟨⟨_, rfl⟩, ?_, rfl, ?_, ?_, ?_⟩
          · intro p m decoded makes
            rw [trial_eq_ok_iff.mpr ⟨p, decoded, makes⟩] at outcome
            cases outcome
          · simp
          · intro key other
            simp [other]
          · exact ListenerLog.clear_of_vacant
      | ok m =>
          obtain ⟨h, lines, readings, about, ran⟩ := run_handle_of_ok a retries free outcome
          rw [ran]
          refine .inl ⟨rfl, ⟨h, about, ?_, ?_⟩, ?_, ?_⟩
          · simp [about.keyOf]
          · apply ListenerLog.handled_settle
            rw [about.keyOf]
            exact free.not_handled
          · intro key other
            simp [about.keyOf, other]
          · obtain ⟨p, decoded, makes⟩ := trial_eq_ok_iff.mp outcome
            have named : m.id = p.messageId := by
              rw [← Payload.deed_messageId e.time] at makes ⊢
              exact Deed.id_of_makes makes
            refine ⟨p, m, decoded, makes, ?_, ?_⟩
            · simp [named]
            · intro id other
              simp [named, other]

theorem delivered_handle (a : Ambient) (retries : Nat) {k : EventKind} {e : Envelope} {w : World}
    (kind : EventKind.ofName? e.type = some k) (room : w.messages.HasRoom) :
    Delivered (a.clock w.readings) e w ((handle retries k e).run a w).1
      ((handle retries k e).run a w).2 := by
  simp only [Delivered, kind]
  rcases w.log.slot_cases (keyOf k e) w.uptime with ⟨h, slot⟩ | ⟨claimedAt, slot, running⟩ | free
  · rw [slot, run_handle_of_handled a retries slot]
    exact ⟨rfl, rfl⟩
  · simp only [slot, run_handle_of_running a retries slot running, running]
    exact ⟨⟨_, rfl, rfl⟩, trivial⟩
  · have tried := tried_handle a retries room free
    rcases free with vacant | ⟨claimedAt, slot, lapsed⟩
    · simpa only [vacant] using tried
    · simpa only [slot, lapsed, if_true] using tried

theorem Tried.inProgress {now : Timestamp} {k : EventKind} {e : Envelope} {w w' : World}
    {o : Outcome (Except AppError Unit)} (tried : Tried now k e w o w') {key : ListenerKey}
    {claimedAt : Instant} (slot : w'.log.slots.find? key = some (.inProgress claimedAt)) :
    w.log.slots.find? key = some (.inProgress claimedAt) := by
  by_cases own : key = keyOf k e
  · subst own
    rcases tried with ⟨_, accomplished⟩ | ⟨_, undone⟩
    · obtain ⟨h, _, handled, _⟩ := accomplished.recorded
      rw [handled] at slot
      cases slot
    · rw [undone.vacant] at slot
      cases slot
  · rcases tried with ⟨_, accomplished⟩ | ⟨_, undone⟩
    · rwa [accomplished.otherKeys key own] at slot
    · rwa [undone.otherKeys key own] at slot

/-- A delivery leaves no claim that was not there before it. -/
theorem Delivered.inProgress {now : Timestamp} {e : Envelope} {w w' : World}
    {o : Outcome (Except AppError Unit)} (delivered : Delivered now e w o w') {key : ListenerKey}
    {claimedAt : Instant} (slot : w'.log.slots.find? key = some (.inProgress claimedAt)) :
    w.log.slots.find? key = some (.inProgress claimedAt) := by
  unfold Delivered at delivered
  split at delivered
  · exact delivered.2 ▸ slot
  · split at delivered
    · exact delivered.2 ▸ slot
    · split at delivered
      · exact delivered.inProgress slot
      · exact delivered.2 ▸ slot
    · exact delivered.inProgress slot

/-- A delivery that fails on a key that nobody has claimed leaves everything as it was. -/
theorem Delivered.failed {now : Timestamp} {k : EventKind} {e : Envelope} {w w' : World}
    {reason : AppError} (delivered : Delivered now e w (.done (.error reason)) w')
    (kind : EventKind.ofName? e.type = some k) (vacant : w.log.slots.find? (keyOf k e) = none) :
    w'.messages = w.messages ∧ w'.log = w.log := by
  simp only [Delivered, kind, vacant] at delivered
  rcases delivered with ⟨ok, _⟩ | ⟨_, undone⟩
  · cases ok
  · exact ⟨undone.messages, undone.log vacant⟩

/-- A delivery is all or nothing: it leaves no claim of its own, and what fails on a key that
nobody has claimed might as well not have been delivered. -/
structure Atomic (now : Timestamp) (e : Envelope) (w : World) (o : Outcome (Except AppError Unit))
    (w' : World) : Prop where
  delivered : Delivered now e w o w'
  inProgress : ∀ key claimedAt, w'.log.slots.find? key = some (.inProgress claimedAt) →
    w.log.slots.find? key = some (.inProgress claimedAt)
  failed : ∀ k reason, EventKind.ofName? e.type = some k →
    w.log.slots.find? (keyOf k e) = none → o = .done (.error reason) →
    w'.messages = w.messages ∧ w'.log = w.log

theorem handleEvent_atomic (a : Ambient) (retries : Nat) (e : Envelope) (w : World)
    (room : w.messages.HasRoom) :
    Atomic (a.clock w.readings) e w ((handleEvent retries e).run a w).1
      ((handleEvent retries e).run a w).2 := by
  have delivered : Delivered (a.clock w.readings) e w ((handleEvent retries e).run a w).1
      ((handleEvent retries e).run a w).2 := by
    unfold handleEvent
    cases kind : EventKind.ofName? e.type with
    | none =>
        simp only [Delivered, kind]
        exact ⟨⟨_, rfl⟩, rfl⟩
    | some k => exact delivered_handle a retries kind room
  refine ⟨delivered, fun key claimedAt slot => delivered.inProgress slot, ?_⟩
  intro k reason kind vacant failed
  exact (failed ▸ delivered).failed kind vacant

/-- An attempt that finds its message waiting. -/
theorem handleEvent_atomic_sending :
    let m := Message.mobileTerminated ⟨⟨1⟩, "+1000", "+2000", "hi", .epoch⟩ .epoch
    let w : World := { messages := (∅ : MessageStore).put m }
    let e := Envelope.ofPayload ⟨7⟩ .epoch "phone" (.phoneSending (.ofMessage m))
    let a : Ambient := ⟨fun _ => .epoch, fun n => ⟨n⟩⟩
    let ended := (handleEvent 3 e).run a w
    w.messages.HasRoom ∧ Atomic (a.clock w.readings) e w ended.1 ended.2 := by
  intro m w e a ended
  have room : w.messages.HasRoom := by
    intro id n found
    simp only [w, MessageStore.find?_put] at found
    split at found
    · cases found
      decide
    · cases found
  exact ⟨room, handleEvent_atomic a 3 e w room⟩

end Listener

end SmsTracking
