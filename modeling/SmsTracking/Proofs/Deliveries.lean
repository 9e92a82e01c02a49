import SmsTracking.Proofs.Deeds

/-!
How the listener deals with one delivery that nobody interferes with. It turns away an event that
is handled or being handled, and otherwise tries it: the deed of its payload is done and recorded,
or nothing is left of the try.
-/

namespace SmsTracking

namespace Payload

/-- What an event with this payload asks to be done; an attempt has the time of its event. -/
def deed (time : Timestamp) : Payload → Deed
  | apiSent sms received => .create .mobileTerminated (Listener.newMessage sms received)
  | phoneSending sms => .move sms.id (.attempt time)
  | phoneSent sms sent => .move sms.id (.confirm sent)
  | phoneReceived sms received => .create .mobileOriginated (Listener.newMessage sms received)

theorem deed_messageId (time : Timestamp) (p : Payload) :
    (p.deed time).messageId = p.messageId := by
  cases p <;> rfl

end Payload

namespace ListenerLog

/-- A claim on the key would be granted: nobody has claimed it, or the claim has run out. -/
def Free (log : ListenerLog) (key : ListenerKey) (now : Instant) : Prop :=
  log.slots.find? key = none ∨
    ∃ claimedAt, log.slots.find? key = some (.inProgress claimedAt) ∧
      log.expired claimedAt now = true

theorem claim_of_free {log : ListenerLog} {key : ListenerKey} {now : Instant}
    (free : log.Free key now) : log.claim key now = (.claimed, log.take key now) := by
  rcases free with vacant | ⟨claimedAt, slot, lapsed⟩
  · exact claim_of_vacant now vacant
  · exact claim_of_expired slot lapsed

/-- A key is handled, or its claim is running, or it is free. -/
theorem slot_cases (log : ListenerLog) (key : ListenerKey) (now : Instant) :
    (∃ e, log.slots.find? key = some (.handled e)) ∨
    (∃ claimedAt, log.slots.find? key = some (.inProgress claimedAt) ∧
      log.expired claimedAt now = false) ∨
    log.Free key now := by
  cases slot : log.slots.find? key with
  | none => exact .inr (.inr (.inl slot))
  | some s =>
      cases s with
      | handled e => exact .inl ⟨e, rfl⟩
      | inProgress claimedAt =>
          cases lapsed : log.expired claimedAt now with
          | false => exact .inr (.inl ⟨claimedAt, rfl, lapsed⟩)
          | true => exact .inr (.inr (.inr ⟨claimedAt, slot, lapsed⟩))

/-- The log with a record in the place of a claim. -/
def settle (log : ListenerLog) (e : HandledEvent) : ListenerLog :=
  { log with slots := log.slots.insert (keyOf e) (.handled e) }

/-- The log without a claim that was given up. -/
def clear (log : ListenerLog) (key : ListenerKey) : ListenerLog :=
  { log with slots := log.slots.erase key }

@[simp]
theorem find?_settle (log : ListenerLog) (e : HandledEvent) (key : ListenerKey) :
    (log.settle e).slots.find? key =
      if key = keyOf e then some (.handled e) else log.slots.find? key :=
  Entries.find?_insert ..

@[simp]
theorem find?_clear (log : ListenerLog) (key other : ListenerKey) :
    (log.clear key).slots.find? other = if other = key then none else log.slots.find? other :=
  Entries.find?_erase ..

theorem clear_of_vacant {log : ListenerLog} {key : ListenerKey}
    (vacant : log.slots.find? key = none) : log.clear key = log := by
  rw [clear, Entries.erase_of_find?_eq_none vacant]

/-- A record that is the first one of its key is one more record. -/
theorem handled_settle {log : ListenerLog} {e : HandledEvent}
    (first : ∀ h, log.slots.find? (keyOf e) ≠ some (.handled h)) :
    (log.settle e).handled.Perm (e :: log.handled) := by
  apply Entries.filterMap_put_perm record? rfl
  intro slot found
  cases slot with
  | inProgress _ => rfl
  | handled h => exact absurd found (first h)

theorem Free.not_handled {log : ListenerLog} {key : ListenerKey} {now : Instant}
    (free : log.Free key now) (h : HandledEvent) : log.slots.find? key ≠ some (.handled h) := by
  rcases free with vacant | ⟨_, slot, _⟩ <;> simp [*]

end ListenerLog

namespace Listener

def trial (s : MessageStore) (now : Timestamp) (k : EventKind) (e : Envelope) :
    Outcome (Except AppError Message) :=
  match e.payloadAs k with
  | .ok p => (p.deed e.time).effect s now
  | .error reason => .done (.error (.decode reason.message))

theorem trial_eq_ok_iff {s : MessageStore} {now : Timestamp} {k : EventKind} {e : Envelope}
    {m : Message} :
    trial s now k e = .done (.ok m) ↔
      ∃ p, e.payloadAs k = .ok p ∧ (p.deed e.time).Makes now (s.find? p.messageId) m := by
  unfold trial
  cases e.payloadAs k with
  | error reason => simp
  | ok p => simp [Deed.effect_eq_ok_iff, Payload.deed_messageId]

theorem operation_eq_program (retries : Nat) (e : Envelope) (p : Payload) :
    operation retries e p = (p.deed e.time).program retries := by
  cases p <;> rfl

theorem run_apply (a : Ambient) (retries : Nat) (k : EventKind) (e : Envelope) (w : World) :
    ∃ readings, (apply retries k e).run a w =
      let trial := trial w.messages (a.clock w.readings) k e
      (trial, { w with messages := w.messages.after trial, readings }) := by
  cases decoded : e.payloadAs k with
  | error reason =>
      refine ⟨w.readings, ?_⟩
      simp only [apply, trial, decoded]
      rfl
  | ok p =>
      simp only [apply, trial, decoded, operation_eq_program]
      exact (p.deed e.time).run_program a retries w

/-- A record that the listener makes tells which event it is about. -/
def IsRecordOf (k : EventKind) (e : Envelope) (h : HandledEvent) : Prop :=
  h.eventId = e.id ∧ h.eventType = e.type ∧ h.handler = signature k

theorem IsRecordOf.keyOf {k : EventKind} {e : Envelope} {h : HandledEvent}
    (about : IsRecordOf k e h) : ListenerLog.keyOf h = keyOf k e := by
  rw [ListenerLog.keyOf, about.1, about.2.2]
  rfl

theorem run_complete (a : Ambient) (k : EventKind) (e : Envelope) (started : Instant) (w : World)
    (log : ListenerLog) (claimedAt : Instant) (claimed : w.log = log.take (keyOf k e) claimedAt) :
    ∃ h readings, IsRecordOf k e h ∧
      (complete (keyOf k e) e started).run a w =
        (.done (.ok ()), { w with log := log.settle h, readings, draws := w.draws + 1 }) := by
  obtain ⟨h, made⟩ : ∃ h : HandledEvent, h =
      { id := a.ids w.draws, eventId := e.id, eventType := e.type, handler := (keyOf k e).handler
        durationMs := duration (w.uptime.since started)
        handledAt := a.clock w.readings, createdAt := a.clock (w.readings + 1) } := ⟨_, rfl⟩
  have about : IsRecordOf k e h := by
    rw [made]
    exact ⟨rfl, rfl, rfl⟩
  have recorded : w.log.record h = (true, log.settle h) := by
    rw [claimed, ← about.keyOf, ListenerLog.record_take]
    rfl
  refine ⟨h, w.readings + 2, about, ?_⟩
  simp only [complete, handled, bind_assoc, Program.run_uptime, Program.run_now,
    Program.run_freshId, pure_bind, Program.run_record, ← made, recorded, Program.run_pure]

def busy (k : EventKind) (e : Envelope) : AppError :=
  .conflict ("event " ++ bracketed e.id ++ " is already being handled by " ++
    bracketed (signature k))

def unapplied (k : EventKind) (e : Envelope) (reason : AppError) : AppError :=
  .context (bracketed (signature k) ++ " cannot handle event " ++ bracketed e.id) reason

theorem run_handle_of_handled (a : Ambient) (retries : Nat) {k : EventKind} {e : Envelope}
    {w : World} {h : HandledEvent} (slot : w.log.slots.find? (keyOf k e) = some (.handled h)) :
    (handle retries k e).run a w = (.done (.ok ()), w) := by
  have quiet : w.log.takeover (keyOf k e) w.uptime = [] := by
    simp only [ListenerLog.takeover, slot]
  simp only [handle, Program.run_claim, ListenerLog.claim_of_handled _ slot, quiet,
    List.append_nil]
  rfl

theorem run_handle_of_running (a : Ambient) (retries : Nat) {k : EventKind} {e : Envelope}
    {w : World} {claimedAt : Instant}
    (slot : w.log.slots.find? (keyOf k e) = some (.inProgress claimedAt))
    (running : w.log.expired claimedAt w.uptime = false) :
    (handle retries k e).run a w = (.done (.error (busy k e)), w) := by
  have quiet : w.log.takeover (keyOf k e) w.uptime = [] := by
    simp [ListenerLog.takeover, slot, running]
  simp only [handle, Program.run_claim, ListenerLog.claim_of_running slot running, quiet,
    List.append_nil]
  rfl

def giveUp (k : EventKind) (e : Envelope) (reason : AppError) : Program (Except AppError Unit) := do
  release (keyOf k e)
  pure (.error (unapplied k e reason))

theorem run_giveUp (a : Ambient) (k : EventKind) (e : Envelope) (reason : AppError) (w : World)
    (log : ListenerLog) (claimedAt : Instant) (claimed : w.log = log.take (keyOf k e) claimedAt) :
    (giveUp k e reason).run a w =
      (.done (.error (unapplied k e reason)), { w with log := log.clear (keyOf k e) }) := by
  have released : w.log.release (keyOf k e) = log.clear (keyOf k e) := by
    rw [claimed, ListenerLog.release_take]
    rfl
  simp only [giveUp, release, bind_assoc, Program.run_release, released]
  rfl

theorem run_perform (a : Ambient) (retries : Nat) (k : EventKind) (e : Envelope) (w : World) :
    ∃ readings, (perform retries k e).run a w =
      match trial w.messages (a.clock w.readings) k e with
      | .done (.ok m) =>
          (complete (keyOf k e) e w.uptime).run a
            { w with messages := w.messages.put m, readings }
      | .done (.error reason) => (giveUp k e reason).run a { w with readings }
      | .aborted text => (.aborted text, { w with readings }) := by
  obtain ⟨readings, applied⟩ := run_apply a retries k e w
  refine ⟨readings, ?_⟩
  simp only [perform, Program.run_uptime]
  rw [Program.run_bind, applied]
  cases trial w.messages (a.clock w.readings) k e with
  | aborted text => rfl
  | done answer => cases answer <;> rfl

/-- The world after a claim on a free key. -/
def claiming (w : World) (key : ListenerKey) : World :=
  { w with
    log := w.log.take key w.uptime
    lines := w.lines ++ w.log.takeover key w.uptime }

theorem run_handle_of_free (a : Ambient) (retries : Nat) {k : EventKind} {e : Envelope} {w : World}
    (free : w.log.Free (keyOf k e) w.uptime) :
    (handle retries k e).run a w = (perform retries k e).run a (claiming w (keyOf k e)) := by
  simp only [handle, Program.run_claim, ListenerLog.claim_of_free free]
  rfl

theorem run_handle_of_ok (a : Ambient) (retries : Nat) {k : EventKind} {e : Envelope} {w : World}
    {m : Message} (free : w.log.Free (keyOf k e) w.uptime)
    (done : trial w.messages (a.clock w.readings) k e = .done (.ok m)) :
    ∃ h lines readings, IsRecordOf k e h ∧
      (handle retries k e).run a w =
        (.done (.ok ()),
          { w with
            messages := w.messages.put m, log := w.log.settle h, lines, readings
            draws := w.draws + 1 }) := by
  obtain ⟨readings, performed⟩ := run_perform a retries k e (claiming w (keyOf k e))
  simp only [claiming, done] at performed
  obtain ⟨h, readings', about, completed⟩ := run_complete a k e w.uptime
    { claiming w (keyOf k e) with messages := w.messages.put m, readings } w.log w.uptime rfl
  refine ⟨h, (claiming w (keyOf k e)).lines, readings', about, ?_⟩
  rw [run_handle_of_free a retries free, claiming, performed]
  exact completed

theorem run_handle_of_error (a : Ambient) (retries : Nat) {k : EventKind} {e : Envelope}
    {w : World} {reason : AppError} (free : w.log.Free (keyOf k e) w.uptime)
    (failed : trial w.messages (a.clock w.readings) k e = .done (.error reason)) :
    ∃ lines readings, (handle retries k e).run a w =
      (.done (.error (unapplied k e reason)),
        { w with log := w.log.clear (keyOf k e), lines, readings }) := by
  obtain ⟨readings, performed⟩ := run_perform a retries k e (claiming w (keyOf k e))
  simp only [claiming, failed] at performed
  have givenUp := run_giveUp a k e reason
    { claiming w (keyOf k e) with readings } w.log w.uptime rfl
  refine ⟨(claiming w (keyOf k e)).lines, readings, ?_⟩
  rw [run_handle_of_free a retries free, claiming, performed]
  exact givenUp

theorem run_handle_of_aborted (a : Ambient) (retries : Nat) {k : EventKind} {e : Envelope}
    {w : World} {text : String} (free : w.log.Free (keyOf k e) w.uptime)
    (aborted : trial w.messages (a.clock w.readings) k e = .aborted text) :
    ∃ lines readings, (handle retries k e).run a w =
      (.aborted text, { w with log := w.log.take (keyOf k e) w.uptime, lines, readings }) := by
  obtain ⟨readings, performed⟩ := run_perform a retries k e (claiming w (keyOf k e))
  simp only [claiming, aborted] at performed
  refine ⟨(claiming w (keyOf k e)).lines, readings, ?_⟩
  rw [run_handle_of_free a retries free, claiming, performed]

end Listener

end SmsTracking
