import SmsTracking.Proofs.EventPath

/-!
Messages that wait and have not been tried, and what a first try makes of them. Main statements: no
counter stands in the way of a first try (`FirstTry.of_untried`), and what has been tried does not
wait any more (`FirstTry.not_isOutstanding`).
-/

namespace SmsTracking

theorem Uuid.toString_inj {i j : Uuid} : toString i = toString j ↔ i = j := by
  refine ⟨fun same => ?_, congrArg _⟩
  have read := congrArg ofString? same
  rw [ofString?_toString, ofString?_toString] at read
  exact Option.some_inj.mp read

theorem Message.pending_of_isOutstanding {m : Message} (waits : m.isOutstanding = true) :
    m.status = .pending := by
  simp only [isOutstanding, decide_eq_true_eq] at waits
  exact waits.2

theorem Message.attemptAllowed_of_isOutstanding {m : Message} (waits : m.isOutstanding = true) :
    m.status ∈ Status.attemptAllowed := by
  rw [pending_of_isOutstanding waits]
  decide

/-- Has never been handed out. -/
structure Message.Untried (m : Message) : Prop where
  version : m.version = 0
  sendAttemptCount : m.sendAttemptCount = 0

/-- No message that waits has been tried. -/
def MessageStore.Untried (s : MessageStore) : Prop :=
  ∀ id m, s.find? id = some m → m.isOutstanding = true → m.Untried

/-- What a first try with the event `e` makes of the message `n`. -/
structure FirstTry (e : Envelope) (n m : Message) : Prop where
  payload : e.payload? = some (.phoneSending (.ofMessage n))
  result : ∃ now, m = (Move.attempt e.time).result n now
  status : m.status = .sending
  version : m.version = 1
  sendAttemptCount : m.sendAttemptCount = 1
  lastAttemptedAt : m.lastAttemptedAt = some e.time

namespace FirstTry

variable {e : Envelope} {n m : Message}

theorem of_untried (payload : e.payload? = some (.phoneSending (.ofMessage n)))
    (untried : n.Untried) (now : Timestamp) :
    FirstTry e n ((Move.attempt e.time).result n now) where
  payload := payload
  result := ⟨now, rfl⟩
  status := rfl
  version := by
    rw [Move.result_version, untried.version]
    rfl
  sendAttemptCount := by
    show n.sendAttemptCount + 1 = 1
    rw [untried.sendAttemptCount]
    rfl
  lastAttemptedAt := rfl

theorem id (tried : FirstTry e n m) : m.id = n.id := by
  obtain ⟨now, rfl⟩ := tried.result
  rfl

theorem orderTimestamp (tried : FirstTry e n m) : m.orderTimestamp = n.orderTimestamp := by
  obtain ⟨now, rfl⟩ := tried.result
  rfl

theorem not_isOutstanding (tried : FirstTry e n m) : m.isOutstanding = false := by
  simp [Message.isOutstanding, tried.status]

end FirstTry

/-- A world in which messages that wait can be handed out, with `k` new identifiers. -/
structure World.Ready (a : Ambient) (w : World) (k : Nat) : Prop where
  running : w.cancelled = false
  fresh : w.Fresh a k
  untried : w.messages.Untried

theorem MessageStore.Untried.put {s : MessageStore} (untried : s.Untried) {m : Message}
    (taken : m.isOutstanding = false) : (s.put m).Untried := by
  intro id n found waits
  rw [find?_put] at found
  split at found
  · cases found
    rw [taken] at waits
    cases waits
  · exact untried id n found waits

end SmsTracking
