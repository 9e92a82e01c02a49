import SmsTracking.Service.Lifecycle

/-!
When a move can be made and what it makes of a message. A move is refused by the status alone, and
it breaks off only where a counter has no room. A move that is made counts the version up by one
and touches neither the identity of the message nor what it was created with.
-/

namespace SmsTracking

namespace Move

/-- The statuses in which the move can be made. -/
def allowed : Move → List Status
  | attempt _ => Status.attemptAllowed
  | confirm _ => Status.confirmationAllowed

/-- The status to which the move leads. -/
def target : Move → Status
  | attempt _ => .sending
  | confirm _ => .sent

def isAttempt : Move → Bool
  | attempt _ => true
  | confirm _ => false

/-- The counters that the move counts up are not at their ends. -/
def HasRoom : Move → Message → Prop
  | attempt _, m => m.version.toNat + 1 < UInt64.size ∧ m.sendAttemptCount.toNat + 1 < UInt32.size
  | confirm _, m => m.version.toNat + 1 < UInt64.size

/-- The message after the move. -/
def result : Move → Message → Timestamp → Message
  | attempt time, m, now =>
      { m with
        status := .sending, version := m.version + 1, lastAttemptedAt := some time
        sendAttemptCount := m.sendAttemptCount + 1, updatedAt := now }
  | confirm time, m, now =>
      { m with
        status := .sent, version := m.version + 1, sentAt := some time, updatedAt := now
        sendDurationMs := some (.ofNat
          (time.millisecondsSince (m.lastAttemptedAt.getD m.requestReceivedAt))) }

@[simp]
theorem result_id (move : Move) (m : Message) (now : Timestamp) : (move.result m now).id = m.id := by
  cases move <;> rfl

@[simp]
theorem result_status (move : Move) (m : Message) (now : Timestamp) :
    (move.result m now).status = move.target := by
  cases move <;> rfl

@[simp]
theorem result_version (move : Move) (m : Message) (now : Timestamp) :
    (move.result m now).version = m.version + 1 := by
  cases move <;> rfl

/-- The two checks of a move agree: what the guard lets through, the table of statuses does too. -/
theorem canBecome_of_mem_allowed {move : Move} {s : Status} (h : s ∈ move.allowed) :
    s.canBecome move.target = true := by
  cases move <;> cases s <;> simp_all [allowed, target, Status.attemptAllowed,
    Status.confirmationAllowed, Status.canBecome]

theorem isTerminal_of_mem_allowed {move : Move} {s : Status} (h : s ∈ move.allowed) :
    s.isTerminal = false := by
  cases move <;> cases s <;> simp_all [allowed, Status.attemptAllowed,
    Status.confirmationAllowed, Status.isTerminal]

theorem HasRoom.version {move : Move} {m : Message} (room : move.HasRoom m) :
    m.version.toNat + 1 < UInt64.size := by
  cases move with
  | attempt _ => exact room.1
  | confirm _ => exact room

theorem toNat_version_result {move : Move} {m : Message} (room : move.HasRoom m)
    (now : Timestamp) : (move.result m now).version.toNat = m.version.toNat + 1 := by
  rw [result_version, UInt64.toNat_add]
  exact Nat.mod_eq_of_lt room.version

theorem apply_of_not_allowed {move : Move} {m : Message} (h : m.status ∉ move.allowed)
    (now : Timestamp) :
    move.apply m now = .refused (.wrongStatus m.id m.status move.allowed) := by
  cases move <;> exact if_pos h

theorem apply_of_hasRoom {move : Move} {m : Message} (h : m.status ∈ move.allowed)
    (room : move.HasRoom m) (now : Timestamp) : move.apply m now = .done (move.result m now) := by
  have moves := canBecome_of_mem_allowed h
  cases move with
  | attempt time =>
      simp only [allowed, target] at h moves
      simp [apply, Message.attempt, Message.advance, h, moves, room.1, room.2, result]
  | confirm time =>
      simp only [allowed, target] at h moves
      have room : m.version.toNat + 1 < UInt64.size := room
      simp [apply, Message.confirm, Message.advance, h, moves, room, result]

theorem apply_of_not_hasRoom {move : Move} {m : Message} (h : m.status ∈ move.allowed)
    (full : ¬ move.HasRoom m) (now : Timestamp) : ∃ m', move.apply m now = .overflow m' := by
  have moves := canBecome_of_mem_allowed h
  cases move with
  | attempt time =>
      simp only [allowed, target] at h moves
      by_cases hv : m.version.toNat + 1 < UInt64.size
      · have hc : ¬ m.sendAttemptCount.toNat + 1 < UInt32.size := fun hc => full ⟨hv, hc⟩
        simp [apply, Message.attempt, Message.advance, h, moves, hv, hc]
      · simp [apply, Message.attempt, Message.advance, h, moves, hv]
  | confirm time =>
      simp only [allowed, target] at h moves
      have full : ¬ m.version.toNat + 1 < UInt64.size := full
      simp [apply, Message.confirm, Message.advance, h, moves, full]

/-- What can become of a move. -/
theorem apply_cases (move : Move) (m : Message) (now : Timestamp) :
    (m.status ∉ move.allowed ∧
      move.apply m now = .refused (.wrongStatus m.id m.status move.allowed)) ∨
    (m.status ∈ move.allowed ∧ move.HasRoom m ∧ move.apply m now = .done (move.result m now)) ∨
    (m.status ∈ move.allowed ∧ ¬ move.HasRoom m ∧ ∃ m', move.apply m now = .overflow m') := by
  by_cases h : m.status ∈ move.allowed
  · by_cases room : move.HasRoom m
    · exact .inr (.inl ⟨h, room, apply_of_hasRoom h room now⟩)
    · exact .inr (.inr ⟨h, room, apply_of_not_hasRoom h room now⟩)
  · exact .inl ⟨h, apply_of_not_allowed h now⟩

theorem apply_eq_done_iff {move : Move} {m m' : Message} {now : Timestamp} :
    move.apply m now = .done m' ↔
      m.status ∈ move.allowed ∧ move.HasRoom m ∧ m' = move.result m now := by
  constructor
  · intro h
    rcases apply_cases move m now with ⟨_, e⟩ | ⟨hs, room, e⟩ | ⟨_, _, _, e⟩ <;> rw [e] at h <;>
      cases h
    exact ⟨hs, room, rfl⟩
  · rintro ⟨hs, room, rfl⟩
    exact apply_of_hasRoom hs room now

theorem apply_eq_refused_iff {move : Move} {m : Message} {now : Timestamp} {e : DomainError} :
    move.apply m now = .refused e ↔
      m.status ∉ move.allowed ∧ e = .wrongStatus m.id m.status move.allowed := by
  constructor
  · intro h
    rcases apply_cases move m now with ⟨hs, e⟩ | ⟨_, _, e⟩ | ⟨_, _, _, e⟩ <;> rw [e] at h <;>
      cases h
    exact ⟨hs, rfl⟩
  · rintro ⟨hs, rfl⟩
    exact apply_of_not_allowed hs now

theorem not_hasRoom_of_apply_eq_overflow {move : Move} {m m' : Message} {now : Timestamp}
    (h : move.apply m now = .overflow m') : ¬ move.HasRoom m := by
  intro room
  rcases apply_cases move m now with ⟨_, e⟩ | ⟨_, _, e⟩ | ⟨_, full, _⟩
  · rw [e] at h
    cases h
  · rw [e] at h
    cases h
  · exact full room

end Move

end SmsTracking
