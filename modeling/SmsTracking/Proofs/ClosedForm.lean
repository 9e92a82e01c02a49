import SmsTracking.Proofs.Deeds
import SmsTracking.Proofs.Replay

/-!
What a history of deeds makes of a message, in closed form. A message that came from a phone has a
history of one deed. One that goes out to a phone was created, then tried some times, and in the end
perhaps confirmed, if it was tried at all. Main statement: a deed that can be done continues the
history of its message (`ClosedForm.append`).
-/

namespace SmsTracking

/-- The message that was created from `d`, tried at the times `tries` and, if at all, confirmed at
the time `sent`. When it was created and last changed is left open. -/
structure Outgoing (d : NewMessage) (tries : List Timestamp) (sent : Option Timestamp)
    (m : Message) : Prop where
  id : m.id = d.id
  owner : m.owner = d.owner
  contact : m.contact = d.contact
  content : m.content = d.content
  direction : m.direction = .mobileTerminated
  status : m.status = if sent.isSome then .sent else if tries = [] then .pending else .sending
  requestReceivedAt : m.requestReceivedAt = d.timestamp
  orderTimestamp : m.orderTimestamp = d.timestamp
  lastAttemptedAt : m.lastAttemptedAt = tries.getLast?
  sendAttemptCount : m.sendAttemptCount.toNat = tries.length
  sentAt : m.sentAt = sent
  receivedAt : m.receivedAt = none
  sendDurationMs : m.sendDurationMs.map Int64.toInt =
    sent.map fun time => max 0 ((time - tries.getLast?.getD d.timestamp : Int) / 1000000)
  version : m.version.toNat = tries.length + sent.toList.length

/-- The message that came from a phone with the contents of `d`. -/
structure Incoming (d : NewMessage) (m : Message) : Prop where
  id : m.id = d.id
  owner : m.owner = d.owner
  contact : m.contact = d.contact
  content : m.content = d.content
  direction : m.direction = .mobileOriginated
  status : m.status = .received
  requestReceivedAt : m.requestReceivedAt = d.timestamp
  orderTimestamp : m.orderTimestamp = d.timestamp
  lastAttemptedAt : m.lastAttemptedAt = none
  sendAttemptCount : m.sendAttemptCount = 0
  sentAt : m.sentAt = none
  receivedAt : m.receivedAt = some d.timestamp
  sendDurationMs : m.sendDurationMs = none
  version : m.version = 0

def attemptsAt (id : Uuid) (tries : List Timestamp) : List Deed :=
  tries.map fun time => .move id (.attempt time)

/-- The deeds of one message and what is stored of it. -/
inductive ClosedForm : List Deed → Option Message → Prop
  | none : ClosedForm [] none
  | incoming {d : NewMessage} {m : Message} (h : Incoming d m) :
      ClosedForm [.create .mobileOriginated d] (some m)
  | outgoing {d : NewMessage} {tries : List Timestamp} {m : Message} (h : Outgoing d tries none m) :
      ClosedForm (.create .mobileTerminated d :: attemptsAt d.id tries) (some m)
  | confirmed {d : NewMessage} {tries : List Timestamp} {time : Timestamp} {m : Message}
      (tried : tries ≠ []) (h : Outgoing d tries (some time) m) :
      ClosedForm (.create .mobileTerminated d ::
        (attemptsAt d.id tries ++ [.move d.id (.confirm time)])) (some m)

namespace Timestamp

theorem sub_lt (a b : Timestamp) : (a - b : Int) < 9223372036854775808 * 1000000 := by
  have ha := a.day_mem
  have hb := b.day_mem
  have sa := a.second_lt
  have sb := b.second_lt
  have na := a.nano_lt
  have nb := b.nano_lt
  have leap : leapAdjustment a b ≤ 1 := by
    unfold leapAdjustment
    split
    · split <;> omega
    · split
      · split <;> omega
      · omega
  show sub a b < _
  simp only [sub]
  omega

/-- A duration in milliseconds fits into its field. -/
theorem toInt_millisecondsSince (finish started : Timestamp) :
    (Int64.ofNat (finish.millisecondsSince started)).toInt =
      max 0 ((finish - started : Int) / 1000000) := by
  have bound := sub_lt finish started
  unfold millisecondsSince
  generalize (finish - started : Int) = gap at *
  have small : (gap / 1000000).toNat < 2 ^ 63 := by omega
  rw [Int64.toInt_ofNat_of_lt small]
  omega

end Timestamp

theorem Outgoing.created (d : NewMessage) (now : Timestamp) :
    Outgoing d [] none (.mobileTerminated d now) := by
  constructor <;> rfl

theorem Incoming.created (d : NewMessage) (now : Timestamp) :
    Incoming d (.mobileOriginated d now) := by
  constructor <;> rfl

namespace Outgoing

variable {d : NewMessage} {tries : List Timestamp} {sent : Option Timestamp} {m : Message}
  {now : Timestamp}

/-- Only a message that is not confirmed can be moved. -/
theorem sent_eq_none {move : Move} (h : Outgoing d tries sent m)
    (allowed : m.status ∈ move.allowed) : sent = none := by
  cases sent with
  | none => rfl
  | some time =>
      have terminal : m.status.isTerminal = true := by
        rw [h.status]
        rfl
      rw [Move.isTerminal_of_mem_allowed allowed] at terminal
      cases terminal

theorem attempt {time : Timestamp} (h : Outgoing d tries none m)
    (room : (Move.attempt time).HasRoom m) :
    Outgoing d (tries ++ [time]) none ((Move.attempt time).result m now) := by
  have counted := Move.toNat_sendAttemptCount_result room now
  have version := Move.toNat_version_result room now
  exact
    { h with
      status := by simp [Move.target]
      lastAttemptedAt := by simp [Move.result]
      sendAttemptCount := by simp [counted, h.sendAttemptCount, Move.isAttempt]
      version := by
        rw [version, h.version]
        simp }

theorem confirm {time : Timestamp} (h : Outgoing d tries none m)
    (allowed : m.status ∈ (Move.confirm time).allowed) (room : (Move.confirm time).HasRoom m) :
    tries ≠ [] ∧ Outgoing d tries (some time) ((Move.confirm time).result m now) := by
  have tried : tries ≠ [] := by
    rintro rfl
    rw [h.status] at allowed
    simp [Move.allowed, Status.confirmationAllowed] at allowed
  have version := Move.toNat_version_result room now
  refine ⟨tried, ?_⟩
  exact
    { h with
      status := by simp [Move.target]
      sentAt := rfl
      sendDurationMs := by
        simp only [Move.result, Option.map_some, Timestamp.toInt_millisecondsSince,
          h.lastAttemptedAt, h.requestReceivedAt]
      version := by
        rw [version, h.version]
        simp }

/-- A message that waits has not been tried. -/
theorem eq_nil_of_pending (h : Outgoing d tries none m) (waits : m.status = .pending) :
    tries = [] := by
  cases tries with
  | nil => rfl
  | cons time tries => simp [h.status] at waits

theorem hasRoom_attempt (h : Outgoing d [] none m) (time : Timestamp) :
    (Move.attempt time).HasRoom m := by
  have version : m.version.toNat = 0 := h.version
  have count : m.sendAttemptCount.toNat = 0 := h.sendAttemptCount
  simp only [Move.HasRoom, version, count]
  decide

/-- The version counts no more than the attempts, for which there are fewer numbers. -/
theorem hasRoom_confirm (h : Outgoing d tries none m) (time : Timestamp) :
    (Move.confirm time).HasRoom m := by
  have version := h.version
  have count := h.sendAttemptCount
  have bound := m.sendAttemptCount.toNat_lt
  show m.version.toNat + 1 < 18446744073709551616
  simp only [Option.toList_none, List.length_nil, Nat.add_zero] at version
  omega

end Outgoing

theorem attemptsAt_append (id : Uuid) (tries : List Timestamp) (time : Timestamp) :
    attemptsAt id (tries ++ [time]) = attemptsAt id tries ++ [.move id (.attempt time)] := by
  simp [attemptsAt]

namespace ClosedForm

variable {deeds : List Deed} {before : Option Message} {m : Message} {now : Timestamp}

theorem move {n : Message} {step : Move} (form : ClosedForm deeds (some n))
    (made : step.apply n now = .done m) : ClosedForm (deeds ++ [.move n.id step]) (some m) := by
  obtain ⟨allowed, room, rfl⟩ := Move.apply_eq_done_iff.mp made
  cases form with
  | incoming h =>
      have moves := Move.isTerminal_of_mem_allowed allowed
      rw [h.status] at moves
      cases moves
  | confirmed _ h => cases h.sent_eq_none allowed
  | outgoing h =>
      rw [h.id]
      cases step with
      | attempt time =>
          rw [List.cons_append, ← attemptsAt_append]
          exact .outgoing (h.attempt room)
      | confirm time =>
          obtain ⟨tried, confirmed⟩ := h.confirm allowed room
          exact .confirmed tried confirmed

theorem append {d : Deed} (form : ClosedForm deeds before)
    (named : ∀ n, before = some n → n.id = d.messageId) (made : d.Makes now before m) :
    ClosedForm (deeds ++ [d]) (some m) := by
  cases d with
  | create direction d =>
      obtain ⟨rfl, rfl⟩ := made
      cases form
      cases direction with
      | mobileOriginated => exact .incoming (.created d now)
      | mobileTerminated => exact .outgoing (.created d now)
  | move id step =>
      obtain ⟨n, rfl, done⟩ := made
      obtain rfl : n.id = id := named n rfl
      exact form.move done

/-- What is there of a message that is not at its end. -/
theorem outgoing_of_moves (form : ClosedForm deeds (some m))
    (moves : m.status.isTerminal = false) :
    ∃ d tries, deeds = .create .mobileTerminated d :: attemptsAt d.id tries ∧
      Outgoing d tries Option.none m := by
  cases form with
  | incoming h => simp [h.status, Status.isTerminal] at moves
  | confirmed _ h => simp [h.status, Status.isTerminal] at moves
  | @outgoing d tries m h => exact ⟨d, tries, rfl, h⟩

end ClosedForm

end SmsTracking
