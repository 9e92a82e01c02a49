import SmsTracking.Proofs.Moves

/-!
Moves made one after the other on a message. A message that has gone through a list of moves has
counted them, and after a confirmation no move can be made. The time at which a message was changed
last does not take part in any of this, so that it may be left aside (`apply_dated`).
-/

namespace SmsTracking

/-- The message as if it had been changed last at this time. -/
def Message.dated (m : Message) (time : Timestamp) : Message := { m with updatedAt := time }

namespace Move

/-- The message after all these moves, if they can be made in this order. -/
def applyAll (now : Timestamp) : List Move → Message → Option Message
  | [], m => some m
  | move :: moves, m =>
      match move.apply m now with
      | .done m' => applyAll now moves m'
      | .refused _ | .overflow _ => none

variable {now : Timestamp} {move : Move} {moves : List Move} {m n : Message}

theorem applyAll_cons_eq_some_iff :
    applyAll now (move :: moves) m = some n ↔
      ∃ m', move.apply m now = .done m' ∧ applyAll now moves m' = some n := by
  simp only [applyAll]
  cases move.apply m now <;> simp

theorem applyAll_append_eq_some_iff {others : List Move} :
    applyAll now (moves ++ others) m = some n ↔
      ∃ m', applyAll now moves m = some m' ∧ applyAll now others m' = some n := by
  induction moves generalizing m with
  | nil => simp [applyAll]
  | cons move moves ih =>
      simp only [List.cons_append, applyAll_cons_eq_some_iff, ih]
      constructor
      · rintro ⟨m', made, l, rest, last⟩
        exact ⟨l, ⟨m', made, rest⟩, last⟩
      · rintro ⟨l, ⟨m', made, rest⟩, last⟩
        exact ⟨m', made, l, rest, last⟩

theorem applyAll_id (h : applyAll now moves m = some n) : n.id = m.id := by
  induction moves generalizing m with
  | nil =>
      cases h
      rfl
  | cons move moves ih =>
      obtain ⟨m', made, rest⟩ := applyAll_cons_eq_some_iff.mp h
      obtain ⟨_, _, rfl⟩ := apply_eq_done_iff.mp made
      rw [ih rest, result_id]

theorem applyAll_version (h : applyAll now moves m = some n) :
    n.version.toNat = m.version.toNat + moves.length := by
  induction moves generalizing m with
  | nil =>
      cases h
      rfl
  | cons move moves ih =>
      obtain ⟨m', made, rest⟩ := applyAll_cons_eq_some_iff.mp h
      obtain ⟨_, room, rfl⟩ := apply_eq_done_iff.mp made
      rw [ih rest, toNat_version_result room, List.length_cons]
      omega

theorem toNat_sendAttemptCount_result (room : move.HasRoom m) (now : Timestamp) :
    (move.result m now).sendAttemptCount.toNat =
      m.sendAttemptCount.toNat + if move.isAttempt then 1 else 0 := by
  cases move with
  | attempt time =>
      simp only [result, UInt32.toNat_add]
      exact Nat.mod_eq_of_lt room.2
  | confirm time => rfl

theorem applyAll_sendAttemptCount (h : applyAll now moves m = some n) :
    n.sendAttemptCount.toNat = m.sendAttemptCount.toNat + moves.countP isAttempt := by
  induction moves generalizing m with
  | nil =>
      cases h
      rfl
  | cons move moves ih =>
      obtain ⟨m', made, rest⟩ := applyAll_cons_eq_some_iff.mp h
      obtain ⟨_, room, rfl⟩ := apply_eq_done_iff.mp made
      rw [ih rest, toNat_sendAttemptCount_result room, List.countP_cons]
      omega

/-- A terminal message lets no move be made. -/
theorem moves_eq_nil_of_isTerminal (terminal : m.status.isTerminal = true)
    (h : applyAll now moves m = some n) : moves = [] := by
  cases moves with
  | nil => rfl
  | cons move moves =>
      obtain ⟨m', made, _⟩ := applyAll_cons_eq_some_iff.mp h
      obtain ⟨allowed, _⟩ := apply_eq_done_iff.mp made
      rw [isTerminal_of_mem_allowed allowed] at terminal
      cases terminal

theorem target_of_not_isAttempt (confirms : move.isAttempt = false) : move.target = .sent := by
  cases move with
  | attempt _ => cases confirms
  | confirm _ => rfl

/-- After a confirmation there is no further move, and the message is sent. -/
theorem eq_nil_of_confirmed {before after : List Move} (confirms : move.isAttempt = false)
    (h : applyAll now (before ++ move :: after) m = some n) : after = [] ∧ n.status = .sent := by
  obtain ⟨m', _, rest⟩ := applyAll_append_eq_some_iff.mp h
  obtain ⟨m'', made, last⟩ := applyAll_cons_eq_some_iff.mp rest
  obtain ⟨_, _, rfl⟩ := apply_eq_done_iff.mp made
  have sent : (move.result m' now).status = .sent := by
    rw [result_status, target_of_not_isAttempt confirms]
  have none : after = [] := moves_eq_nil_of_isTerminal (by rw [sent]; rfl) last
  subst none
  cases last
  exact ⟨rfl, sent⟩

theorem hasRoom_dated {time : Timestamp} : move.HasRoom (m.dated time) ↔ move.HasRoom m := by
  cases move <;> exact Iff.rfl

theorem result_dated (move : Move) (m : Message) (now time : Timestamp) :
    (move.result m now).dated time = move.result (m.dated time) time := by
  cases move <;> rfl

theorem apply_dated (made : move.apply m now = .done n) (time : Timestamp) :
    move.apply (m.dated time) time = .done (n.dated time) := by
  obtain ⟨allowed, room, rfl⟩ := apply_eq_done_iff.mp made
  exact apply_eq_done_iff.mpr ⟨allowed, hasRoom_dated.mpr room, result_dated move m now time⟩

end Move

end SmsTracking
