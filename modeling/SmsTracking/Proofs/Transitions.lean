import SmsTracking.Proofs.Replay

/-!
Moves made one after the other on any message, whether its fields fit together or not. A run goes on
after a move that is refused, and also after one that breaks off at a counter, with the fields that
were set until then. Main statement: the status and the two counters alone decide what becomes of a
move, a move changes only what belongs to it, and along a run the status never falls back and is
confirmed at most once (`steps_lawful`).
-/

namespace SmsTracking

namespace Timestamp

/-- The longest span, in nanoseconds. Its milliseconds fill 63 bits. -/
def longestSpan : Int := 9223372036854775807 * 1000000

theorem sub_mem (a b : Timestamp) : -longestSpan ≤ (a - b : Int) ∧ (a - b : Int) ≤ longestSpan := by
  have adjusted : -1 ≤ leapAdjustment a b ∧ leapAdjustment a b ≤ 1 := by
    unfold leapAdjustment
    split
    · split <;> decide
    · split
      · split <;> decide
      · decide
  have days := a.day_mem
  have days' := b.day_mem
  have seconds := a.second_lt
  have seconds' := b.second_lt
  have nanos := a.nano_lt
  have nanos' := b.nano_lt
  change -longestSpan ≤ sub a b ∧ sub a b ≤ longestSpan
  unfold sub longestSpan
  omega

/-- The milliseconds of a span are cut off towards zero, and a negative span has none. -/
theorem millisecondsSince_eq (finish started : Timestamp) :
    (finish.millisecondsSince started : Int) = max 0 (Int.tdiv (finish - started) 1000000) := by
  unfold millisecondsSince
  generalize (finish - started : Int) = span
  rw [Int.tdiv_eq_ediv]
  split
  · omega
  · rename_i negative
    have sign : Int.sign 1000000 = 1 := rfl
    omega

theorem millisecondsSince_lt (finish started : Timestamp) :
    finish.millisecondsSince started < 9223372036854775808 := by
  have := (sub_mem finish started).2
  unfold longestSpan at this
  unfold millisecondsSince
  generalize (finish - started : Int) = span at this
  omega

end Timestamp

namespace Move

variable {move : Move} {m m' : Message} {now : Timestamp}

/-- The message `m'` comes from `m` by the move: the fields that are not named are as they were. -/
def Changes : Move → Message → Timestamp → Message → Prop
  | attempt time, m, now, m' =>
      m' = { m with
        status := .sending, version := m'.version, updatedAt := now
        lastAttemptedAt := some time, sendAttemptCount := m'.sendAttemptCount } ∧
      m'.sendAttemptCount.toNat = m.sendAttemptCount.toNat + 1
  | confirm time, m, now, m' =>
      ∃ duration : Int64,
        duration.toInt =
          max 0 (Int.tdiv (time - m.lastAttemptedAt.getD m.requestReceivedAt) 1000000) ∧
        m' = { m with
          status := .sent, version := m'.version, updatedAt := now
          sentAt := some time, sendDurationMs := some duration }

theorem changes_result (room : move.HasRoom m) (now : Timestamp) :
    move.Changes m now (move.result m now) := by
  cases move with
  | attempt time => exact ⟨rfl, toNat_sendAttemptCount_result room now⟩
  | confirm time =>
      refine ⟨_, ?_, rfl⟩
      rw [Int64.toInt_ofNat_of_lt (Timestamp.millisecondsSince_lt _ _),
        Timestamp.millisecondsSince_eq]

/-- The counters that a move counts up have room unless one of them is at its end. -/
theorem not_hasRoom_iff :
    ¬ move.HasRoom m ↔ m.version.toNat + 1 = UInt64.size ∨
      move.isAttempt = true ∧ m.sendAttemptCount.toNat + 1 = UInt32.size := by
  have version := m.version.toNat_lt_size
  have count := m.sendAttemptCount.toNat_lt_size
  cases move with
  | attempt time =>
      simp only [HasRoom, isAttempt, true_and]
      omega
  | confirm time =>
      simp only [HasRoom, isAttempt, Bool.false_eq_true, false_and, or_false]
      omega

theorem advance_of_mem {finish : Message → Transition} (allowed : m.status ∈ move.allowed) :
    m.advance move.allowed move.target finish =
      if m.version.toNat + 1 < UInt64.size then
        finish { m with status := move.target, version := m.version + 1 }
      else .overflow { m with status := move.target } := by
  simp [Message.advance, allowed, canBecome_of_mem_allowed allowed]

/-- After its status no move sets the status again, also where it breaks off. -/
theorem exists_finish (move : Move) (now : Timestamp) :
    ∃ finish, (∀ m, move.apply m now = m.advance move.allowed move.target finish) ∧
      ∀ m m', finish m = .overflow m' → m'.status = m.status := by
  cases move with
  | attempt time =>
      simp only [apply, Message.attempt]
      refine ⟨_, fun _ => rfl, fun m m' full => ?_⟩
      split at full
      · cases full
      · cases full
        rfl
  | confirm time =>
      simp only [apply, Message.confirm]
      exact ⟨_, fun _ => rfl, fun m m' full => by cases full⟩

/-- The status is set before the counters are counted up. -/
theorem status_of_overflow (full : move.apply m now = .overflow m') :
    m.status ∈ move.allowed ∧ m'.status = move.target := by
  by_cases allowed : m.status ∈ move.allowed
  · refine ⟨allowed, ?_⟩
    obtain ⟨finish, applied, keeps⟩ := move.exists_finish now
    rw [applied, advance_of_mem allowed] at full
    split at full
    · exact keeps _ _ full
    · cases full
      rfl
  · rw [apply_of_not_allowed allowed] at full
    cases full

end Move

namespace Message

/-! One move of a run -/

/-- A move that is made at a time on a message. -/
structure Step where
  before : Message
  move : Move
  now : Timestamp

namespace Step

def outcome (s : Step) : Transition := s.move.apply s.before s.now

def after (s : Step) : Message :=
  match s.outcome with
  | .done m | .overflow m => m
  | .refused _ => s.before

/-- Confirms that the message was sent. -/
def confirms (s : Step) : Bool :=
  match s.outcome with
  | .done _ => !s.move.isAttempt
  | _ => false

def isRefused (s : Step) : Bool :=
  match s.outcome with
  | .refused _ => true
  | _ => false

/-- What becomes of a move, and what it changes. -/
structure Lawful (s : Step) : Prop where
  refused_iff : ∀ e, s.outcome = .refused e ↔ s.before.status ∉ s.move.allowed ∧
    e = .invalidState s.before.id s.before.status (Status.describe s.move.allowed)
  unchanged : s.before.status ∉ s.move.allowed → s.after = s.before
  overflow_iff : (∃ m, s.outcome = .overflow m) ↔ s.before.status ∈ s.move.allowed ∧
    (s.before.version.toNat + 1 = UInt64.size ∨
      s.move.isAttempt = true ∧ s.before.sendAttemptCount.toNat + 1 = UInt32.size)
  done_iff : (∃ m, s.outcome = .done m) ↔ s.before.status ∈ s.move.allowed ∧
    ¬ (s.before.version.toNat + 1 = UInt64.size ∨
      s.move.isAttempt = true ∧ s.before.sendAttemptCount.toNat + 1 = UInt32.size)
  changes : ∀ m, s.outcome = .done m → s.after = m ∧
    m.version.toNat = s.before.version.toNat + 1 ∧ s.move.Changes s.before s.now m

variable {s : Step}

theorem lawful (s : Step) : s.Lawful where
  refused_iff _ := Move.apply_eq_refused_iff
  unchanged outside := by
    rw [after, outcome, Move.apply_of_not_allowed outside]
  overflow_iff := by
    rw [← Move.not_hasRoom_iff]
    constructor
    · rintro ⟨m, full⟩
      exact ⟨(Move.status_of_overflow full).1, Move.not_hasRoom_of_apply_eq_overflow full⟩
    · rintro ⟨allowed, full⟩
      exact Move.apply_of_not_hasRoom allowed full s.now
  done_iff := by
    rw [← Move.not_hasRoom_iff, Classical.not_not]
    constructor
    · rintro ⟨m, made⟩
      obtain ⟨allowed, room, _⟩ := Move.apply_eq_done_iff.mp made
      exact ⟨allowed, room⟩
    · rintro ⟨allowed, room⟩
      exact ⟨_, Move.apply_of_hasRoom allowed room s.now⟩
  changes m made := by
    obtain ⟨_, room, same⟩ := Move.apply_eq_done_iff.mp made
    refine ⟨by rw [after, made], ?_, ?_⟩
    · rw [same, Move.toNat_version_result room]
    · rw [same]
      exact Move.changes_result room s.now

/-- A move leaves the message in its status or takes it to the one that it leads to. -/
theorem status_after (s : Step) :
    s.after.status = s.before.status ∨
      s.before.status ∈ s.move.allowed ∧ s.after.status = s.move.target := by
  rw [after]
  split
  · rename_i m made
    obtain ⟨allowed, _, rfl⟩ := Move.apply_eq_done_iff.mp made
    exact .inr ⟨allowed, Move.result_status ..⟩
  · rename_i m full
    exact .inr (Move.status_of_overflow full)
  · exact .inl rfl

theorem rank_le_after (s : Step) : s.before.status.rank ≤ s.after.status.rank := by
  rcases s.status_after with same | ⟨allowed, moved⟩
  · exact Nat.le_of_eq (congrArg Status.rank same.symm)
  · rw [moved]
    exact Status.rank_le_of_canBecome (Move.canBecome_of_mem_allowed allowed)

theorem isTerminal_of_confirms (confirmed : s.confirms = true) : s.after.status.isTerminal = true := by
  unfold confirms at confirmed
  split at confirmed
  · rename_i m made
    obtain ⟨_, _, rfl⟩ := Move.apply_eq_done_iff.mp made
    have sent := Move.target_of_not_isAttempt (by simpa using confirmed)
    rw [after, made, Move.result_status, sent]
    rfl
  · cases confirmed

/-- A message at the end of its life refuses every move. -/
theorem refused_of_isTerminal (terminal : s.before.status.isTerminal = true) :
    s.isRefused = true ∧ s.after = s.before := by
  have outside : s.before.status ∉ s.move.allowed := by
    intro allowed
    rw [Move.isTerminal_of_mem_allowed allowed] at terminal
    cases terminal
  refine ⟨?_, s.lawful.unchanged outside⟩
  rw [isRefused, outcome, Move.apply_of_not_allowed outside]

theorem not_confirms_of_isRefused (refused : s.isRefused = true) : s.confirms = false := by
  unfold isRefused at refused
  split at refused
  · rename_i e answered
    rw [confirms, answered]
  · cases refused

end Step

/-! Runs -/

/-- The moves of a list, one after the other, each on the message that the one before has left. -/
def steps (m : Message) : List (Move × Timestamp) → List Step
  | [] => []
  | (move, now) :: moves =>
      let s : Step := ⟨m, move, now⟩
      s :: s.after.steps moves

/-- The message at the start and after each step. -/
def states (m : Message) (moves : List (Move × Timestamp)) : List Message :=
  m :: (m.steps moves).map Step.after

theorem states_cons (m : Message) (move : Move) (now : Timestamp) (moves : List (Move × Timestamp)) :
    m.states ((move, now) :: moves) = m :: (Step.mk m move now).after.states moves := rfl

theorem pairwise_rank (m : Message) (moves : List (Move × Timestamp)) :
    (m.states moves).Pairwise fun a b => a.status.rank ≤ b.status.rank := by
  induction moves generalizing m with
  | nil => exact List.pairwise_singleton _ _
  | cons call moves ih =>
      obtain ⟨move, now⟩ := call
      have first := (Step.mk m move now).rank_le_after
      rw [states_cons]
      refine List.pairwise_cons.mpr ⟨fun n mem => ?_, ih _⟩
      rcases List.mem_cons.mp mem with rfl | later
      · exact first
      · exact Nat.le_trans first (List.rel_of_pairwise_cons (ih _) later)

theorem refused_of_mem_steps {m : Message} (terminal : m.status.isTerminal = true)
    {moves : List (Move × Timestamp)} {s : Step} (mem : s ∈ m.steps moves) : s.isRefused = true := by
  induction moves generalizing m with
  | nil => cases mem
  | cons call moves ih =>
      obtain ⟨refused, same⟩ := Step.refused_of_isTerminal (s := ⟨m, call.1, call.2⟩) terminal
      rcases List.mem_cons.mp mem with rfl | later
      · exact refused
      · refine ih (m := (Step.mk m call.1 call.2).after) ?_ later
        rw [same]
        exact terminal

theorem pairwise_confirmed (m : Message) (moves : List (Move × Timestamp)) :
    (m.steps moves).Pairwise fun s t => s.confirms = true → t.isRefused = true := by
  induction moves generalizing m with
  | nil => exact List.Pairwise.nil
  | cons call moves ih =>
      refine List.pairwise_cons.mpr ⟨fun t mem confirmed => ?_, ih _⟩
      exact refused_of_mem_steps (Step.isTerminal_of_confirms confirmed) mem

theorem countP_confirms_le_one (m : Message) (moves : List (Move × Timestamp)) :
    (m.steps moves).countP Step.confirms ≤ 1 := by
  have pairwise := pairwise_confirmed m moves
  generalize m.steps moves = steps at pairwise
  induction steps with
  | nil => exact Nat.zero_le 1
  | cons s rest ih =>
      obtain ⟨after, later⟩ := List.pairwise_cons.mp pairwise
      by_cases confirmed : s.confirms = true
      · have none : rest.countP Step.confirms = 0 := by
          refine List.countP_eq_zero.mpr fun t mem => ?_
          rw [Step.not_confirms_of_isRefused (after t mem confirmed)]
          exact Bool.false_ne_true
        exact Nat.le_of_eq (by rw [List.countP_cons_of_pos confirmed, none])
      · rw [List.countP_cons_of_neg confirmed]
        exact ih later

/-- A step counts as confirmed only if it was made; what comes after it is refused. -/
theorem steps_lawful (m : Message) (moves : List (Move × Timestamp)) :
    (∀ s ∈ m.steps moves, s.Lawful) ∧
      (m.states moves).Pairwise (fun a b => a.status.rank ≤ b.status.rank) ∧
      (m.steps moves).countP Step.confirms ≤ 1 ∧
      (m.steps moves).Pairwise (fun s t => s.confirms = true → t.isRefused = true) ∧
      ∀ a b : Timestamp, -Timestamp.longestSpan ≤ (a - b : Int) ∧
        (a - b : Int) ≤ Timestamp.longestSpan :=
  ⟨fun s _ => s.lawful, pairwise_rank m moves, countP_confirms_le_one m moves,
    pairwise_confirmed m moves, Timestamp.sub_mem⟩

end Message

end SmsTracking
