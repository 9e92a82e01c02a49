import SmsTracking.Proofs.Moves
import SmsTracking.Proofs.Runs
import SmsTracking.Proofs.Stores
import SmsTracking.Service.Listener

/-!
What an operation does to one message, apart from the program that does it: it creates the message
or moves it. Main statement: a deed that runs by itself answers as its effect says, writes the
message it answers with, and touches nothing else but the clock (`run_program`).
-/

namespace SmsTracking

inductive Deed where
  | create (direction : Direction) (d : NewMessage)
  | move (id : Uuid) (move : Move)
deriving DecidableEq

@[simp]
theorem Message.created_id (direction : Direction) (d : NewMessage) (now : Timestamp) :
    (created direction d now).id = d.id := by
  cases direction <;> rfl

namespace Deed

def messageId : Deed → Uuid
  | create _ d => d.id
  | move id _ => id

def program (retries : Nat) : Deed → Program (Except AppError Message)
  | create direction d => Lifecycle.store direction d
  | move id step => Lifecycle.transition id step retries

/-- The answer to a deed that nobody interferes with. -/
def effect (s : MessageStore) (now : Timestamp) : Deed → Outcome (Except AppError Message)
  | create direction d =>
      match s.find? d.id with
      | some _ =>
          .done (.error (.context (Lifecycle.storeContext direction d.id) (.domain (.messageExists d.id))))
      | none => .done (.ok (.created direction d now))
  | move id step =>
      match s.find? id with
      | none => .done (.error (.context (Lifecycle.loadContext id step) (.domain (.noMessage id))))
      | some m =>
          match step.apply m now with
          | .done m' => .done (.ok m')
          | .refused e => .done (.error (.context (Lifecycle.applyContext id step) (.domain e)))
          | .overflow _ => .aborted counterOverflow

end Deed

/-- The store after an operation that has written the message it answers with. -/
def MessageStore.after (s : MessageStore) : Outcome (Except AppError Message) → MessageStore
  | .done (.ok m) => s.put m
  | .done (.error _) | .aborted _ => s

namespace Deed

variable {s : MessageStore} (now : Timestamp)

theorem effect_create_of_vacant {d : NewMessage} (direction : Direction)
    (h : s.find? d.id = none) :
    (create direction d).effect s now = .done (.ok (.created direction d now)) := by
  simp only [effect, h]

theorem effect_create_of_present {d : NewMessage} {m : Message} (direction : Direction)
    (h : s.find? d.id = some m) :
    (create direction d).effect s now =
      .done (.error
        (.context (Lifecycle.storeContext direction d.id) (.domain (.messageExists d.id)))) := by
  simp only [effect, h]

theorem effect_move_of_vacant {id : Uuid} (step : Move) (h : s.find? id = none) :
    (move id step).effect s now =
      .done (.error (.context (Lifecycle.loadContext id step) (.domain (.noMessage id)))) := by
  simp only [effect, h]

theorem effect_move_of_not_allowed {id : Uuid} {m : Message} {step : Move}
    (h : s.find? id = some m) (refused : m.status ∉ step.allowed) :
    (move id step).effect s now =
      .done (.error (.context (Lifecycle.applyContext id step)
        (.domain (.wrongStatus m.id m.status step.allowed)))) := by
  simp only [effect, h, Move.apply_of_not_allowed refused now]

theorem effect_move_of_hasRoom {id : Uuid} {m : Message} {step : Move}
    (h : s.find? id = some m) (allowed : m.status ∈ step.allowed) (room : step.HasRoom m) :
    (move id step).effect s now = .done (.ok (step.result m now)) := by
  simp only [effect, h, Move.apply_of_hasRoom allowed room now]

theorem effect_move_of_not_hasRoom {id : Uuid} {m : Message} {step : Move}
    (h : s.find? id = some m) (allowed : m.status ∈ step.allowed) (full : ¬ step.HasRoom m) :
    (move id step).effect s now = .aborted counterOverflow := by
  obtain ⟨m', e⟩ := Move.apply_of_not_hasRoom allowed full now
  simp only [effect, h, e]

/-- What a deed meets, and its answer. -/
inductive Answered (s : MessageStore) (now : Timestamp) :
    Deed → Outcome (Except AppError Message) → Prop
  | created {direction : Direction} {d : NewMessage} (vacant : s.find? d.id = none) :
      Answered s now (.create direction d) (.done (.ok (.created direction d now)))
  | present {direction : Direction} {d : NewMessage} {m : Message} (found : s.find? d.id = some m) :
      Answered s now (.create direction d) (.done (.error
        (.context (Lifecycle.storeContext direction d.id) (.domain (.messageExists d.id)))))
  | missing {id : Uuid} {step : Move} (vacant : s.find? id = none) :
      Answered s now (.move id step)
        (.done (.error (.context (Lifecycle.loadContext id step) (.domain (.noMessage id)))))
  | refused {id : Uuid} {step : Move} {m : Message} (found : s.find? id = some m)
      (refused : m.status ∉ step.allowed) :
      Answered s now (.move id step) (.done (.error (.context (Lifecycle.applyContext id step)
        (.domain (.wrongStatus m.id m.status step.allowed)))))
  | moved {id : Uuid} {step : Move} {m : Message} (found : s.find? id = some m)
      (allowed : m.status ∈ step.allowed) (room : step.HasRoom m) :
      Answered s now (.move id step) (.done (.ok (step.result m now)))
  | broken {id : Uuid} {step : Move} {m : Message} (found : s.find? id = some m)
      (allowed : m.status ∈ step.allowed) (full : ¬ step.HasRoom m) :
      Answered s now (.move id step) (.aborted counterOverflow)

theorem answered_effect (s : MessageStore) (now : Timestamp) (d : Deed) :
    Answered s now d (d.effect s now) := by
  cases d with
  | create direction d =>
      cases found : s.find? d.id with
      | none =>
          rw [effect_create_of_vacant now direction found]
          exact .created found
      | some m =>
          rw [effect_create_of_present now direction found]
          exact .present found
  | move id step =>
      cases found : s.find? id with
      | none =>
          rw [effect_move_of_vacant now step found]
          exact .missing found
      | some m =>
          by_cases allowed : m.status ∈ step.allowed
          · by_cases room : step.HasRoom m
            · rw [effect_move_of_hasRoom now found allowed room]
              exact .moved found allowed room
            · rw [effect_move_of_not_hasRoom now found allowed room]
              exact .broken found allowed room
          · rw [effect_move_of_not_allowed now found allowed]
            exact .refused found allowed

/-- No counter of the message is at its end, if it is one that the deed would move. -/
def HasRoom (s : MessageStore) : Deed → Prop
  | create _ _ => True
  | move id step => ∀ m, s.find? id = some m → m.status ∈ step.allowed → step.HasRoom m

theorem HasRoom.effect_ne_aborted {d : Deed} (room : d.HasRoom s) (now : Timestamp)
    (text : String) : d.effect s now ≠ .aborted text := by
  intro aborted
  have answered := answered_effect s now d
  rw [aborted] at answered
  cases answered with
  | broken found allowed full => exact full (room _ found allowed)

end Deed

namespace Lifecycle

theorem run_store (a : Ambient) (direction : Direction) (d : NewMessage) (w : World) :
    (store direction d).run a w =
      let effect := (Deed.create direction d).effect w.messages (a.clock w.readings)
      (effect, { w with messages := w.messages.after effect, readings := w.readings + 1 }) := by
  simp only [store, Program.run_now, Program.run_store]
  have named := Message.created_id direction d (a.clock w.readings)
  cases h : w.messages.find? d.id with
  | none =>
      rw [Deed.effect_create_of_vacant _ _ h]
      simp only [MessageStore.store_of_vacant (named ▸ h)]
      rfl
  | some n =>
      rw [Deed.effect_create_of_present _ _ h, ← named]
      simp only [MessageStore.store_of_present (named ▸ h)]
      rfl

/-- Without others at work the version that was loaded is still there when it is written, whatever
would follow a conflict. -/
theorem run_tryMove (a : Ambient) (id : Uuid) (move : Move)
    (conflicted : DomainError → Program (Except AppError Message)) (w : World) :
    ∃ readings, (tryMove id move conflicted).run a w =
      let effect := (Deed.move id move).effect w.messages (a.clock w.readings)
      (effect, { w with messages := w.messages.after effect, readings }) := by
  simp only [tryMove, Program.run_load]
  cases h : w.messages.find? id with
  | none =>
      refine ⟨w.readings, ?_⟩
      rw [Deed.effect_move_of_vacant _ move h]
      simp only [MessageStore.load_of_vacant h]
      rfl
  | some m =>
      refine ⟨w.readings + 1, ?_⟩
      simp only [MessageStore.load_of_find? h, Program.run_now]
      rcases move.apply_cases m (a.clock w.readings) with
        ⟨refused, e⟩ | ⟨allowed, room, e⟩ | ⟨allowed, full, m', e⟩
      · rw [Deed.effect_move_of_not_allowed _ h refused]
        simp only [e]
        rfl
      · have found : w.messages.find? (move.result m (a.clock w.readings)).id = some m := by
          rw [Move.result_id, MessageStore.id_of_find? h, h]
        have written := MessageStore.update_of_successor found room.version
          (move.result_version m _).symm
        rw [Deed.effect_move_of_hasRoom _ h allowed room]
        simp only [e, Program.run_update, written]
        rfl
      · rw [Deed.effect_move_of_not_hasRoom _ h allowed full]
        simp only [e]
        rfl

theorem run_transition (a : Ambient) (id : Uuid) (move : Move) (retries : Nat) (w : World) :
    ∃ readings, (transition id move retries).run a w =
      let effect := (Deed.move id move).effect w.messages (a.clock w.readings)
      (effect, { w with messages := w.messages.after effect, readings }) := by
  cases retries <;> exact run_tryMove a id move _ w

end Lifecycle

namespace Deed

theorem run_program (a : Ambient) (retries : Nat) (d : Deed) (w : World) :
    ∃ readings, (d.program retries).run a w =
      let effect := d.effect w.messages (a.clock w.readings)
      (effect, { w with messages := w.messages.after effect, readings }) := by
  match d with
  | create direction d => exact ⟨_, Lifecycle.run_store a direction d w⟩
  | move id step => exact Lifecycle.run_transition a id step retries w

/-- On what is stored under its identifier the deed can be done, and makes it this message. -/
def Makes (now : Timestamp) : Deed → Option Message → Message → Prop
  | create direction d, before, m => before = none ∧ m = .created direction d now
  | move _ step, before, m => ∃ n, before = some n ∧ step.apply n now = .done m

theorem effect_eq_ok_iff {s : MessageStore} {now : Timestamp} {d : Deed} {m : Message} :
    d.effect s now = .done (.ok m) ↔ d.Makes now (s.find? d.messageId) m := by
  cases d with
  | create direction d =>
      cases found : s.find? d.id with
      | none =>
          rw [effect_create_of_vacant _ _ found, Makes, messageId, found]
          constructor
          · rintro ⟨rfl⟩
            exact ⟨rfl, rfl⟩
          · rintro ⟨_, rfl⟩
            rfl
      | some n =>
          rw [effect_create_of_present _ _ found, Makes, messageId, found]
          constructor
          · intro h
            cases h
          · rintro ⟨h, _⟩
            cases h
  | move id step =>
      simp only [effect, Makes, messageId]
      cases found : s.find? id with
      | none => simp
      | some n => cases e : step.apply n now <;> simp [e]

/-- An operation answers with the message that it stands for. -/
theorem id_of_makes {s : MessageStore} {now : Timestamp} {d : Deed} {m : Message}
    (h : d.Makes now (s.find? d.messageId) m) : m.id = d.messageId := by
  cases d with
  | create direction d =>
      obtain ⟨_, rfl⟩ := h
      exact Message.created_id ..
  | move id step =>
      obtain ⟨n, found, done⟩ := h
      obtain ⟨_, _, rfl⟩ := Move.apply_eq_done_iff.mp done
      rw [Move.result_id, MessageStore.id_of_find? found]

end Deed

end SmsTracking
