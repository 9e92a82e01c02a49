import SmsTracking.Proofs.Bounded
import SmsTracking.Proofs.Emissions

/-!
How many requests a worker makes at most, whatever it is answered. Main statement: the number
depends on the configuration alone (`work_endsWithin`).
-/

namespace SmsTracking

namespace Program

variable {α β : Type} {n m : Nat}

theorem EndsWithin.mono {p : Program α} (ends : p.EndsWithin n) (more : n ≤ m) :
    p.EndsWithin m := by
  induction p generalizing n m with
  | done x => exact .done x m
  | abort text => exact .abort text m
  | ask r next ih =>
      cases n with
      | zero => exact ends.elim
      | succ n =>
          cases m with
          | zero => omega
          | succ m => exact fun answer => ih answer (ends answer) (by omega)

theorem EndsWithin.bind {p : Program α} {f : α → Program β} (ends : p.EndsWithin n)
    (rest : ∀ x, (f x).EndsWithin m) : (p >>= f).EndsWithin (n + m) := by
  induction p generalizing n with
  | done x => exact (rest x).mono (Nat.le_add_left m n)
  | abort text => exact .abort text (n + m)
  | ask r next ih =>
      cases n with
      | zero => exact ends.elim
      | succ n =>
          rw [Nat.add_right_comm]
          exact fun answer => ih answer (ends answer)

theorem EndsWithin.attempt {p : Program α} (ends : p.EndsWithin n) :
    p.attempt.EndsWithin n := by
  induction p generalizing n with
  | done x => exact .done _ n
  | abort text => exact .done _ n
  | ask r next ih =>
      cases n with
      | zero => exact ends.elim
      | succ n => exact fun answer => ih answer (ends answer)

/-- One request and what follows it. -/
theorem EndsWithin.request {r : Request} {f : r.Answer → Program α}
    (rest : ∀ answer, (f answer).EndsWithin n) : (Program.request r >>= f).EndsWithin (n + 1) :=
  rest

end Program

open Program (EndsWithin)

namespace Listener

theorem release_endsWithin (key : ListenerKey) : (release key).EndsWithin 2 := by
  refine .request fun answer => ?_
  cases answer with
  | ok => exact .done _ _
  | error e => exact .request fun _ => .done _ 0

theorem operation_endsWithin (retries : Nat) (e : Envelope) (p : Payload) :
    (operation retries e p).EndsWithin (3 * (retries + 1)) := by
  have stores : ∀ direction new, (Lifecycle.store direction new).EndsWithin 3 := by
    intro direction new
    refine .request fun now => .request fun answer => ?_
    cases answer <;> exact .done _ _
  cases p with
  | apiSent => exact (stores _ _).mono (by omega)
  | phoneReceived => exact (stores _ _).mono (by omega)
  | phoneSending => exact Lifecycle.transition_endsWithin ..
  | phoneSent => exact Lifecycle.transition_endsWithin ..

theorem complete_endsWithin (key : ListenerKey) (e : Envelope) (started : Instant) :
    (complete key e started).EndsWithin 7 := by
  refine .request fun finished => .request fun handledAt => .request fun id =>
    .request fun createdAt => .request fun answer => ?_
  match answer with
  | .ok true => exact .done _ _
  | .ok false => exact .request fun _ => .done _ _
  | .error reason => exact (release_endsWithin key).bind (m := 0) fun _ => .done _ _

theorem handle_endsWithin (retries : Nat) (k : EventKind) (e : Envelope) :
    (handle retries k e).EndsWithin (3 * (retries + 1) + 9) := by
  have applies : (apply retries k e).EndsWithin (3 * (retries + 1)) := by
    unfold apply
    split
    · exact operation_endsWithin ..
    · exact .done _ _
  refine .request fun answer => ?_
  match answer with
  | .ok .claimed =>
      refine .request fun started => applies.bind fun tried => ?_
      cases tried with
      | ok m => exact complete_endsWithin _ e started
      | error reason =>
          exact ((release_endsWithin _).bind (m := 0) fun _ => .done _ _).mono (by omega)
  | .ok .alreadyHandled => exact .done _ _
  | .ok .inProgress => exact .done _ _
  | .error reason => exact .done _ _

end Listener

namespace Service

theorem transport_endsWithin (config : ServiceConfig) (k : EventKind) {e : Envelope}
    (kind : e.type = k.name) :
    ((inPlace config).transport e).EndsWithin (3 * config.updateRetries.toNat + 14) := by
  have dispatches : ((Registry.ofList (Listener.handlers config.updateRetries.toNat)).dispatch
      defaultHandlerConcurrency [] e).EndsWithin
        (3 * (config.updateRetries.toNat + 1) + 9 + 1) := by
    rw [Listener.dispatch_handlers kind]
    refine (Listener.handle_endsWithin _ k e).bind fun answer => ?_
    cases answer with
    | ok => exact .done _ _
    | error reason => exact .request fun _ => .done _ _
  have ends : ((inPlace config).transport e).EndsWithin
      (3 * (config.updateRetries.toNat + 1) + 9 + 1 + 1) := by
    refine .request fun answer => ?_
    cases answer with
    | ok => exact dispatches
    | error reason => exact .done _ _
  exact ends.mono (by omega)

theorem look_endsWithin (id : Uuid) {missing : DomainError → Program (Except AppError Message)}
    {n : Nat} (rest : ∀ e, (missing e).EndsWithin n) : (look id missing).EndsWithin (n + 1) := by
  refine .request fun answer => ?_
  match answer with
  | .ok m => exact .done _ _
  | .error e =>
      cases e with
      | notFound reason => exact rest _
      | _ => exact .done _ _

theorem reload_endsWithin (interval : Span) (id : Uuid) (attempts : Nat) :
    (reload interval id attempts).EndsWithin (2 * attempts + 1) := by
  induction attempts with
  | zero => exact look_endsWithin id fun _ => .done _ 0
  | succ attempts ih =>
      refine (look_endsWithin id fun _ => ?_).mono (Nat.le_refl (2 * attempts + 2 + 1))
      refine .request fun cancelled => ?_
      cases cancelled with
      | true => exact .done _ _
      | false => exact ih

theorem emit_endsWithin (config : ServiceConfig) (source : String) (p : Payload) :
    ((inPlace config).emit source p).EndsWithin
      (3 * config.updateRetries.toNat + 2 * config.reloadAttempts.toNat + 18) := by
  have dispatches : ∀ (id : Uuid) (time : Timestamp),
      ((inPlace config).dispatch p.messageId (.ofPayload id time source p)).EndsWithin
        (3 * config.updateRetries.toNat + 15) := by
    intro id time
    refine .request fun cancelled => ?_
    cases cancelled with
    | true => exact .done _ _
    | false =>
        refine ((transport_endsWithin config p.kind rfl).bind (m := 0) fun answer => ?_)
        cases answer <;> exact .done _ _
  have ends : ((inPlace config).emit source p).EndsWithin
      (3 * config.updateRetries.toNat + 15 + (2 * config.reloadAttempts.toNat + 1) + 1 + 1) := by
    refine .request fun id => .request fun time => (dispatches id time).bind fun answer => ?_
    cases answer with
    | ok => exact reload_endsWithin ..
    | error reason => exact .done _ _
  exact ends.mono (by omega)

end Service

namespace Batch

/-- The most turns that a worker needs. -/
def turns (config : ServiceConfig) : Nat :=
  3 * config.updateRetries.toNat + 2 * config.reloadAttempts.toNat + 19

theorem work_endsWithin (config : ServiceConfig) (source : String) (job : Message × Nat) :
    (work (.inPlace config) source job).EndsWithin (turns config) := by
  have notes : ∀ e : WorkerEnd, e.note.EndsWithin 1 := by
    intro e
    cases e with
    | died number text => exact .request fun _ => .done _ _
    | answered id answer =>
        cases answer with
        | ok m => exact .done _ _
        | error reason =>
            simp only [WorkerEnd.note, WorkerEnd.lines]
            split
            · exact .done _ _
            · exact .request fun _ => .done _ _
  exact (Service.emit_endsWithin config source _).attempt.bind (m := 1) fun outcome => notes _

end Batch

end SmsTracking
