import SmsTracking.Program.World
import SmsTracking.Proofs.Stores

/-!
How a program runs in a world, request by request. Each request is answered by the world as it is
and leaves the rest of the program to the world as it has become. Most requests change neither
repository, and none lets time pass.
-/

namespace SmsTracking

/-- Asks no repository to change. -/
def Request.isQuiet : Request → Bool
  | store _ | update _ | claim _ | record _ | release _ => false
  | _ => true

namespace World

variable (a : Ambient) (w : World)

theorem publish_log (e : Envelope) : (w.publish e).2.log = w.log := by
  unfold publish
  split <;> rfl

theorem publish_uptime (e : Envelope) : (w.publish e).2.uptime = w.uptime := by
  unfold publish
  split <;> rfl

theorem answer_uptime (r : Request) : (w.answer a r).2.uptime = w.uptime := by
  cases r with
  | publish e => exact w.publish_uptime e
  | _ => rfl

theorem answer_timeToLive (r : Request) :
    (w.answer a r).2.log.timeToLive = w.log.timeToLive := by
  cases r with
  | claim key => exact w.log.timeToLive_claim w.uptime key
  | record e => exact w.log.timeToLive_record e
  | release key => exact w.log.timeToLive_release key
  | publish e => exact congrArg _ (w.publish_log e)
  | _ => rfl

theorem answer_log_of_isQuiet {r : Request} (quiet : r.isQuiet = true) :
    (w.answer a r).2.log = w.log := by
  cases r with
  | claim _ | record _ | release _ => cases quiet
  | publish e => exact w.publish_log e
  | _ => rfl

end World

namespace Program

variable {α : Type} (a : Ambient) (w : World)

@[simp]
theorem run_pure (x : α) : (pure x : Program α).run a w = (.done x, w) := rfl

@[simp]
theorem run_abort (text : String) : (abort text : Program α).run a w = (.aborted text, w) := rfl

@[simp]
theorem run_store (m : Message) (f : Except DomainError Unit → Program α) :
    (store m >>= f).run a w =
      (f (w.messages.store m).1).run a { w with messages := (w.messages.store m).2 } := rfl

@[simp]
theorem run_update (m : Message) (f : Update → Program α) :
    (update m >>= f).run a w =
      (f (w.messages.update m).1).run a { w with messages := (w.messages.update m).2 } := rfl

@[simp]
theorem run_load (id : Uuid) (f : Except DomainError Message → Program α) :
    (load id >>= f).run a w = (f (w.messages.load id)).run a w := rfl

@[simp]
theorem run_outstanding (limit : UInt64) (f : Except DomainError (List Message) → Program α) :
    (outstanding limit >>= f).run a w = (f (.ok (w.messages.outstanding limit))).run a w := rfl

@[simp]
theorem run_claim (key : ListenerKey) (f : Except DomainError Claim → Program α) :
    (claim key >>= f).run a w =
      (f (.ok (w.log.claim key w.uptime).1)).run a
        { w with
          log := (w.log.claim key w.uptime).2
          lines := w.lines ++ w.log.takeover key w.uptime } := rfl

@[simp]
theorem run_record (e : HandledEvent) (f : Except DomainError Bool → Program α) :
    (record e >>= f).run a w =
      (f (.ok (w.log.record e).1)).run a { w with log := (w.log.record e).2 } := rfl

@[simp]
theorem run_release (key : ListenerKey) (f : Except DomainError Unit → Program α) :
    (release key >>= f).run a w =
      (f (.ok ())).run a { w with log := w.log.release key } := rfl

@[simp]
theorem run_announce (e : Envelope) (f : Except DomainError Unit → Program α) :
    (announce e >>= f).run a w =
      (f (.ok ())).run a { w with announced := w.announced ++ [e] } := rfl

@[simp]
theorem run_isCancelled (f : Bool → Program α) :
    (isCancelled >>= f).run a w = (f w.cancelled).run a w := rfl

@[simp]
theorem run_pause (s : Span) (f : Bool → Program α) :
    (pause s >>= f).run a w = (f w.cancelled).run a w := rfl

@[simp]
theorem run_now (f : Timestamp → Program α) :
    (now >>= f).run a w =
      (f (a.clock w.readings)).run a { w with readings := w.readings + 1 } := rfl

@[simp]
theorem run_uptime (f : Instant → Program α) :
    (uptime >>= f).run a w = (f w.uptime).run a w := rfl

@[simp]
theorem run_freshId (f : Uuid → Program α) :
    (freshId >>= f).run a w = (f (a.ids w.draws)).run a { w with draws := w.draws + 1 } := rfl

end Program

end SmsTracking
