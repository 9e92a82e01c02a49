import SmsTracking.Routing.Completion
import SmsTracking.Routing.Journal
import SmsTracking.Routing.Registry

/-!
Dispatch in place: an event has been handled when its dispatch ends. Every handler that matches
runs, whatever becomes of the others, and the first failure is the answer.
-/

namespace SmsTracking

namespace Registry

variable {m : Type → Type} [Monad m] [MonadJournal m]

/-- Runs a handler, and tells how it failed. -/
def attempt (e : Envelope) (h : Handler m) : m (Option DomainError) := do
  match ← h.handle e with
  | .ok () => pure none
  | .error cause => pure (some (.eventHandler h.name e.id cause))

def failureLine (e : Envelope) (failure : DomainError) : LogLine :=
  .warn "event handler failed" [("event_id", e.id), ("error", failure.message)]

/-- The answer to the failures, which stand in the order in which they came. -/
def conclude (e : Envelope) (failures : List DomainError) : m (Except DomainError Unit) := do
  failures.forM fun failure => MonadJournal.write (failureLine e failure)
  match failures with
  | [] => pure (.ok ())
  | failure :: _ => pure (.error failure)

/-- At most `limit` handlers run at the same time and `picks` says which of them ends next. -/
def dispatch (r : Registry m) (limit : Nat) (picks : List Nat) (e : Envelope) :
    m (Except DomainError Unit) := do
  let outcomes ← (completions limit picks (r.matching e.type)).mapM (attempt e)
  conclude e (outcomes.filterMap id)

end Registry

end SmsTracking
