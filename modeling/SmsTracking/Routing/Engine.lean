import SmsTracking.Routing.Bus
import SmsTracking.Routing.Completion
import SmsTracking.Routing.Journal
import SmsTracking.Routing.Registry

/-!
An engine takes the items of a stream one after the other and runs the handlers that match. Neither
a handler that fails nor an event that was missed stops it. Several engines on one bus have a stream
each.
-/

namespace SmsTracking

namespace Registry

variable {m : Type → Type} [Monad m] [MonadJournal m]

def unhandledLine (e : Envelope) (h : Handler m) (cause : Cause) : LogLine :=
  .error "event handler failed" [("handler", h.name), ("event_id", e.id), ("event_type", e.type),
    ("error", cause.message)]

def serve (e : Envelope) (h : Handler m) : m Unit := do
  match ← h.handle e with
  | .ok () => pure ()
  | .error cause => MonadJournal.write (unhandledLine e h cause)

def laggedLine (missed : Nat) : LogLine :=
  .warn "event stream error" [("error", (DomainError.lagged missed).message)]

/-- Deals with one item. At most `limit` handlers run at the same time and `picks` says which of them
ends next. -/
def react (r : Registry m) (item : StreamItem) (limit : Nat := defaultHandlerConcurrency)
    (picks : List Nat := []) : m Unit :=
  match item with
  | .lagged missed => MonadJournal.write (laggedLine missed)
  | .event e => (completions limit picks (r.matching e.type)).forM (serve e)

end Registry

structure Engine (m : Type → Type) where
  /-- The name of its stream. -/
  name : String
  registry : Registry m
  /-- How many handlers of one event run at the same time. -/
  concurrency : Nat := defaultHandlerConcurrency

/-- A bus with engines, in the order in which they were started. -/
structure Engines (m : Type → Type) where
  bus : Bus
  running : List (Engine m) := []

namespace Engine

variable {m : Type → Type} [Monad m] [MonadJournal m]

/-- Deals with all that waits for the engine. -/
def settle (g : Engine m) (b : Bus) : m Bus := do
  let (items, b) := b.drain g.name
  items.forM fun item => g.registry.react item g.concurrency
  pure b

end Engine

namespace Engines

variable {m : Type → Type} [Monad m] [MonadJournal m]

/-- All engines, one after the other, deal with all that waits for them. -/
def settle (s : Engines m) : m (Engines m) := do
  let bus ← s.running.foldlM (fun bus g => g.settle bus) s.bus
  pure { s with bus }

/-- An engine that has stopped gets no more events. -/
def stop (s : Engines m) (name : String) : Engines m :=
  { bus := s.bus.unsubscribe name, running := s.running.filter (·.name ≠ name) }

def start (s : Engines m) (g : Engine m) : Engines m :=
  { bus := s.bus.subscribe g.name, running := s.running ++ [g] }

end Engines

end SmsTracking
