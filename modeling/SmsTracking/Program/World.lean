import SmsTracking.Program.Basic
import SmsTracking.Routing.Bus

/-!
A world in which programs run: the repositories, the bus and what has happened. No request is
refused without a reason in the repositories, and no time passes while a program runs. Main
statement: a sequence of programs runs as one after the other (`run_bind`).
-/

namespace SmsTracking

/-- The readings of the clock and the new identifiers, in the order in which they are asked for. -/
structure Ambient where
  clock : Nat → Timestamp
  ids : Nat → Uuid

structure World where
  messages : MessageStore := ∅
  log : ListenerLog := {}
  bus : Bus := {}
  /-- All events that were handed to the transport. -/
  announced : List Envelope := []
  lines : List LogLine := []
  uptime : Instant := ⟨0⟩
  /-- How often the clock was read. -/
  readings : Nat := 0
  /-- How many identifiers were drawn. -/
  draws : Nat := 0
  cancelled : Bool := false

namespace World

def publish (w : World) (e : Envelope) : Except DomainError Unit × World :=
  match w.bus.send e with
  | .ok bus => (.ok (), { w with bus })
  | .error reason => (.error reason, w)

def answer (a : Ambient) (w : World) : (r : Request) → r.Answer × World
  | .store m => ((w.messages.store m).1, { w with messages := (w.messages.store m).2 })
  | .update m => ((w.messages.update m).1, { w with messages := (w.messages.update m).2 })
  | .load id => (w.messages.load id, w)
  | .index owner contact page => (.ok (w.messages.index owner contact page), w)
  | .outstanding limit => (.ok (w.messages.outstanding limit), w)
  | .claim key =>
    (.ok (w.log.claim key w.uptime).1,
      { w with
        log := (w.log.claim key w.uptime).2
        lines := w.lines ++ w.log.takeover key w.uptime })
  | .record e => (.ok (w.log.record e).1, { w with log := (w.log.record e).2 })
  | .release key => (.ok (), { w with log := w.log.release key })
  | .announce e => (.ok (), { w with announced := w.announced ++ [e] })
  | .publish e => w.publish e
  | .isCancelled | .pause _ => (w.cancelled, w)
  | .now => (a.clock w.readings, { w with readings := w.readings + 1 })
  | .uptime => (w.uptime, w)
  | .freshId => (a.ids w.draws, { w with draws := w.draws + 1 })
  | .write line => ((), { w with lines := w.lines ++ [line] })

end World

namespace Program

variable {α β : Type}

def run (a : Ambient) : Program α → World → Outcome α × World
  | done x, w => (.done x, w)
  | abort text, w => (.aborted text, w)
  | ask r next, w => (next (w.answer a r).1).run a (w.answer a r).2

theorem run_bind (a : Ambient) (p : Program α) (f : α → Program β) (w : World) :
    (p >>= f).run a w =
      match p.run a w with
      | (.done x, w) => (f x).run a w
      | (.aborted text, w) => (.aborted text, w) := by
  induction p generalizing w with
  | done | abort => rfl
  | ask r next ih => exact ih _ _

end Program

end SmsTracking
