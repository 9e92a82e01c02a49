import SmsTracking.Service.Lifecycle

/-!
Faults that a simulation puts in the way of programs. The calls at a point are counted, and a fault
strikes a range of them, perhaps only those about a message or about a type of event.
-/

namespace SmsTracking

inductive CallPoint where
  | store
  | update
  | load
  | index
  | outstanding
  | dispatch
  | claim
  | record
  | release
deriving DecidableEq, Repr

/-- A call as faults see it. -/
structure Call where
  point : CallPoint
  messageId : String := ""
  eventType : String := ""

inductive Disturbance where
  | fail (e : DomainError)
  /-- The running operation is cancelled, and the call goes on. -/
  | cancel
  /-- Who makes the call breaks off. -/
  | panic (text : String)
  | delay (milliseconds : Nat)
  | delayAfter (milliseconds : Nat)
  /-- Another one moves the message: after it was loaded, or before it is updated. -/
  | rival (move : Move)
  /-- A record is not made. -/
  | unrecorded

structure Fault where
  point : CallPoint
  disturbance : Disturbance
  /-- The first call that is struck. -/
  first : Nat := 1
  last : Option Nat := none
  messageId : Option String := none
  eventType : Option String := none

namespace CallPoint

def all : List CallPoint :=
  [store, update, load, index, outstanding, dispatch, claim, record, release]

end CallPoint

namespace Call

/-- The text under `id` in the data of an event. -/
def subject (e : Envelope) : String := ((e.data.get? "id").bind (·.string?)).getD ""

def ofRequest? : Request → Option Call
  | .store m => some { point := .store, messageId := toString m.id }
  | .update m => some { point := .update, messageId := toString m.id }
  | .load id => some { point := .load, messageId := toString id }
  | .index _ _ _ => some { point := .index }
  | .outstanding _ => some { point := .outstanding }
  | .announce e => some { point := .dispatch, messageId := subject e, eventType := e.type }
  | .claim _ => some { point := .claim }
  | .record e => some { point := .record, eventType := e.eventType }
  | .release _ => some { point := .release }
  | .publish _ | .isCancelled | .pause _ | .now | .uptime | .freshId | .write _ => none

end Call

namespace Fault

/-- Whether the fault strikes the call, which is the `count`th one at its point. -/
def strikes (f : Fault) (c : Call) (count : Nat) : Bool :=
  f.point = c.point ∧ f.first ≤ count ∧ (∀ last ∈ f.last, count ≤ last) ∧
    (∀ id ∈ f.messageId, id = c.messageId) ∧ (∀ type ∈ f.eventType, type = c.eventType)

end Fault

/-- The answer that refuses a request, if it can be refused. -/
def Request.refusal? : (r : Request) → DomainError → Option r.Answer
  | .store _, e | .release _, e | .announce _, e | .publish _, e => some (.error e)
  | .update _, e => some (.refused e)
  | .load _, e => some (.error e)
  | .index _ _ _, e | .outstanding _, e => some (.error e)
  | .claim _, e => some (.error e)
  | .record _, e => some (.error e)
  | .isCancelled, _ | .pause _, _ | .now, _ | .uptime, _ | .freshId, _ | .write _, _ => none

/-- Moves a message beside all others. -/
def rivalMove (id : Uuid) (move : Move) : Program Update := do
  match ← Program.load id with
  | .error e => pure (.refused e)
  | .ok m =>
    match move.apply m (← Program.now) with
    | .done m => Program.update m
    | .refused e => pure (.refused e)
    | .overflow _ => pure .overflow

end SmsTracking
