import SmsTracking.Event.Handled
import SmsTracking.Repository.Entries
import SmsTracking.Routing.Journal
import SmsTracking.Span

/-!
Which handler has dealt with which event. A handler claims an event before it deals with it and
records it afterwards, or else releases the claim. A record stays for good. A claim is a lease: once
it has run for the time to live, another delivery may take it over.
-/

namespace SmsTracking

/-- Deliveries of one event to one handler share a key. -/
structure ListenerKey where
  eventId : String
  handler : String
deriving DecidableEq, Repr

inductive ListenerSlot where
  | inProgress (claimedAt : Instant)
  | handled (event : HandledEvent)
deriving DecidableEq

inductive Claim where
  | claimed
  | alreadyHandled
  | inProgress
deriving DecidableEq, Repr

structure ListenerLog where
  slots : Entries ListenerKey ListenerSlot := ∅
  timeToLive : Span := .ofMilliseconds 30000

namespace ListenerLog

def expired (log : ListenerLog) (claimedAt now : Instant) : Bool :=
  log.timeToLive.nanoseconds ≤ (now.since claimedAt).nanoseconds

def take (log : ListenerLog) (key : ListenerKey) (now : Instant) : ListenerLog :=
  { log with slots := log.slots.insert key (.inProgress now) }

def claim (log : ListenerLog) (key : ListenerKey) (now : Instant) : Claim × ListenerLog :=
  match log.slots.find? key with
  | none => (.claimed, log.take key now)
  | some (.handled _) => (.alreadyHandled, log)
  | some (.inProgress claimedAt) =>
    if log.expired claimedAt now then (.claimed, log.take key now) else (.inProgress, log)

/-- What is worth a line when the key is claimed: that an unfinished claim is taken over. -/
def takeover (log : ListenerLog) (key : ListenerKey) (now : Instant) : List LogLine :=
  match log.slots.find? key with
  | some (.inProgress claimedAt) =>
    if log.expired claimedAt now then
      [.warn "taking over expired listener claim"
        [("event_id", key.eventId), ("handler", key.handler)]]
    else []
  | _ => []

def keyOf (e : HandledEvent) : ListenerKey := ⟨e.eventId, e.handler⟩

/-- Whether the record is the first one of its key, which alone is kept. -/
def record (log : ListenerLog) (e : HandledEvent) : Bool × ListenerLog :=
  match log.slots.find? (keyOf e) with
  | some (.handled _) => (false, log)
  | _ => (true, { log with slots := log.slots.insert (keyOf e) (.handled e) })

/-- Gives up a claim; a record stays. -/
def release (log : ListenerLog) (key : ListenerKey) : ListenerLog :=
  match log.slots.find? key with
  | some (.inProgress _) => { log with slots := log.slots.erase key }
  | _ => log

def has (log : ListenerLog) (key : ListenerKey) : Bool :=
  match log.slots.find? key with
  | some (.handled _) => true
  | _ => false

def record? : ListenerSlot → Option HandledEvent
  | .handled e => some e
  | .inProgress _ => none

/-- All records, in the order in which their keys came in. -/
def handled (log : ListenerLog) : List HandledEvent := log.slots.values.filterMap record?

def size (log : ListenerLog) : Nat := log.handled.length

end ListenerLog

end SmsTracking
