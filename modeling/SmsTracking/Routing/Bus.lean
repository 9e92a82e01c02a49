import SmsTracking.Event.Envelope
import SmsTracking.Repository.Entries

/-!
A bus that hands every event to all streams. It holds the latest events only, as many as its
capacity, for all streams together. A stream gets the events that were sent after it subscribed; one
that falls behind is told how many events it has missed and goes on with the oldest that is held.
-/

namespace SmsTracking

/-- What a stream yields. -/
inductive StreamItem where
  | event (e : Envelope)
  | lagged (missed : Nat)

structure Bus where
  /-- How many events are held. -/
  capacity : Nat := 1
  /-- All events that were sent, of which the last are held. -/
  sent : List Envelope := []
  /-- For each stream, the number of events before the next one that it gets. -/
  streams : Entries String Nat := ∅

namespace Bus

/-- The largest capacity that can be asked for. -/
def maxCapacity : Nat := 9223372036854775807

/-- Room for at least so many events: a power of two. -/
def ofCapacity (n : Nat) : Except String Bus :=
  if n = 0 then .error "broadcast channel capacity cannot be zero"
  else if maxCapacity < n then .error "broadcast channel capacity exceeded \x60usize::MAX / 2\x60"
  else .ok { capacity := n.nextPowerOfTwo }

def subscribe (b : Bus) (name : String) : Bus :=
  { b with streams := (b.streams.erase name).insert name b.sent.length }

def unsubscribe (b : Bus) (name : String) : Bus := { b with streams := b.streams.erase name }

/-- An event that nobody would get is not sent. -/
def send (b : Bus) (e : Envelope) : Except DomainError Bus :=
  if b.streams.size = 0 then .error (.noSubscriber e.id)
  else .ok { b with sent := b.sent ++ [e] }

/-- The number of events that are no longer held. -/
def dropped (b : Bus) : Nat := b.sent.length - b.capacity

def advance (b : Bus) (name : String) (position : Nat) : Bus :=
  { b with streams := b.streams.insert name position }

/-- The next item of a stream, if there is one. -/
def poll (b : Bus) (name : String) : Option StreamItem × Bus :=
  match b.streams.find? name with
  | none => (none, b)
  | some position =>
    if position < b.dropped then
      (some (.lagged (b.dropped - position)), b.advance name b.dropped)
    else match b.sent[position]? with
      | some e => (some (.event e), b.advance name (position + 1))
      | none => (none, b)

/-- All items that wait for a stream. -/
def drain (b : Bus) (name : String) : List StreamItem × Bus :=
  match b.streams.find? name with
  | none => ([], b)
  | some position =>
    let lag := if position < b.dropped then [.lagged (b.dropped - position)] else []
    (lag ++ (b.sent.drop (max position b.dropped)).map .event, b.advance name b.sent.length)

end Bus

end SmsTracking
