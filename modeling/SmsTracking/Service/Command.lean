import SmsTracking.Service.Batch

/-!
All that can be asked of the service and of its listener, as data. A command comes to a reply, or to
a batch whose messages make the reply; run by itself, a batch is handed out one message at a time.
-/

namespace SmsTracking

inductive Command where
  | storeSent (p : NewMessage)
  | storeReceived (p : NewMessage)
  | move (id : Uuid) (move : Move)
  | send (p : SendRequest)
  | receive (p : Receipt)
  | report (m : Message) (p : PhoneReport)
  | handOut (source : String) (m : Message)
  | poll (p : Poll)
  | process (b : Batch)
  | get (id : Uuid)
  | thread (p : ThreadQuery)
  /-- The listener gets an event. -/
  | deliver (e : Envelope)
  /-- The transport gets an event. -/
  | dispatch (e : Envelope)

inductive Reply where
  | message (m : Message)
  | thread (ms : List Message)
  /-- The messages of a batch, in the order in which they were handed out. -/
  | batch (ms : List Message)
  | nothing
  | failed (e : AppError)
  /-- The transport has failed. -/
  | undelivered (e : DomainError)

/-- What a command comes to: an answer, or a batch whose messages make the answer. -/
inductive Stage (β : Type) where
  | answer (b : β)
  | batch (b : Batch) (finish : List Message → β)

/-- The answer; a batch is handed out for it. -/
def Stage.finish {β : Type} (s : Service) (picks : List Nat) : Stage β → Program β
  | .answer b => pure b
  | .batch b finish => return finish (← b.process s picks)

namespace Reply

def of {α : Type} (reply : α → Reply) : Except AppError α → Reply
  | .ok a => reply a
  | .error e => .failed e

end Reply

namespace Command

def replying {α : Type} (reply : α → Reply) (p : Program (Except AppError α)) :
    Program (Stage Reply) :=
  (fun a => .answer (.of reply a)) <$> p

def handing (b : Batch) : Program (Stage Reply) := do
  b.begin
  pure (.batch b .batch)

def polling (s : Service) (p : Poll) : Program (Stage Reply) := do
  match ← s.poll p with
  | .error e => pure (.answer (.failed e))
  | .ok none => pure (.answer (.batch []))
  | .ok (some b) => handing b

def dispatching (s : Service) (e : Envelope) : Program (Stage Reply) := do
  match ← s.transport e with
  | .ok () => pure (.answer .nothing)
  | .error e => pure (.answer (.undelivered e))

/-- The command up to its reply or its batch. -/
def stage (s : Service) : Command → Program (Stage Reply)
  | storeSent p => replying .message (Lifecycle.storeSent p)
  | storeReceived p => replying .message (Lifecycle.storeReceived p)
  | .move id step =>
    replying .message (Lifecycle.transition id step s.config.updateRetries.toNat)
  | send p => replying .message (s.send p)
  | receive p => replying .message (s.receive p)
  | report m p => replying .message (s.report m p)
  | handOut source m => replying .message (s.handOut source m)
  | poll p => polling s p
  | process b => handing b
  | get id => replying .message (Service.get id)
  | thread p => replying .thread (Service.thread p)
  | deliver e =>
    replying (fun _ => .nothing) (Listener.handleEvent s.config.updateRetries.toNat e)
  | dispatch e => dispatching s e

def program (s : Service) (picks : List Nat) (c : Command) : Program Reply := do
  (← c.stage s).finish s picks

end Command

end SmsTracking
