import SmsTracking.Routing.Registry
import SmsTracking.Service.Lifecycle

/-!
The listener deals with events about messages, with one handler for each kind. A handler claims the
event, applies it and records it, so that a redelivery has no effect. If it cannot apply or record
the event it gives up the claim, so that a redelivery starts anew.
-/

namespace SmsTracking

namespace Listener

/-- The handler of a kind, as it is known in the log. -/
def signature (k : EventKind) : String := "MessageListener." ++ k.name

def keyOf (k : EventKind) (e : Envelope) : ListenerKey := ⟨e.id, signature k⟩

/-- The message that a payload creates. -/
def newMessage (sms : Sms) (time : Timestamp) : NewMessage :=
  ⟨sms.id, sms.owner, sms.contact, sms.content, time⟩

/-- The operation that an event stands for. The time of an attempt is the time of its event. -/
def operation (retries : Nat) (e : Envelope) : Payload → Program (Except AppError Message)
  | .apiSent sms time => Lifecycle.storeSent (newMessage sms time)
  | .phoneSending sms => Lifecycle.transition sms.id (.attempt e.time) retries
  | .phoneSent sms time => Lifecycle.transition sms.id (.confirm time) retries
  | .phoneReceived sms time => Lifecycle.storeReceived (newMessage sms time)

def apply (retries : Nat) (k : EventKind) (e : Envelope) : Program (Except AppError Message) :=
  match e.payloadAs k with
  | .ok p => operation retries e p
  | .error reason => pure (.error (.decode reason.message))

/-- Gives up a claim. If that fails, the claim stays until it expires. -/
def release (key : ListenerKey) : Program Unit := do
  match ← Program.release key with
  | .ok () => pure ()
  | .error e =>
    MonadJournal.write (.error "cannot release listener claim" [("error", e.message)])

def eventAndHandler (key : ListenerKey) : String :=
  "event " ++ bracketed key.eventId ++ " and handler " ++ bracketed key.handler

/-- Whole milliseconds, as far as they can be written. -/
def duration (s : Span) : Int64 := .ofNat (min s.milliseconds 9223372036854775807)

/-- The record of an event that was handled since `started`. -/
def handled (key : ListenerKey) (e : Envelope) (started : Instant) : Program HandledEvent := do
  let finished ← Program.uptime
  let handledAt ← Program.now
  let id ← Program.freshId
  let createdAt ← Program.now
  pure
    { id, eventId := e.id, eventType := e.type, handler := key.handler
      durationMs := duration (finished.since started), handledAt, createdAt }

/-- Records an event that was applied. -/
def complete (key : ListenerKey) (e : Envelope) (started : Instant) :
    Program (Except AppError Unit) := do
  match ← Program.record (← handled key e started) with
  | .ok true => pure (.ok ())
  | .ok false =>
    MonadJournal.write (.warn "listener log entry already existed")
    pure (.ok ())
  | .error reason =>
    release key
    pure (.error
      (.context ("cannot store listener log for " ++ eventAndHandler key) (.domain reason)))

/-- Deals with a claimed event. -/
def perform (retries : Nat) (k : EventKind) (e : Envelope) : Program (Except AppError Unit) := do
  let key := keyOf k e
  let started ← Program.uptime
  match ← apply retries k e with
  | .ok _ => complete key e started
  | .error reason =>
    release key
    pure (.error
      (.context (bracketed key.handler ++ " cannot handle event " ++ bracketed e.id) reason))

/-- Deals with an event of a kind. -/
def handle (retries : Nat) (k : EventKind) (e : Envelope) : Program (Except AppError Unit) := do
  let key := keyOf k e
  match ← Program.claim key with
  | .ok .claimed => perform retries k e
  | .ok .alreadyHandled => pure (.ok ())
  | .ok .inProgress =>
    pure (.error (.conflict
      ("event " ++ bracketed e.id ++ " is already being handled by " ++ bracketed key.handler)))
  | .error reason =>
    pure (.error (.context ("cannot check listener log for " ++ eventAndHandler key)
      (.domain reason)))

/-- Deals with an event of the kind that its type names. -/
def handleEvent (retries : Nat) (e : Envelope) : Program (Except AppError Unit) :=
  match EventKind.ofName? e.type with
  | some k => handle retries k e
  | none =>
    pure (.error (.decode
      ("event " ++ bracketed e.id ++ ": " ++ (DomainError.unknownEventType e.type).message)))

def handler (retries : Nat) (k : EventKind) : Handler Program where
  name := signature k
  interest := .one k.name
  handle e := do
    match ← handle retries k e with
    | .ok () => pure (.ok ())
    | .error reason => pure (.error (.app reason))

/-- One handler for each kind. -/
def handlers (retries : Nat) : List (Handler Program) := EventKind.all.map (handler retries)

end Listener

end SmsTracking
