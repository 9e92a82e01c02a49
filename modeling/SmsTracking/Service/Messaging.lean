import SmsTracking.Routing.Local
import SmsTracking.Service.Config
import SmsTracking.Service.Lifecycle
import SmsTracking.Service.Params

/-!
The operations of the service that go through events: an event is dispatched, and then the message
is loaded again. Where handlers run later, the message may not be there yet, and is then looked for
again, so many times as the configuration says. A cancellation is heeded before a dispatch begins
and while the message is looked for.
-/

namespace SmsTracking

/-- How events are dispatched. -/
abbrev Transport := Envelope → Program (Except DomainError Unit)

namespace Transport

/-- An event that the transport has taken on goes to `send`. -/
def announcing (send : Transport) : Transport := fun e => do
  match ← Program.announce e with
  | .ok () => send e
  | .error reason => pure (.error reason)

/-- Handlers run in place. -/
def inPlace (r : Registry Program) (limit : Nat := defaultHandlerConcurrency)
    (picks : List Nat := []) : Transport :=
  announcing (r.dispatch limit picks)

/-- Handlers run behind the bus. -/
def onBus : Transport := announcing Program.publish

end Transport

structure Service where
  config : ServiceConfig := {}
  transport : Transport

namespace Service

def dispatch (s : Service) (messageId : Uuid) (e : Envelope) : Program (Except AppError Unit) := do
  let subject := "event " ++ bracketed e.id ++ " for message " ++ bracketed (toString messageId)
  if ← Program.isCancelled then pure (.error (.cancelled ("dispatch of " ++ subject)))
  else
    match ← s.transport e with
    | .ok () => pure (.ok ())
    | .error reason =>
      pure (.error
        (.context ("cannot dispatch " ++ bracketed e.type ++ " " ++ subject) (.domain reason)))

/-- What is answered if the message could not be loaded. -/
def unloaded (id : Uuid) (e : DomainError) : Program (Except AppError Message) :=
  pure (.error (.context ("cannot reload message " ++ bracketed (toString id)) (.domain e)))

/-- Loads a message; `missing` follows if it is not found. -/
def look (id : Uuid) (missing : DomainError → Program (Except AppError Message)) :
    Program (Except AppError Message) := do
  match ← Program.load id with
  | .ok m => pure (.ok m)
  | .error (.notFound reason) => missing (.notFound reason)
  | .error e => unloaded id e

/-- Loads a message, and as long as it is not found so many times again. -/
def reload (interval : Span) (id : Uuid) : Nat → Program (Except AppError Message)
  | 0 => look id (unloaded id)
  | attempts + 1 => look id fun _ => do
    if ← Program.pause interval then
      pure (.error (.cancelled ("reload of message " ++ bracketed (toString id))))
    else reload interval id attempts

def emit (s : Service) (source : String) (p : Payload) : Program (Except AppError Message) := do
  let id ← Program.freshId
  let e := Envelope.ofPayload id (← Program.now) source p
  match ← s.dispatch p.messageId e with
  | .ok () => reload s.config.reloadInterval p.messageId s.config.reloadAttempts.toNat
  | .error reason => pure (.error reason)

def send (s : Service) (p : SendRequest) : Program (Except AppError Message) := do
  let id ← Program.freshId
  s.emit p.source (.apiSent ⟨id, p.owner, p.contact, p.content⟩ p.requestReceivedAt)

def receive (s : Service) (p : Receipt) : Program (Except AppError Message) := do
  let id ← Program.freshId
  s.emit p.source (.phoneReceived ⟨id, p.owner, p.contact, p.content⟩ p.timestamp)

def handOut (s : Service) (source : String) (m : Message) : Program (Except AppError Message) :=
  s.emit source (.phoneSending (.ofMessage m))

/-- Takes what a phone reports about a message. Only that it was sent can be dealt with. -/
def report (s : Service) (m : Message) (p : PhoneReport) : Program (Except AppError Message) :=
  if p.messageId ≠ m.id then
    pure (.error (.validation ("event for message " ++ bracketed (toString p.messageId) ++
      " reported against message " ++ bracketed (toString m.id))))
  else match p.report with
    | .sent => s.emit p.source (.phoneSent (.ofMessage m) p.timestamp)
    | .delivered | .failed =>
      pure (.error (.validation ("cannot handle message event " ++ bracketed p.report.name ++
        " for message " ++ bracketed (toString m.id))))

def get (id : Uuid) : Program (Except AppError Message) := do
  pure (inContext ("cannot get message " ++ bracketed (toString id)) (← Program.load id))

def thread (p : ThreadQuery) : Program (Except AppError (List Message)) := do
  pure (inContext ("cannot list messages between " ++ bracketed p.owner ++ " and " ++
    bracketed p.contact) (← Program.index p.owner p.contact p.page))

end Service

end SmsTracking
