import SmsTracking.Message.Status

/-!
Errors of two layers. A `DomainError` arises in the model of messages, in repositories and on the
way of an event; an `AppError` is what an operation of the service answers, with the context in
which it happened. A `Cause` is the failure of a handler, of which the way of an event knows only
that it can be shown and that it may hold an error of one of the two layers.
-/

namespace SmsTracking

mutual

inductive DomainError where
  | serialization (e : Json.Error)
  | parse (reason : String)
  | decode (eventId eventType reason : String)
  | eventBus (reason : String)
  | eventHandler (handler eventId : String) (source : Cause)
  | repository (reason : String)
  | conflict (reason : String)
  | notFound (reason : String)
  | versionConflict (id : Uuid) (expected actual : UInt64)
  | invalidState (id : Uuid) (actual : Status) (expected : String)

inductive AppError where
  | domain (e : DomainError)
  | validation (reason : String)
  | decode (reason : String)
  | conflict (reason : String)
  | cancelled (reason : String)
  | context (text : String) (source : AppError)

inductive Cause where
  | text (text : String)
  | context (text : String) (source : Cause)
  | domain (e : DomainError)
  | app (e : AppError)

end

def bracketed (s : String) : String := "[" ++ s ++ "]"

/-! What an error says, and what the errors below it say -/

def joined (texts : List String) : String := String.intercalate ": " texts

mutual

def DomainError.message : DomainError → String
  | .serialization e => "serialization error: " ++ e.message
  | .parse reason => "parse error: " ++ reason
  | .decode eventId eventType reason =>
    "cannot decode event " ++ bracketed eventId ++ " of type " ++ bracketed eventType ++ ": " ++ reason
  | .eventBus reason => "event bus error: " ++ reason
  | .eventHandler handler eventId source =>
    "event handler error: handler=" ++ handler ++ ", event=" ++ eventId ++ ": " ++
      joined source.chain
  | .repository reason => "repository error: " ++ reason
  | .conflict reason => "conflict: " ++ reason
  | .notFound reason => "not found: " ++ reason
  | .versionConflict id expected actual =>
    "version conflict on message " ++ bracketed (toString id) ++ ": expected=" ++
      toString expected.toNat ++ ", actual=" ++ toString actual.toNat
  | .invalidState id actual expected =>
    "message " ++ bracketed (toString id) ++ " has wrong status " ++ bracketed actual.name ++
      ". expected " ++ expected

def DomainError.sources : DomainError → List String
  | .serialization e => [e.message]
  | .eventHandler _ _ source => source.chain
  | _ => []

def AppError.message : AppError → String
  | .domain e => "domain: " ++ e.message
  | .validation reason => "validation: " ++ reason
  | .decode reason => "decode: " ++ reason
  | .conflict reason => "conflict: " ++ reason
  | .cancelled reason => "cancelled: " ++ reason
  | .context text source => text ++ ": " ++ source.message

def AppError.sources : AppError → List String
  | .domain e => e.message :: e.sources
  | .context _ source => source.message :: source.sources
  | _ => []

/-- The texts of a cause and of all that lies below it. -/
def Cause.chain : Cause → List String
  | .text text => [text]
  | .context text source => text :: source.chain
  | .domain e => e.message :: e.sources
  | .app e => e.message :: e.sources

end

def Cause.message (c : Cause) : String := joined c.chain

/-! Whether something was not found, and whether trying again can help -/

def DomainError.isNotFound : DomainError → Bool
  | .notFound _ => true
  | _ => false

mutual

/-- A failed handler is judged by the domain error that it failed with, if that is one. -/
def DomainError.isRetriable : DomainError → Bool
  | .eventBus _ | .repository _ | .conflict _ | .versionConflict _ _ _ => true
  | .eventHandler _ _ source => source.isRetriableDomain
  | _ => false

def Cause.isRetriableDomain : Cause → Bool
  | .context _ source => source.isRetriableDomain
  | .domain e => e.isRetriable
  | .text _ | .app _ => true

end

def AppError.root : AppError → AppError
  | .context _ source => source.root
  | e => e

def AppError.depth : AppError → Nat
  | .context _ source => source.depth + 1
  | _ => 0

mutual

/-- A failed handler is judged by the error of either layer that it failed with. -/
def AppError.isNotFound : AppError → Bool
  | .context _ source => source.isNotFound
  | .domain (.eventHandler _ _ source) => source.isNotFound
  | .domain e => e.isNotFound
  | _ => false

def Cause.isNotFound : Cause → Bool
  | .context _ source => source.isNotFound
  | .app e => e.isNotFound
  | .domain e => e.isNotFound
  | .text _ => false

end

mutual

def AppError.isRetriable : AppError → Bool
  | .context _ source => source.isRetriable
  | .domain (.eventHandler _ _ source) => source.isRetriable
  | .domain e => e.isRetriable
  | .conflict _ | .cancelled _ => true
  | _ => false

def Cause.isRetriable : Cause → Bool
  | .context _ source => source.isRetriable
  | .app e => e.isRetriable
  | .domain e => e.isRetriable
  | .text _ => true

end

def AppError.isCancelled (e : AppError) : Bool :=
  match e.root with
  | .cancelled _ => true
  | _ => false

/-! Errors with a fixed wording -/

namespace DomainError

def messageExists (id : Uuid) : DomainError :=
  .conflict ("message with id " ++ bracketed (toString id) ++ " already exists")

def noMessage (id : Uuid) : DomainError :=
  .notFound ("message with id " ++ bracketed (toString id))

def wrongStatus (id : Uuid) (actual : Status) (allowed : List Status) : DomainError :=
  .invalidState id actual (Status.describe allowed)

def unknownReport (name : String) : DomainError :=
  .parse ("unknown message event name " ++ bracketed name)

def unknownEventType (name : String) : DomainError := .parse ("unknown event type " ++ bracketed name)

def noSubscriber (eventId : String) : DomainError :=
  .eventBus ("no subscriber for event " ++ bracketed eventId)

def lagged (count : Nat) : DomainError := .eventBus ("channel lagged by " ++ toString count)

end DomainError

/-- Puts a failure into the context in which it happened. -/
def withContext {α : Type} (text : String) : Except AppError α → Except AppError α
  | .ok a => .ok a
  | .error e => .error (.context text e)

def inContext {α : Type} (text : String) : Except DomainError α → Except AppError α
  | .ok a => .ok a
  | .error e => .error (.context text (.domain e))

end SmsTracking
