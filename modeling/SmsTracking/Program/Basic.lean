import SmsTracking.Event.Envelope
import SmsTracking.Repository.ListenerLog
import SmsTracking.Repository.Messages

/-!
Programs that work on repositories, on the transport of events and on a clock. A program asks for one
thing after the other and goes on with the answer, so that between two requests others can act. Who
runs a program decides what the answers are; every request that can fail may be answered by an error.
-/

namespace SmsTracking

/-- What a program asks of its surroundings. -/
inductive Request where
  | store (m : Message)
  | update (m : Message)
  | load (id : Uuid)
  | index (owner contact : String) (page : Page)
  | outstanding (limit : UInt64)
  | claim (key : ListenerKey)
  | record (e : HandledEvent)
  | release (key : ListenerKey)
  /-- An event is handed to the transport, which may refuse it. -/
  | announce (e : Envelope)
  /-- An event is sent on the bus. -/
  | publish (e : Envelope)
  | isCancelled
  /-- Time passes; the answer tells whether a cancellation has cut it short. -/
  | pause (s : Span)
  | now
  | uptime
  | freshId
  | write (line : LogLine)

def Request.Answer : Request → Type
  | store _ | release _ | announce _ | publish _ => Except DomainError Unit
  | update _ => Update
  | load _ => Except DomainError Message
  | index _ _ _ | outstanding _ => Except DomainError (List Message)
  | claim _ => Except DomainError Claim
  | record _ => Except DomainError Bool
  | isCancelled | pause _ => Bool
  | now => Timestamp
  | uptime => Instant
  | freshId => Uuid
  | write _ => Unit

inductive Program (α : Type) where
  | done (a : α)
  /-- The program breaks off; what it has done stays done. -/
  | abort (text : String)
  | ask (r : Request) (next : r.Answer → Program α)

inductive Outcome (α : Type) where
  | done (a : α)
  | aborted (text : String)

namespace Program

variable {α β : Type}

def bind : Program α → (α → Program β) → Program β
  | done a, f => f a
  | abort text, _ => abort text
  | ask r next, f => ask r fun answer => (next answer).bind f

instance : Monad Program where
  pure := done
  bind := bind

theorem bind_done (p : Program α) : p.bind done = p := by
  induction p with
  | done | abort => rfl
  | ask r next ih => exact congrArg (ask r) (funext ih)

theorem bind_assoc {γ : Type} (p : Program α) (f : α → Program β) (g : β → Program γ) :
    (p.bind f).bind g = p.bind fun a => (f a).bind g := by
  induction p with
  | done | abort => rfl
  | ask r next ih => exact congrArg (ask r) (funext ih)

instance : LawfulMonad Program := .mk'
  Program
  (fun p => bind_done p)
  (fun _ _ => rfl)
  (fun p f g => bind_assoc p f g)

instance : Inhabited (Program α) := ⟨abort ""⟩

def request (r : Request) : Program r.Answer := ask r done

/-- Goes on also if the program breaks off. -/
def attempt : Program α → Program (Outcome α)
  | done a => done (.done a)
  | abort text => done (.aborted text)
  | ask r next => ask r fun answer => (next answer).attempt

instance : MonadJournal Program where
  write line := request (.write line)

/-! Requests with the types of their answers -/

def store (m : Message) : Program (Except DomainError Unit) := request (.store m)

def update (m : Message) : Program Update := request (.update m)

def load (id : Uuid) : Program (Except DomainError Message) := request (.load id)

def index (owner contact : String) (page : Page) : Program (Except DomainError (List Message)) :=
  request (.index owner contact page)

def outstanding (limit : UInt64) : Program (Except DomainError (List Message)) :=
  request (.outstanding limit)

def claim (key : ListenerKey) : Program (Except DomainError Claim) := request (.claim key)

def record (e : HandledEvent) : Program (Except DomainError Bool) := request (.record e)

def release (key : ListenerKey) : Program (Except DomainError Unit) := request (.release key)

def announce (e : Envelope) : Program (Except DomainError Unit) := request (.announce e)

def publish (e : Envelope) : Program (Except DomainError Unit) := request (.publish e)

def isCancelled : Program Bool := request .isCancelled

def pause (s : Span) : Program Bool := request (.pause s)

def now : Program Timestamp := request .now

def uptime : Program Instant := request .uptime

def freshId : Program Uuid := request .freshId

end Program

end SmsTracking
