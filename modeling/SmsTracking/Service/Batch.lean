import SmsTracking.Routing.Completion
import SmsTracking.Service.Listener
import SmsTracking.Service.Messaging
import SmsTracking.Text.Quoted

/-!
Outstanding messages are handed to a phone in batches. Each message has a worker of its own, and so
many workers run at the same time as the configuration says. A message that cannot be handed out is
left out of the answer and costs a line, but does not stop the others; one that is given up because
of a cancellation does not even cost a line.
-/

namespace SmsTracking

structure Batch where
  source : String
  /-- How many workers run at the same time. -/
  width : Nat
  messages : List Message

/-- What became of a worker. -/
inductive WorkerEnd where
  | answered (id : Uuid) (answer : Except AppError Message)
  /-- The worker broke off. Workers are numbered. -/
  | died (number : Nat) (text : String)

namespace WorkerEnd

/-- The end of a worker of the given number. -/
def ofOutcome (number : Nat) (id : Uuid) : Outcome (Except AppError Message) → WorkerEnd
  | .done answer => answered id answer
  | .aborted text => died number text

/-- A line for a worker that has failed. -/
def lines : WorkerEnd → List LogLine
  | answered _ (.ok _) => []
  | answered id (.error e) =>
    if e.isCancelled then []
    else
      [.error "cannot dispatch outstanding message"
        [("message_id", toString id), ("error", e.message)]]
  | died number text =>
    [.error "outstanding worker failed"
      [("error",
        "task " ++ toString number ++ " panicked with message " ++ Text.quoted text)]]

def message? : WorkerEnd → Option Message
  | answered _ (.ok m) => some m
  | _ => none

/-- Writes down a failure, and keeps a message that was handed out. -/
def note (e : WorkerEnd) : Program (Option Message) := do
  e.lines.forM fun line => MonadJournal.write line
  pure e.message?

end WorkerEnd

namespace Batch

/-- The most workers that can run at the same time. -/
def maxWidth : Nat := 2305843009213693951

/-- At least one worker runs. -/
def ofMessages (source : String) (concurrency : UInt64) (messages : List Message) : Batch :=
  ⟨source, max concurrency.toNat 1, messages⟩

/-- A batch that is too wide cannot begin. -/
def begin (b : Batch) : Program Unit :=
  if b.width ≤ maxWidth then pure ()
  else
    .abort ("a semaphore may not have more than MAX_PERMITS permits (" ++ toString maxWidth ++ ")")

/-- A worker with its place in the batch, from its beginning to its end. -/
def work (s : Service) (source : String) (job : Message × Nat) : Program (Option Message) := do
  let outcome ← (s.handOut source job.1).attempt
  (WorkerEnd.ofOutcome (job.2 + 1) job.1.id outcome).note

/-- Hands out a batch, one worker running to its end before the next one begins. Workers may as well
take turns; this is one of the ways in which they can go on. `picks` says which of the workers that
could run does. -/
def process (s : Service) (picks : List Nat) (b : Batch) : Program (List Message) := do
  b.begin
  let answers ← (completions b.width picks b.messages.zipIdx).mapM (work s b.source)
  pure (answers.filterMap id)

end Batch

namespace Service

/-- The batch that a poll gets, if any message waits. -/
def poll (s : Service) (p : Poll) : Program (Except AppError (Option Batch)) := do
  let limit := p.limit.getD s.config.outstandingLimit
  match ← Program.outstanding limit with
  | .error e =>
    pure (.error (.context ("cannot fetch up to " ++ toString limit.toNat ++
      " outstanding messages") (.domain e)))
  | .ok [] => pure (.ok none)
  | .ok messages =>
    pure (.ok (some (.ofMessages p.source s.config.outstandingConcurrency messages)))

/-- Hands the messages that wait to a phone. -/
def getOutstanding (s : Service) (picks : List Nat) (p : Poll) :
    Program (Except AppError (List Message)) := do
  match ← s.poll p with
  | .error e => pure (.error e)
  | .ok none => pure (.ok [])
  | .ok (some b) => return .ok (← b.process s picks)

/-- The service whose events the listener handles in place. -/
def inPlace (config : ServiceConfig := {}) : Service where
  config := config
  transport := .inPlace (.ofList (Listener.handlers config.updateRetries.toNat))

end Service

end SmsTracking
