import SmsTracking.Demo.Arguments
import SmsTracking.Service.Batch

/-!
A demonstration of the whole life of messages: some are sent, a phone gets those that wait and
reports each as sent, and one message comes back. The answer is the thread.
-/

namespace SmsTracking.Demo

/-- Sends messages, the `i`th of which says so. -/
def sendAll (s : Service) (a : Arguments) (i : Nat) : Nat → Program (Except AppError Unit)
  | 0 => pure (.ok ())
  | n + 1 => do
    let sent ← s.send
      { owner := a.owner, contact := a.contact, content := "hello #" ++ toString i
        source := "sms-demo/api", requestReceivedAt := ← Program.now }
    match sent with
    | .ok _ => sendAll s a (i + 1) n
    | .error e => pure (.error e)

def reportAll (s : Service) : List Message → Program (Except AppError Unit)
  | [] => pure (.ok ())
  | m :: ms => do
    let reported ← s.report m
      { messageId := m.id, report := .sent, timestamp := ← Program.now, source := "sms-demo/phone" }
    match reported with
    | .ok _ => reportAll s ms
    | .error e => pure (.error e)

/-- A page that holds the messages and the answer to them. -/
def wholeThread (a : Arguments) : Program ThreadQuery :=
  if a.messages.toNat + 1 < UInt64.size then
    pure { owner := a.owner, contact := a.contact, page := { limit := a.messages + 1 } }
  else .abort counterOverflow

def life (s : Service) (a : Arguments) : Program (Except AppError (List Message)) := do
  match ← sendAll s a 0 a.messages.toNat with
  | .error e => pure (.error e)
  | .ok () =>
    match ← s.getOutstanding [] { source := "sms-demo/phone", limit := none } with
    | .error e => pure (.error e)
    | .ok outstanding =>
      match ← reportAll s outstanding with
      | .error e => pure (.error e)
      | .ok () =>
        let received ← s.receive
          { owner := a.owner, contact := a.contact, content := "got it, thanks"
            source := "sms-demo/phone", timestamp := ← Program.now }
        match received with
        | .error e => pure (.error e)
        | .ok _ => Service.thread (← wholeThread a)

inductive Ending where
  | thread (ms : List Message)
  | help
  | version
  | badArguments (reason : String)
  | badConfig
  | failed (e : AppError)
  | aborted (text : String)

namespace Ending

def exitCode : Ending → UInt32
  | .thread _ | .help | .version => 0
  | .badConfig | .failed _ => 1
  | .badArguments _ => 2
  | .aborted _ => 101

def ofOutcome : Outcome (Except AppError (List Message)) → Ending
  | .done (.ok ms) => .thread ms
  | .done (.error e) => .failed e
  | .aborted text => .aborted text

end Ending

/-- The arguments of a life, or an ending before it begins. -/
def prepare (args : List String) : Except Ending Arguments :=
  match Invocation.ofList args with
  | .run a => .ok a
  | .help => .error .help
  | .version => .error .version
  | .invalid reason => .error (.badArguments reason)

/-- The configuration in the text of a file, which may be unreadable, or else the default. -/
def configure (file : Option (Option String)) : Except Ending ServiceConfig :=
  match file with
  | none => .ok {}
  | some text =>
    match text.bind ServiceConfig.ofFile? with
    | some config => .ok config
    | none => .error .badConfig

end SmsTracking.Demo
