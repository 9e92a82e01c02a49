import SmsTracking.Demo.Run
import SmsTracking.Json.Pretty
import SmsTracking.Program.World
import Std.Time

/-!
The command line of the demonstration. It prints the thread as JSON, and lines that are worth a look
on the error stream.
-/

namespace SmsTracking.Demo

def versionText : String := "sms-demo 0.1.0"

def helpText : String := String.intercalate "\n"
  ["SMS lifecycle demo - drives messages through the event loop in-process", "",
    "Usage: sms-demo [OPTIONS]", "", "Options:",
    "  -c, --config <CONFIG>      Path to an optional TOML configuration file with a [service] table " ++
      "[env: SMS_DEMO_CONFIG=]",
    "  -m, --messages <MESSAGES>  Number of outbound messages to send [default: 3]",
    "      --owner <OWNER>        API-side phone number [default: +1000]",
    "      --contact <CONTACT>    Counterparty phone number [default: +2000]",
    "  -h, --help                 Print help",
    "  -V, --version              Print version"]

def presentTime : IO Timestamp := do
  let t ← Std.Time.Timestamp.now
  let ns : Int := t.toNanosecondsSinceUnixEpoch.val
  let seconds := ns / 1000000000
  pure ((Timestamp.ofParts? (seconds / 86400) (seconds % 86400).toNat
    (ns % 1000000000).toNat).getD .epoch)

/-- A random identifier, of version 4 and variant 1. -/
def randomId : IO Uuid := do
  let bytes ← IO.getRandomBytes 16
  let bits : BitVec 128 :=
    .ofNat 128 (bytes.toList.foldl (fun n (b : UInt8) => n * 256 + b.toNat) 0)
  let version : BitVec 128 := 0xf000 <<< 64
  let variant : BitVec 128 := 0xc000000000000000
  pure ⟨((bits &&& ~~~version) ||| 0x4000 <<< 64) &&& ~~~variant ||| 0x8000000000000000⟩

/-- Runs a program against the clock of the machine. -/
def perform {α : Type} : Program α → World → IO (Outcome α)
  | .done a, _ => pure (.done a)
  | .abort text, _ => pure (.aborted text)
  | .ask .now next, w => do perform (next (← presentTime)) w
  | .ask .freshId next, w => do perform (next (← randomId)) w
  | .ask .uptime next, w => do perform (next ⟨← IO.monoNanosNow⟩) w
  | .ask (.pause s) next, w => do
    IO.sleep (.ofNat s.milliseconds)
    perform (next false) w
  | .ask (.write line) next, w => do
    IO.eprintln (toString line.encode)
    perform (next ()) w
  | .ask r next, w => do
    let ambient : Ambient := { clock := fun _ => .epoch, ids := fun _ => default }
    let (answer, w) := { w with uptime := ⟨← IO.monoNanosNow⟩ }.answer ambient r
    perform (next answer) w

def print : Ending → IO Unit
  | .thread ms => IO.println (Json.Value.array (ms.map Message.encode)).pretty
  | .help => IO.println helpText
  | .version => IO.println versionText
  | .badArguments reason => IO.eprintln ("error: " ++ reason)
  | .badConfig => IO.eprintln "Error: invalid configuration file"
  | .failed e => IO.eprintln ("Error: " ++ e.message)
  | .aborted text => IO.eprintln text

def fileText (path : String) : IO (Option String) := do
  try pure (some (← IO.FS.readFile path))
  catch _ => pure none

def run (args : List String) : IO Ending := do
  match prepare args with
  | .error ending => pure ending
  | .ok a =>
    let path := a.config <|> (← IO.getEnv "SMS_DEMO_CONFIG")
    match configure (← path.mapM fileText) with
    | .error ending => pure ending
    | .ok config =>
      let world : World := { log := { timeToLive := config.claimTtl } }
      return .ofOutcome (← perform (life (.inPlace config) a) world)

end SmsTracking.Demo

def main (args : List String) : IO UInt32 := do
  let ending ← SmsTracking.Demo.run args
  SmsTracking.Demo.print ending
  pure ending.exitCode
