import SmsTracking.Error

/-!
Lines that are worth a look: warnings and errors with named fields.
-/

namespace SmsTracking

inductive Severity where
  | warning
  | error
deriving DecidableEq, Repr

structure LogLine where
  severity : Severity
  message : String
  fields : List (String × String) := []
deriving DecidableEq, Repr

def Severity.name : Severity → String
  | .warning => "warn"
  | .error => "error"

/-- Programs that can write a line. -/
class MonadJournal (m : Type → Type) where
  write : LogLine → m Unit

namespace LogLine

def warn (message : String) (fields : List (String × String) := []) : LogLine :=
  ⟨.warning, message, fields⟩

def error (message : String) (fields : List (String × String) := []) : LogLine :=
  ⟨.error, message, fields⟩

/-- The fields stand beside the message. -/
def encode (line : LogLine) : Json.Value :=
  .object ([("level", .string line.severity.name), ("message", .string line.message)] ++
    line.fields.map fun field => (field.1, .string field.2))

end LogLine

end SmsTracking
