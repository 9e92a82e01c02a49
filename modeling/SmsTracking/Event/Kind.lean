import SmsTracking.Error

/-!
The four kinds of events about messages, in the order in which handlers are listed.
-/

namespace SmsTracking

inductive EventKind where
  /-- The service has taken a message to send. -/
  | apiSent
  /-- A phone is sending the message. -/
  | phoneSending
  /-- A phone has sent the message. -/
  | phoneSent
  /-- A phone has received a message. -/
  | phoneReceived
deriving DecidableEq, Repr

namespace EventKind

def all : List EventKind := [apiSent, phoneSending, phoneSent, phoneReceived]

def name : EventKind → String
  | apiSent => "message.api.sent"
  | phoneSending => "message.phone.sending"
  | phoneSent => "message.phone.sent"
  | phoneReceived => "message.phone.received"

instance : ToString EventKind := ⟨name⟩

def ofName? (s : String) : Option EventKind := all.find? (·.name = s)

def index (k : EventKind) : Nat := all.idxOf k

def decode : Json.Decoder EventKind := Json.Decoder.oneOf (all.map fun k => (k.name, k))

theorem mem_all (k : EventKind) : k ∈ all := by cases k <;> simp [all]

theorem name_of_ofName? {s : String} {k : EventKind} (h : ofName? s = some k) : k.name = s := by
  simpa using List.find?_some h

theorem ofName?_name (k : EventKind) : ofName? k.name = some k := by cases k <;> decide

theorem name_inj {k l : EventKind} : k.name = l.name ↔ k = l := by
  cases k <;> cases l <;> decide

end EventKind

end SmsTracking
