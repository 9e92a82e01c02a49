import SmsTracking.Json.Decode

/-!
The life of a message. One that goes out to a phone is pending, then sending, then sent; one that
came from a phone is received at once. Status only moves forward, except that a message may stay in
sending while the phone tries again.
-/

namespace SmsTracking

inductive Direction where
  | mobileOriginated
  | mobileTerminated
deriving DecidableEq, Repr

inductive Status where
  | pending
  | sending
  | sent
  | received
deriving DecidableEq, Repr

/-- What a phone reports about a message. -/
inductive Report where
  | sent
  | delivered
  | failed
deriving DecidableEq, Repr

namespace Direction

def all : List Direction := [mobileOriginated, mobileTerminated]

def name : Direction → String
  | mobileOriginated => "mobile-originated"
  | mobileTerminated => "mobile-terminated"

instance : ToString Direction := ⟨name⟩

def decode : Json.Decoder Direction := Json.Decoder.oneOf (all.map fun d => (d.name, d))

end Direction

namespace Status

def all : List Status := [pending, sending, sent, received]

def name : Status → String
  | pending => "pending"
  | sending => "sending"
  | sent => "sent"
  | received => "received"

instance : ToString Status := ⟨name⟩

def decode : Json.Decoder Status := Json.Decoder.oneOf (all.map fun s => (s.name, s))

def isTerminal : Status → Bool
  | sent | received => true
  | pending | sending => false

def rank : Status → Nat
  | pending => 0
  | sending => 1
  | sent | received => 2

def canBecome : Status → Status → Bool
  | pending, sending => true
  | sending, sending => true
  | sending, sent => true
  | _, _ => false

def attemptAllowed : List Status := [pending, sending]

def confirmationAllowed : List Status := [sending]

def describe (set : List Status) : String := "[" ++ String.intercalate ", " (set.map name) ++ "]"

theorem rank_le_of_canBecome {s t : Status} (h : s.canBecome t = true) : s.rank ≤ t.rank := by
  cases s <;> cases t <;> simp_all [rank, canBecome]

end Status

namespace Report

def all : List Report := [sent, delivered, failed]

def name : Report → String
  | sent => "SENT"
  | delivered => "DELIVERED"
  | failed => "FAILED"

instance : ToString Report := ⟨name⟩

def ofName? (s : String) : Option Report := all.find? (·.name = s)

def decode : Json.Decoder Report := Json.Decoder.oneOf (all.map fun r => (r.name, r))

end Report

end SmsTracking
