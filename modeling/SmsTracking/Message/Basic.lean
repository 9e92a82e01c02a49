import SmsTracking.Error

/-!
Messages and their transitions. A message counts its transitions in `version`, by which a
repository tells whether it was changed in the meantime. A transition is refused if the status does
not allow it, and cannot be made if a counter is at its end; the fields set before that point stay
set.
-/

namespace SmsTracking

structure Message where
  id : Uuid
  owner : String
  contact : String
  content : String
  direction : Direction
  status : Status
  requestReceivedAt : Timestamp
  createdAt : Timestamp
  updatedAt : Timestamp
  /-- The key by which messages are ordered, whatever the order in which they were stored. -/
  orderTimestamp : Timestamp
  lastAttemptedAt : Option Timestamp
  sendAttemptCount : UInt32
  sentAt : Option Timestamp
  receivedAt : Option Timestamp
  sendDurationMs : Option Int64
  version : UInt64
deriving DecidableEq

/-- What a message is created from. -/
structure NewMessage where
  id : Uuid
  owner : String
  contact : String
  content : String
  timestamp : Timestamp
deriving DecidableEq

inductive Transition where
  | done (m : Message)
  | refused (e : DomainError)
  | overflow (m : Message)

namespace Message

/-- An outgoing message that waits for a phone. -/
def mobileTerminated (d : NewMessage) (now : Timestamp) : Message where
  id := d.id
  owner := d.owner
  contact := d.contact
  content := d.content
  direction := .mobileTerminated
  status := .pending
  requestReceivedAt := d.timestamp
  createdAt := now
  updatedAt := now
  orderTimestamp := d.timestamp
  lastAttemptedAt := none
  sendAttemptCount := 0
  sentAt := none
  receivedAt := none
  sendDurationMs := none
  version := 0

def mobileOriginated (d : NewMessage) (now : Timestamp) : Message where
  id := d.id
  owner := d.owner
  contact := d.contact
  content := d.content
  direction := .mobileOriginated
  status := .received
  requestReceivedAt := d.timestamp
  createdAt := now
  updatedAt := now
  orderTimestamp := d.timestamp
  lastAttemptedAt := none
  sendAttemptCount := 0
  sentAt := none
  receivedAt := some d.timestamp
  sendDurationMs := none
  version := 0

/-- A message as it is created. -/
def created : Direction → NewMessage → Timestamp → Message
  | .mobileTerminated => mobileTerminated
  | .mobileOriginated => mobileOriginated

def isSending (m : Message) : Bool := m.status ∈ Status.attemptAllowed

/-- Waits to be handed to a phone. -/
def isOutstanding (m : Message) : Bool :=
  m.direction = .mobileTerminated ∧ m.status = .pending

/-- Moves to `next` if the status is one of `allowed`; `finish` sets the other fields. -/
def advance (m : Message) (allowed : List Status) (next : Status) (finish : Message → Transition) :
    Transition :=
  if m.status ∉ allowed then .refused (.wrongStatus m.id m.status allowed)
  else if !m.status.canBecome next then .refused (.wrongStatus m.id m.status [next])
  else
    let moved := { m with status := next }
    if m.version.toNat + 1 < UInt64.size then finish { moved with version := m.version + 1 }
    else .overflow moved

/-- Records an attempt of the phone to send the message. -/
def attempt (m : Message) (time now : Timestamp) : Transition :=
  m.advance Status.attemptAllowed .sending fun m =>
    let tried := { m with lastAttemptedAt := some time }
    if m.sendAttemptCount.toNat + 1 < UInt32.size then
      .done { tried with sendAttemptCount := m.sendAttemptCount + 1, updatedAt := now }
    else .overflow tried

/-- Confirms that the phone has sent the message. The duration runs from the last attempt. -/
def confirm (m : Message) (time now : Timestamp) : Transition :=
  m.advance Status.confirmationAllowed .sent fun m =>
    let started := m.lastAttemptedAt.getD m.requestReceivedAt
    .done { m with
      sendDurationMs := some (.ofNat (time.millisecondsSince started))
      sentAt := some time
      updatedAt := now }

end Message

end SmsTracking
