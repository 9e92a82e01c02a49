import SmsTracking.Program.Basic

/-!
The life of a stored message. A new message is stored; a transition loads the message, applies the
move and writes it back, and starts over, so many times as it may, if the message has changed in the
meantime.
-/

namespace SmsTracking

/-- A move of a message, with the time of what the phone did. -/
inductive Move where
  | attempt (time : Timestamp)
  | confirm (time : Timestamp)
deriving DecidableEq

namespace Move

def apply : Move → Message → Timestamp → Transition
  | attempt time, m, now => m.attempt time now
  | confirm time, m, now => m.confirm time now

/-- What the move does, in an error. -/
def action : Move → String
  | attempt _ => "record send attempt"
  | confirm _ => "confirm sent"

end Move

/-- A counter that is at its end cannot be counted up. -/
def counterOverflow : String := "attempt to add with overflow"

namespace Lifecycle

/-- In which an existing message is reported. -/
def storeContext (direction : Direction) (id : Uuid) : String :=
  match direction with
  | .mobileTerminated => "cannot store sent message " ++ bracketed (toString id)
  | .mobileOriginated => "cannot store received message " ++ bracketed (toString id)

def store (direction : Direction) (p : NewMessage) : Program (Except AppError Message) := do
  let m := Message.created direction p (← Program.now)
  match ← Program.store m with
  | .ok () => pure (.ok m)
  | .error e => pure (.error (.context (storeContext direction m.id) (.domain e)))

def storeSent : NewMessage → Program (Except AppError Message) := store .mobileTerminated

def storeReceived : NewMessage → Program (Except AppError Message) := store .mobileOriginated

def loadContext (id : Uuid) (move : Move) : String :=
  "cannot load message " ++ bracketed (toString id) ++ " to " ++ move.action

def applyContext (id : Uuid) (move : Move) : String :=
  "cannot " ++ move.action ++ " for message " ++ bracketed (toString id)

def updateContext (id : Uuid) (move : Move) : String :=
  "cannot update message " ++ bracketed (toString id) ++ " after " ++ move.action

/-- What is answered if the move could not be written. -/
def unwritten (id : Uuid) (move : Move) (e : DomainError) : Program (Except AppError Message) :=
  pure (.error (.context (updateContext id move) (.domain e)))

/-- Moves a stored message; `conflicted` follows if it has changed in the meantime. -/
def tryMove (id : Uuid) (move : Move) (conflicted : DomainError → Program (Except AppError Message)) :
    Program (Except AppError Message) := do
  match ← Program.load id with
  | .error e => pure (.error (.context (loadContext id move) (.domain e)))
  | .ok m =>
    match move.apply m (← Program.now) with
    | .overflow _ => .abort counterOverflow
    | .refused e => pure (.error (.context (applyContext id move) (.domain e)))
    | .done m =>
      match ← Program.update m with
      | .done => pure (.ok m)
      | .overflow => .abort counterOverflow
      | .refused (.versionConflict id expected actual) =>
        conflicted (.versionConflict id expected actual)
      | .refused e => unwritten id move e

/-- Moves a stored message, and so many times again if it has changed in the meantime. -/
def transition (id : Uuid) (move : Move) : Nat → Program (Except AppError Message)
  | 0 => tryMove id move (unwritten id move)
  | retries + 1 => tryMove id move fun _ => transition id move retries

end Lifecycle

end SmsTracking
