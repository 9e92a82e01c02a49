import SmsTracking.Program.World
import SmsTracking.Simulation.Fault

/-!
A session runs programs in a world with faults and with a clock of its own, on which waiting costs
nothing but lets others go on.
-/

namespace SmsTracking

structure Session where
  ambient : Ambient
  world : World := {}
  faults : List Fault := []
  /-- How many calls there were at each point. -/
  calls : Entries CallPoint Nat := ∅
  /-- All events that were handed to the transport, also those that it refused. -/
  handed : List Envelope := []
  /-- The clock, in milliseconds. -/
  time : Nat := 0
  cancelled : Bool := false

/-- What a request meets with. -/
inductive Encounter (r : Request) where
  | answer (a : r.Answer)
  /-- The answer is there, but takes so long to come. -/
  | answerAfter (milliseconds : Nat) (a : r.Answer)
  /-- The request takes so long to be made. -/
  | requestAfter (milliseconds : Nat)
  /-- The answer is `late` after so long, or `early` once there is a cancellation. -/
  | wait (milliseconds : Nat) (early late : r.Answer)
  | crash (text : String)

namespace Session

def perform (s : Session) (r : Request) : r.Answer × Session :=
  let (a, world) := s.world.answer s.ambient r
  (a, { s with world })

def answered (s : Session) (r : Request) : Encounter r × Session :=
  let (a, s) := s.perform r
  (.answer a, s)

def cancel (s : Session) : Session :=
  { s with cancelled := true, world := { s.world with cancelled := true } }

/-- Another one moves a message, beyond the reach of all faults. -/
def disturbedBy (s : Session) (id : Uuid) (move : Move) : Outcome Update × Session :=
  let (o, world) := (rivalMove id move).run s.ambient s.world
  (o, { s with world })

/-- A message is moved after it was loaded. -/
def overtaken (s : Session) (id : Uuid) (move : Move) : Encounter (.load id) × Session :=
  match s.perform (.load id) with
  | (.error e, s) => (.answer (.error e), s)
  | (.ok m, s) =>
    match s.disturbedBy id move with
    | (.done .done, s) => (.answer (.ok m), s)
    | (.done (.refused e), s) => (.answer (.error e), s)
    | (.done .overflow, s) => (.crash counterOverflow, s)
    | (.aborted text, s) => (.crash text, s)

/-- A message is moved before it is updated. -/
def forestalled (s : Session) (m : Message) (move : Move) : Encounter (.update m) × Session :=
  match s.disturbedBy m.id move with
  | (.done .done, s) => s.answered (.update m)
  | (.done u, s) => (.answer u, s)
  | (.aborted text, s) => (.crash text, s)

def disturb (s : Session) (r : Request) : Disturbance → Encounter r × Session
  | .fail e =>
    match r.refusal? e with
    | some a => (.answer a, s)
    | none => s.answered r
  | .cancel => s.cancel.answered r
  | .panic text => (.crash text, s)
  | .delay 0 | .delayAfter 0 => s.answered r
  | .delay ms => (.requestAfter ms, s)
  | .delayAfter ms =>
    let (a, s) := s.perform r
    (.answerAfter ms a, s)
  | .rival move =>
    match r with
    | .load id => s.overtaken id move
    | .update m => s.forestalled m move
    | r => s.answered r
  | .unrecorded =>
    match r with
    | .record _ => (.answer (.ok false), s)
    | r => s.answered r

def callsAt (s : Session) (point : CallPoint) : Nat := (s.calls.find? point).getD 0

/-- Calls are counted, and events that are handed to the transport kept, whatever becomes of them. -/
def count (s : Session) (r : Request) (c : Call) : Session :=
  { s with
    calls := s.calls.insert c.point (s.callsAt c.point + 1)
    handed := match r with
      | .announce e => s.handed ++ [e]
      | _ => s.handed }

def meet (s : Session) (r : Request) : Encounter r × Session :=
  match Call.ofRequest? r with
  | none =>
    match r with
    | .pause interval =>
      if s.world.cancelled then (.answer true, s)
      else if interval.milliseconds = 0 then (.answer false, s)
      else (.wait interval.milliseconds true false, s)
    | r => s.answered r
  | some call =>
    let s := s.count r call
    match s.faults.find? (·.strikes call (s.callsAt call.point)) with
    | none => s.answered r
    | some f => s.disturb r f.disturbance

end Session

end SmsTracking
