import SmsTracking.Routing.Engine
import SmsTracking.Service.Command
import SmsTracking.Simulation.Strand

/-!
Many strands in one session, one going on at a time. Operations that were begun together go on in
turn; each can begin a batch, whose workers are tasks. Tasks go on in the order in which they became
ready, the operations only when no task is ready, and the clock only when nothing else can go on. An
engine is one more task, which becomes ready when the bus holds something for it.
-/

namespace SmsTracking

structure Pool where
  source : String
  /-- Messages that have no worker yet. -/
  waiting : List Message
  /-- How many workers can still be begun. -/
  free : Nat
  running : Nat := 0
  /-- Workers that have ended, of which no note was taken yet. -/
  ends : List WorkerEnd := []
  handedOut : List Message := []

inductive Phase (β : Type) where
  | starting (wake : Nat) (p : Program (Stage β))
  | running (strand : Strand (Stage β))
  | handing (pool : Pool) (finish : List Message → β)
  | ended (o : Outcome β)

structure Operation (β : Type) where
  phase : Phase β
  /-- Whether it was cancelled before it began. -/
  cancelled : Bool := false

/-- A worker hands out one message of the batch of an operation. -/
structure Worker where
  number : Nat
  operation : Nat
  message : Message
  strand : Strand (Except AppError Message)

structure Consumer where
  registry : Registry Program
  /-- The handlers of an event that are at work. -/
  strand : Option (Strand Unit) := none

inductive Task where
  | worker (number : Nat)
  | engine
deriving DecidableEq

structure Simulation (β : Type) where
  session : Session
  service : Service
  engine : Option Consumer := none
  operations : List (Operation β) := []
  workers : List Worker := []
  ready : List Task := []
  /-- Tasks that wait for a time, in the order in which they began to wait. -/
  timers : List (Nat × Task) := []
  awake : Bool := false
  begun : Nat := 0

namespace Phase

variable {β : Type}

def wake? : Phase β → Option Nat
  | starting wake _ => some wake
  | running strand => strand.wake?
  | handing _ _ | ended _ => none

def outcome? : Phase β → Option (Outcome β)
  | ended o => some o
  | _ => none

end Phase

namespace Simulation

variable {β : Type}

/-- The name under which the engine gets its events. -/
def stream : String := "engine"

/-- Sets whether the strand that goes on next is cancelled. -/
def enter (s : Simulation β) (cancelled : Bool) : Simulation β :=
  { s with session := { s.session with world := { s.session.world with cancelled } } }

def isCancelled (s : Simulation β) (o : Operation β) : Bool := s.session.cancelled || o.cancelled

def wakeTask (s : Simulation β) (t : Task) : Simulation β :=
  if t ∈ s.ready then s
  else { s with ready := s.ready ++ [t], timers := s.timers.filter (·.2 ≠ t) }

/-- The engine becomes ready if it has nothing to do and something waits for it. -/
def rouse (s : Simulation β) : Simulation β :=
  match s.engine with
  | some { strand := none, .. } =>
    if (s.session.world.bus.poll stream).1.isSome then s.wakeTask .engine else s
  | _ => s

/-- A cancellation wakes all that heed it. -/
def heed (s : Simulation β) (before : Bool) : Simulation β :=
  if s.session.cancelled && !before then
    let paused := s.workers.filter (·.strand.isPaused)
    paused.foldl (fun s w => s.wakeTask (.worker w.number)) { s with awake := true }
  else s

def settled (s : Simulation β) (cancelledBefore : Bool) : Simulation β :=
  (s.heed cancelledBefore).rouse

/-! Batches -/

/-- Begins workers as long as there is room. -/
def launch (s : Simulation β) (operation : Nat) (p : Pool) : List Message → Nat →
    Simulation β × Pool
  | m :: waiting, free + 1 =>
    let number := s.begun + 1
    let worker : Worker :=
      { number, operation, message := m, strand := .going (s.service.handOut p.source m) }
    let s :=
      { s with
        begun := number, workers := s.workers ++ [worker], ready := s.ready ++ [.worker number] }
    launch s operation { p with running := p.running + 1 } waiting free
  | waiting, free => (s, { p with waiting, free })

def takeNote (s : Simulation β) (p : Pool) : List WorkerEnd → Simulation β × Pool
  | [] => (s, { p with ends := [] })
  | e :: ends =>
    match e.note.proceed s.session with
    | (.ended (.done (some m)), session) =>
      takeNote { s with session } { p with handedOut := p.handedOut ++ [m] } ends
    | (_, session) => takeNote { s with session } p ends

/-- After a cancellation no worker is begun. Ends are noted once all workers have been begun. -/
def pollPool (s : Simulation β) (operation : Nat) (p : Pool) : Simulation β × Pool :=
  let (s, p) :=
    if s.session.world.cancelled then (s, { p with waiting := [] })
    else launch s operation p p.waiting p.free
  if p.waiting.isEmpty then takeNote s p p.ends else (s, p)

/-- The end of a worker makes room for another one. -/
def workerEnded (s : Simulation β) (w : Worker) (o : Outcome (Except AppError Message)) :
    Simulation β :=
  let note (o' : Operation β) : Operation β :=
    match o'.phase with
    | .handing p finish =>
      let p :=
        { p with
          running := p.running - 1, free := p.free + 1
          ends := p.ends ++ [.ofOutcome w.number w.message.id o] }
      { o' with phase := .handing p finish }
    | _ => o'
  { s with
    operations := s.operations.modify w.operation note
    workers := s.workers.filter (·.number ≠ w.number)
    awake := true }

/-! Operations -/

def pollHanding (s : Simulation β) (i : Nat) (p : Pool) (finish : List Message → β) :
    Phase β × Simulation β :=
  let (s, p) := s.pollPool i p
  if p.waiting.isEmpty && p.running == 0 then (.ended (.done (finish p.handedOut)), s)
  else (.handing p finish, s)

/-- Goes on with a strand, and with the batch that it comes to. -/
def pollStrand (s : Simulation β) (i : Nat) (strand : Strand (Stage β)) :
    Phase β × Simulation β :=
  match strand.resume s.session with
  | (.ended (.done (.answer b)), session) => (.ended (.done b), { s with session })
  | (.ended (.done (.batch b finish)), session) =>
    pollHanding { s with session } i
      { source := b.source, waiting := b.messages, free := b.width } finish
  | (.ended (.aborted text), session) => (.ended (.aborted text), { s with session })
  | (strand, session) => (.running strand, { s with session })

def pollPhase (s : Simulation β) (i : Nat) : Phase β → Phase β × Simulation β
  | .starting wake p =>
    if wake ≤ s.session.time then s.pollStrand i (.going p) else (.starting wake p, s)
  | .running strand => s.pollStrand i strand
  | .handing p finish => s.pollHanding i p finish
  | .ended o => (.ended o, s)

/-- Goes on with the operations in turn; the first has the number `i`. -/
def pollEach (s : Simulation β) (i : Nat) :
    List (Operation β) → List (Operation β) × Simulation β
  | [] => ([], s)
  | o :: os =>
    let before := s.session.cancelled
    let (phase, s) := (s.enter (s.isCancelled o)).pollPhase i o.phase
    let (os, s) := pollEach (s.settled before) (i + 1) os
    ({ o with phase } :: os, s)

def pollOperations (s : Simulation β) : Simulation β :=
  let (operations, s) := pollEach { s with awake := false } 0 s.operations
  { s with operations }

/-! Tasks -/

def await (s : Simulation β) (t : Task) : Option Nat → Simulation β
  | some wake => { s with timers := s.timers ++ [(wake, t)] }
  | none => s

def runWorker (s : Simulation β) (w : Worker) : Simulation β :=
  let before := s.session.cancelled
  let cancelled := before || (s.operations[w.operation]?.elim false (·.cancelled))
  let s := s.enter cancelled
  let (strand, session) := w.strand.resume s.session
  let s := { s with session }
  let s := match strand with
    | .ended o => s.workerEnded w o
    | strand =>
      let replace (v : Worker) : Worker := if v.number = w.number then { v with strand } else v
      { s with workers := s.workers.map replace }.await (.worker w.number) strand.wake?
  s.settled before

/-- The engine goes on until nothing waits for it. If a handler breaks off, so does the engine. -/
def runEngine (s : Simulation β) (e : Consumer) : Nat → Simulation β
  | 0 => s
  | fuel + 1 =>
    match e.strand with
    | some strand =>
      match strand.resume s.session with
      | (.ended (.done ()), session) => runEngine { s with session } { e with strand := none } fuel
      | (.ended (.aborted _), session) =>
        let bus := session.world.bus.unsubscribe stream
        { s with session := { session with world := { session.world with bus } }, engine := none }
      | (strand, session) =>
        { s with session, engine := some { e with strand := some strand } }.await .engine
          strand.wake?
    | none =>
      match s.session.world.bus.poll stream with
      | (some item, bus) =>
        let world := { s.session.world with bus }
        runEngine { s with session := { s.session with world } }
          { e with strand := some (.going (e.registry.react item)) } fuel
      | (none, _) => { s with engine := some e }

def runTask (s : Simulation β) : Task → Simulation β
  | .worker number =>
    match s.workers.find? (·.number = number) with
    | some w => s.runWorker w
    | none => s
  | .engine =>
    match s.engine with
    | some e =>
      let before := s.session.cancelled
      ((s.enter false).runEngine e (2 * s.session.world.bus.sent.length + 2)).settled before
    | none => s

/-! The clock -/

def wakes (s : Simulation β) : List Nat :=
  s.timers.map (·.1) ++ s.operations.filterMap (·.phase.wake?)

/-- Lets time pass up to the first moment at which something goes on: first the operations, then the
tasks in the order in which they began to wait. -/
def passTo (s : Simulation β) (time : Nat) : Simulation β :=
  let due := (s.timers.filter (·.1 ≤ time)).map (·.2)
  let s := { s with session := { s.session with time } }
  let s := due.foldl wakeTask s
  if (s.operations.filterMap (·.phase.wake?)).any (· ≤ time) then s.pollOperations else s

def outcomes (s : Simulation β) : List (Outcome β) := s.operations.filterMap (·.phase.outcome?)

def finished (s : Simulation β) : Bool := s.outcomes.length == s.operations.length

/-- Goes on until all operations have ended. -/
def advance (s : Simulation β) : Nat → Simulation β
  | 0 => s
  | fuel + 1 =>
    if s.finished then s
    else match s.ready with
      | t :: ready => ({ s with ready }.runTask t).advance fuel
      | [] =>
        if s.awake then s.pollOperations.advance fuel
        else match s.wakes.min? with
          | some time => (s.passTo time).advance fuel
          | none => s

/-- How often a strand goes on in one step of a session. -/
def fuel : Nat := 10000000

/-- Begins operations together and goes on until all have ended. The tasks of earlier ones that are
still at work go on beside them. -/
def step (s : Simulation β) (cancelled : Bool) (operations : List (Operation β)) :
    List (Outcome β) × Simulation β :=
  let s := { s with session := { s.session with cancelled }, operations }
  let s := s.pollOperations.advance fuel
  (s.outcomes, { s with operations := [] })

end Simulation

end SmsTracking
