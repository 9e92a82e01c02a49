import SmsTracking.Simulation.Session

/-!
A program that has been begun: it can go on, it waits, or it has ended. Nobody else acts while it
goes on.
-/

namespace SmsTracking

inductive Strand (α : Type) where
  | going (p : Program α)
  | held (wake : Nat) (p : Program α)
  /-- Goes on at a time, or as `early` once there is a cancellation. -/
  | paused (wake : Nat) (early late : Program α)
  | pending (wake : Nat) (r : Request) (next : r.Answer → Program α)
  | ended (o : Outcome α)

variable {α : Type}

/-- Goes on up to the next wait. -/
def Program.proceed : Program α → Session → Strand α × Session
  | done a, s => (.ended (.done a), s)
  | abort text, s => (.ended (.aborted text), s)
  | ask r next, s =>
    match s.meet r with
    | (.answer a, s) => (next a).proceed s
    | (.answerAfter ms a, s) => (.held (s.time + ms) (next a), s)
    | (.requestAfter ms, s) => (.pending (s.time + ms) r next, s)
    | (.wait ms early late, s) => (.paused (s.time + ms) (next early) (next late), s)
    | (.crash text, s) => (.ended (.aborted text), s)

namespace Strand

def wake? : Strand α → Option Nat
  | held wake _ | paused wake _ _ | pending wake _ _ => some wake
  | going _ | ended _ => none

def isPaused : Strand α → Bool
  | paused _ _ _ => true
  | _ => false

def resume (s : Session) : Strand α → Strand α × Session
  | going p => p.proceed s
  | held wake p => if wake ≤ s.time then p.proceed s else (held wake p, s)
  | paused wake early late =>
    if s.world.cancelled then early.proceed s
    else if wake ≤ s.time then late.proceed s
    else (paused wake early late, s)
  | pending wake r next =>
    if wake ≤ s.time then
      let (a, s) := s.perform r
      (next a).proceed s
    else (pending wake r next, s)
  | ended o => (ended o, s)

end Strand

end SmsTracking
