import SmsTracking.Program.Exchange
import SmsTracking.Span

/-!
Programs that run side by side in one world. A schedule says which of them makes its next request,
and when time passes or everything is cancelled. A program that is never scheduled again has stopped
for good. A program that ends can set others going, which then stand behind those that are there.
Main statements: schedules run one after the other (`run_append`), and the place of a program does
not change (`length_programs_le_step`).
-/

namespace SmsTracking

inductive Turn where
  /-- The program at this place makes its next request, if it has not ended. -/
  | go (place : Nat)
  | pass (s : Span)
  | cancel
deriving DecidableEq

structure Turns (α : Type) where
  world : World
  programs : List (Program α)
  /-- All exchanges so far, each with the place of the program that asked. -/
  exchanges : List (Nat × Exchange) := []

namespace Turns

variable {α : Type}

/-- What a program sets going at its end. -/
def followers (heirs : α → List (Program α)) : Program α → List (Program α)
  | .done a => heirs a
  | .abort _ | .ask _ _ => []

/-- The program at a place makes its next request. -/
def go (a : Ambient) (heirs : α → List (Program α)) (t : Turns α) (place : Nat) : Turns α :=
  match t.programs[place]? with
  | some (.ask r next) =>
    let (answer, world) := t.world.answer a r
    { world
      programs := t.programs.set place (next answer) ++ followers heirs (next answer)
      exchanges := t.exchanges ++ [(place, ⟨r, answer⟩)] }
  | _ => t

def step (a : Ambient) (heirs : α → List (Program α)) (t : Turns α) : Turn → Turns α
  | .go place => t.go a heirs place
  | .pass s => { t with world := { t.world with uptime := t.world.uptime.after s } }
  | .cancel => { t with world := { t.world with cancelled := true } }

def run (a : Ambient) (heirs : α → List (Program α)) (t : Turns α) (schedule : List Turn) :
    Turns α :=
  schedule.foldl (step a heirs) t

theorem run_append (a : Ambient) (heirs : α → List (Program α)) (t : Turns α)
    (first second : List Turn) :
    t.run a heirs (first ++ second) = (t.run a heirs first).run a heirs second :=
  List.foldl_append

theorem length_programs_le_step (a : Ambient) (heirs : α → List (Program α)) (t : Turns α)
    (turn : Turn) : t.programs.length ≤ (t.step a heirs turn).programs.length := by
  cases turn with
  | go place =>
    simp only [step, go]
    split
    · simp
    · exact Nat.le_refl _
  | pass | cancel => exact Nat.le_refl _

/-- How the program at a place has ended. -/
def outcome? (t : Turns α) (place : Nat) : Option (Outcome α) :=
  match t.programs[place]? with
  | some (.done a) => some (.done a)
  | some (.abort text) => some (.aborted text)
  | _ => none

end Turns

end SmsTracking
