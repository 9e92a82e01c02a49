import SmsTracking.Proofs.Conduct
import SmsTracking.Proofs.Replay

/-!
How a caller who moves a message conducts itself among others. It loads the message, reads the clock
and writes the moved message, and if the message has changed in the meantime it may load it again.
Main statement: transitions keep to this (`transition_follows_bid`).
-/

namespace SmsTracking

inductive Bid where
  | idle
  | loaded (m : Message)
  /-- It has loaded a message and read the clock. -/
  | ready (m : Message) (now : Timestamp)
  | committed (m : Message)
  /-- What it has written was refused. -/
  | beaten (e : DomainError)
  | missing (e : DomainError)
  | full

namespace Exchange

/-- The message that an update has put into the store. -/
def written : Exchange → Option Message
  | ⟨.update m, .done⟩ => some m
  | _ => none

def isLoad : Exchange → Bool
  | ⟨.load _, _⟩ => true
  | _ => false

end Exchange

namespace Bid

def next : Bid → Exchange → Bid
  | _, ⟨.load _, .ok m⟩ => loaded m
  | _, ⟨.load _, .error e⟩ => missing e
  | loaded m, ⟨.now, time⟩ => ready m time
  | ready _ _, ⟨.update m, .done⟩ => committed m
  | ready _ _, ⟨.update _, .refused e⟩ => beaten e
  | ready _ _, ⟨.update _, .overflow⟩ => full
  | b, _ => b

theorem next_load (b : Bid) (id : Uuid) (m : Message) : b.next ⟨.load id, .ok m⟩ = loaded m := by
  cases b <;> rfl

/-- Who has not loaded anything has not begun. -/
theorem standing_of_unloaded {talk : List Exchange} (unloaded : ∀ x ∈ talk, x.isLoad = false) :
    talk.foldl next idle = idle := by
  induction talk with
  | nil => rfl
  | cons x talk ih =>
      have waits : next idle x = idle := by
        have first := unloaded x List.mem_cons_self
        obtain ⟨r, answer⟩ := x
        cases r with
        | load id => cases first
        | update m => cases answer <;> rfl
        | _ => rfl
      rw [List.foldl_cons, waits]
      exact ih fun y h => unloaded y (List.mem_cons_of_mem _ h)

/-- What the caller of this move on this message may ask; nobody else may ask for anything. -/
inductive May (id : Uuid) (own : Option Move) : Bid → Request → Prop
  | load : May id own idle (.load id)
  | reload (e : DomainError) : May id own (beaten e) (.load id)
  | now (m : Message) : May id own (loaded m) .now
  | update {move : Move} {m m' : Message} {time : Timestamp} (called : own = some move)
      (made : move.apply m time = .done m') : May id own (ready m time) (.update m')

/-- How the call ends. -/
inductive Ends (own : Option Move) : Bid → Outcome (Except AppError Message) → Prop
  | committed (m : Message) : Ends own (committed m) (.done (.ok m))
  | beaten (e : DomainError) (text : String) :
      Ends own (beaten e) (.done (.error (.context text (.domain e))))
  | refused {move : Move} {m : Message} {time : Timestamp} {e : DomainError} (text : String)
      (called : own = some move) (refuses : move.apply m time = .refused e) :
      Ends own (ready m time) (.done (.error (.context text (.domain e))))
  | overflow {move : Move} {m m' : Message} {time : Timestamp} (text : String)
      (called : own = some move) (overflows : move.apply m time = .overflow m') :
      Ends own (ready m time) (.aborted text)
  | missing (e : DomainError) (text : String) :
      Ends own (missing e) (.done (.error (.context text (.domain e))))
  | full (text : String) : Ends own full (.aborted text)

def conduct (id : Uuid) (own : Option Move) : Conduct Bid (Except AppError Message) where
  start := idle
  next := next
  may := May id own
  ends := Ends own

end Bid

namespace Lifecycle

open Bid

theorem tryMove_follows_bid (id : Uuid) (move : Move)
    {conflicted : DomainError → Program (Except AppError Message)}
    (rest : ∀ e, (conflicted e).Follows (conduct id (some move)) (beaten e)) {b : Bid}
    (may : May id (some move) b (.load id)) :
    (tryMove id move conflicted).Follows (conduct id (some move)) b := by
  refine .load may fun answer => ?_
  cases answer with
  | error e => exact .missing e _
  | ok m =>
      refine .now (.now m) fun now => ?_
      cases made : move.apply m now with
      | overflow _ => exact .overflow _ rfl made
      | refused e => exact .refused _ rfl made
      | done m' =>
          refine .update (.update rfl made) fun answer => ?_
          cases answer with
          | done => exact .committed m'
          | overflow => exact .full _
          | refused e =>
              cases e with
              | versionConflict id expected actual => exact rest _
              | _ => exact .beaten _ _

theorem unwritten_follows_bid (id : Uuid) (move : Move) (e : DomainError) :
    (unwritten id move e).Follows (conduct id (some move)) (beaten e) :=
  .beaten e _

theorem transition_follows_bid (id : Uuid) (move : Move) (retries : Nat) {b : Bid}
    (may : May id (some move) b (.load id)) :
    (transition id move retries).Follows (conduct id (some move)) b := by
  induction retries generalizing b with
  | zero => exact tryMove_follows_bid id move (unwritten_follows_bid id move) may
  | succ retries ih => exact tryMove_follows_bid id move (fun e => ih (.reload e)) may

end Lifecycle

end SmsTracking
