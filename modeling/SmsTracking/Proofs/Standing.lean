import SmsTracking.Proofs.Conduct
import SmsTracking.Service.Listener

/-!
How a delivery conducts itself. It claims its key first; only with a granted claim does it work on
messages, and once it has written a message all that is left to it is to record the event. A claim
that is not followed by a write is given up. Main statement: the listener keeps to this
(`handleEvent_follows`).
-/

namespace SmsTracking

inductive Standing where
  | waiting
  /-- It was granted the claim. -/
  | working
  /-- It has written a message. -/
  | written
  | recorded
  /-- It has given up the claim. -/
  | released
  /-- It has found the event handled. -/
  | answered
  /-- It has found the event being handled. -/
  | refused
deriving DecidableEq

namespace Exchange

def commits : Exchange → Bool
  | ⟨.store _, .ok _⟩ => true
  | ⟨.update _, .done⟩ => true
  | _ => false

/-- Whether a claim is held after the exchange, by whether one was held before it. -/
def hold (held : Bool) : Exchange → Bool
  | ⟨.claim _, .ok .claimed⟩ => true
  | ⟨.record _, _⟩ | ⟨.release _, _⟩ => false
  | _ => held

theorem commits_of_isQuiet {r : Request} (answer : r.Answer) (quiet : r.isQuiet = true) :
    commits ⟨r, answer⟩ = false := by
  cases r with
  | store _ | update _ | claim _ | record _ | release _ => cases quiet
  | _ => rfl

theorem hold_of_isQuiet (held : Bool) {r : Request} (answer : r.Answer)
    (quiet : r.isQuiet = true) : hold held ⟨r, answer⟩ = held := by
  cases r with
  | store _ | update _ | claim _ | record _ | release _ => cases quiet
  | _ => rfl

end Exchange

/-- The last granted claim was neither turned into a record nor released. -/
def holding (talk : List Exchange) : Bool := talk.foldl Exchange.hold false

/-- Deliveries of one event of one type share a key. -/
def Envelope.key (e : Envelope) : ListenerKey := ⟨e.id, "MessageListener." ++ e.type⟩

namespace Standing

def next : Standing → Exchange → Standing
  | waiting, ⟨.claim _, .ok .claimed⟩ => working
  | waiting, ⟨.claim _, .ok .alreadyHandled⟩ => answered
  | waiting, ⟨.claim _, _⟩ => refused
  | working, ⟨.release _, _⟩ => released
  | working, x => if x.commits then written else working
  | written, ⟨.record _, _⟩ => recorded
  | s, _ => s

inductive May (own : Option ListenerKey) : Standing → Request → Prop
  | quiet {s : Standing} {r : Request} (h : r.isQuiet = true) : May own s r
  | claim {key : ListenerKey} (h : own = some key) : May own waiting (.claim key)
  | store (m : Message) : May own working (.store m)
  | update (m : Message) : May own working (.update m)
  | release {key : ListenerKey} (h : own = some key) : May own working (.release key)
  | record {h : HandledEvent} (own_eq : own = some (ListenerLog.keyOf h)) :
      May own written (.record h)

/-- How a delivery ends. It may break off while it works, but not once it has written. -/
inductive Ends : Standing → Outcome (Except AppError Unit) → Prop
  | unknown (e : AppError) : Ends waiting (.done (.error e))
  | refused (e : AppError) : Ends refused (.done (.error e))
  | released (e : AppError) : Ends released (.done (.error e))
  | aborted (text : String) : Ends working (.aborted text)
  | recorded : Ends recorded (.done (.ok ()))
  | answered : Ends answered (.done (.ok ()))

@[simp]
theorem next_of_isQuiet (s : Standing) {r : Request} (answer : r.Answer)
    (quiet : r.isQuiet = true) : s.next ⟨r, answer⟩ = s := by
  cases r with
  | store _ | update _ | claim _ | record _ | release _ => cases quiet
  | _ => cases s <;> rfl

/-- Whether a claim is held can be told from the standing. -/
def holds (s : Standing) : Bool := s = working ∨ s = written

theorem May.hold {own : Option ListenerKey} {s : Standing} {r : Request} (may : May own s r)
    (answer : r.Answer) : Exchange.hold s.holds ⟨r, answer⟩ = (s.next ⟨r, answer⟩).holds := by
  cases may with
  | quiet h => rw [Exchange.hold_of_isQuiet _ _ h, next_of_isQuiet _ _ h]
  | claim h =>
      cases answer with
      | error e => rfl
      | ok answer => cases answer <;> rfl
  | store m => cases answer <;> rfl
  | update m => cases answer <;> rfl
  | release h => rfl
  | record h => rfl

/-- A delivery leaves the slots of other keys alone. -/
theorem May.find?_answer_of_ne {own : Option ListenerKey} {s : Standing} {r : Request}
    (may : May own s r) (a : Ambient) (w : World) {key : ListenerKey} (other : own ≠ some key) :
    (w.answer a r).2.log.slots.find? key = w.log.slots.find? key := by
  cases may with
  | quiet h => rw [w.answer_log_of_isQuiet a h]
  | claim h => exact w.log.find?_claim_of_ne w.uptime fun same => other (same ▸ h)
  | store m => rfl
  | update m => rfl
  | release h => exact w.log.find?_release_of_ne fun same => other (same ▸ h)
  | record h => exact w.log.find?_record_of_ne fun same => other (same ▸ h)

def conduct (own : Option ListenerKey) : Conduct Standing (Except AppError Unit) where
  start := waiting
  next := next
  may := May own
  ends := Ends

/-- How the operation of a delivery ends: with a message exactly if it has written one. -/
inductive Applied : Standing → Outcome (Except AppError Message) → Prop
  | ok (m : Message) : Applied written (.done (.ok m))
  | error (e : AppError) : Applied working (.done (.error e))
  | aborted (text : String) : Applied working (.aborted text)

end Standing

namespace Lifecycle

open Standing

variable {own : Option ListenerKey}

theorem store_follows (direction : Direction) (d : NewMessage) :
    (store direction d).Follows ((conduct own).upTo Applied) working := by
  refine .now (.quiet rfl) fun now => .store (.store _) fun answer => ?_
  cases answer with
  | error e => exact .error _
  | ok u => exact .ok _

theorem unwritten_follows (id : Uuid) (move : Move) (e : DomainError) :
    (unwritten id move e).Follows ((conduct own).upTo Applied) working :=
  .error _

theorem tryMove_follows (id : Uuid) (move : Move)
    {conflicted : DomainError → Program (Except AppError Message)}
    (rest : ∀ e, (conflicted e).Follows ((conduct own).upTo Applied) working) :
    (tryMove id move conflicted).Follows ((conduct own).upTo Applied) working := by
  refine .load (.quiet rfl) fun answer => ?_
  cases answer with
  | error e => exact .error _
  | ok m =>
      refine .now (.quiet rfl) fun now => ?_
      cases move.apply m now with
      | overflow _ => exact .aborted _
      | refused e => exact .error _
      | done m' =>
          refine .update (.update _) fun answer => ?_
          cases answer with
          | done => exact .ok _
          | overflow => exact .aborted _
          | refused e =>
              cases e with
              | versionConflict id expected actual => exact rest _
              | _ => exact unwritten_follows id move _

theorem transition_follows (id : Uuid) (move : Move) (retries : Nat) :
    (transition id move retries).Follows ((conduct own).upTo Applied) working := by
  induction retries with
  | zero => exact tryMove_follows id move (unwritten_follows id move)
  | succ retries ih => exact tryMove_follows id move fun _ => ih

end Lifecycle

namespace Listener

open Standing

theorem apply_follows (own : Option ListenerKey) (retries : Nat) (k : EventKind) (e : Envelope) :
    (apply retries k e).Follows ((conduct own).upTo Applied) working := by
  unfold apply
  cases e.payloadAs k with
  | error reason => exact .error _
  | ok p =>
      cases p with
      | apiSent sms time => exact Lifecycle.store_follows _ _
      | phoneSending sms => exact Lifecycle.transition_follows _ _ _
      | phoneSent sms time => exact Lifecycle.transition_follows _ _ _
      | phoneReceived sms time => exact Lifecycle.store_follows _ _

theorem complete_follows (key : ListenerKey) {e : Envelope} (id : e.id = key.eventId)
    (started : Instant) : (complete key e started).Follows (conduct (some key)) written := by
  refine .uptime (.quiet rfl) fun finished => .now (.quiet rfl) fun handledAt =>
    .freshId (.quiet rfl) fun id' => .now (.quiet rfl) fun createdAt =>
      .record (.record ?_) fun first => ?_
  · rw [ListenerLog.keyOf, id]
  · cases first with
    | true => exact .recorded
    | false => exact ⟨.quiet rfl, fun a w => .recorded⟩

theorem perform_follows (retries : Nat) (k : EventKind) (e : Envelope) :
    (perform retries k e).Follows (conduct (some (keyOf k e))) working := by
  refine .uptime (.quiet rfl) fun started => (apply_follows _ retries k e).bind ?_ ?_
  · intro s answer applied
    cases applied with
    | ok m => exact complete_follows (keyOf k e) rfl started
    | error e => exact ⟨.release rfl, fun a w => .released _⟩
  · intro s text applied
    cases applied
    exact .aborted text

theorem handle_follows (retries : Nat) (k : EventKind) (e : Envelope) :
    (handle retries k e).Follows (conduct (some (keyOf k e))) waiting := by
  refine .claim (.claim rfl) fun answer => ?_
  cases answer with
  | claimed => exact perform_follows retries k e
  | alreadyHandled => exact .answered
  | inProgress => exact .refused _

theorem keyOf_of_ofName? {k : EventKind} {e : Envelope} (kind : EventKind.ofName? e.type = some k) :
    keyOf k e = e.key := by
  show ListenerKey.mk e.id ("MessageListener." ++ k.name) = .mk e.id ("MessageListener." ++ e.type)
  rw [EventKind.name_of_ofName? kind]

theorem handleEvent_follows (retries : Nat) (e : Envelope) :
    (handleEvent retries e).Follows (conduct (some e.key)) waiting := by
  unfold handleEvent
  cases kind : EventKind.ofName? e.type with
  | none => exact .unknown _
  | some k =>
      rw [← keyOf_of_ofName? kind]
      exact handle_follows retries k e

end Listener

end SmsTracking
