import SmsTracking.Proofs.Rivalry
import SmsTracking.Proofs.Workforce

/-!
Workers do not wait for their messages. A worker waits only after a load that has missed its
message, and no message is ever taken out of the store. Main statement: whoever goes on when, no
worker of a batch of stored messages waits or breaks off (`Turns.prompt_run`).
-/

namespace SmsTracking

def Request.isPause : Request → Bool
  | pause _ => true
  | _ => false

/-- A load has missed the message. -/
def Exchange.misses (id : Uuid) : Exchange → Bool
  | ⟨.load other, .error _⟩ => other = id
  | _ => false

theorem Exchange.misses_load_iff {id other : Uuid} {answer : Except DomainError Message} :
    misses id ⟨.load other, answer⟩ = true ↔ other = id ∧ ∃ e, answer = .error e := by
  cases answer <;> simp [misses]

/-- What a worker has seen of its message. -/
structure Lookout where
  id : Uuid
  /-- A load has missed the message. -/
  missed : Bool

namespace Lookout

def next (l : Lookout) (x : Exchange) : Lookout := { l with missed := l.missed || x.misses l.id }

/-- A worker waits only if its message was missed, and does not break off. -/
def conduct : Conduct Lookout (Option Message) where
  start := ⟨⟨0⟩, false⟩
  next := next
  may l r := r.isPause = true → l.missed = true
  ends _ o := ∃ m, o = .done m

/-- A part of the work has ended, somehow. -/
def Own (id : Uuid) {α : Type} (l : Lookout) (_ : Outcome α) : Prop := l.id = id

end Lookout

open Lookout

namespace Program

variable {α β : Type} {id : Uuid}

/-- Whatever was seen before, the program waits only after a load that has missed the message. -/
def Prompt (id : Uuid) (p : Program α) : Prop :=
  ∀ missed, p.Follows (conduct.upTo (Own id)) ⟨id, missed⟩

namespace Prompt

theorem done (x : α) : (Program.done x).Prompt id := fun _ => rfl

theorem abort (text : String) : (Program.abort text : Program α).Prompt id := fun _ => rfl

theorem request {r : Request} {f : r.Answer → Program α} (busy : r.isPause = false)
    (rest : ∀ answer, (f answer).Prompt id) : (Program.request r >>= f).Prompt id := by
  intro missed
  refine ⟨fun pauses => ?_, fun a w => rest _ _⟩
  rw [busy] at pauses
  cases pauses

theorem bind {p : Program β} {f : β → Program α} (first : p.Prompt id)
    (rest : ∀ x, (f x).Prompt id) : (p >>= f).Prompt id := by
  intro missed
  refine Follows.bind (c := conduct.upTo (Own id)) (first missed) ?_ fun _ _ own => own
  intro l x own
  cases own
  exact rest x l.missed

/-- A program that never waits. -/
theorem of_follows {σ : Type} {c : Conduct σ α} {p : Program α} {s : σ}
    (busy : ∀ s r, c.may s r → r.isPause = false) (follows : p.Follows c s) : p.Prompt id := by
  induction p generalizing s with
  | done x => exact .done x
  | abort text => exact .abort text
  | ask r next ih =>
      intro missed
      refine ⟨fun pauses => ?_, fun a w => ih _ (follows.2 a w) _⟩
      rw [busy s r follows.1] at pauses
      cases pauses

end Prompt

end Program

open Program (Prompt)

variable {id : Uuid}

theorem Lifecycle.transition_prompt (message : Uuid) (move : Move) (retries : Nat) :
    (transition message move retries).Prompt id := by
  refine .of_follows (fun b r may => ?_) (transition_follows_bid message move retries .load)
  cases may <;> rfl

namespace Listener

theorem release_prompt (key : ListenerKey) : (release key).Prompt id := by
  apply Prompt.request rfl
  intro answer
  cases answer with
  | ok => exact .done _
  | error e => exact .request rfl fun _ => .done _

theorem complete_prompt (key : ListenerKey) (e : Envelope) (started : Instant) :
    (complete key e started).Prompt id := by
  refine .request rfl fun finished => .request rfl fun handledAt => .request rfl fun id' =>
    .request rfl fun createdAt => .request rfl fun answer => ?_
  match answer with
  | .ok true => exact .done _
  | .ok false => exact .request rfl fun _ => .done _
  | .error reason => exact (release_prompt key).bind fun _ => .done _

theorem handle_prompt (retries : Nat) {e : Envelope} {sms : Sms}
    (decoded : e.payloadAs .phoneSending = .ok (.phoneSending sms)) :
    (handle retries .phoneSending e).Prompt id := by
  refine .request rfl fun answer => ?_
  match answer with
  | .ok .claimed =>
      refine .request rfl fun started => Prompt.bind ?_ fun tried => ?_
      · simp only [apply, decoded, operation]
        exact Lifecycle.transition_prompt sms.id _ retries
      · cases tried with
        | ok m => exact complete_prompt _ e started
        | error reason => exact (release_prompt _).bind fun _ => .done _
  | .ok .alreadyHandled => exact .done _
  | .ok .inProgress => exact .done _
  | .error reason => exact .done _

end Listener

namespace Service

variable (config : ServiceConfig)

theorem dispatch_prompt (messageId : Uuid) {e : Envelope} {sms : Sms}
    (carries : e.Carries .phoneSending (.phoneSending sms)) :
    ((inPlace config).dispatch messageId e).Prompt id := by
  have transports : ((inPlace config).transport e).Prompt id := by
    refine .request rfl fun answer => ?_
    cases answer with
    | error reason => exact .done _
    | ok =>
        simp only [Listener.dispatch_handlers carries.kind]
        apply (Listener.handle_prompt _ carries.decoded).bind
        intro answer
        cases answer with
        | ok => exact .done _
        | error reason => exact .request rfl fun _ => .done _
  apply Prompt.request rfl
  intro cancelled
  cases cancelled with
  | true => exact .done _
  | false =>
      apply transports.bind
      intro answer
      cases answer <;> exact .done _

theorem look_prompt {missing : DomainError → Program (Except AppError Message)}
    (rest : ∀ e, (missing e).Follows (conduct.upTo (Own id)) ⟨id, true⟩) :
    (look id missing).Prompt id := by
  intro missed
  refine .load nofun fun answer => ?_
  cases answer with
  | ok m => rfl
  | error e =>
      have seen : conduct.next ⟨id, missed⟩ ⟨.load id, .error e⟩ = ⟨id, true⟩ := by
        simp [conduct, next, Exchange.misses]
      change Program.Follows (conduct.upTo (Own id)) _ (conduct.next _ _)
      rw [seen]
      cases e with
      | notFound reason => exact rest _
      | _ => rfl

/-- Each wait of a search comes after a load that has missed the message. -/
theorem reload_prompt (interval : Span) (attempts : Nat) :
    (reload interval id attempts).Prompt id := by
  induction attempts with
  | zero => exact look_prompt fun e => rfl
  | succ attempts ih =>
      refine look_prompt fun e => ⟨fun _ => rfl, fun a w => ?_⟩
      change Program.Follows _ (if w.cancelled = true then _ else _) (Lookout.mk id true)
      cases w.cancelled with
      | true => rfl
      | false => exact ih true

theorem handOut_prompt (source : String) (m : Message) :
    ((inPlace config).handOut source m).Prompt m.id := by
  refine .request rfl fun eventId => .request rfl fun time => Prompt.bind
    (dispatch_prompt config _ (Envelope.ofPayload_carries eventId time source
      (.phoneSending (.ofMessage m)))) fun answer => ?_
  cases answer with
  | ok => exact reload_prompt _ _
  | error reason => exact .done _

end Service

/-- A worker keeps a lookout for its message. -/
theorem Batch.work_follows_lookout (config : ServiceConfig) (source : String)
    (job : Message × Nat) :
    (work (.inPlace config) source job).Follows conduct ⟨job.1.id, false⟩ := by
  refine Program.Follows.bind (c := conduct)
    (Service.handOut_prompt config source job.1 false).attempt ?_ ?_
  · intro l outcome _
    have busy (line : LogLine) : (Request.write line).isPause = true → l.missed = true := by
      intro pauses
      cases pauses
    cases outcome with
    | aborted text => exact ⟨busy _, fun a w => ⟨_, rfl⟩⟩
    | done result =>
        cases result with
        | ok m => exact ⟨_, rfl⟩
        | error reason =>
            simp only [WorkerEnd.ofOutcome, WorkerEnd.note, WorkerEnd.lines]
            split
            · exact ⟨_, rfl⟩
            · exact ⟨busy _, fun a w => ⟨_, rfl⟩⟩
  · intro _ text aborted
    obtain ⟨_, ended, _⟩ := aborted
    cases ended

namespace World

/-- A message that is stored stays there, whatever becomes of it. -/
theorem isSome_find?_answer (a : Ambient) {w : World} (r : Request)
    (stored : (w.messages.find? id).isSome = true) :
    ((w.answer a r).2.messages.find? id).isSome = true := by
  obtain same | ⟨m, n, -, -, -, -, -, left⟩ | ⟨m, -, -, -, left⟩ := w.answer_find?_cases a r id
  · rwa [same]
  · rw [left]
    rfl
  · rw [left]
    rfl

theorem misses_eq_false (a : Ambient) {w : World} (r : Request)
    (stored : (w.messages.find? id).isSome = true) :
    Exchange.misses id ⟨r, (w.answer a r).1⟩ = false := by
  cases r with
  | load other =>
      rw [Bool.eq_false_iff]
      intro missed
      obtain ⟨rfl, e, failed⟩ := Exchange.misses_load_iff.mp missed
      obtain ⟨m, found⟩ := Option.isSome_iff_exists.mp stored
      rw [answer, MessageStore.load_of_find? found] at failed
      cases failed
  | _ => rfl

end World

/-- No worker has missed its message, and none has waited. -/
structure Alert (w : World) (es : List (Nat × Exchange)) (ls : List Lookout) : Prop where
  stored : ∀ l ∈ ls, (w.messages.find? l.id).isSome = true
  seen : ∀ l ∈ ls, l.missed = false
  busy : ∀ e ∈ es, e.2.request.isPause = false

theorem Alert.go {a : Ambient} {w : World} {es : List (Nat × Exchange)} {ls : List Lookout}
    (alert : Alert w es ls) {place : Nat} {l : Lookout} (found : ls[place]? = some l) {r : Request}
    (may : r.isPause = true → l.missed = true) :
    Alert (w.answer a r).2 (es ++ [(place, ⟨r, (w.answer a r).1⟩)])
      (ls.set place (l.next ⟨r, (w.answer a r).1⟩)) := by
  have mem : l ∈ ls := List.mem_of_getElem? found
  have same : l.next ⟨r, (w.answer a r).1⟩ = l := by
    rw [Lookout.next, World.misses_eq_false a r (alert.stored l mem), Bool.or_false]
  obtain ⟨inside, here⟩ := List.getElem?_eq_some_iff.mp found
  rw [same, ← here, List.set_getElem_self inside]
  refine ⟨fun l mem => World.isSome_find?_answer a r (alert.stored l mem), alert.seen, ?_⟩
  intro e asked
  cases List.mem_append.mp asked with
  | inl before => exact alert.busy e before
  | inr new =>
      cases List.mem_singleton.mp new
      rw [Bool.eq_false_iff]
      intro pauses
      rw [alert.seen l mem] at may
      cases may pauses

namespace Turns

theorem prompt_run (a : Ambient) (config : ServiceConfig) {b : Batch} {w : World}
    (stored : ∀ m ∈ b.messages, (w.messages.find? m.id).isSome = true) (schedule : List Turn) :
    let t := (ofBatch (.inPlace config) b w).run a alone schedule
    (∀ place text, t.outcome? place ≠ some (.aborted text)) ∧
      ∀ e ∈ t.exchanges, e.2.request.isPause = false := by
  have keeps : Keeps conduct (ofBatch (.inPlace config) b w).programs
      (b.messages.map fun m => ⟨m.id, false⟩) :=
    keeps_ofBatch (Batch.work_follows_lookout config b.source) w
  have alert : Alert w [] (b.messages.map fun m => ⟨m.id, false⟩) := by
    refine ⟨fun l mem => ?_, fun l mem => ?_, List.forall_mem_nil _⟩
    all_goals obtain ⟨m, listed, rfl⟩ := List.mem_map.mp mem
    · exact stored m listed
    · rfl
  have begets : Begets conduct alone (fun _ => []) := fun _ _ _ => .nil
  obtain ⟨ls, keeps, alert⟩ := run_keeps_offspring (a := a) (I := Alert) begets keeps alert
    (fun w es ls place l r more alert found may bears => by
      have nobody : more = [] := by cases bears <;> rfl
      rw [nobody, List.append_nil]
      exact alert.go found may)
    (fun w es ls s alert => ⟨alert.stored, alert.seen, alert.busy⟩)
    (fun w es ls alert => ⟨alert.stored, alert.seen, alert.busy⟩) schedule
  refine ⟨fun place text ended => ?_, alert.busy⟩
  obtain ⟨o, stands⟩ := exists_outcome_of_isSome (Option.isSome_iff_exists.mpr ⟨_, ended⟩)
  obtain ⟨l, _, follows⟩ := keeps.exists_standing stands
  rw [outcome?, stands] at ended
  cases o with
  | done m => cases ended
  | aborted text =>
      obtain ⟨m, same⟩ := follows
      cases same

end Turns

end SmsTracking
