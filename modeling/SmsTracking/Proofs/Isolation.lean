import SmsTracking.Proofs.Workforce

/-!
The workers of a batch leave each other alone. Once all have ended there is a ticket for each
message of the batch: it was handed out, and then its event is recorded and it has been tried, or it
has failed, and then a line tells so and nothing else is left. If no message is in the batch twice,
each fares as it would by itself, in whatever order the workers run. Main statement:
`batch_isolated`.
-/

namespace SmsTracking

/-! Lists that belong to each other, place by place -/

theorem forall₂_of_map_eq {α β γ : Type} {R : α → β → Prop} {f : α → γ} {g : β → γ} {as : List α}
    {bs : List β} (same : bs.map g = as.map f) (each : ∀ x ∈ as, ∀ y ∈ bs, g y = f x → R x y) :
    List.Forall₂ R as bs := by
  induction as generalizing bs with
  | nil =>
      cases List.map_eq_nil_iff.mp same
      exact .nil
  | cons x as ih =>
      cases bs with
      | nil => cases same
      | cons y bs =>
          obtain ⟨head, tail⟩ := List.cons.inj same
          refine .cons (each x List.mem_cons_self y List.mem_cons_self head) (ih tail ?_)
          intro x mem y mem'
          exact each x (List.mem_cons_of_mem _ mem) y (List.mem_cons_of_mem _ mem')

theorem map_eq_of_forall₂ {α β γ : Type} {f : α → γ} {g : β → γ} {as : List α} {bs : List β}
    (each : List.Forall₂ (fun x y => g y = f x) as bs) : bs.map g = as.map f := by
  induction each with
  | nil => rfl
  | cons head _ ih => rw [List.map_cons, List.map_cons, head, ih]

theorem exists_of_mem_right {α β : Type} {R : α → β → Prop} {as : List α} {bs : List β}
    (related : List.Forall₂ R as bs) {b : β} (mem : b ∈ bs) : ∃ a ∈ as, R a b := by
  induction related with
  | nil => cases mem
  | cons first rest ih =>
      rcases List.mem_cons.mp mem with rfl | mem
      · exact ⟨_, List.mem_cons_self, first⟩
      · obtain ⟨a, listed, found⟩ := ih mem
        exact ⟨a, List.mem_cons_of_mem _ listed, found⟩

/-- What is found of each, and kept by all of them. -/
theorem forall₂_filterMap {α β γ : Type} {R : α → γ → Prop} {f : β → Option γ} {as : List α}
    {bs : List β} (each : List.Forall₂ (fun x y => ∃ z, f y = some z ∧ R x z) as bs) :
    List.Forall₂ R as (bs.filterMap f) := by
  induction each with
  | nil => exact .nil
  | cons head _ ih =>
      obtain ⟨z, found, related⟩ := head
      rw [List.filterMap_cons_some found]
      exact .cons related ih

theorem map_id_of_messages {β : Type} {sms : β → Sms} {xs : List β} {ns : List Message}
    (messages : xs.map sms = ns.map .ofMessage) : xs.map (fun x => (sms x).id) = ns.map (·.id) := by
  have named := congrArg (List.map Sms.id) messages
  rw [List.map_map, List.map_map] at named
  exact named

/-- What is left of a worker that has ended. -/
structure Ticket where
  sms : Sms
  event : Envelope
  answer : Option Message
  line : Option LogLine

namespace Ticket

def face (t : Ticket) : Face where
  id := t.sms.id
  drawn := if t.answer.isSome then 2 else 1
  eventId := t.event.id
  entry := if t.answer.isSome then .handled else .vacant
  hasWritten := t.answer.isSome
  announced := t.event
  line := t.line

/-- The worker has ended with this ticket. -/
inductive Of : Post → Ticket → Prop
  | loaded (source : String) (sms : Sms) (e : Envelope) (m : Message) :
      Of ⟨source, sms, .loaded e m⟩ ⟨sms, e, some m, none⟩
  | failed (source : String) (sms : Sms) (e : Envelope) (bid : Bid) (line : LogLine) :
      Of ⟨source, sms, .failed e bid line⟩ ⟨sms, e, none, some line⟩

theorem Of.face_eq {p : Post} {t : Ticket} (of : Of p t) : p.face = t.face := by
  cases of <;> rfl

theorem Of.sms_eq {p : Post} {t : Ticket} (of : Of p t) : p.sms = t.sms := by
  cases of <;> rfl

/-- So many workers of the message have handed it out. -/
def handed (ts : List Ticket) (id : Uuid) : Nat :=
  ts.countP fun t => t.sms.id = id && t.answer.isSome

theorem writers_eq_handed (ts : List Ticket) (id : Uuid) :
    writers (ts.map face) id = handed ts id := by
  rw [writers, List.countP_map]
  rfl

/-- How a worker has fared. A message that was handed out is what some of the tries that were made,
and at least one, have made of what was stored. -/
inductive Settled (a : Ambient) (w : World) (handed : Uuid → Nat) : Ticket → Prop
  | handedOut {sms : Sms} {e : Envelope} {m₀ m : Message} {k : Nat} (own : e.Tries a sms)
      (stored : w.messages.find? sms.id = some m₀) (tries : m₀.Tries a k m) (tried : 0 < k)
      (most : k ≤ handed sms.id) : Settled a w handed ⟨sms, e, some m, none⟩
  | failed {sms : Sms} {e : Envelope} (own : e.Tries a sms) (reason : AppError) :
      Settled a w handed
        ⟨sms, e, none, some (Post.unsent sms (Post.failure sms e reason).message)⟩

theorem Settled.own {a : Ambient} {w : World} {handed : Uuid → Nat} {t : Ticket}
    (settled : t.Settled a w handed) : t.event.Tries a t.sms := by
  cases settled <;> assumption

end Ticket

/-- What a batch that began in the world `w` has left, by the tickets of its workers. A worker that
has failed has left one line, and in the repositories nothing. -/
structure Batch.Leaves (a : Ambient) (b : Batch) (w w' : World) (ts : List Ticket) : Prop where
  messages : ts.map (·.sms) = b.messages.map .ofMessage
  settled : ∀ t ∈ ts, t.Settled a w (Ticket.handed ts)
  announced : w'.announced.Perm (w.announced ++ ts.map (·.event))
  errors : w'.errors.Perm (w.errors ++ ts.filterMap (·.line))
  events : (ts.map (·.event.id)).Nodup
  recorded : ∀ t ∈ ts, w'.log.has t.event.key = t.answer.isSome
  log : ∀ key, (∀ t ∈ ts, t.answer.isSome = true → key ≠ t.event.key) →
    w'.log.slots.find? key = w.log.slots.find? key
  vacant : ∀ id, w.messages.find? id = none → w'.messages.find? id = none
  stored : ∀ id m₀, w.messages.find? id = some m₀ →
    ∃ m, w'.messages.find? id = some m ∧ m₀.Tries a (Ticket.handed ts id) m

namespace Turns

theorem Over.exists_outcome {α : Type} {t : Turns α} (ended : t.Over) {p : Program α}
    (mem : p ∈ t.programs) : ∃ o : Outcome α, p = o.toProgram := by
  obtain ⟨place, inside, rfl⟩ := List.getElem_of_mem mem
  obtain ⟨o, found⟩ := exists_outcome_of_isSome (ended place inside)
  rw [List.getElem?_eq_getElem inside] at found
  exact ⟨o, Option.some_inj.mp found⟩

end Turns

namespace Post

theorem exists_ticket {a : Ambient} {w₀ w : World} {k : Nat} {p : Post}
    {o : Outcome (Option Message)} (ends : Ends p.duty o) (sound : Sound a w₀ w k p.sms p.duty)
    (running : w.cancelled = false) : ∃ t, Ticket.Of p t ∧ o = .done t.answer := by
  obtain ⟨source, sms, duty⟩ := p
  cases ends with
  | dropped e =>
      cases sound with
      | dropped own cancelled =>
          rw [running] at cancelled
          cases cancelled
  | loaded e m => exact ⟨_, .loaded source sms e m, rfl⟩
  | failed e bid line => exact ⟨_, .failed source sms e bid line, rfl⟩
  | stray o => cases sound

theorem exists_tickets {a : Ambient} {w₀ w : World} {programs : List (Program (Option Message))}
    {ps : List Post} (keeps : Turns.Keeps conduct programs ps)
    (ended : ∀ p ∈ programs, ∃ o : Outcome (Option Message), p = o.toProgram)
    (sound : ∀ p ∈ ps, ∃ k, Sound a w₀ w k p.sms p.duty) (running : w.cancelled = false) :
    ∃ ts, List.Forall₂ Ticket.Of ps ts ∧ programs = ts.map fun t => .done t.answer := by
  induction keeps with
  | nil => exact ⟨[], .nil, rfl⟩
  | @cons _ p _ _ follows _ ih =>
      obtain ⟨o, rfl⟩ := ended _ List.mem_cons_self
      obtain ⟨k, head⟩ := sound p List.mem_cons_self
      have ends : Ends p.duty o := by cases o <;> exact follows
      obtain ⟨t, of, rfl⟩ := exists_ticket ends head running
      obtain ⟨ts, rest, rfl⟩ := ih (fun p mem => ended p (List.mem_cons_of_mem _ mem))
        fun p mem => sound p (List.mem_cons_of_mem _ mem)
      exact ⟨t :: ts, .cons of rest, rfl⟩

end Post

theorem Ticket.map_face {ps : List Post} {ts : List Ticket} (all : List.Forall₂ Of ps ts) :
    ps.map Post.face = ts.map face :=
  (map_eq_of_forall₂ (all.imp fun _ _ of => of.face_eq.symm)).symm

theorem Ticket.map_sms {ps : List Post} {ts : List Ticket} (all : List.Forall₂ Of ps ts) :
    ps.map (·.sms) = ts.map (·.sms) :=
  (map_eq_of_forall₂ (all.imp fun _ _ of => of.sms_eq.symm)).symm

theorem ListenerLog.has_iff_stateOf {log : ListenerLog} {key : ListenerKey} :
    log.has key = true ↔ log.stateOf key = .handled := by
  unfold has stateOf
  cases log.slots.find? key with
  | none => simp
  | some slot => cases slot <;> simp

section Leaves

variable {a : Ambient} {b : Batch} {w₀ w : World} {ps : List Post} {ts : List Ticket}

theorem Ticket.settled_of {p : Post} {t : Ticket} (of : Of p t)
    (sound : Post.Sound a w₀ w (handed ts p.sms.id) p.sms p.duty) :
    t.Settled a w₀ (handed ts) := by
  obtain ⟨source, sms, duty⟩ := p
  simp only at sound
  cases sound with
  | loaded own seen tried =>
      cases of
      obtain ⟨m₀, stored, tries, most, _⟩ := seen
      exact .handedOut own stored tries tried most
  | failed own knows fails =>
      cases of
      exact .failed own _
  | _ => cases of

theorem Manned.leaves (manned : Manned a w₀ w ps) (all : List.Forall₂ Ticket.Of ps ts)
    (messages : ps.map (·.sms) = b.messages.map .ofMessage) : b.Leaves a w₀ w ts := by
  have faces := Ticket.map_face all
  have settled : ∀ t ∈ ts, t.Settled a w₀ (Ticket.handed ts) := by
    intro t mem
    obtain ⟨p, listed, of⟩ := exists_of_mem_right all mem
    have sound := manned.sound p listed
    rw [faces, Ticket.writers_eq_handed] at sound
    exact Ticket.settled_of of sound
  have entries : ∀ t ∈ ts,
      w.log.stateOf t.event.key = if t.answer.isSome then .handled else .vacant := by
    intro t mem
    obtain ⟨place, inside, rfl⟩ := List.getElem_of_mem mem
    have shown : (ps.map Post.face)[place]? = some ts[place].face := by
      rw [faces, List.getElem?_map, List.getElem?_eq_getElem inside, Option.map_some]
    rw [Manned.attemptKey_of_tries (settled _ mem).own]
    exact manned.logged.own place _ _ shown rfl
  have ids : (ps.map Post.face).filterMap (·.eventId) = ts.map (·.event.id) := by
    rw [faces, List.filterMap_map]
    exact congrFun List.filterMap_eq_map ts
  have announced : (ps.map Post.face).filterMap (·.announced) = ts.map (·.event) := by
    rw [faces, List.filterMap_map]
    exact congrFun List.filterMap_eq_map ts
  have lines : (ps.map Post.face).filterMap (·.line) = ts.filterMap (·.line) := by
    rw [faces, List.filterMap_map]
    rfl
  refine ⟨(Ticket.map_sms all).symm.trans messages, settled, ?_, ?_, ?_, ?_, ?_, ?_, ?_⟩
  · rw [← announced]
    exact manned.told.announced
  · rw [← lines]
    exact manned.told.errors
  · rw [← ids]
    exact manned.numbered.distinct
  · intro t mem
    rw [Bool.eq_iff_iff, ListenerLog.has_iff_stateOf, entries t mem]
    cases t.answer <;> simp
  · refine fun key apart => manned.find?_of_vacant fun f mem id named same => ?_
    rw [faces] at mem
    obtain ⟨t, listed, rfl⟩ := List.mem_map.mp mem
    cases named
    have own : key = t.event.key := by
      rw [same, Manned.attemptKey_of_tries (settled t listed).own]
    by_cases answered : t.answer.isSome = true
    · exact absurd own (apart t listed answered)
    · simp [Ticket.face, answered]
  · exact fun id vacant => (manned.stocked.vacant id vacant).1
  · intro id m₀ began
    rw [← Ticket.writers_eq_handed, ← faces]
    exact manned.stocked.stored id m₀ began

end Leaves

/-! What becomes of each message by itself, with the clock held still -/

/-- What a try at this time would come to. -/
def World.verdict (w : World) (now : Timestamp) (id : Uuid) : Except DomainError Message :=
  match w.messages.find? id with
  | none => .error (.noMessage id)
  | some m =>
      if m.status ∈ Status.attemptAllowed then .ok ((Move.attempt now).result m now)
      else .error (.wrongStatus m.id m.status Status.attemptAllowed)

/-- The message that is stored if a try was made. -/
def World.tried (w : World) (now : Timestamp) (id : Uuid) : Option Message :=
  match w.verdict now id with
  | .ok m => some m
  | .error _ => w.messages.find? id

section Verdict

variable {a : Ambient} {w₀ w : World} {now : Timestamp}

theorem World.verdict_of_allowed {id : Uuid} {m : Message} (stored : w.messages.find? id = some m)
    (allowed : m.status ∈ Status.attemptAllowed) :
    w.verdict now id = .ok ((Move.attempt now).result m now) := by
  simp only [verdict, stored, if_pos allowed]

theorem World.verdict_of_refused {id : Uuid} {m : Message} (stored : w.messages.find? id = some m)
    (refused : m.status ∉ Status.attemptAllowed) :
    w.verdict now id = .error (.wrongStatus m.id m.status Status.attemptAllowed) := by
  simp only [verdict, stored, if_neg refused]

theorem World.verdict_of_vacant {id : Uuid} (vacant : w.messages.find? id = none) :
    w.verdict now id = .error (.noMessage id) := by
  simp only [verdict, vacant]

theorem World.id_of_verdict {id : Uuid} {m : Message} (decided : w.verdict now id = .ok m) :
    m.id = id := by
  unfold verdict at decided
  split at decided
  · cases decided
  · rename_i stored
    split at decided
    · cases decided
      rw [Move.result_id, MessageStore.id_of_find? stored]
    · cases decided

namespace Ticket

/-- The ticket says so. -/
inductive Agrees : Except DomainError Message → Ticket → Prop
  | ok (sms : Sms) (e : Envelope) (m : Message) : Agrees (.ok m) ⟨sms, e, some m, none⟩
  | error (sms : Sms) (e : Envelope) (reason : DomainError) (text : String) :
      Agrees (.error reason) ⟨sms, e, none,
        some (Post.unsent sms (Post.failure sms e (.context text (.domain reason))).message)⟩

/-- The only worker of a message that fails fails because of what was stored. -/
theorem agrees_of_failed {sms : Sms} {e : Envelope} {bid : Bid} {reason : AppError}
    (knows : bid.Knows a w₀ w sms.id 0) (fails : bid.Ends (Post.move e) (.done (.error reason))) :
    Agrees (w₀.verdict now sms.id)
      ⟨sms, e, none, some (Post.unsent sms (Post.failure sms e reason).message)⟩ := by
  cases fails with
  | beaten =>
      cases knows with
      | beaten _ written => exact absurd written (Nat.lt_irrefl 0)
  | refused text called refuses =>
      cases called
      cases knows with
      | ready seen i =>
          obtain ⟨j, m₀, stored, tries, most, _⟩ := seen
          obtain rfl : j = 0 := Nat.le_zero.mp most
          cases tries
          obtain ⟨refused, rfl⟩ := Move.apply_eq_refused_iff.mp refuses
          rw [World.verdict_of_refused stored refused]
          exact .error ..
  | missing =>
      cases knows with
      | missing vacant =>
          rw [World.verdict_of_vacant vacant]
          exact .error ..

/-- The only worker of a message fares as the message is. -/
theorem agrees_of {p : Post} {t : Ticket} {k : Nat} (of : Of p t)
    (sound : Post.Sound a w₀ w k p.sms p.duty) (steady : ∀ n, a.clock n = now)
    (only : k = if t.answer.isSome then 1 else 0) : Agrees (w₀.verdict now p.sms.id) t := by
  obtain ⟨source, sms, duty⟩ := p
  simp only at sound
  cases sound with
  | loaded own seen tried =>
      cases of
      obtain rfl : k = 1 := only
      obtain ⟨m₀, stored, tries, most, _⟩ := seen
      cases tries with
      | none => exact absurd tried (Nat.lt_irrefl 0)
      | more before allowed room =>
          obtain rfl : _ = 0 := Nat.le_zero.mp (Nat.le_of_succ_le_succ most)
          cases before
          rw [steady, steady, World.verdict_of_allowed stored allowed]
          exact .ok ..
  | failed own knows fails =>
      cases of
      obtain rfl : k = 0 := only
      exact agrees_of_failed knows fails
  | _ => cases of

end Ticket

end Verdict

/-! The same as by itself -/

/-- The worker has ended as handing out the message by itself does: with the same message, or with a
line that tells of a failure for the same reason. -/
inductive Ticket.Matches : Ticket → Outcome (Except AppError Message) → Prop
  | ok (sms : Sms) (e : Envelope) (m : Message) : Matches ⟨sms, e, some m, none⟩ (.done (.ok m))
  | error (sms : Sms) (e e' : Envelope) {reason reason' : AppError}
      (same : reason.root = reason'.root) :
      Matches ⟨sms, e, none, some (Post.unsent sms (Post.failure sms e reason).message)⟩
        (.done (.error (Post.failure sms e' reason')))

namespace Service

variable {a : Ambient} (config : ServiceConfig) (source : String) {w : World} {now : Timestamp}

/-- A message that is handed out by itself fares as it is. -/
theorem run_handOut_verdict (running : w.cancelled = false) (fresh : w.Fresh a 1)
    (steady : ∀ n, a.clock n = now) {n : Message}
    (room : ∀ m, w.messages.find? n.id = some m → (Move.attempt now).HasRoom m) :
    match w.verdict now n.id with
    | .ok m => ∃ w', ((inPlace config).handOut source n).run a w = (.done (.ok m), w') ∧
        w'.messages = w.messages.put m
    | .error reason => ∃ e text w', ((inPlace config).handOut source n).run a w =
        (.done (.error (Post.failure (.ofMessage n) e (.context text (.domain reason)))), w') ∧
        w'.messages = w.messages := by
  have vacant := fresh.vacant 0 (by decide) .phoneSending
  cases stored : w.messages.find? n.id with
  | none =>
      rw [World.verdict_of_vacant stored]
      obtain ⟨lines, readings, ran⟩ := run_emit_of_error config source
        (p := .phoneSending (.ofMessage n)) running vacant
        (Deed.effect_move_of_vacant _ _ stored)
      exact ⟨_, _, _, ran, rfl⟩
  | some m =>
      by_cases allowed : m.status ∈ Status.attemptAllowed
      · rw [World.verdict_of_allowed stored allowed]
        obtain ⟨h, lines, readings, _, ran⟩ := run_emit_of_ok config source
          (p := .phoneSending (.ofMessage n)) running vacant
          (Deed.effect_move_of_hasRoom _ stored allowed (by rw [steady]; exact room m stored))
        rw [steady, steady] at ran
        exact ⟨_, ran, rfl⟩
      · rw [World.verdict_of_refused stored allowed]
        obtain ⟨lines, readings, ran⟩ := run_emit_of_error config source
          (p := .phoneSending (.ofMessage n)) running vacant
          (Deed.effect_move_of_not_allowed _ stored allowed)
        exact ⟨_, _, _, ran, rfl⟩

end Service

/-- The ticket of a message, and what is stored of it in the end, are as if it had been handed out
by itself. -/
structure Ticket.AsAlone (a : Ambient) (config : ServiceConfig) (source : String) (w w' : World)
    (n : Message) (t : Ticket) : Prop where
  ended : t.Matches (((Service.inPlace config).handOut source n).run a w).1
  stored : w'.messages.find? n.id =
    (((Service.inPlace config).handOut source n).run a w).2.messages.find? n.id

theorem Ticket.asAlone_of_agrees {a : Ambient} (config : ServiceConfig) (source : String)
    {w w' : World} {now : Timestamp} (running : w.cancelled = false) (fresh : w.Fresh a 1)
    (steady : ∀ n, a.clock n = now) {n : Message}
    (room : ∀ m, w.messages.find? n.id = some m → (Move.attempt now).HasRoom m) {t : Ticket}
    (own : t.sms = .ofMessage n) (agrees : Agrees (w.verdict now n.id) t)
    (stored : w'.messages.find? n.id = w.tried now n.id) : t.AsAlone a config source w w' n := by
  have alone := Service.run_handOut_verdict config source running fresh steady room
  unfold World.tried at stored
  cases decided : w.verdict now n.id with
  | ok m =>
      rw [decided] at alone agrees stored
      obtain ⟨w₁, ran, messages⟩ := alone
      have named := World.id_of_verdict decided
      cases agrees
      refine ⟨?_, ?_⟩
      · rw [ran]
        exact .ok ..
      · rw [stored, ran, messages, MessageStore.find?_put, if_pos named.symm]
  | error reason =>
      rw [decided] at alone agrees stored
      obtain ⟨e, text, w₁, ran, messages⟩ := alone
      cases agrees
      cases own
      refine ⟨?_, ?_⟩
      · rw [ran]
        exact .error _ _ _ rfl
      · rw [stored, ran, messages]

/-- A message that is in the batch once has been handed out once or not at all. -/
theorem Ticket.handed_of_nodup {ts : List Ticket} (once : (ts.map (·.sms.id)).Nodup) {t : Ticket}
    (mem : t ∈ ts) : handed ts t.sms.id = if t.answer.isSome then 1 else 0 := by
  rw [← writers_eq_handed]
  refine writers_of_nodup (f := t.face) ?_ (List.mem_map_of_mem mem)
  rw [List.map_map]
  exact once

/-- What is stored of a message that is in the batch once is what its only worker has left. -/
theorem Batch.Leaves.stored_of_agrees {a : Ambient} {b : Batch} {w w' : World} {ts : List Ticket}
    (leaves : b.Leaves a w w' ts) {now : Timestamp} (steady : ∀ n, a.clock n = now) {t : Ticket}
    (agrees : t.Agrees (w.verdict now t.sms.id))
    (only : Ticket.handed ts t.sms.id = if t.answer.isSome then 1 else 0) :
    w'.messages.find? t.sms.id = w.tried now t.sms.id := by
  generalize decided : w.verdict now t.sms.id = verdict at agrees
  unfold World.tried
  rw [decided]
  cases agrees with
  | ok sms e m =>
      simp only at decided only ⊢
      cases began : w.messages.find? sms.id with
      | none =>
          rw [World.verdict_of_vacant began] at decided
          cases decided
      | some m₀ =>
          obtain ⟨n, found, tries⟩ := leaves.stored _ m₀ began
          rw [only] at tries
          cases tries with
          | more before allowed room =>
              cases before
              rw [World.verdict_of_allowed began allowed] at decided
              cases decided
              rw [found, steady, steady]
  | error sms e reason text =>
      simp only at decided only ⊢
      cases began : w.messages.find? sms.id with
      | none => exact leaves.vacant _ began
      | some m₀ =>
          obtain ⟨n, found, tries⟩ := leaves.stored _ m₀ began
          rw [only] at tries
          cases tries
          exact found

/-- Nothing about the batch depends on the order in which its workers run: each message fares as it
would by itself. -/
structure Batch.AsAlone (a : Ambient) (config : ServiceConfig) (b : Batch) (w w' : World)
    (answers : List Message) (ts : List Ticket) : Prop where
  each : List.Forall₂ (Ticket.AsAlone a config b.source w w') b.messages ts
  answers : answers = b.messages.filterMap fun n =>
    (WorkerEnd.ofOutcome 0 n.id
      (((Service.inPlace config).handOut b.source n).run a w).1).message?
  others : ∀ id, id ∉ b.messages.map (·.id) → w'.messages.find? id = w.messages.find? id

/-- How a batch is handed out in the world `w`, in whatever order its workers run. -/
structure Batch.Isolated (a : Ambient) (config : ServiceConfig) (b : Batch) (w : World) :
    Prop where
  /-- The workers end, each after so many turns of its own. -/
  ends (schedule : List Turn)
    (enough : ∀ place < b.messages.length, turns config ≤ schedule.count (.go place)) :
    ((Turns.ofBatch (.inPlace config) b w).run a Turns.alone schedule).Over
  /-- What they leave when all have ended and nothing was cancelled. -/
  leaves (schedule : List Turn) (calm : .cancel ∉ schedule) :
    let t := (Turns.ofBatch (.inPlace config) b w).run a Turns.alone schedule
    t.Over → ∃ ts, b.Leaves a w t.world ts ∧ t.answers = ts.filterMap (·.answer) ∧
      ((b.messages.map (·.id)).Nodup → ∀ now, (∀ n, a.clock n = now) →
        b.AsAlone a config w t.world t.answers ts)
  /-- A batch that is handed out one message after the other is one such schedule. -/
  process (picks : List Nat) :
    ∃ schedule ms, .cancel ∉ schedule ∧
      let t := (Turns.ofBatch (.inPlace config) b w).run a Turns.alone schedule
      (b.process (.inPlace config) picks).run a w = (.done ms, t.world) ∧ t.Over ∧
        ms.Perm t.answers

theorem Ticket.AsAlone.answer_eq {a : Ambient} {config : ServiceConfig} {source : String}
    {w w' : World} {n : Message} {t : Ticket} (asAlone : t.AsAlone a config source w w' n) :
    t.answer = (WorkerEnd.ofOutcome 0 n.id
      (((Service.inPlace config).handOut source n).run a w).1).message? := by
  obtain ⟨ended, _⟩ := asAlone
  generalize (((Service.inPlace config).handOut source n).run a w).1 = o at ended
  cases ended <;> rfl

theorem World.RoomFor.hasRoom {w : World} {ids : List Uuid} (room : w.RoomFor ids) {id : Uuid}
    (mem : id ∈ ids) {m : Message} (stored : w.messages.find? id = some m) (time : Timestamp) :
    (Move.attempt time).HasRoom m := by
  obtain ⟨version, attempts⟩ := room id m stored
  have once := List.count_pos_iff.mpr mem
  exact ⟨by omega, by omega⟩

theorem World.Fresh.mono {a : Ambient} {w : World} {j k : Nat} (fresh : w.Fresh a k)
    (fewer : j ≤ k) : w.Fresh a j where
  distinct i less := fresh.distinct i (Nat.lt_of_lt_of_le less fewer)
  vacant i less := fresh.vacant i (Nat.lt_of_lt_of_le less fewer)

section Isolated

variable {a : Ambient} (config : ServiceConfig) {b : Batch} {w : World}

theorem Batch.Leaves.asAlone {w' : World} {ts : List Ticket} {ps : List Post}
    (leaves : b.Leaves a w w' ts) (running : w.cancelled = false)
    (fresh : w.Fresh a (2 * b.messages.length)) (room : w.RoomFor (b.messages.map (·.id)))
    (once : (b.messages.map (·.id)).Nodup) {now : Timestamp} (steady : ∀ n, a.clock n = now)
    (manned : Manned a w w' ps) (all : List.Forall₂ Ticket.Of ps ts) :
    b.AsAlone a config w w' (ts.filterMap (·.answer)) ts := by
  have ids := map_id_of_messages leaves.messages
  have each : List.Forall₂ (Ticket.AsAlone a config b.source w w') b.messages ts := by
    refine forall₂_of_map_eq leaves.messages fun n listed t mem own => ?_
    have named : t.sms.id = n.id := by
      rw [own]
      rfl
    have only := Ticket.handed_of_nodup (ids ▸ once) mem
    have some := List.length_pos_of_mem listed
    obtain ⟨p, manning, of⟩ := exists_of_mem_right all mem
    have sound := manned.sound p manning
    rw [Ticket.map_face all, Ticket.writers_eq_handed] at sound
    have agrees := Ticket.agrees_of of sound steady (by rw [of.sms_eq, only])
    rw [of.sms_eq] at agrees
    have stored := leaves.stored_of_agrees steady agrees only
    rw [named] at agrees stored
    exact Ticket.asAlone_of_agrees config b.source running (fresh.mono (by omega)) steady
      (fun m stored => room.hasRoom (List.mem_map_of_mem listed) stored now) own agrees stored
  have others : ∀ id, id ∉ b.messages.map (·.id) →
      w'.messages.find? id = w.messages.find? id := by
    intro id absent
    refine manned.stocked.find?_of_unwritten (writers_of_absent ?_)
    rw [Ticket.map_face all, List.map_map]
    exact ids ▸ absent
  refine ⟨each, ?_, others⟩
  clear leaves fresh room once all ids
  generalize b.messages = ns at each ⊢
  induction each with
  | nil => rfl
  | cons head _ ih => rw [List.filterMap_cons, List.filterMap_cons, head.answer_eq, ih]

theorem batch_isolated (a : Ambient) (source : String) {concurrency : UInt64}
    (narrow : concurrency.toNat ≤ Batch.maxWidth) {messages : List Message} {w : World}
    (running : w.cancelled = false) (fresh : w.Fresh a (2 * messages.length))
    (room : w.RoomFor (messages.map (·.id))) :
    (Batch.ofMessages source concurrency messages).Isolated a config w where
  ends schedule enough := Turns.over_run a config _ w enough
  leaves schedule calm ended := by
    obtain ⟨ps, keeps, staffed⟩ := Turns.staffed_run config
      (b := .ofMessages source concurrency messages) fresh room schedule
    have still := (Turns.cancelled_run a (Turns.ofBatch (.inPlace config)
      (.ofMessages source concurrency messages) w) calm).trans running
    obtain ⟨ts, all, programs⟩ := Post.exists_tickets keeps
      (fun p mem => ended.exists_outcome mem)
      (fun p mem => ⟨_, staffed.manned.sound p mem⟩) still
    have answers : ((Turns.ofBatch (.inPlace config) (.ofMessages source concurrency messages)
        w).run a Turns.alone schedule).answers = ts.filterMap (·.answer) := by
      rw [Turns.answers, programs, List.filterMap_map]
      rfl
    have leaves := staffed.manned.leaves all staffed.messages
    refine ⟨ts, leaves, answers, fun once now steady => ?_⟩
    rw [answers]
    exact leaves.asAlone config running fresh room once steady staffed.manned all
  process picks := by
    have width : (Batch.ofMessages source concurrency messages).width ≤ Batch.maxWidth :=
      Nat.max_le.mpr ⟨narrow, by decide⟩
    exact Batch.exists_schedule_process a _ width picks w

/-- One message waits, and another one is not stored. -/
theorem batch_isolated_missing :
    let m := Message.mobileTerminated ⟨⟨7⟩, "+1000", "+2000", "hi", .epoch⟩ .epoch
    let n := Message.mobileTerminated ⟨⟨8⟩, "+1000", "+2000", "ho", .epoch⟩ .epoch
    let w : World := { messages := (∅ : MessageStore).put m }
    let a : Ambient := ⟨fun _ => .epoch, fun n => ⟨n⟩⟩
    ((4 : UInt64).toNat ≤ Batch.maxWidth ∧ w.cancelled = false ∧ w.Fresh a (2 * [m, n].length) ∧
        w.RoomFor ([m, n].map (·.id))) ∧
      (Batch.ofMessages "phone" 4 [m, n]).Isolated a {} w := by
  intro m n w a
  have fresh : w.Fresh a (2 * [m, n].length) := ⟨by decide, fun _ _ _ => rfl⟩
  have room : w.RoomFor ([m, n].map (·.id)) := by
    intro id m' found
    rw [MessageStore.find?_put] at found
    split at found
    · rename_i own
      cases found
      subst own
      decide
    · cases found
  exact ⟨⟨by decide, rfl, fresh, room⟩, batch_isolated {} a "phone" (by decide) rfl fresh room⟩

end Isolated

end SmsTracking
