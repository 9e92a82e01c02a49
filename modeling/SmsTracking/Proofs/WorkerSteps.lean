import SmsTracking.Proofs.Contention
import SmsTracking.Proofs.EventPath
import SmsTracking.Proofs.Standing

/-!
How the worker of a message does its duty, from its first request to its last. It makes an event
and, unless everything is cancelled, announces it, claims its key and tries its message; a try that
was written is recorded and the message loaded again, and otherwise the claim is given up and a line
tells of the failure. Where a world would give an answer that does not come about here, the worker
has gone astray, and nothing is said of it. Main statement: a worker keeps to this
(`Batch.work_follows_duty`).
-/

namespace SmsTracking

/-- How far a worker has come. -/
inductive Duty where
  | begun
  | drawn (event : Uuid)
  | made (e : Envelope)
  /-- It has found everything cancelled. -/
  | dropped (e : Envelope)
  | cleared (e : Envelope)
  | announced (e : Envelope)
  /-- It has claimed the key of its event. -/
  | working (e : Envelope) (bid : Bid)
  /-- It has written a try, and has drawn an identifier for its record. -/
  | numbered (e : Envelope)
  | recorded (e : Envelope)
  | loaded (e : Envelope) (m : Message)
  /-- It has given up its claim. -/
  | released (e : Envelope) (bid : Bid)
  | failed (e : Envelope) (bid : Bid) (line : LogLine)
  | stray

/-- A worker at its duty. -/
structure Post where
  source : String
  sms : Sms
  duty : Duty

namespace Post

/-- The event of the worker, by the identifier and the time that it was given. -/
def event (p : Post) (id : Uuid) (time : Timestamp) : Envelope :=
  .ofPayload id time p.source (.phoneSending p.sms)

/-- The line that tells of a failure. -/
def unsent (sms : Sms) (text : String) : LogLine :=
  .error "cannot dispatch outstanding message"
    [("message_id", toString sms.id), ("error", text)]

def dutyAfter (p : Post) : Duty → Exchange → Duty
  | .begun, ⟨.freshId, id⟩ => .drawn id
  | .drawn id, ⟨.now, time⟩ => .made (p.event id time)
  | .made e, ⟨.isCancelled, true⟩ => .dropped e
  | .made e, ⟨.isCancelled, false⟩ => .cleared e
  | .cleared e, ⟨.announce _, _⟩ => .announced e
  | .announced e, ⟨.claim _, .ok .claimed⟩ => .working e .idle
  | .announced _, ⟨.claim _, _⟩ => .stray
  | .working e _, ⟨.freshId, _⟩ => .numbered e
  | .working e bid, ⟨.release _, _⟩ => .released e bid
  | .working _ _, ⟨.write _, _⟩ => .stray
  | .working e bid, x => .working e (bid.next x)
  | .numbered e, ⟨.record _, .ok true⟩ => .recorded e
  | .numbered _, ⟨.record _, _⟩ => .stray
  | .recorded e, ⟨.load _, .ok m⟩ => .loaded e m
  | .recorded _, ⟨.load _, _⟩ => .stray
  | .released e bid, ⟨.write line, _⟩ =>
      if line.severity = .error then .failed e bid line else .released e bid
  | duty, _ => duty

def next (p : Post) (x : Exchange) : Post := { p with duty := p.dutyAfter p.duty x }

theorem next_of_warning {source : String} {sms : Sms} {e : Envelope} {bid : Bid} {line : LogLine}
    (warning : line.severity = .warning) :
    next ⟨source, sms, .released e bid⟩ ⟨.write line, ()⟩ = ⟨source, sms, .released e bid⟩ := by
  simp only [next, dutyAfter, warning]
  rfl

/-- The move that the worker makes with its event. -/
abbrev move (e : Envelope) : Option Move := some (.attempt e.time)

/-- What the worker is answered if its try has failed with `reason`. -/
abbrev failure (sms : Sms) (e : Envelope) (reason : AppError) : AppError :=
  Service.undispatched .phoneSending e sms.id (Listener.unapplied .phoneSending e reason)

inductive May (sms : Sms) : Duty → Request → Prop
  | draw : May sms .begun .freshId
  | date (id : Uuid) : May sms (.drawn id) .now
  | ask (e : Envelope) : May sms (.made e) .isCancelled
  | announce (e : Envelope) : May sms (.cleared e) (.announce e)
  | claim (e : Envelope) : May sms (.announced e) (.claim e.key)
  | uptime (e : Envelope) (bid : Bid) : May sms (.working e bid) .uptime
  | bid {e : Envelope} {bid : Bid} {r : Request} (may : bid.May sms.id (move e) r) :
      May sms (.working e bid) r
  | finish (e : Envelope) (m' : Message) : May sms (.working e (.committed m')) .now
  | number (e : Envelope) (m' : Message) : May sms (.working e (.committed m')) .freshId
  | release {e : Envelope} {bid : Bid} {reason : AppError}
      (fails : bid.Ends (move e) (.done (.error reason))) :
      May sms (.working e bid) (.release e.key)
  /-- The worker has broken off. -/
  | die {e : Envelope} {bid : Bid} {text : String} (line : LogLine)
      (breaks : bid.Ends (move e) (.aborted text)) : May sms (.working e bid) (.write line)
  | stamp (e : Envelope) : May sms (.numbered e) .now
  | record {e : Envelope} {h : HandledEvent} (own : ListenerLog.keyOf h = e.key) :
      May sms (.numbered e) (.record h)
  | load (e : Envelope) : May sms (.recorded e) (.load sms.id)
  | warn {e : Envelope} {bid : Bid} {line : LogLine} (warning : line.severity = .warning) :
      May sms (.released e bid) (.write line)
  | fail {e : Envelope} {bid : Bid} {reason : AppError}
      (fails : bid.Ends (move e) (.done (.error reason))) :
      May sms (.released e bid) (.write (unsent sms (failure sms e reason).message))
  | anything (r : Request) : May sms .stray r

inductive Ends : Duty → Outcome (Option Message) → Prop
  | dropped (e : Envelope) : Ends (.dropped e) (.done none)
  | loaded (e : Envelope) (m : Message) : Ends (.loaded e m) (.done (some m))
  | failed (e : Envelope) (bid : Bid) (line : LogLine) : Ends (.failed e bid line) (.done none)
  | stray (o : Outcome (Option Message)) : Ends .stray o

def conduct : Conduct Post (Option Message) where
  start := ⟨"", ⟨⟨0⟩, "", "", ""⟩, .begun⟩
  next := next
  may p := May p.sms p.duty
  ends p := Ends p.duty

/-! How the parts of the work end, in the duty that they come to -/

/-- How the try of the message ends. -/
inductive Attempted (source : String) (sms : Sms) (e : Envelope) :
    Post → Outcome (Except AppError Message) → Prop
  | intro {bid : Bid} {o : Outcome (Except AppError Message)} (ends : bid.Ends (move e) o) :
      Attempted source sms e ⟨source, sms, .working e bid⟩ o

/-- How the handling of the event ends. If the try has failed, `wrap` makes the answer of it. -/
inductive Handled {α : Type} (wrap : AppError → α) (source : String) (sms : Sms) (e : Envelope) :
    Post → Outcome (Except α Unit) → Prop
  | recorded : Handled wrap source sms e ⟨source, sms, .recorded e⟩ (.done (.ok ()))
  | released {bid : Bid} {reason : AppError} (fails : bid.Ends (move e) (.done (.error reason))) :
      Handled wrap source sms e ⟨source, sms, .released e bid⟩ (.done (.error (wrap reason)))
  | broken {bid : Bid} {text : String} (breaks : bid.Ends (move e) (.aborted text)) :
      Handled wrap source sms e ⟨source, sms, .working e bid⟩ (.aborted text)
  | stray (o : Outcome (Except α Unit)) : Handled wrap source sms e ⟨source, sms, .stray⟩ o

/-- How the dispatch of the event ends. -/
inductive Dispatched (source : String) (sms : Sms) : Post → Outcome (Except AppError Unit) → Prop
  | dropped (e : Envelope) {reason : AppError} (cancelled : reason.isCancelled = true) :
      Dispatched source sms ⟨source, sms, .dropped e⟩ (.done (.error reason))
  | recorded (e : Envelope) : Dispatched source sms ⟨source, sms, .recorded e⟩ (.done (.ok ()))
  | released {e : Envelope} {bid : Bid} {reason : AppError}
      (fails : bid.Ends (move e) (.done (.error reason))) :
      Dispatched source sms ⟨source, sms, .released e bid⟩
        (.done (.error (failure sms e reason)))
  | broken {e : Envelope} {bid : Bid} {text : String} (breaks : bid.Ends (move e) (.aborted text)) :
      Dispatched source sms ⟨source, sms, .working e bid⟩ (.aborted text)
  | stray (o : Outcome (Except AppError Unit)) : Dispatched source sms ⟨source, sms, .stray⟩ o

/-- How the dispatch of the event and the load after it end. -/
inductive Settled (source : String) (sms : Sms) : Post → Outcome (Except AppError Message) → Prop
  | dropped (e : Envelope) {reason : AppError} (cancelled : reason.isCancelled = true) :
      Settled source sms ⟨source, sms, .dropped e⟩ (.done (.error reason))
  | loaded (e : Envelope) (m : Message) :
      Settled source sms ⟨source, sms, .loaded e m⟩ (.done (.ok m))
  | released {e : Envelope} {bid : Bid} {reason : AppError}
      (fails : bid.Ends (move e) (.done (.error reason))) :
      Settled source sms ⟨source, sms, .released e bid⟩
        (.done (.error (failure sms e reason)))
  | broken {e : Envelope} {bid : Bid} {text : String} (breaks : bid.Ends (move e) (.aborted text)) :
      Settled source sms ⟨source, sms, .working e bid⟩ (.aborted text)
  | stray (o : Outcome (Except AppError Message)) : Settled source sms ⟨source, sms, .stray⟩ o

end Post

namespace Program

open Post

variable {α : Type} {source : String} {sms : Sms}

/-- Nothing is said of a worker that has gone astray. -/
theorem follows_stray {ends : Post → Outcome α → Prop}
    (any : ∀ o, ends ⟨source, sms, .stray⟩ o) (p : Program α) :
    p.Follows (conduct.upTo ends) ⟨source, sms, .stray⟩ := by
  induction p with
  | done x => exact any _
  | abort text => exact any _
  | ask r next ih =>
      refine ⟨.anything r, fun a w => ?_⟩
      exact ih (w.answer a r).1

theorem Follows.warn {ends : Post → Outcome α → Prop} {e : Envelope} {bid : Bid} {line : LogLine}
    (warning : line.severity = .warning) {f : Unit → Program α}
    (rest : (f ()).Follows (conduct.upTo ends) ⟨source, sms, .released e bid⟩) :
    (MonadJournal.write line >>= f).Follows (conduct.upTo ends) ⟨source, sms, .released e bid⟩ := by
  refine ⟨.warn warning, fun a w => ?_⟩
  show Program.Follows _ _ (Post.next ⟨source, sms, .released e bid⟩ ⟨.write line, ()⟩)
  rw [next_of_warning warning]
  exact rest

/-- Whoever moves the message of a worker does what the worker may do with its claim. -/
theorem Follows.ofBid {e : Envelope} {p : Program (Except AppError Message)} {bid : Bid}
    (follows : p.Follows (Bid.conduct sms.id (move e)) bid) :
    p.Follows (Post.conduct.upTo (Attempted source sms e)) ⟨source, sms, .working e bid⟩ := by
  induction p generalizing bid with
  | done x => exact .intro follows
  | abort text => exact .intro follows
  | ask r next ih =>
      obtain ⟨may, rest⟩ := follows
      refine ⟨.bid may, fun a w => ?_⟩
      have goes : Post.next ⟨source, sms, .working e bid⟩ ⟨r, (w.answer a r).1⟩ =
          ⟨source, sms, .working e (bid.next ⟨r, (w.answer a r).1⟩)⟩ := by
        cases may <;> rfl
      show Program.Follows _ _ (Post.next ⟨source, sms, .working e bid⟩ ⟨r, (w.answer a r).1⟩)
      rw [goes]
      exact ih (w.answer a r).1 (rest a w)

end Program

namespace Listener

open Post

variable {source : String} {sms : Sms} {e : Envelope}

theorem complete_follows_duty (own : keyOf .phoneSending e = e.key) (started : Instant)
    (m : Message) :
    (complete (keyOf .phoneSending e) e started).Follows
      (conduct.upTo (Handled (unapplied .phoneSending e) source sms e))
      ⟨source, sms, .working e (.committed m)⟩ := by
  refine .uptime (.uptime e _) fun finished => .now (.finish e m) fun handledAt =>
    .freshId (.number e m) fun id => .now (.stamp e) fun createdAt => .record (.record own)
      fun first => ?_
  cases first with
  | true => exact .recorded
  | false => exact Program.follows_stray .stray _

theorem release_follows_duty {bid : Bid} {reason : AppError}
    (fails : bid.Ends (move e) (.done (.error reason))) (own : keyOf .phoneSending e = e.key) :
    (do
      release (keyOf .phoneSending e)
      pure (Except.error (unapplied .phoneSending e reason))).Follows
      (conduct.upTo (Handled (unapplied .phoneSending e) source sms e))
      ⟨source, sms, .working e bid⟩ := by
  rw [own]
  exact ⟨.release fails, fun a w => .released fails⟩

theorem handle_follows_duty (retries : Nat)
    (carries : e.Carries .phoneSending (.phoneSending sms)) :
    (handle retries .phoneSending e).Follows
      (conduct.upTo (Handled (unapplied .phoneSending e) source sms e))
      ⟨source, sms, .announced e⟩ := by
  have own : keyOf .phoneSending e = e.key :=
    keyOf_of_ofName? (by rw [carries.kind, EventKind.ofName?_name])
  refine .claim (own ▸ .claim e) fun answer => ?_
  cases answer with
  | alreadyHandled => exact Program.follows_stray .stray _
  | inProgress => exact Program.follows_stray .stray _
  | claimed =>
      have attempts : (apply retries .phoneSending e).Follows
          (conduct.upTo (Attempted source sms e)) ⟨source, sms, .working e .idle⟩ := by
        simp only [apply, carries.decoded, operation]
        exact (Lifecycle.transition_follows_bid sms.id _ retries .load).ofBid
      refine .uptime (.uptime e _) fun started => .bind attempts ?_ ?_
      · rintro _ answer ⟨ends⟩
        cases answer with
        | ok m =>
            cases ends
            exact complete_follows_duty own started m
        | error reason => exact release_follows_duty ends own
      · rintro _ text ⟨ends⟩
        exact .broken ends

end Listener

namespace Service

open Post

variable {source : String} {sms : Sms}

theorem transport_follows_duty (config : ServiceConfig) {e : Envelope}
    (carries : e.Carries .phoneSending (.phoneSending sms)) :
    ((inPlace config).transport e).Follows
      (conduct.upTo (Handled (fun reason => DomainError.eventHandler
        (Listener.signature .phoneSending) e.id (.app (Listener.unapplied .phoneSending e reason)))
        source sms e))
      ⟨source, sms, .cleared e⟩ := by
  refine ⟨.announce e, fun a w => ?_⟩
  change Program.Follows _ (Registry.dispatch _ _ _ e) (Post.mk source sms (.announced e))
  rw [Listener.dispatch_handlers carries.kind]
  refine .bind (Listener.handle_follows_duty _ carries) ?_ ?_
  · rintro _ answer handled
    cases handled with
    | recorded => exact .recorded
    | released fails => exact .warn rfl (.released fails)
    | stray => exact Program.follows_stray .stray _
  · rintro _ text handled
    cases handled with
    | broken breaks => exact .broken breaks
    | stray => exact .stray _

theorem dispatch_follows_duty (config : ServiceConfig) {e : Envelope}
    (carries : e.Carries .phoneSending (.phoneSending sms)) :
    ((inPlace config).dispatch sms.id e).Follows (conduct.upTo (Dispatched source sms))
      ⟨source, sms, .made e⟩ := by
  refine ⟨.ask e, fun a w => ?_⟩
  change Program.Follows _ (if w.cancelled = true then _ else _)
    (Post.next ⟨source, sms, .made e⟩ ⟨.isCancelled, w.cancelled⟩)
  cases w.cancelled with
  | true => exact .dropped e rfl
  | false =>
      refine .bind (transport_follows_duty config carries) ?_ ?_
      · rintro _ answer handled
        cases handled with
        | recorded => exact .recorded e
        | released fails => exact .released fails
        | stray => exact Program.follows_stray .stray _
      · rintro _ text handled
        cases handled with
        | broken breaks => exact .broken breaks
        | stray => exact .stray _

theorem look_follows_duty {e : Envelope} (id : Uuid) (own : id = sms.id)
    (missing : DomainError → Program (Except AppError Message)) :
    (look id missing).Follows (conduct.upTo (Post.Settled source sms))
      ⟨source, sms, .recorded e⟩ := by
  subst own
  refine .load (.load e) fun answer => ?_
  cases answer with
  | ok m => exact .loaded e m
  | error reason => exact Program.follows_stray .stray _

theorem reload_follows_duty {e : Envelope} (interval : Span) (attempts : Nat) :
    (reload interval sms.id attempts).Follows (conduct.upTo (Post.Settled source sms))
      ⟨source, sms, .recorded e⟩ := by
  cases attempts with
  | zero => exact look_follows_duty sms.id rfl _
  | succ attempts => exact look_follows_duty sms.id rfl _

theorem handOut_follows_duty (config : ServiceConfig) (source : String) (m : Message) :
    ((inPlace config).handOut source m).Follows (conduct.upTo (Post.Settled source (.ofMessage m)))
      ⟨source, .ofMessage m, .begun⟩ := by
  refine .freshId .draw fun id => .now (.date id) fun time => .bind
    (dispatch_follows_duty config (Envelope.ofPayload_carries id time source
      (.phoneSending (.ofMessage m)))) ?_ ?_
  · rintro _ answer dispatched
    cases dispatched with
    | dropped e cancelled => exact .dropped e cancelled
    | recorded e => exact reload_follows_duty ..
    | released fails => exact .released fails
    | stray => exact Program.follows_stray .stray _
  · rintro _ text dispatched
    cases dispatched with
    | broken breaks => exact .broken breaks
    | stray => exact .stray _

end Service

namespace Batch

open Post

theorem isCancelled_failure (sms : Sms) (e : Envelope) (reason : AppError) :
    (failure sms e reason).isCancelled = false := rfl

theorem work_follows_duty (config : ServiceConfig) (source : String) (job : Message × Nat) :
    (work (.inPlace config) source job).Follows conduct
      ⟨source, .ofMessage job.1, .begun⟩ := by
  refine Program.Follows.bind (c := conduct)
    (Service.handOut_follows_duty config source job.1).attempt ?_ ?_
  · rintro _ outcome ⟨o, ⟨rfl⟩, settled⟩
    cases settled with
    | dropped e cancelled =>
        simp only [WorkerEnd.ofOutcome, WorkerEnd.note, WorkerEnd.lines, cancelled]
        exact .dropped e
    | loaded e m => exact .loaded e m
    | released fails =>
        simp only [WorkerEnd.ofOutcome, WorkerEnd.note, WorkerEnd.lines, isCancelled_failure]
        exact ⟨.fail fails, fun a w => .failed _ _ _⟩
    | broken breaks => exact ⟨.die _ breaks, fun a w => .stray _⟩
    | stray => exact Program.follows_stray .stray _
  · rintro _ text ⟨_, ⟨⟩, _⟩

end Batch

end SmsTracking
