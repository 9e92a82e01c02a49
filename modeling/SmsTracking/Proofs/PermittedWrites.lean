import SmsTracking.Proofs.Conduct
import SmsTracking.Proofs.Emissions
import SmsTracking.Proofs.Moves
import SmsTracking.Service.Command

/-!
What the commands of the service ask, request by request. A message that is written is either as it
was created, or it is what a move has made of a message that was loaded before. Main statements:
where such writes are permitted, everything that a command asks is (`Command.program_keeps`), and
what permitted requests preserve holds after every schedule (`Turns.run_keeps_manners`).
-/

namespace SmsTracking

/-- Writes no message. -/
def Request.isReading : Request → Bool
  | store _ | update _ => false
  | _ => true

/-- What may be asked, as long as the answers are among those that are given. Nothing is forbidden
but to write a message that nobody has created or moved. -/
structure Manners where
  may : Request → Prop
  given : Exchange → Prop
  read : ∀ r, r.isReading = true → may r
  create : ∀ direction p now, may (.store (.created direction p now))
  move : ∀ id m (move : Move) now, given ⟨.load id, .ok m⟩ → m.status ∈ move.allowed →
    move.HasRoom m → may (.update (move.result m now))

namespace Program

variable {α β : Type} {c : Manners}

/-- Whatever the program can ask is permitted. -/
def Keeps (c : Manners) : Program α → Prop
  | done _ => True
  | abort _ => True
  | ask r next => c.may r ∧ ∀ answer, c.given ⟨r, answer⟩ → (next answer).Keeps c

theorem Keeps.done (x : α) : (Program.done x).Keeps c := trivial

theorem Keeps.abort (text : String) : (Program.abort text : Program α).Keeps c := trivial

theorem Keeps.request {r : Request} {f : r.Answer → Program α} (own : c.may r)
    (rest : ∀ answer, c.given ⟨r, answer⟩ → (f answer).Keeps c) :
    (Program.request r >>= f).Keeps c :=
  ⟨own, rest⟩

theorem Keeps.read {r : Request} {f : r.Answer → Program α} (reads : r.isReading = true)
    (rest : ∀ answer, (f answer).Keeps c) : (Program.request r >>= f).Keeps c :=
  ⟨c.read r reads, fun answer _ => rest answer⟩

theorem Keeps.bind {p : Program α} {f : α → Program β} (first : p.Keeps c)
    (rest : ∀ x, (f x).Keeps c) : (p >>= f).Keeps c := by
  induction p with
  | done x => exact rest x
  | abort text => exact .abort text
  | ask r next ih => exact ⟨first.1, fun answer fits => ih answer (first.2 answer fits)⟩

theorem Keeps.attempt {p : Program α} (keeps : p.Keeps c) : p.attempt.Keeps c := by
  induction p with
  | done x => exact .done _
  | abort text => exact .done _
  | ask r next ih => exact ⟨keeps.1, fun answer fits => ih answer (keeps.2 answer fits)⟩

theorem Keeps.mapM {f : β → Program α} {xs : List β} (each : ∀ x ∈ xs, (f x).Keeps c) :
    (xs.mapM f).Keeps c := by
  induction xs with
  | nil => exact .done _
  | cons x xs ih =>
      rw [List.mapM_cons]
      refine (each x List.mem_cons_self).bind fun y => ?_
      exact (ih fun z mem => each z (List.mem_cons_of_mem _ mem)).bind fun ys => .done _

theorem Keeps.write (line : β → LogLine) (xs : List β) :
    (xs.forM fun x => (MonadJournal.write (line x) : Program Unit)).Keeps c := by
  induction xs with
  | nil => exact .done _
  | cons x xs ih => exact .read rfl fun _ => ih

end Program

open Program (Keeps)

variable {c : Manners}

namespace Lifecycle

theorem store_keeps (direction : Direction) (p : NewMessage) : (store direction p).Keeps c := by
  refine .read rfl fun now => .request (c.create direction p now) fun answer _ => ?_
  cases answer <;> exact .done _

theorem tryMove_keeps (id : Uuid) (move : Move)
    {conflicted : DomainError → Program (Except AppError Message)}
    (rest : ∀ e, (conflicted e).Keeps c) : (tryMove id move conflicted).Keeps c := by
  refine .request (c.read _ rfl) fun loaded fits => ?_
  cases loaded with
  | error e => exact .done _
  | ok m =>
      refine .read rfl fun now => ?_
      cases made : move.apply m now with
      | overflow _ => exact .abort _
      | refused e => exact .done _
      | done m' =>
          obtain ⟨allowed, room, rfl⟩ := Move.apply_eq_done_iff.mp made
          refine .request (c.move id m move now fits allowed room) fun answer _ => ?_
          cases answer with
          | done => exact .done _
          | overflow => exact .abort _
          | refused e =>
              cases e with
              | versionConflict id expected actual => exact rest _
              | _ => exact .done _

theorem transition_keeps (id : Uuid) (move : Move) (retries : Nat) :
    (transition id move retries).Keeps c := by
  induction retries with
  | zero => exact tryMove_keeps id move fun e => .done _
  | succ retries ih => exact tryMove_keeps id move fun _ => ih

end Lifecycle

namespace Listener

theorem release_keeps (key : ListenerKey) : (release key).Keeps c := by
  refine .read rfl fun answer => ?_
  cases answer with
  | ok => exact .done _
  | error e => exact .read rfl fun _ => .done _

theorem operation_keeps (retries : Nat) (e : Envelope) (p : Payload) :
    (operation retries e p).Keeps c := by
  cases p with
  | apiSent => exact Lifecycle.store_keeps ..
  | phoneReceived => exact Lifecycle.store_keeps ..
  | phoneSending => exact Lifecycle.transition_keeps ..
  | phoneSent => exact Lifecycle.transition_keeps ..

theorem complete_keeps (key : ListenerKey) (e : Envelope) (started : Instant) :
    (complete key e started).Keeps c := by
  refine .read rfl fun finished => .read rfl fun handledAt =>
    .read rfl fun id => .read rfl fun createdAt => .read rfl fun answer => ?_
  match answer with
  | .ok true => exact .done _
  | .ok false => exact .read rfl fun _ => .done _
  | .error reason => exact (release_keeps key).bind fun _ => .done _

theorem handle_keeps (retries : Nat) (k : EventKind) (e : Envelope) :
    (handle retries k e).Keeps c := by
  have applies : (apply retries k e).Keeps c := by
    unfold apply
    split
    · exact operation_keeps ..
    · exact .done _
  refine .read rfl fun answer => ?_
  match answer with
  | .ok .claimed =>
      refine .read rfl fun started => applies.bind fun tried => ?_
      cases tried with
      | ok m => exact complete_keeps _ e started
      | error reason => exact (release_keeps _).bind fun _ => .done _
  | .ok .alreadyHandled => exact .done _
  | .ok .inProgress => exact .done _
  | .error reason => exact .done _

theorem handleEvent_keeps (retries : Nat) (e : Envelope) : (handleEvent retries e).Keeps c := by
  unfold handleEvent
  split
  · exact handle_keeps ..
  · exact .done _

/-- Whatever the type of an event, it goes to handlers of the listener only. -/
theorem exists_kind_of_matching {retries : Nat} {type : String} {h : Handler Program}
    (mem : h ∈ (Registry.ofList (handlers retries)).matching type) :
    ∃ k, h = handler retries k := by
  cases kind : EventKind.ofName? type with
  | none =>
      rw [matching_handlers_of_unknown retries kind] at mem
      exact absurd mem List.not_mem_nil
  | some k =>
      rw [← EventKind.name_of_ofName? kind, matching_handlers] at mem
      exact ⟨k, List.mem_singleton.mp mem⟩

end Listener

namespace Service

variable (config : ServiceConfig)

theorem transport_keeps (e : Envelope) : ((inPlace config).transport e).Keeps c := by
  refine .read rfl fun answer => ?_
  cases answer with
  | error reason => exact .done _
  | ok =>
      refine (Keeps.mapM fun h mem => ?_).bind fun outcomes => ?_
      · obtain ⟨k, rfl⟩ :=
          Listener.exists_kind_of_matching ((completions_perm ..).mem_iff.mp mem)
        refine ((Listener.handle_keeps _ k e).bind fun answer => ?_).bind fun answer => ?_
        · cases answer <;> exact .done _
        · cases answer <;> exact .done _
      · refine (Keeps.write (Registry.failureLine e) _).bind fun _ => ?_
        split <;> exact .done _

theorem look_keeps (id : Uuid) {missing : DomainError → Program (Except AppError Message)}
    (rest : ∀ e, (missing e).Keeps c) : (look id missing).Keeps c := by
  refine .read rfl fun answer => ?_
  match answer with
  | .ok m => exact .done _
  | .error e =>
      cases e with
      | notFound reason => exact rest _
      | _ => exact .done _

theorem reload_keeps (interval : Span) (id : Uuid) (attempts : Nat) :
    (reload interval id attempts).Keeps c := by
  induction attempts with
  | zero => exact look_keeps id fun _ => .done _
  | succ attempts ih =>
      refine look_keeps id fun _ => .read rfl fun cancelled => ?_
      cases cancelled with
      | true => exact .done _
      | false => exact ih

theorem emit_keeps (source : String) (p : Payload) :
    ((inPlace config).emit source p).Keeps c := by
  have dispatches : ∀ id e, ((inPlace config).dispatch id e).Keeps c := by
    intro id e
    refine .read rfl fun cancelled => ?_
    cases cancelled with
    | true => exact .done _
    | false =>
        refine (transport_keeps config e).bind fun answer => ?_
        cases answer <;> exact .done _
  refine .read rfl fun id => .read rfl fun time =>
    (dispatches _ _).bind fun answer => ?_
  cases answer with
  | ok => exact reload_keeps ..
  | error reason => exact .done _

theorem report_keeps (m : Message) (p : PhoneReport) :
    ((inPlace config).report m p).Keeps c := by
  unfold report
  split
  · exact .done _
  · split
    · exact emit_keeps ..
    · exact .done _
    · exact .done _

end Service

namespace Batch

variable (config : ServiceConfig)

theorem work_keeps (source : String) (job : Message × Nat) :
    (work (.inPlace config) source job).Keeps c :=
  (Service.emit_keeps config source _).attempt.bind fun _ =>
    (Keeps.write (fun line => line) _).bind fun _ => .done _

theorem begin_keeps (b : Batch) : b.begin.Keeps c := by
  unfold begin
  split
  · exact .done _
  · exact .abort _

theorem process_keeps (picks : List Nat) (b : Batch) :
    (b.process (.inPlace config) picks).Keeps c :=
  b.begin_keeps.bind fun _ =>
    (Keeps.mapM fun job _ => work_keeps config b.source job).bind fun _ => .done _

end Batch

namespace Command

variable (config : ServiceConfig)

theorem stage_keeps (command : Command) : (command.stage (.inPlace config)).Keeps c := by
  have replies : ∀ {α : Type} (reply : α → Reply) {p : Program (Except AppError α)},
      p.Keeps c → (replying reply p).Keeps c := by
    intro α reply p keeps
    rw [replying, map_eq_pure_bind]
    exact keeps.bind fun _ => .done _
  have hands : ∀ b, (handing b).Keeps c := fun b => b.begin_keeps.bind fun _ => .done _
  cases command with
  | storeSent p => exact replies _ (Lifecycle.store_keeps _ p)
  | storeReceived p => exact replies _ (Lifecycle.store_keeps _ p)
  | move id step => exact replies _ (Lifecycle.transition_keeps id step _)
  | send p => exact replies _ (.read rfl fun _ => Service.emit_keeps config ..)
  | receive p => exact replies _ (.read rfl fun _ => Service.emit_keeps config ..)
  | report m p => exact replies _ (Service.report_keeps config m p)
  | handOut source m => exact replies _ (Service.emit_keeps config ..)
  | poll p =>
      refine Keeps.bind (.read rfl fun answer => ?_) fun answer => ?_
      · cases answer with
        | error e => exact .done _
        | ok ms => cases ms <;> exact .done _
      · cases answer with
        | error e => exact .done _
        | ok b =>
            cases b with
            | none => exact .done _
            | some b => exact hands b
  | process b => exact hands b
  | get id => exact replies _ (.read rfl fun _ => .done _)
  | thread p => exact replies _ (.read rfl fun _ => .done _)
  | deliver e => exact replies _ (Listener.handleEvent_keeps _ e)
  | dispatch e =>
      refine (Service.transport_keeps config e).bind fun answer => ?_
      cases answer <;> exact .done _

theorem program_keeps (picks : List Nat) (command : Command) :
    (command.program (.inPlace config) picks).Keeps c := by
  refine (command.stage_keeps config).bind fun stage => ?_
  cases stage with
  | answer b => exact .done _
  | batch b finish => exact (b.process_keeps config picks).bind fun _ => .done _

end Command

namespace Turns

variable {α : Type}

theorem subset_exchanges_step (a : Ambient) (heirs : α → List (Program α)) (t : Turns α)
    (turn : Turn) : t.exchanges ⊆ (t.step a heirs turn).exchanges := by
  cases turn with
  | go place =>
      simp only [step, go]
      split
      · exact List.subset_append_left _ _
      · exact fun _ mem => mem
  | pass | cancel => exact fun _ mem => mem

theorem subset_exchanges_run (a : Ambient) (heirs : α → List (Program α)) (t : Turns α)
    (schedule : List Turn) : t.exchanges ⊆ (t.run a heirs schedule).exchanges := by
  induction schedule generalizing t with
  | nil => exact fun _ mem => mem
  | cons turn schedule ih =>
      exact List.Subset.trans (t.subset_exchanges_step a heirs turn) (ih _)

/-- Programs side by side in a run of which something is known of every exchange. -/
theorem run_keeps_manners {a : Ambient} {t : Turns α} {I : World → Prop} {K : Exchange → Prop}
    (keeps : ∀ p ∈ t.programs, p.Keeps c) (inv : I t.world)
    (go : ∀ w r, I w → c.may r → K ⟨r, (w.answer a r).1⟩ →
      c.given ⟨r, (w.answer a r).1⟩ ∧ I (w.answer a r).2)
    (pass : ∀ w s, I w → I { w with uptime := w.uptime.after s })
    (cancel : ∀ w, I w → I { w with cancelled := true }) (schedule : List Turn)
    (all : ∀ e ∈ (t.run a alone schedule).exchanges, K e.2) :
    (∀ p ∈ (t.run a alone schedule).programs, p.Keeps c) ∧ I (t.run a alone schedule).world := by
  induction schedule generalizing t with
  | nil => exact ⟨keeps, inv⟩
  | cons turn schedule ih =>
      have early : ∀ e ∈ (t.step a alone turn).exchanges, K e.2 := fun e mem =>
        all e (subset_exchanges_run a alone _ schedule mem)
      cases turn with
      | go place =>
          have gone : (∀ p ∈ (t.go a alone place).programs, p.Keeps c) ∧
              I (t.go a alone place).world := by
            obtain same | ⟨r, next, asked, went⟩ := go_alone_cases a t place
            · rw [same]
              exact ⟨keeps, inv⟩
            · have own := keeps _ (List.mem_of_getElem? asked)
              simp only [step, went] at early
              obtain ⟨fits, after⟩ := go t.world r inv own.1
                (early (place, _) (List.mem_append_right _ (List.mem_singleton_self _)))
              rw [went]
              refine ⟨fun p mem => ?_, after⟩
              obtain before | rfl := List.mem_or_eq_of_mem_set mem
              · exact keeps p before
              · exact own.2 _ fits
          exact ih gone.1 gone.2 all
      | pass s => exact ih (t := { t with world := _ }) keeps (pass _ s inv) all
      | cancel => exact ih (t := { t with world := _ }) keeps (cancel _ inv) all

end Turns

end SmsTracking
