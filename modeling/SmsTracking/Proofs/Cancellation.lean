import SmsTracking.Proofs.Polls
import SmsTracking.Proofs.Widths

/-!
A cancellation leaves no message handled by half. Where everything is cancelled already, nothing is
announced and both repositories stay as they are; and when everything is cancelled while a batch is
handed out, each of its messages has either been handed out or not been touched. A poll for a batch
that is too wide breaks off, cancelled or not. Main statement: `cancellation_clean`.
-/

namespace SmsTracking

/-- Everything is cancelled from here on. -/
def World.cancel (w : World) : World := { w with cancelled := true }

/-- Nothing was announced, and both repositories are as before. -/
structure World.Untouched (w w' : World) : Prop where
  messages : w'.messages = w.messages
  log : w'.log = w.log
  announced : w'.announced = w.announced
  cancelled : w'.cancelled = w.cancelled

namespace World.Untouched

variable {u v w : World}

theorem refl (w : World) : w.Untouched w := ⟨rfl, rfl, rfl, rfl⟩

theorem trans (first : u.Untouched v) (second : v.Untouched w) : u.Untouched w where
  messages := second.messages.trans first.messages
  log := second.log.trans first.log
  announced := second.announced.trans first.announced
  cancelled := second.cancelled.trans first.cancelled

end World.Untouched

/-- The answer is that everything is cancelled, and nothing was done. -/
structure Abandoned (w : World) (ended : Outcome (Except AppError Message) × World) : Prop where
  untouched : w.Untouched ended.2
  answer : ∃ reason, ended.1 = .done (.error reason) ∧ reason.isCancelled = true

namespace Service

variable (a : Ambient) (config : ServiceConfig)

theorem abandoned_emit (source : String) (p : Payload) {w : World}
    (cancelled : w.cancelled = true) :
    Abandoned w (((inPlace config).emit source p).run a w) := by
  simp only [emit, Program.run_freshId, Program.run_now, dispatch, bind_assoc,
    Program.run_isCancelled, cancelled, if_true, pure_bind, Program.run_pure]
  exact ⟨⟨rfl, rfl, rfl, cancelled.symm⟩, _, rfl, rfl⟩

theorem abandoned_drawing {p : Uuid → Payload} (source : String) {w : World}
    (cancelled : w.cancelled = true) :
    Abandoned w ((Program.freshId >>= fun id =>
      (inPlace config).emit source (p id)).run a w) := by
  rw [Program.run_freshId]
  obtain ⟨untouched, answer⟩ := abandoned_emit a config source (p (a.ids w.draws))
    (w := { w with draws := w.draws + 1 }) cancelled
  exact ⟨⟨untouched.messages, untouched.log, untouched.announced, untouched.cancelled⟩, answer⟩

end Service

namespace Batch

variable (a : Ambient) (config : ServiceConfig)

/-- The worker of a message gives up without a line. -/
theorem run_work_of_cancelled (source : String) (job : Message × Nat) {w : World}
    (cancelled : w.cancelled = true) :
    ∃ w', (work (.inPlace config) source job).run a w = (.done none, w') ∧ w.Untouched w' := by
  obtain ⟨untouched, reason, answer, abandons⟩ :=
    Service.abandoned_emit a config source (.phoneSending (.ofMessage job.1)) cancelled
  refine ⟨_, ?_, untouched⟩
  simp only [work]
  rw [Program.run_bind, Program.run_attempt]
  simp only [Service.handOut, answer, WorkerEnd.ofOutcome, WorkerEnd.note, WorkerEnd.lines,
    abandons, if_true]
  rfl

theorem run_mapM_of_cancelled (source : String) (jobs : List (Message × Nat)) {w : World}
    (cancelled : w.cancelled = true) :
    ∃ w', (jobs.mapM (work (.inPlace config) source)).run a w =
        (.done (jobs.map fun _ => none), w') ∧ w.Untouched w' := by
  induction jobs generalizing w with
  | nil => exact ⟨w, rfl, .refl w⟩
  | cons job jobs ih =>
      obtain ⟨w₁, worked, first⟩ := run_work_of_cancelled a config source job cancelled
      obtain ⟨w', ran, rest⟩ := ih (first.cancelled.trans cancelled)
      refine ⟨w', ?_, first.trans rest⟩
      rw [List.mapM_cons, Program.run_bind, worked]
      simp only
      rw [Program.run_bind, ran]
      rfl

theorem run_process_of_cancelled {b : Batch} (narrow : b.width ≤ maxWidth) (picks : List Nat)
    {w : World} (cancelled : w.cancelled = true) :
    ∃ w', (b.process (.inPlace config) picks).run a w = (.done [], w') ∧ w.Untouched w' := by
  obtain ⟨w', ran, untouched⟩ := run_mapM_of_cancelled a config b.source
    (completions b.width picks b.messages.zipIdx) cancelled
  refine ⟨w', ?_, untouched⟩
  simp only [process, begin, if_pos narrow, pure_bind]
  rw [Program.run_bind, ran]
  simp [List.filterMap_map]

end Batch

/-! A batch that is cancelled while it is handed out -/

/-- What becomes of a message of such a batch: nothing, or one try with one event. -/
inductive Fate (w w' : World) (answers : List Message) (n : Message) : Option Envelope → Prop
  | spared (pending : n.status = .pending) (stored : w'.messages.find? n.id = some n)
      (unanswered : n.id ∉ answers.map (·.id)) : Fate w w' answers n none
  | handedOut {e : Envelope} {m : Message} (carries : e.Carries .phoneSending
        (.phoneSending (.ofMessage n))) (new : w.log.slots.find? e.key = none)
      (recorded : w'.log.has e.key = true) (stored : w'.messages.find? n.id = some m)
      (status : m.status = .sending) (version : m.version.toNat = n.version.toNat + 1)
      (attempts : m.sendAttemptCount.toNat = n.sendAttemptCount.toNat + 1)
      (answered : m ∈ answers) : Fate w w' answers n (some e)

/-- What a batch has left that may have been cancelled. The events are those of the messages that
were handed out. -/
structure Batch.Ceases (b : Batch) (w w' : World) (answers : List Message)
    (events : List (Option Envelope)) : Prop where
  fates : List.Forall₂ (Fate w w' answers) b.messages events
  announced : w'.announced.Perm (w.announced ++ events.filterMap id)
  log : ∀ key, (∀ e ∈ events.filterMap id, key ≠ e.key) →
    w'.log.slots.find? key = w.log.slots.find? key
  others : ∀ id, id ∉ b.messages.map (·.id) → w'.messages.find? id = w.messages.find? id
  answers : ∀ m ∈ answers, m.id ∈ b.messages.map (·.id)

/-- No claim is left that was not there before. -/
theorem Batch.Ceases.claims {b : Batch} {w w' : World} {answers : List Message}
    {events : List (Option Envelope)} (ceases : b.Ceases w w' answers events) {key : ListenerKey}
    {since : Instant} (claimed : w'.log.slots.find? key = some (.inProgress since)) :
    w.log.slots.find? key = some (.inProgress since) := by
  rw [← ceases.log key fun e mem same => ?_]
  · exact claimed
  · obtain ⟨event, listed, rfl⟩ := List.mem_filterMap.mp mem
    obtain ⟨n, _, fate⟩ := exists_of_mem_right ceases.fates listed
    cases fate with
    | handedOut _ _ recorded =>
        obtain ⟨h, handled⟩ := ListenerLog.has_iff.mp recorded
        rw [← same, claimed] at handled
        cases handled

namespace Post

/-- The event of a worker that has handed out its message. -/
def event? (p : Post) : Option Envelope :=
  match p.duty with
  | .loaded e _ => some e
  | _ => none

def answer? (p : Post) : Option Message :=
  match p.duty with
  | .loaded _ m => some m
  | _ => none

theorem message?_of_follows {program : Program (Option Message)} {p : Post}
    (follows : program.Follows conduct p) (sane : p.duty ≠ .stray) :
    program.message? = p.answer? := by
  obtain ⟨source, sms, duty⟩ := p
  cases program with
  | done x =>
      have ends : Ends duty (.done x) := follows
      cases ends with
      | stray => exact absurd rfl sane
      | _ => rfl
  | abort text =>
      have ends : Ends duty (.aborted text) := follows
      cases ends
      exact absurd rfl sane
  | ask r next =>
      have may : May sms duty r := follows.1
      cases may <;> rfl

theorem answers_of_keeps {programs : List (Program (Option Message))} {ps : List Post}
    (keeps : Turns.Keeps conduct programs ps) (sane : ∀ p ∈ ps, p.duty ≠ .stray) :
    programs.filterMap Program.message? = ps.filterMap answer? := by
  induction keeps with
  | nil => rfl
  | @cons _ p _ _ follows _ ih =>
      rw [List.filterMap_cons, List.filterMap_cons,
        message?_of_follows follows (sane p List.mem_cons_self),
        ih fun q mem => sane q (List.mem_cons_of_mem _ mem)]

/-- The worker has handed out its message or not touched it. -/
inductive Ceased : Duty → Prop
  | begun : Ceased .begun
  | dropped (e : Envelope) : Ceased (.dropped e)
  | loaded (e : Envelope) (m : Message) : Ceased (.loaded e m)

theorem Ceased.announced_face {p : Post} (ceased : Ceased p.duty) :
    p.face.announced = p.event? := by
  obtain ⟨source, sms, duty⟩ := p
  cases ceased <;> rfl

theorem Ceased.hasWritten_face {p : Post} (ceased : Ceased p.duty) :
    p.face.hasWritten = p.event?.isSome := by
  obtain ⟨source, sms, duty⟩ := p
  cases ceased <;> rfl

end Post

section Ceases

open Post

variable {a : Ambient} {w₀ w : World} {ps : List Post} {b : Batch}

/-- The only worker of a message that waits does not fail. -/
theorem Manned.ceased (manned : Manned a w₀ w ps) {p : Post} (mem : p ∈ ps)
    (once : ((ps.map face).map (·.id)).Nodup) {n : Message}
    (stored : w₀.messages.find? p.sms.id = some n) (pending : n.status = .pending)
    {o : Outcome (Option Message)} (ends : Ends p.duty o) : Ceased p.duty := by
  have only := writers_of_nodup once (List.mem_map_of_mem mem)
  have sound := manned.sound p mem
  rw [face_id] at only
  rw [only] at sound
  obtain ⟨source, sms, duty⟩ := p
  simp only at sound stored ⊢
  cases ends with
  | dropped e => exact .dropped e
  | loaded e m => exact .loaded e m
  | failed e bid line =>
      cases sound with
      | failed own knows fails =>
          have agrees : Ticket.Agrees (w₀.verdict .epoch sms.id) _ :=
            Ticket.agrees_of_failed knows fails
          have allowed : n.status ∈ Status.attemptAllowed := by
            rw [pending]
            decide
          rw [World.verdict_of_allowed stored allowed] at agrees
          cases agrees
  | stray o => cases sound

/-- Who has answered has written, and answers with its own message. -/
theorem Manned.of_answer (manned : Manned a w₀ w ps) {p : Post} (mem : p ∈ ps) {m : Message}
    (answered : p.answer? = some m) : m.id = p.sms.id ∧ p.face.hasWritten = true := by
  have sound := manned.sound p mem
  obtain ⟨source, sms, duty⟩ := p
  simp only at sound ⊢
  cases duty with
  | loaded e m' =>
      cases answered
      cases sound with
      | loaded own seen tried =>
          obtain ⟨m₀, began, tries, _⟩ := seen
          exact ⟨tries.id.trans (MessageStore.id_of_find? began), rfl⟩
  | _ => cases answered

/-- A message that no worker has written is as it was, and nobody answers with it. -/
theorem Manned.spared (manned : Manned a w₀ w ps) {n : Message}
    (stored : w₀.messages.find? n.id = some n) (pending : n.status = .pending)
    (unwritten : writers (ps.map face) n.id = 0) : Fate w₀ w (ps.filterMap answer?) n none := by
  refine .spared pending ?_ fun answered => ?_
  · rw [manned.stocked.find?_of_unwritten unwritten]
    exact stored
  · obtain ⟨m, listed, named⟩ := List.mem_map.mp answered
    obtain ⟨q, works, answers⟩ := List.mem_filterMap.mp listed
    obtain ⟨same, written⟩ := manned.of_answer works answers
    have mine : q.face.id = n.id := (q.face_id.trans same.symm).trans named
    have counted : 0 < writers (ps.map face) n.id :=
      List.countP_pos_iff.mpr ⟨q.face, List.mem_map_of_mem works, by simp [mine, written]⟩
    omega

/-- A worker that has ceased leaves its message handed out, or as it was. -/
theorem Manned.fate (manned : Manned a w₀ w ps) {p : Post} (mem : p ∈ ps)
    (once : ((ps.map face).map (·.id)).Nodup) {n : Message} (own : p.sms = .ofMessage n)
    (stored : w₀.messages.find? n.id = some n) (pending : n.status = .pending)
    (ceased : Ceased p.duty) : Fate w₀ w (ps.filterMap answer?) n p.event? := by
  have sound := manned.sound p mem
  have only := writers_of_nodup once (List.mem_map_of_mem mem)
  rw [face_id, ceased.hasWritten_face] at only
  rw [only] at sound
  obtain ⟨place, found⟩ := List.getElem?_of_mem mem
  have shown := Manned.found_face found
  obtain ⟨source, sms, duty⟩ := p
  simp only at sound own
  subst own
  cases ceased with
  | begun => exact manned.spared stored pending only
  | dropped e => exact manned.spared stored pending only
  | loaded e m =>
      cases sound with
      | loaded own seen tried =>
          obtain ⟨m₀, began, tries, most, last⟩ := seen
          obtain rfl := Option.some_inj.mp (stored.symm.trans began)
          obtain rfl : _ = 1 := Nat.le_antisymm most tried
          have key := Manned.attemptKey_of_tries own
          refine .handedOut own.carries ?_ ?_ (last rfl) (tries.status tried) tries.version
            tries.sendAttemptCount (List.mem_filterMap.mpr ⟨_, mem, rfl⟩)
          · rw [key]
            exact manned.numbered.vacant manned.fresh
              (List.mem_filterMap.mpr ⟨_, List.mem_of_getElem? shown, rfl⟩)
          · rw [ListenerLog.has_iff_stateOf, key]
            exact manned.logged.own place _ e.id shown rfl

/-- Where no worker has handed out its message the log is as it was. -/
theorem Manned.log_of_ceased (manned : Manned a w₀ w ps) (ceased : ∀ p ∈ ps, Ceased p.duty)
    {key : ListenerKey} (apart : ∀ e ∈ (ps.map event?).filterMap id, key ≠ e.key) :
    w.log.slots.find? key = w₀.log.slots.find? key := by
  refine manned.find?_of_vacant fun f mem id named same => ?_
  obtain ⟨p, works, rfl⟩ := List.mem_map.mp mem
  have sound := manned.sound p works
  have stopped := ceased p works
  obtain ⟨source, sms, duty⟩ := p
  simp only at sound stopped
  cases stopped with
  | begun => cases named
  | dropped e => rfl
  | loaded e m =>
      cases named
      cases sound with
      | loaded own =>
          refine absurd (same.trans (Manned.attemptKey_of_tries own).symm) (apart e ?_)
          exact List.mem_filterMap.mpr ⟨some e, List.mem_map.mpr ⟨_, works, rfl⟩, rfl⟩

theorem Manned.ceases (manned : Manned a w₀ w ps)
    (messages : ps.map (·.sms) = b.messages.map .ofMessage)
    (once : (b.messages.map (·.id)).Nodup)
    (waiting : ∀ n ∈ b.messages, w₀.messages.find? n.id = some n ∧ n.status = .pending)
    (ceased : ∀ p ∈ ps, Ceased p.duty) :
    b.Ceases w₀ w (ps.filterMap answer?) (ps.map event?) := by
  have ids := map_id_of_messages messages
  have faceIds := (map_face_id ps).trans ids
  have announced : (ps.map face).filterMap (·.announced) = (ps.map event?).filterMap id := by
    rw [List.filterMap_map, List.filterMap_map]
    exact List.filterMap_congr fun p mem => (ceased p mem).announced_face
  refine ⟨?_, ?_, fun key apart => ?_, fun id absent => ?_, fun m answered => ?_⟩
  · refine List.forall₂_map_right_iff.mpr ?_
    refine forall₂_of_map_eq messages fun n listed p mem own => ?_
    obtain ⟨stored, pending⟩ := waiting n listed
    exact manned.fate mem (faceIds ▸ once) own stored pending (ceased p mem)
  · rw [← announced]
    exact manned.told.announced
  · exact manned.log_of_ceased ceased apart
  · exact manned.stocked.find?_of_unwritten (writers_of_absent (faceIds ▸ absent))
  · obtain ⟨p, mem, answers⟩ := List.mem_filterMap.mp answered
    obtain ⟨named, _⟩ := manned.of_answer mem answers
    rw [← ids, named]
    exact List.mem_map_of_mem mem

end Ceases

namespace Turns

/-- Every program has ended or has not begun. -/
def Stopped {α : Type} (t : Turns α) : Prop :=
  ∀ place < t.programs.length, (t.outcome? place).isSome = true ∨ t.talk place = []

theorem ceased_run {a : Ambient} (config : ServiceConfig) {b : Batch} {w : World}
    (fresh : w.Fresh a (2 * b.messages.length)) (room : w.RoomFor (b.messages.map (·.id)))
    (once : (b.messages.map (·.id)).Nodup)
    (waiting : ∀ n ∈ b.messages, w.messages.find? n.id = some n ∧ n.status = .pending)
    (schedule : List Turn) :
    let t := (ofBatch (.inPlace config) b w).run a alone schedule
    t.Stopped → ∃ events, b.Ceases w t.world t.answers events := by
  intro t stopped
  obtain ⟨ps, keeps, staffed⟩ := staffed_run config fresh room schedule
  have sane : ∀ p ∈ ps, p.duty ≠ .stray := by
    intro p mem stray
    have sound := staffed.manned.sound p mem
    rw [stray] at sound
    cases sound
  have ids := (Post.map_face_id ps).trans (map_id_of_messages staffed.messages)
  have ceased : ∀ p ∈ ps, Post.Ceased p.duty := by
    intro p mem
    obtain ⟨place, inside, here⟩ := List.getElem_of_mem mem
    have found : ps[place]? = some p := by rw [List.getElem?_eq_getElem inside, here]
    rcases stopped place (keeps.length_eq ▸ inside) with ended | silent
    · obtain ⟨o, stands⟩ := exists_outcome_of_isSome ended
      obtain ⟨p', found', follows⟩ := keeps.exists_standing stands
      obtain rfl := Option.some_inj.mp (found.symm.trans found')
      have ends : Post.Ends p.duty o := by cases o <;> exact follows
      have listed : p.sms ∈ b.messages.map .ofMessage :=
        staffed.messages ▸ List.mem_map_of_mem mem
      obtain ⟨n, selected, own⟩ := List.mem_map.mp listed
      obtain ⟨stored, pending⟩ := waiting n selected
      rw [show n.id = p.sms.id by rw [← own]; rfl] at stored
      exact staffed.manned.ceased mem (ids ▸ once) stored pending ends
    · rw [staffed.idle place p found silent]
      exact .begun
  rw [Turns.answers, Post.answers_of_keeps keeps sane]
  exact ⟨_, staffed.manned.ceases staffed.messages once waiting ceased⟩

end Turns

/-! What a poll gets in a world that can come about -/

namespace Service

variable {a : Ambient} {config : ServiceConfig} {w w' : World}

/-- Who polls when everything is cancelled gets nothing. -/
theorem run_getOutstanding_of_cancelled (a : Ambient)
    (narrow : max config.outstandingConcurrency.toNat 1 ≤ Batch.maxWidth) (picks : List Nat)
    (p : Poll) (cancelled : w.cancelled = true) :
    ∃ w', ((inPlace config).getOutstanding picks p).run a w = (.done (.ok []), w') ∧
      w.Untouched w' := by
  simp only [getOutstanding, poll, bind_assoc, Program.run_outstanding, config_inPlace]
  cases w.messages.outstanding (p.limit.getD config.outstandingLimit) with
  | nil => exact ⟨w, rfl, .refl w⟩
  | cons m ms =>
      obtain ⟨w', ran, untouched⟩ := Batch.run_process_of_cancelled a config
        (b := .ofMessages p.source config.outstandingConcurrency (m :: ms)) narrow picks cancelled
      refine ⟨w', ?_, untouched⟩
      simp only [pure_bind]
      rw [Program.run_bind, ran]
      rfl

/-- Who polls for a batch that is too wide breaks off, whether anything is cancelled or not. -/
theorem run_getOutstanding_of_wide (a : Ambient)
    (wide : Batch.maxWidth < max config.outstandingConcurrency.toNat 1) (picks : List Nat)
    {p : Poll} (waits : w.messages.outstanding (p.limit.getD config.outstandingLimit) ≠ []) :
    ∃ text, ((inPlace config).getOutstanding picks p).run a w = (.aborted text, w) := by
  refine ⟨_, run_getOutstanding_of_tooWide (s := inPlace config) a ?_ waits⟩
  rw [config_inPlace]
  have positive : 1 ≤ Batch.maxWidth := by decide
  omega

/-- How a cancellation is heeded in the world `w`. -/
structure Heeds (a : Ambient) (config : ServiceConfig) (w : World) : Prop where
  send (p : SendRequest) : Abandoned w.cancel (((inPlace config).send p).run a w.cancel)
  receive (p : Receipt) : Abandoned w.cancel (((inPlace config).receive p).run a w.cancel)
  handOut (source : String) (m : Message) :
    Abandoned w.cancel (((inPlace config).handOut source m).run a w.cancel)
  /-- A report that cannot be dealt with is turned away. -/
  report (m : Message) (p : PhoneReport) :
    Abandoned w.cancel (((inPlace config).report m p).run a w.cancel) ∨
      ∃ text, ((inPlace config).report m p).run a w.cancel =
        (.done (.error (.validation text)), w.cancel)
  getOutstanding (picks : List Nat) (p : Poll)
    (narrow : max config.outstandingConcurrency.toNat 1 ≤ Batch.maxWidth) :
    ∃ w', ((inPlace config).getOutstanding picks p).run a w.cancel = (.done (.ok []), w') ∧
      w.cancel.Untouched w'
  /-- The width of a batch is looked at first. -/
  wide (picks : List Nat) (p : Poll)
    (wide : Batch.maxWidth < max config.outstandingConcurrency.toNat 1)
    (waits : w.messages.outstanding (p.limit.getD config.outstandingLimit) ≠ []) :
    ∃ text, ((inPlace config).getOutstanding picks p).run a w.cancel = (.aborted text, w.cancel)
  /-- The workers of a batch end, cancelled or not, each after so many turns of its own. -/
  ends (b : Batch) (schedule : List Turn) {place : Nat} (inside : place < b.messages.length)
    (enough : Batch.turns config ≤ schedule.count (.go place)) :
    (((Turns.ofBatch (inPlace config) b w).run a Turns.alone schedule).outcome? place).isSome
  /-- What the workers of a polled batch have left when no more of them begin, wherever in the
  schedule everything was cancelled. -/
  batch {p : Poll} {b : Batch} (schedule : List Turn)
    (polled : ((inPlace config).poll p).run a w = (.done (.ok (some b)), w)) :
    let t := (Turns.ofBatch (inPlace config) b w).run a Turns.alone schedule
    t.Stopped → ∃ events, b.Ceases w t.world t.answers events ∧
      ∀ key since, t.world.log.slots.find? key = some (.inProgress since) →
        w.log.slots.find? key = some (.inProgress since)

theorem cancellation_clean (a : Ambient) {config : ServiceConfig} {w : World}
    (reachable : w.Reachable a config)
    (fresh : w.Fresh a (2 * w.messages.waiting.length)) : Heeds a config w where
  send p := abandoned_drawing a config p.source rfl
  receive p := abandoned_drawing a config p.source rfl
  handOut source m := abandoned_emit a config source _ rfl
  report m p := by
    unfold report
    split
    · exact .inr ⟨_, rfl⟩
    · split
      · exact .inl (abandoned_emit a config p.source _ rfl)
      · exact .inr ⟨_, rfl⟩
      · exact .inr ⟨_, rfl⟩
  getOutstanding picks p narrow := run_getOutstanding_of_cancelled a narrow picks p rfl
  wide picks p wide waits := run_getOutstanding_of_wide a wide picks waits
  ends b schedule place inside enough := by
    have found := Turns.ofBatch_programs (inPlace config) b w place
    rw [List.getElem?_eq_getElem inside, Option.map_some] at found
    exact Turns.isSome_outcome?_run found (Batch.work_endsWithin config b.source _) a Turns.alone
      enough
  batch {p b} schedule polled := by
    intro t stopped
    have selected := Poll.messages_of_run_poll polled
    generalize p.limit.getD config.outstandingLimit = limit at selected
    have few : b.messages.length ≤ w.messages.waiting.length := by
      rw [selected, w.messages.length_outstanding]
      exact Nat.min_le_right ..
    have waiting : ∀ n ∈ b.messages, w.messages.find? n.id = some n ∧ n.status = .pending := by
      intro n mem
      obtain ⟨stored, waits⟩ :=
        MessageStore.mem_waiting_iff.mp (w.messages.outstanding_subset limit (selected ▸ mem))
      exact ⟨stored, Message.pending_of_isOutstanding waits⟩
    obtain ⟨events, ceases⟩ := Turns.ceased_run config (fresh.mono (Nat.mul_le_mul_left 2 few))
      (selected ▸ reachable.untried.roomFor limit) (selected ▸ w.messages.nodup_outstanding limit)
      waiting schedule stopped
    exact ⟨events, ceases, fun _ _ => ceases.claims⟩

/-- Two messages wait. -/
theorem cancellation_clean_pair :
    let a : Ambient := ⟨fun _ => .epoch, fun n => ⟨n⟩⟩
    let store (id : Nat) : Step :=
      { command := .storeSent ⟨⟨id⟩, "+1000", "+2000", "hi", .epoch⟩, distinct := trivial }
    let w := (Course.run a {} [store 7, store 8]).world
    w.messages.waiting.length = 2 ∧ w.Reachable a {} ∧
      w.Fresh a (2 * w.messages.waiting.length) ∧ Heeds a {} w := by
  intro a store w
  have two : w.messages.waiting.length = 2 := by decide +kernel
  have reachable : w.Reachable a {} := Course.reachable_run a {} [store 7, store 8]
  have fresh : w.Fresh a (2 * w.messages.waiting.length) := by
    rw [two]
    refine ⟨by decide +kernel, fun i inside kind => ?_⟩
    revert i
    cases kind <;> decide +kernel
  exact ⟨two, reachable, fresh, cancellation_clean a reachable fresh⟩

/-- One message waits and everything is cancelled, but the batch would be too wide. -/
theorem cancelled_poll_breaks_off :
    let a : Ambient := ⟨fun _ => .epoch, fun n => ⟨n⟩⟩
    let config : ServiceConfig := { outstandingConcurrency := 2305843009213693952 }
    let store : Step :=
      { command := .storeSent ⟨⟨7⟩, "+1000", "+2000", "hi", .epoch⟩, distinct := trivial }
    let w := (Course.run a config [store]).world
    w.Reachable a config ∧ ∃ text,
      ((inPlace config).getOutstanding [] ⟨"phone-poll", none⟩).run a w.cancel =
        (.aborted text, w.cancel) := by
  intro a config store w
  have reachable : w.Reachable a config := Course.reachable_run a config [store]
  refine ⟨reachable, run_getOutstanding_of_wide a (by decide) [] fun none => ?_⟩
  have one : (w.messages.outstanding 100).length = 1 := by
    rw [w.messages.length_outstanding]
    decide +kernel
  have nothing : w.messages.outstanding 100 = [] := none
  rw [nothing] at one
  cases one

end Service

end SmsTracking
