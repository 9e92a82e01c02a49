import SmsTracking.Proofs.Emissions
import SmsTracking.Proofs.SpawnedPrograms

/-!
How a poll conducts itself in its parts. It selects its batch with one request, and then each worker
runs an errand for its own message: of the messages it loads this one only, and it writes this one
only, as a try makes it of what was loaded, at most once. Main statements: a poll is made of its
parts (`Part.getOutstanding_eq`), and each of these keeps to its errand (`Part.select_follows` and
`Part.handOut_follows`).
-/

namespace SmsTracking

/-- A part of a poll that has ended. Polls are numbered. -/
inductive Part where
  | selected (poll : Nat) (answer : Except AppError (Option Batch))
  /-- A worker has ended. -/
  | handed (poll : Nat) (m : Option Message)

namespace Part

/-- The part of a poll up to its batch. -/
def select (s : Service) (poll : Nat) (p : Poll) : Program Part := do
  match ← s.poll p with
  | .ok (some b) =>
      b.begin
      pure (.selected poll (.ok (some b)))
  | answer => pure (.selected poll answer)

/-- The part of a poll that hands out one message of the batch. -/
def handOut (s : Service) (source : String) (poll : Nat) (job : Message × Nat) : Program Part :=
  handed poll <$> Batch.work s source job

/-- A batch that was selected sets its workers going. -/
def workers (s : Service) : Part → List (Program Part)
  | selected poll (.ok (some b)) => b.messages.zipIdx.map (handOut s b.source poll)
  | _ => []

def message? : Part → Option Message
  | handed _ m => m
  | selected _ _ => none

/-- What a poll answers when this part has ended, its workers running one after the other. -/
def answer (s : Service) (picks : List Nat) : Part → Program (Except AppError (List Message))
  | selected poll (.ok (some b)) => do
      let jobs := completions b.width picks b.messages.zipIdx
      let parts ← jobs.mapM (handOut s b.source poll)
      pure (.ok (parts.filterMap message?))
  | selected _ (.ok none) => pure (.ok [])
  | selected _ (.error e) => pure (.error e)
  | handed _ m => pure (.ok m.toList)

theorem mapM_handOut (s : Service) (source : String) (poll : Nat) (jobs : List (Message × Nat)) :
    jobs.mapM (handOut s source poll) =
      (·.map (handed poll)) <$> jobs.mapM (Batch.work s source) := by
  induction jobs with
  | nil => rfl
  | cons job jobs ih =>
      simp only [List.mapM_cons, ih, handOut, map_eq_pure_bind, bind_assoc, pure_bind,
        List.map_cons]

/-- A poll is made of its parts. -/
theorem getOutstanding_eq (s : Service) (picks : List Nat) (p : Poll) (poll : Nat) :
    s.getOutstanding picks p = select s poll p >>= answer s picks := by
  simp only [Service.getOutstanding, select, bind_assoc]
  refine congrArg _ (funext fun found => ?_)
  match found with
  | .error e => rfl
  | .ok none => rfl
  | .ok (some b) =>
      simp only [Batch.process, bind_assoc, pure_bind, answer, mapM_handOut, map_eq_pure_bind]
      refine congrArg _ (funext fun _ => congrArg _ (funext fun ms => ?_))
      simp only [List.filterMap_map]
      rfl

end Part

/-- How far a worker has come with its message. -/
inductive Errand where
  | idle
  | loaded (m : Message)
  /-- It has loaded a message and read the clock. -/
  | ready (m : Message) (now : Timestamp)
  | written

def Errand.next : Errand → Exchange → Errand
  | written, _ => written
  | _, ⟨.load _, .ok m⟩ => loaded m
  | loaded m, ⟨.now, time⟩ => ready m time
  | ready _ _, ⟨.update _, .done⟩ => written
  | ready _ _, ⟨.update _, _⟩ => idle
  | e, _ => e

inductive Role where
  | asking (poll : Nat)
  | answered (poll : Nat) (ms : List Message)
  | working (poll : Nat) (id : Uuid) (errand : Errand)

/-- Asks for no messages and changes none. -/
def Request.isAside : Request → Bool
  | store _ | update _ | load _ | outstanding _ => false
  | _ => true

namespace Role

def next : Role → Exchange → Role
  | asking poll, ⟨.outstanding _, .ok ms⟩ => answered poll ms
  | working poll id errand, x => working poll id (errand.next x)
  | role, _ => role

inductive May : Role → Request → Prop
  | outstanding {poll : Nat} (limit : UInt64) : May (asking poll) (.outstanding limit)
  | aside {poll : Nat} {id : Uuid} {errand : Errand} {r : Request} (h : r.isAside = true) :
      May (working poll id errand) r
  | load {poll : Nat} {id : Uuid} {errand : Errand} : May (working poll id errand) (.load id)
  | update {poll : Nat} {id : Uuid} {m m' : Message} {now time : Timestamp}
      (made : (Move.attempt time).apply m now = .done m') :
      May (working poll id (.ready m now)) (.update m')

inductive Ends : Role → Outcome Part → Prop
  | batch {poll : Nat} (b : Batch) :
      Ends (answered poll b.messages) (.done (.selected poll (.ok (some b))))
  | nothing {poll : Nat} : Ends (answered poll []) (.done (.selected poll (.ok none)))
  | handed {poll : Nat} {id : Uuid} {errand : Errand} {m : Option Message}
      (own : ∀ n, m = some n → n.id = id) :
      Ends (working poll id errand) (.done (.handed poll m))
  | aborted {role : Role} (text : String) : Ends role (.aborted text)

def conduct : Conduct Role Part where
  start := asking 0
  next := next
  may := May
  ends := Ends

/-- A worker is still at its errand. -/
def Working (poll : Nat) (id : Uuid) {α : Type} (role : Role) (_ : Outcome α) : Prop :=
  ∃ errand, role = working poll id errand

/-- A worker is still at its errand, and what was loaded in the end is its message. -/
def Fetched (poll : Nat) (id : Uuid) (role : Role) (o : Outcome (Except AppError Message)) : Prop :=
  Working poll id role o ∧ ∀ m, o = .done (.ok m) → m.id = id

theorem Fetched.failed {poll : Nat} {id : Uuid} {errand : Errand} (e : AppError) :
    Fetched poll id (working poll id errand) (.done (.error e)) := by
  refine ⟨⟨errand, rfl⟩, fun m fetched => ?_⟩
  cases fetched

theorem Fetched.aborted {poll : Nat} {id : Uuid} {errand : Errand} (text : String) :
    Fetched poll id (working poll id errand) (.aborted text) := by
  refine ⟨⟨errand, rfl⟩, fun m fetched => ?_⟩
  cases fetched

end Role

namespace Program

open Role

variable {α β : Type} {ends : Role → Outcome α → Prop} {poll : Nat} {id : Uuid} {errand : Errand}

theorem Follows.aside {r : Request} {next : r.Answer → Program α} (h : r.isAside = true)
    (rest : ∀ answer errand, (next answer).Follows (conduct.upTo ends) (working poll id errand)) :
    (ask r next).Follows (conduct.upTo ends) (working poll id errand) :=
  ⟨.aside h, fun _ _ => rest _ _⟩

theorem Follows.bindWorking {p : Program β} {f : β → Program α}
    (first : p.Follows (conduct.upTo (Working poll id)) (working poll id errand))
    (rest : ∀ x errand, (f x).Follows (conduct.upTo ends) (working poll id errand))
    (aborted : ∀ errand text, ends (working poll id errand) (.aborted text)) :
    (p >>= f).Follows (conduct.upTo ends) (working poll id errand) := by
  refine Follows.bind (c := conduct.upTo ends) first ?_ ?_
  · rintro _ x ⟨errand, rfl⟩
    exact rest x errand
  · rintro _ text ⟨errand, rfl⟩
    exact aborted errand text

end Program

namespace Lifecycle

open Role

variable {poll : Nat} {id : Uuid}

theorem tryMove_follows_errand (time : Timestamp)
    {conflicted : DomainError → Program (Except AppError Message)}
    (rest : ∀ e, (conflicted e).Follows (conduct.upTo (Working poll id)) (working poll id .idle)) :
    (tryMove id (.attempt time) conflicted).Follows (conduct.upTo (Working poll id))
      (working poll id .idle) := by
  refine .load .load fun answer => ?_
  cases answer with
  | error e => exact ⟨_, rfl⟩
  | ok m =>
      refine .now (.aside rfl) fun now => ?_
      cases made : (Move.attempt time).apply m now with
      | overflow _ => exact ⟨_, rfl⟩
      | refused e => exact ⟨_, rfl⟩
      | done m' =>
          refine .update (.update made) fun answer => ?_
          cases answer with
          | done => exact ⟨_, rfl⟩
          | overflow => exact ⟨_, rfl⟩
          | refused e =>
              cases e with
              | versionConflict id expected actual => exact rest _
              | _ => exact ⟨_, rfl⟩

theorem transition_follows_errand (time : Timestamp) (retries : Nat) :
    (transition id (.attempt time) retries).Follows (conduct.upTo (Working poll id))
      (working poll id .idle) := by
  induction retries with
  | zero => exact tryMove_follows_errand time fun _ => ⟨_, rfl⟩
  | succ retries ih => exact tryMove_follows_errand time fun _ => ih

end Lifecycle

namespace Listener

open Role

variable {poll : Nat} {id : Uuid} {errand : Errand}

theorem release_follows_errand (key : ListenerKey) :
    (release key).Follows (conduct.upTo (Working poll id)) (working poll id errand) := by
  refine .aside rfl fun answer errand => ?_
  cases answer with
  | ok u => exact ⟨_, rfl⟩
  | error e => exact .aside rfl fun _ errand => ⟨_, rfl⟩

theorem complete_follows_errand (key : ListenerKey) (e : Envelope) (started : Instant) :
    (complete key e started).Follows (conduct.upTo (Working poll id)) (working poll id errand) := by
  refine .aside rfl fun finished errand => .aside rfl fun handledAt errand =>
    .aside rfl fun id' errand => .aside rfl fun createdAt errand =>
      .record (.aside rfl) fun first => ?_
  cases first with
  | true => exact ⟨_, rfl⟩
  | false => exact .aside rfl fun _ errand => ⟨_, rfl⟩

/-- An event about an attempt leads to an attempt on its message. -/
theorem handle_follows_errand (retries : Nat) {e : Envelope} {sms : Sms}
    (decoded : e.payloadAs .phoneSending = .ok (.phoneSending sms)) :
    (handle retries .phoneSending e).Follows (conduct.upTo (Working poll sms.id))
      (working poll sms.id .idle) := by
  refine .claim (.aside rfl) fun answer => ?_
  cases answer with
  | alreadyHandled => exact ⟨_, rfl⟩
  | inProgress => exact ⟨_, rfl⟩
  | claimed =>
      refine .uptime (.aside rfl) fun started => .bindWorking ?_ ?_ fun errand _ => ⟨errand, rfl⟩
      · simp only [apply, decoded, operation]
        exact Lifecycle.transition_follows_errand e.time retries
      · intro answer errand
        cases answer with
        | ok m => exact complete_follows_errand _ e started
        | error reason =>
            exact .bindWorking (release_follows_errand _) (fun _ errand => ⟨_, rfl⟩)
              fun errand _ => ⟨errand, rfl⟩

end Listener

namespace Service

open Role

variable {poll : Nat} {id : Uuid} {errand : Errand}

theorem transport_follows_errand (config : ServiceConfig) {e : Envelope} {sms : Sms}
    (carries : e.Carries .phoneSending (.phoneSending sms)) :
    ((inPlace config).transport e).Follows (conduct.upTo (Working poll sms.id))
      (working poll sms.id .idle) := by
  refine ⟨.aside rfl, fun a w => ?_⟩
  change Program.Follows _ (Registry.dispatch _ _ _ e) (working poll sms.id .idle)
  rw [Listener.dispatch_handlers carries.kind]
  refine .bindWorking ?_ ?_ fun errand _ => ⟨errand, rfl⟩
  · exact Listener.handle_follows_errand _ carries.decoded
  · intro answer errand
    cases answer with
    | ok u => exact ⟨_, rfl⟩
    | error reason => exact .aside rfl fun _ errand => ⟨_, rfl⟩

theorem look_follows_errand {missing : DomainError → Program (Except AppError Message)}
    (rest : ∀ reason errand,
      (missing reason).Follows (conduct.upTo (Fetched poll id)) (working poll id errand)) :
    (look id missing).Follows (conduct.upTo (Fetched poll id)) (working poll id errand) := by
  refine ⟨.load, fun a w => ?_⟩
  have answered : (w.answer a (.load id)).1 = w.messages.load id := rfl
  rw [answered]
  cases found : w.messages.find? id with
  | some m =>
      rw [MessageStore.load_of_find? found]
      refine ⟨⟨_, rfl⟩, ?_⟩
      rintro _ ⟨rfl⟩
      exact MessageStore.id_of_find? found
  | none =>
      rw [MessageStore.load_of_vacant found]
      exact rest _ _

theorem reload_follows_errand (interval : Span) (attempts : Nat) :
    (reload interval id attempts).Follows (conduct.upTo (Fetched poll id))
      (working poll id errand) := by
  induction attempts generalizing errand with
  | zero => exact look_follows_errand fun reason errand => .failed _
  | succ attempts ih =>
      refine look_follows_errand fun reason errand => .aside rfl fun cut errand => ?_
      cases cut with
      | true => exact Fetched.failed _
      | false => exact ih

theorem dispatch_follows_errand (config : ServiceConfig) (messageId : Uuid) {e : Envelope}
    {sms : Sms} (carries : e.Carries .phoneSending (.phoneSending sms)) :
    ((inPlace config).dispatch messageId e).Follows (conduct.upTo (Working poll sms.id))
      (working poll sms.id .idle) := by
  refine ⟨.aside rfl, fun a w => ?_⟩
  change Program.Follows _ (if w.cancelled = true then _ else _) (working poll sms.id .idle)
  split
  · exact ⟨_, rfl⟩
  · refine .bindWorking (transport_follows_errand config carries) ?_ fun errand _ => ⟨errand, rfl⟩
    intro answer errand
    cases answer with
    | ok u => exact ⟨_, rfl⟩
    | error reason => exact ⟨_, rfl⟩

theorem handOut_follows_errand (config : ServiceConfig) (source : String) (m : Message) :
    ((inPlace config).handOut source m).Follows (conduct.upTo (Fetched poll m.id))
      (working poll m.id .idle) := by
  refine .freshId (.aside rfl) fun eventId => .now (.aside rfl) fun now =>
    .bindWorking ?_ ?_ fun errand text => .aborted text
  · exact dispatch_follows_errand config _ (Envelope.ofPayload_carries eventId now source
      (.phoneSending (.ofMessage m)))
  · intro answer errand
    cases answer with
    | ok u => exact reload_follows_errand ..
    | error reason => exact Fetched.failed _

end Service

namespace Part

open Role

variable (config : ServiceConfig) (poll : Nat)

theorem handOut_follows (source : String) (job : Message × Nat) :
    (handOut (.inPlace config) source poll job).Follows conduct (working poll job.1.id .idle) := by
  simp only [handOut, Batch.work, map_eq_pure_bind, bind_assoc]
  refine Program.Follows.bind (c := conduct)
    (Service.handOut_follows_errand config source job.1).attempt ?_ ?_
  · rintro _ outcome ⟨o, ⟨rfl⟩, ⟨errand, rfl⟩, own⟩
    have nobody : ∀ errand, Ends (working poll job.1.id errand) (.done (.handed poll none)) := by
      refine fun errand => .handed fun n answered => ?_
      cases answered
    match outcome with
    | .done (.ok m) =>
        refine Ends.handed fun n answered => ?_
        cases answered
        exact own m rfl
    | .aborted text => exact .aside rfl fun _ errand => nobody errand
    | .done (.error reason) =>
        simp only [WorkerEnd.ofOutcome, WorkerEnd.note, WorkerEnd.lines]
        split
        · exact nobody errand
        · exact .aside rfl fun _ errand => nobody errand
  · rintro _ text ⟨_, ⟨⟩, _⟩

theorem select_follows (p : Poll) :
    (select (.inPlace config) poll p).Follows conduct (asking poll) := by
  refine ⟨.outstanding _, fun a w => ?_⟩
  simp only [World.answer, conduct, next]
  generalize w.messages.outstanding _ = ms
  cases ms with
  | nil => exact Ends.nothing
  | cons m ms =>
      let b := Batch.ofMessages p.source config.outstandingConcurrency (m :: ms)
      change Program.Follows conduct (b.begin >>= fun _ => pure (.selected poll (.ok (some b)))) _
      unfold Batch.begin
      split
      · exact Ends.batch b
      · exact Ends.aborted _

end Part

namespace Role

/-- The roles of the workers that a batch sets going. -/
def workers : Part → List Role
  | .selected poll (.ok (some b)) => b.messages.map fun m => working poll m.id .idle
  | _ => []

end Role

/-- What is set going keeps to its errand. -/
theorem Part.begets (config : ServiceConfig) :
    Turns.Begets Role.conduct (workers (.inPlace config)) Role.workers := by
  rintro _ _ (⟨b⟩ | _ | _)
  · show Turns.Keeps _ (b.messages.zipIdx.map _) (b.messages.map _)
    rw [← List.zipIdx_map_fst 0 b.messages, List.map_map, List.zipIdx_map_fst]
    refine List.forall₂_map_left_iff.mpr (List.forall₂_map_right_iff.mpr ?_)
    exact List.forall₂_same.mpr fun job _ => handOut_follows config _ b.source job
  · exact .nil
  · exact .nil

namespace Role

theorem bears_working {poll : Nat} {id : Uuid} {errand : Errand} {more : List Role}
    (bears : Turns.Bears conduct workers (working poll id errand) more) : more = [] := by
  cases bears with
  | nothing => rfl
  | ended ends =>
      cases ends with
      | handed own => rfl

theorem bears_answered {poll : Nat} {ms : List Message} {more : List Role}
    (bears : Turns.Bears conduct workers (answered poll ms) more) :
    ∃ ids : List Uuid, ids.Sublist (ms.map (·.id)) ∧
      more = ids.map fun id => working poll id .idle := by
  cases bears with
  | nothing => exact ⟨[], List.nil_sublist _, rfl⟩
  | ended ends =>
      cases ends with
      | nothing => exact ⟨[], List.nil_sublist _, rfl⟩
      | batch b =>
          refine ⟨b.messages.map (·.id), List.Sublist.refl _, ?_⟩
          simp only [workers, List.map_map, Function.comp_def]

end Role

end SmsTracking
