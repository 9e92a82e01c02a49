import SmsTracking.Proofs.Batches
import SmsTracking.Proofs.Endings
import SmsTracking.Proofs.SpawnedPrograms
import SmsTracking.Proofs.WorkerInvariant

/-!
The workers of a batch side by side. Main statements: after every schedule they are where they can
have come, and the world tells of them (`staffed_run`); all of them have ended once each has had its
turns (`over_run`); and workers that run to their ends one after the other make a schedule too
(`exists_schedule_process`).
-/

namespace SmsTracking

namespace Turns

variable {α : Type}

/-- The workers of a batch stand side by side, and none has begun. -/
def ofBatch (s : Service) (b : Batch) (w : World) : Turns (Option Message) where
  world := w
  programs := b.messages.zipIdx.map (Batch.work s b.source)

/-- A worker that has not made any request has not begun. -/
def Idle (es : List (Nat × Exchange)) (ps : List Post) : Prop :=
  ∀ place p, ps[place]? = some p → talkOf es place = [] → p.duty = .begun

theorem Idle.go {es : List (Nat × Exchange)} {ps : List Post} (idle : Idle es ps) (place : Nat)
    (p : Post) (x : Exchange) : Idle (es ++ [(place, x)]) (ps.set place p) := by
  intro other q found silent
  by_cases own : other = place
  · subst own
    rw [talkOf_append_self] at silent
    exact absurd silent (List.append_ne_nil_of_right_ne_nil _ (List.cons_ne_nil _ _))
  · rw [List.getElem?_set_ne (Ne.symm own)] at found
    rw [talkOf_append_of_ne es x own] at silent
    exact idle other q found silent

/-- The workers `ps` have come there from their beginnings in the world `w₀`. -/
structure Staffed (a : Ambient) (b : Batch) (w₀ w : World) (es : List (Nat × Exchange))
    (ps : List Post) : Prop where
  manned : Manned a w₀ w ps
  idle : Idle es ps
  messages : ps.map (·.sms) = b.messages.map .ofMessage

theorem Staffed.go {a : Ambient} {b : Batch} {w₀ w : World} {es : List (Nat × Exchange)}
    {ps : List Post} (staffed : Staffed a b w₀ w es ps) {place : Nat} {p : Post}
    (found : ps[place]? = some p) {r : Request} (may : Post.May p.sms p.duty r) :
    Staffed a b w₀ (w.answer a r).2 (es ++ [(place, ⟨r, (w.answer a r).1⟩)])
      (ps.set place (p.next ⟨r, (w.answer a r).1⟩)) where
  manned := staffed.manned.answer found may
  idle := staffed.idle.go place _ _
  messages := by
    have same : (p.next ⟨r, (w.answer a r).1⟩).sms = p.sms := rfl
    rw [map_set_of_eq (·.sms) found same]
    exact staffed.messages

end Turns

/-- Before any worker has begun. -/
theorem Manned.begin {a : Ambient} {w : World} {ps : List Post} (idle : ∀ p ∈ ps, p.duty = .begun)
    (fresh : w.Fresh a (2 * ps.length)) (room : w.RoomFor (ps.map (·.sms.id))) :
    Manned a w w ps := by
  have faces : ps.map Post.face = ps.map fun p => { id := p.sms.id } :=
    List.map_congr_left fun p mem => by simp only [Post.face, idle p mem]
  refine ⟨by rwa [List.length_map], room, ?_, ?_, ?_, ?_, ?_⟩
  · refine ⟨?_, ?_, ?_, ?_⟩
    · simp [faces, Function.comp_def]
    · intro f mem
      obtain ⟨p, _, rfl⟩ := List.mem_map.mp mem
      exact p.drawn_face_le
    · simp [faces, List.filterMap_map]
    · simp [faces, List.filterMap_map]
  · refine ⟨fun place f id found named => ?_, fun _ _ => rfl⟩
    rw [faces] at found
    obtain ⟨p, _, rfl⟩ := List.mem_map.mp (List.mem_of_getElem? found)
    cases named
  · have unwritten : ∀ id, writers (ps.map Post.face) id = 0 := by
      intro id
      simp [writers, faces, List.countP_map, Function.comp_def]
    refine ⟨fun id vacant => ⟨vacant, unwritten id⟩, fun id m₀ began => ⟨m₀, began, ?_⟩,
      fun id m _ tried => ?_⟩
    · rw [unwritten]
      exact .none
    · rw [unwritten] at tried
      cases tried
  · refine ⟨?_, ?_⟩ <;> simp [faces, List.filterMap_map]
  · intro p mem
    rw [idle p mem]
    exact .begun

namespace Turns

/-- The workers of a batch before they begin. -/
def posts (b : Batch) : List Post := b.messages.map fun m => ⟨b.source, .ofMessage m, .begun⟩

theorem keeps_ofBatch {σ : Type} {c : Conduct σ (Option Message)} {s : Service} {b : Batch}
    {start : Message → σ}
    (each : ∀ job, (Batch.work s b.source job).Follows c (start job.1)) (w : World) :
    Keeps c (ofBatch s b w).programs (b.messages.map start) := by
  unfold ofBatch
  generalize 0 = number
  induction b.messages generalizing number with
  | nil => exact .nil
  | cons m ms ih => exact .cons (each (m, number)) (ih _)

theorem ofBatch_keeps (config : ServiceConfig) (b : Batch) (w : World) :
    Keeps Post.conduct (ofBatch (.inPlace config) b w).programs (posts b) :=
  keeps_ofBatch (Batch.work_follows_duty config b.source) w

theorem staffed_posts {a : Ambient} {b : Batch} {w : World}
    (fresh : w.Fresh a (2 * b.messages.length)) (room : w.RoomFor (b.messages.map (·.id))) :
    Staffed a b w w [] (posts b) := by
  have ids : (posts b).map (·.sms.id) = b.messages.map (·.id) := by
    rw [posts, List.map_map]
    rfl
  have begun : ∀ p ∈ posts b, p.duty = .begun := by
    intro p mem
    obtain ⟨m, _, rfl⟩ := List.mem_map.mp mem
    rfl
  refine ⟨.begin begun ?_ ?_, ?_, ?_⟩
  · rwa [posts, List.length_map]
  · rwa [ids]
  · exact fun place p found _ => begun p (List.mem_of_getElem? found)
  · rw [posts, List.map_map]
    rfl

/-- Whatever the schedule, the workers are where they can have come, and the world tells of them. -/
theorem staffed_run {a : Ambient} (config : ServiceConfig) {b : Batch} {w : World}
    (fresh : w.Fresh a (2 * b.messages.length)) (room : w.RoomFor (b.messages.map (·.id)))
    (schedule : List Turn) :
    let t := (ofBatch (.inPlace config) b w).run a alone schedule
    ∃ ps, Keeps Post.conduct t.programs ps ∧ Staffed a b w t.world t.exchanges ps := by
  have begets : Begets Post.conduct alone (fun _ => []) := fun _ _ _ => .nil
  refine run_keeps_offspring (I := Staffed a b w) begets (ofBatch_keeps config b w)
    (staffed_posts fresh room) ?_ ?_ ?_ schedule
  · intro w' es ps place p r more staffed found may bears
    have nobody : more = [] := by cases bears <;> rfl
    rw [nobody, List.append_nil]
    exact staffed.go found may
  · intro w' es ps s staffed
    exact ⟨staffed.manned.still ⟨rfl, rfl, rfl, rfl, rfl, id⟩, staffed.idle, staffed.messages⟩
  · intro w' es ps staffed
    exact ⟨staffed.manned.still ⟨rfl, rfl, rfl, rfl, rfl, fun _ => rfl⟩, staffed.idle,
      staffed.messages⟩

/-! The workers come to their ends -/

/-- All programs have ended. -/
def Over (t : Turns α) : Prop := ∀ place < t.programs.length, (t.outcome? place).isSome = true

theorem length_run_alone (a : Ambient) (t : Turns α) (schedule : List Turn) :
    (t.run a alone schedule).programs.length = t.programs.length := by
  induction schedule generalizing t with
  | nil => rfl
  | cons turn schedule ih =>
      refine (ih _).trans ?_
      cases turn with
      | go place =>
          simp only [step]
          rcases go_alone_cases a t place with same | ⟨r, next, asked, gone⟩
          · rw [same]
          · rw [gone, List.length_set]
      | pass | cancel => rfl

theorem ofBatch_programs (s : Service) (b : Batch) (w : World) (place : Nat) :
    (ofBatch s b w).programs[place]? =
      (b.messages[place]?).map fun m => Batch.work s b.source (m, place) := by
  simp [ofBatch, List.getElem?_map, List.getElem?_zipIdx, Function.comp_def]

theorem over_run (a : Ambient) (config : ServiceConfig) (b : Batch) (w : World)
    {schedule : List Turn}
    (enough : ∀ place < b.messages.length, Batch.turns config ≤ schedule.count (.go place)) :
    ((ofBatch (.inPlace config) b w).run a alone schedule).Over := by
  intro place inside
  rw [length_run_alone, ofBatch, List.length_map, List.length_zipIdx] at inside
  have found := ofBatch_programs (.inPlace config) b w place
  rw [List.getElem?_eq_getElem inside, Option.map_some] at found
  exact isSome_outcome?_run found (Batch.work_endsWithin config b.source _) a alone
    (enough place inside)

theorem answer_cancelled (a : Ambient) (w : World) (r : Request) :
    (w.answer a r).2.cancelled = w.cancelled := by
  cases r with
  | publish e =>
      simp only [World.answer, World.publish]
      split <;> rfl
  | _ => rfl

/-- Without a turn that cancels everything, nothing is cancelled. -/
theorem cancelled_run (a : Ambient) (t : Turns α) {schedule : List Turn}
    (calm : .cancel ∉ schedule) :
    (t.run a alone schedule).world.cancelled = t.world.cancelled := by
  induction schedule generalizing t with
  | nil => rfl
  | cons turn schedule ih =>
      refine (ih _ fun mem => calm (List.mem_cons_of_mem _ mem)).trans ?_
      cases turn with
      | go place =>
          simp only [step]
          rcases go_alone_cases a t place with same | ⟨r, next, asked, gone⟩
          · rw [same]
          · rw [gone]
            exact answer_cancelled a t.world r
      | pass s => rfl
      | cancel => exact absurd List.mem_cons_self calm

/-! Workers that run to their ends one after the other -/

end Turns

/-- A program that has ended so. -/
def Outcome.toProgram {α : Type} : Outcome α → Program α
  | .done x => .done x
  | .aborted text => .abort text

namespace Turns

variable {α : Type}

theorem exists_outcome_of_isSome {t : Turns α} {place : Nat}
    (ended : (t.outcome? place).isSome = true) :
    ∃ o : Outcome α, t.programs[place]? = some o.toProgram := by
  unfold outcome? at ended
  split at ended
  · exact ⟨.done _, by assumption⟩
  · exact ⟨.aborted _, by assumption⟩
  · cases ended

/-- A program has all its turns at once, and comes to what it comes to when it runs. -/
theorem run_solo (a : Ambient) {t : Turns α} {place : Nat} {p : Program α}
    (found : t.programs[place]? = some p) :
    ∃ schedule : List Turn, (∀ turn ∈ schedule, turn = .go place) ∧
      (t.run a alone schedule).world = (p.run a t.world).2 ∧
      (t.run a alone schedule).programs =
        t.programs.set place (p.run a t.world).1.toProgram := by
  obtain ⟨inside, here⟩ := List.getElem?_eq_some_iff.mp found
  induction p generalizing t with
  | done x =>
      refine ⟨[], fun _ mem => absurd mem List.not_mem_nil, rfl, ?_⟩
      exact ((congrArg _ here.symm).trans (List.set_getElem_self inside)).symm
  | abort text =>
      refine ⟨[], fun _ mem => absurd mem List.not_mem_nil, rfl, ?_⟩
      exact ((congrArg _ here.symm).trans (List.set_getElem_self inside)).symm
  | ask r next ih =>
      have gone : t.go a alone place =
          { world := (t.world.answer a r).2
            programs := t.programs.set place (next (t.world.answer a r).1)
            exchanges := t.exchanges ++ [(place, ⟨r, (t.world.answer a r).1⟩)] } := by
        simp [go, found]
      have inside' : place < (t.go a alone place).programs.length := by
        rwa [gone, List.length_set]
      have found' : (t.go a alone place).programs[place]? =
          some (next (t.world.answer a r).1) := by
        rw [gone, List.getElem?_set_self inside]
      obtain ⟨schedule, own, world, programs⟩ :=
        ih _ found' inside' (List.getElem?_eq_some_iff.mp found').2
      refine ⟨.go place :: schedule, ?_, ?_, ?_⟩
      · intro turn mem
        rcases List.mem_cons.mp mem with rfl | later
        · rfl
        · exact own turn later
      · refine world.trans ?_
        rw [gone]
        rfl
      · refine programs.trans ?_
        rw [gone, List.set_set]
        rfl

end Turns

theorem Batch.run_work_done (a : Ambient) (s : Service) (source : String) (job : Message × Nat)
    (w : World) : ∃ answer w', (work s source job).run a w = (.done answer, w') := by
  simp only [work]
  rw [Program.run_bind, Program.run_attempt]
  obtain ⟨lines, noted⟩ := WorkerEnd.run_note a
    (.ofOutcome (job.2 + 1) job.1.id ((s.handOut source job.1).run a w).1)
    ((s.handOut source job.1).run a w).2
  exact ⟨_, _, noted⟩

namespace Turns

variable {a : Ambient} {s : Service} {source : String}

/-- Workers run to their ends one after the other. -/
theorem run_queue {jobs : List (Message × Nat)} (distinct : (jobs.map (·.2)).Nodup)
    {t : Turns (Option Message)}
    (standing : ∀ job ∈ jobs, t.programs[job.2]? = some (Batch.work s source job)) :
    ∃ schedule answers, .cancel ∉ schedule ∧
      (jobs.mapM (Batch.work s source)).run a t.world =
        (.done answers, (t.run a alone schedule).world) ∧
      List.Forall₂ (fun (job : Message × Nat) answer =>
        (t.run a alone schedule).programs[job.2]? = some (.done answer)) jobs answers ∧
      ∀ place, place ∉ jobs.map (·.2) →
        (t.run a alone schedule).programs[place]? = t.programs[place]? := by
  induction jobs generalizing t with
  | nil => exact ⟨[], [], List.not_mem_nil, rfl, .nil, fun _ _ => rfl⟩
  | cons job jobs ih =>
      obtain ⟨new, rest⟩ := List.nodup_cons.mp distinct
      have found := standing job List.mem_cons_self
      obtain ⟨inside, _⟩ := List.getElem?_eq_some_iff.mp found
      obtain ⟨first, own, world, programs⟩ := run_solo a found
      obtain ⟨answer, w', worked⟩ := Batch.run_work_done a s source job t.world
      rw [worked] at world programs
      simp only at world programs
      have others : ∀ place, place ≠ job.2 →
          (t.run a alone first).programs[place]? = t.programs[place]? := by
        intro place other
        rw [programs, List.getElem?_set_ne (Ne.symm other)]
      have later : ∀ other ∈ jobs, other.2 ≠ job.2 := by
        intro other mem same
        exact new (List.mem_map.mpr ⟨other, mem, same⟩)
      obtain ⟨second, answers, calm, ran, ended, untouched⟩ := ih rest
        (t := t.run a alone first) fun other mem => by
          rw [others _ (later other mem)]
          exact standing other (List.mem_cons_of_mem _ mem)
      refine ⟨first ++ second, answer :: answers, ?_, ?_, ?_, ?_⟩
      · intro mem
        rcases List.mem_append.mp mem with early | late
        · cases own _ early
        · exact calm late
      · rw [run_append, List.mapM_cons, Program.run_bind, worked]
        simp only
        rw [Program.run_bind, ← world, ran]
        rfl
      · rw [run_append]
        refine .cons ?_ ended
        rw [untouched _ new, programs, List.getElem?_set_self inside]
        rfl
      · intro place absent
        obtain ⟨other, absent⟩ := List.ne_and_not_mem_of_not_mem_cons absent
        rw [run_append, untouched place absent, others place other]

end Turns

/-- The message that a worker has answered with. -/
def Program.message? : Program (Option Message) → Option Message
  | done answer => answer
  | abort _ | ask _ _ => none

/-- The messages that the workers have answered with so far, in the order of the batch. -/
def Turns.answers (t : Turns (Option Message)) : List Message :=
  t.programs.filterMap Program.message?

theorem Batch.answers_of_queue {programs : List (Program (Option Message))}
    {ms : List Message} {jobs : List (Message × Nat)} {answers : List (Option Message)}
    (all : jobs.Perm ms.zipIdx) (length : programs.length = ms.length)
    (ended : List.Forall₂ (fun (job : Message × Nat) answer =>
      programs[job.2]? = some (.done answer)) jobs answers) :
    (answers.filterMap id).Perm (programs.filterMap Program.message?) := by
  let said (job : Message × Nat) : Option Message := (programs[job.2]?).bind Program.message?
  have first : answers = jobs.map said := by
    clear all
    induction ended with
    | nil => rfl
    | cons found _ ih =>
        rw [List.map_cons, ← ih]
        simp only [said, found, Option.bind_some, Program.message?]
  have second : programs.map Program.message? = ms.zipIdx.map said := by
    refine List.ext_getElem? fun place => ?_
    rw [List.getElem?_map, List.getElem?_map, List.getElem?_zipIdx, Nat.zero_add]
    cases here : programs[place]? with
    | none =>
        have outside : ms[place]? = none := by
          rw [List.getElem?_eq_none_iff] at here ⊢
          omega
        rw [outside]
        rfl
    | some p =>
        have inside : place < ms.length := by
          have less := (List.getElem?_eq_some_iff.mp here).1
          omega
        rw [List.getElem?_eq_getElem inside]
        simp only [Option.map_some, said, here, Option.bind_some]
  have sorted := ((all.map said).filterMap id)
  rw [← first, ← second, List.filterMap_map] at sorted
  exact sorted

/-- A batch that is handed out one message after the other is one whose workers have taken turns. -/
theorem Batch.exists_schedule_process (a : Ambient) (s : Service) {b : Batch}
    (narrow : b.width ≤ maxWidth) (picks : List Nat) (w : World) :
    ∃ schedule ms, .cancel ∉ schedule ∧
      let t := (Turns.ofBatch s b w).run a Turns.alone schedule
      (b.process s picks).run a w = (.done ms, t.world) ∧ t.Over ∧ ms.Perm t.answers := by
  have perm := completions_perm b.width picks b.messages.zipIdx
  have distinct : ((completions b.width picks b.messages.zipIdx).map (·.2)).Nodup := by
    refine (perm.map _).nodup_iff.mpr ?_
    rw [List.zipIdx_map_snd]
    exact List.nodup_range'
  have standing : ∀ job ∈ completions b.width picks b.messages.zipIdx,
      (Turns.ofBatch s b w).programs[job.2]? = some (work s b.source job) := by
    intro job mem
    have listed := List.mem_zipIdx_iff_getElem?.mp (perm.mem_iff.mp mem)
    rw [Turns.ofBatch_programs, listed, Option.map_some]
  obtain ⟨schedule, answers, calm, ran, ended, _⟩ := Turns.run_queue (a := a) distinct standing
  have length : ((Turns.ofBatch s b w).run a Turns.alone schedule).programs.length =
      b.messages.length := by
    rw [Turns.length_run_alone, Turns.ofBatch, List.length_map, List.length_zipIdx]
  refine ⟨schedule, answers.filterMap id, calm, ?_, ?_, answers_of_queue perm length ended⟩
  · simp only [process, begin, if_pos narrow, pure_bind]
    rw [Program.run_bind]
    rw [Turns.ofBatch] at ran
    rw [ran]
    rfl
  · intro place inside
    rw [length] at inside
    have listed : (b.messages[place], place) ∈ b.messages.zipIdx :=
      List.mem_zipIdx_iff_getElem?.mpr (List.getElem?_eq_getElem inside)
    obtain ⟨i, here, same⟩ := List.getElem_of_mem (perm.mem_iff.mpr listed)
    have found := ended.get here (ended.length_eq ▸ here)
    rw [List.get_eq_getElem, same] at found
    simp only [Turns.outcome?, found, Option.isSome_some]

end SmsTracking
